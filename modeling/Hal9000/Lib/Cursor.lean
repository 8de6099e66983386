import Mathlib.Tactic.Common

set_option autoImplicit false

namespace Hal9000.Lib

variable {C F S R V : Type}

structure Cursor (allowed : C -> Prop) (next : C -> S -> Except F (S × R)) (answer : Option V -> R)
    (Left : S -> List V -> Prop) (Ended : S -> Prop) : Prop where
  more : forall c s value rest, allowed c -> Left s (value :: rest) ->
    ∃ s', next c s = .ok (s', answer (some value)) ∧ Left s' rest
  last : forall c s, allowed c -> Left s [] -> ∃ s', next c s = .ok (s', answer none) ∧ Ended s'
  done : forall c s, allowed c -> Ended s -> ∃ s', next c s = .ok (s', answer none) ∧ Ended s'

def calls (next : C -> S -> Except F (S × R)) : List C -> S -> Except F (S × List R)
  | [], s => pure (s, [])
  | c :: rest, s => do
    let (s, result) <- next c s
    let (s, results) <- calls next rest s
    pure (s, result :: results)

def answers (answer : Option V -> R) (values : List V) (count : Nat) : List R :=
  (List.range count).map (fun k => answer values[k]?)

variable {allowed : C -> Prop} {next : C -> S -> Except F (S × R)} {answer : Option V -> R} {Left : S -> List V -> Prop}
  {Ended : S -> Prop}

theorem calls_cons {c : C} {rest : List C} {s s' s'' : S} {result : R} {results : List R}
    (first : next c s = .ok (s', result)) (others : calls next rest s' = .ok (s'', results)) :
    calls next (c :: rest) s = .ok (s'', result :: results) := by
  simp only [calls, first, bind, Except.bind, others]
  rfl

theorem answers_cons (value : V) (values : List V) (count : Nat) :
    answers answer (value :: values) (count + 1) = answer (some value) :: answers answer values count := by
  simp only [answers, List.range_succ_eq_map, List.map_cons, List.getElem?_cons_zero, List.map_map, Function.comp_def,
    List.getElem?_cons_succ, Nat.succ_eq_add_one]

theorem answers_nil (count : Nat) :
    answers answer ([] : List V) (count + 1) = answer none :: answers answer [] count := by
  simp only [answers, List.range_succ_eq_map, List.map_cons, List.getElem?_nil, List.map_map, Function.comp_def]

namespace Cursor

variable (cursor : Cursor allowed next answer Left Ended)
include cursor

theorem run_ended (choices : List C) (allow : forall c, c ∈ choices -> allowed c) {s : S} (ended : Ended s) :
    ∃ s', calls next choices s = .ok (s', answers answer [] choices.length) ∧ Ended s' := by
  induction choices generalizing s with
  | nil => exact ⟨s, rfl, ended⟩
  | cons c rest ih =>
    obtain ⟨s', first, ended⟩ := cursor.done c s (allow c List.mem_cons_self) ended
    obtain ⟨s'', others, ended⟩ := ih (fun c inside => allow c (List.mem_cons_of_mem _ inside)) ended
    exact ⟨s'', (calls_cons first others).trans (by rw [List.length_cons, answers_nil]), ended⟩

theorem run (choices : List C) (allow : forall c, c ∈ choices -> allowed c) {s : S} {values : List V} (left : Left s values) :
    ∃ s', calls next choices s = .ok (s', answers answer values choices.length) ∧
      (choices.length ≤ values.length -> Left s' (values.drop choices.length)) ∧
      (values.length < choices.length -> Ended s') := by
  induction choices generalizing s values with
  | nil => exact ⟨s, rfl, fun _ => left, fun more => absurd more (Nat.not_lt_zero _)⟩
  | cons c rest ih =>
    have here := allow c List.mem_cons_self
    have later := fun c inside => allow c (List.mem_cons_of_mem _ inside)
    cases values with
    | nil =>
      obtain ⟨s', first, ended⟩ := cursor.last c s here left
      obtain ⟨s'', others, ended⟩ := cursor.run_ended rest later ended
      exact ⟨s'', (calls_cons first others).trans (by rw [List.length_cons, answers_nil]),
        fun more => absurd more (Nat.not_succ_le_zero _), fun _ => ended⟩
    | cons value values =>
      obtain ⟨s', first, left⟩ := cursor.more c s value values here left
      obtain ⟨s'', others, inside, ended⟩ := ih later left
      exact ⟨s'', (calls_cons first others).trans (by rw [List.length_cons, answers_cons]),
        fun more => inside (Nat.le_of_succ_le_succ more), fun more => ended (Nat.lt_of_succ_lt_succ more)⟩

end Cursor

end Hal9000.Lib
