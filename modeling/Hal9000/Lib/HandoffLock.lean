import Mathlib.Data.List.Nodup
import Mathlib.Logic.Function.Basic
import Mathlib.Tactic.Common

set_option autoImplicit false

namespace Hal9000.Lib

open Function (update)

namespace HandoffLock

inductive Phase where
  | outside
  | waiting
  | inside
  deriving DecidableEq, Repr

structure Consistent {Party : Type} (holder : Option Party) (queue : List Party) (phase : Party -> Phase) : Prop where
  inside : forall party, phase party = .inside -> holder = some party
  queued : forall party, party ∈ queue -> phase party = .waiting
  waiting : forall party, phase party = .waiting -> party ∈ queue ∨ holder = some party
  held : queue ≠ [] -> holder ≠ none
  unqueued : forall party, holder = some party -> party ∉ queue
  owner : forall party, holder = some party -> phase party ≠ .outside
  nodup : queue.Nodup

variable {Party : Type} [DecidableEq Party] {holder : Option Party} {queue : List Party} {phase : Party -> Phase}
  {party : Party}

omit [DecidableEq Party] in
theorem Consistent.initially : Consistent none [] (fun _ : Party => .outside) :=
  ⟨nofun, nofun, nofun, fun nonempty => absurd rfl nonempty, nofun, nofun, List.nodup_nil⟩

omit [DecidableEq Party] in
theorem Consistent.exclusive (consistent : Consistent holder queue phase) {other : Party} (inside : phase party = .inside)
    (inside' : phase other = .inside) : party = other :=
  Option.some.inj ((consistent.inside party inside).symm.trans (consistent.inside other inside'))

attribute [local grind =] Function.update_apply

theorem Consistent.take (consistent : Consistent holder queue phase) (outside : phase party = .outside) (free : holder = none) :
    Consistent (some party) queue (update phase party .inside) := by
  obtain ⟨_, _, _, _, _, _, _⟩ := consistent
  constructor <;> grind

theorem Consistent.enqueue (consistent : Consistent holder queue phase) (outside : phase party = .outside)
    (taken : holder ≠ none) :
    Consistent holder (queue ++ [party]) (update phase party .waiting) := by
  obtain ⟨_, _, _, _, _, _, _⟩ := consistent
  constructor <;> grind [List.nodup_append]

theorem Consistent.resume (consistent : Consistent holder queue phase) (given : holder = some party) : Consistent holder queue (update phase party .inside) := by
  obtain ⟨_, _, _, _, _, _, _⟩ := consistent
  constructor <;> grind

theorem Consistent.release (consistent : Consistent holder queue phase) (inside : phase party = .inside) :
    Consistent queue.head? queue.tail (update phase party .outside) := by
  obtain ⟨_, _, _, _, _, _, _⟩ := consistent
  cases queue with
  | nil => constructor <;> grind
  | cons first rest => constructor <;> grind

end HandoffLock

end Hal9000.Lib
