import Mathlib.Data.List.Induction
import Mathlib.Logic.Function.Basic

set_option autoImplicit false
set_option linter.unusedSectionVars false

namespace Hal9000.Lib

inductive HeapEvent (O : Type) where
  | allocate (object : O)
  | access (object : O)
  | release (object : O)
  deriving DecidableEq

variable {O F : Type}

def HeapEvent.object : HeapEvent O -> O
  | .allocate object | .access object | .release object => object

def FreedOnce (log : List (HeapEvent O)) (object : O) : Prop :=
  ∃ before after, log = before ++ .release object :: after ∧ .release object ∉ before ∧
    forall event, event ∈ after -> event.object ≠ object

-- Where an object stands: not allocated, allocated, freed after that, or used against the rules.
inductive Standing where
  | absent
  | live
  | gone
  | broken
  deriving DecidableEq

def Standing.next : Standing -> HeapEvent O -> Standing
  | .absent, .allocate _ => .live
  | .absent, .access _ => .absent
  | .live, .access _ => .live
  | .live, .release _ => .gone
  | _, _ => .broken

variable [DecidableEq O] {log : List (HeapEvent O)} {event : HeapEvent O} {object other : O}

def standing (log : List (HeapEvent O)) (object : O) : Standing :=
  log.foldl (fun standing event => if event.object = object then standing.next event else standing) .absent

theorem standing_concat : standing (log ++ [event]) object =
    if event.object = object then (standing log object).next event else standing log object := by
  simp [standing]

theorem standing_spec (log : List (HeapEvent O)) (object : O) :
    (standing log object = .absent -> .allocate object ∉ log ∧ .release object ∉ log) ∧
      (standing log object = .live -> .allocate object ∈ log ∧ .release object ∉ log) ∧
      (standing log object = .gone -> FreedOnce log object) := by
  induction log using List.reverseRecOn with
  | nil => simp [standing]
  | append_singleton log event ih =>
    obtain ⟨absent, live, gone⟩ := ih
    rw [standing_concat]
    by_cases same : event.object = object
    · rw [if_pos same]
      cases event with
      | allocate other =>
        obtain rfl : other = object := same
        cases now : standing log other <;> simp [Standing.next, absent, now]
      | access other =>
        obtain rfl : other = object := same
        cases now : standing log other <;> simp [Standing.next, absent, live, now]
      | release other =>
        obtain rfl : other = object := same
        cases now : standing log other <;> simp only [Standing.next, reduceCtorEq, false_implies, true_and]
        next => exact fun _ => ⟨log, [], rfl, (live now).2, by simp⟩
    · rw [if_neg same]
      have other (kept : HeapEvent O) (own : kept.object = object) : kept ≠ event := by
        rintro rfl
        exact same own
      refine ⟨?_, ?_, ?_⟩
      · intro now
        simp [(absent now), other (.allocate object) rfl, other (.release object) rfl]
      · intro now
        simp [(live now), other (.release object) rfl]
      · intro now
        obtain ⟨before, after, rfl, early, later⟩ := gone now
        refine ⟨before, after ++ [event], by simp, early, ?_⟩
        intro last member
        rcases List.mem_append.mp member with old | new
        · exact later last old
        · rw [List.mem_singleton.mp new]
          exact same

theorem not_freed (lives : standing log object = .live) : ¬FreedOnce log object := by
  rintro ⟨before, after, rfl, _⟩
  exact ((standing_spec _ object).2.1 lives).2 (by simp)

def Settled (log : List (HeapEvent O)) (object : O) : Prop :=
  standing log object = .absent ∨ standing log object = .gone

theorem Settled.freed (settled : Settled log object) (allocated : .allocate object ∈ log) : FreedOnce log object := by
  rcases settled with absent | gone
  · exact absurd allocated ((standing_spec log object).1 absent).1
  · exact (standing_spec log object).2.2 gone

-- Objects with the pointers that they hold. Freed memory keeps what it held.
structure PointerHeap (O F : Type) where
  log : List (HeapEvent O)
  pointer : O -> F -> Option O

namespace PointerHeap

variable {h : PointerHeap O F} {field : F} {value : Option O}

def allocate (h : PointerHeap O F) (object : O) : PointerHeap O F where
  log := h.log ++ [.allocate object]
  pointer := Function.update h.pointer object fun _ => none

def access (h : PointerHeap O F) (object : O) : PointerHeap O F := { h with log := h.log ++ [.access object] }

def release (h : PointerHeap O F) (object : O) : PointerHeap O F := { h with log := h.log ++ [.release object] }

def write [DecidableEq F] (h : PointerHeap O F) (object : O) (field : F) (value : Option O) : PointerHeap O F where
  log := h.log ++ [.access object]
  pointer := Function.update h.pointer object (Function.update (h.pointer object) field value)

def zero (h : PointerHeap O F) (object : O) : PointerHeap O F where
  log := h.log ++ [.access object]
  pointer := Function.update h.pointer object fun _ => none

def standing (h : PointerHeap O F) (object : O) : Standing := Lib.standing h.log object

@[simp] theorem standing_allocate : (h.allocate object).standing other =
    if object = other then (h.standing other).next (.allocate object) else h.standing other := standing_concat

@[simp] theorem standing_access : (h.access object).standing other =
    if object = other then (h.standing other).next (.access object) else h.standing other := standing_concat

@[simp] theorem standing_release : (h.release object).standing other =
    if object = other then (h.standing other).next (.release object) else h.standing other := standing_concat

@[simp] theorem standing_zero : (h.zero object).standing other =
    if object = other then (h.standing other).next (.access object) else h.standing other := standing_concat

@[simp] theorem standing_write [DecidableEq F] : (h.write object field value).standing other =
    if object = other then (h.standing other).next (.access object) else h.standing other := standing_concat

@[simp] theorem pointer_allocate : (h.allocate object).pointer =
    Function.update h.pointer object fun _ => none := rfl

@[simp] theorem pointer_access : (h.access object).pointer = h.pointer := rfl

@[simp] theorem pointer_release : (h.release object).pointer = h.pointer := rfl

@[simp] theorem pointer_zero : (h.zero object).pointer = Function.update h.pointer object fun _ => none := rfl

@[simp] theorem pointer_write [DecidableEq F] : (h.write object field value).pointer =
    Function.update h.pointer object (Function.update (h.pointer object) field value) := rfl

end PointerHeap

end Hal9000.Lib
