import Hal9000.Lib.Memory

set_option autoImplicit false

namespace Hal9000.Lib

structure Region where
  base : Nat
  size : Nat
  deriving DecidableEq, Repr

def Region.Contains (region : Region) (start count : Nat) : Prop :=
  forall place, start ≤ place -> place < start + count ->
    region.base ≤ place ∧ place < region.base + region.size

theorem Region.contains_iff {region : Region} {start count : Nat} :
    region.Contains start count ↔
      count = 0 ∨ (region.base ≤ start ∧ start + count ≤ region.base + region.size) := by
  constructor
  · intro contained
    rcases Nat.eq_zero_or_pos count with empty | positive
    · exact .inl empty
    · have first := contained start (by omega) (by omega)
      have last := contained (start + count - 1) (by omega) (by omega)
      exact .inr ⟨first.1, by omega⟩
  · rintro (rfl | ⟨lower, upper⟩) place after before
    · omega
    · exact ⟨by omega, by omega⟩

-- A program that only reads memory: what it computes, and the ranges it read on the way.
structure Reading (α : Type) where
  value : α
  reads : List (Nat × Nat)

namespace Reading

instance : Monad Reading where
  pure value := ⟨value, []⟩
  bind program rest := ⟨(rest program.value).value, program.reads ++ (rest program.value).reads⟩

def load (mem : Memory) (width address : Nat) : Reading Nat :=
  ⟨mem.load width address, [(address, width)]⟩

def Confined {α : Type} (region : Region) (program : Reading α) (post : α -> Prop) : Prop :=
  (forall range, range ∈ program.reads -> region.Contains range.1 range.2) ∧ post program.value

variable {α β : Type} {region : Region} {post : α -> Prop}

theorem confined_pure {value : α} : (pure value : Reading α).Confined region post ↔ post value := by
  constructor
  · exact And.right
  · intro holds
    exact ⟨fun range member => absurd member List.not_mem_nil, holds⟩

theorem confined_bind {program : Reading β} {rest : β -> Reading α} :
    (program >>= rest).Confined region post ↔
      program.Confined region fun value => (rest value).Confined region post := by
  constructor
  · intro ⟨inside, holds⟩
    exact ⟨fun range member => inside range (List.mem_append_left _ member),
      fun range member => inside range (List.mem_append_right _ member), holds⟩
  · intro ⟨first, second, holds⟩
    refine ⟨fun range member => ?_, holds⟩
    rcases List.mem_append.mp member with early | late
    · exact first range early
    · exact second range late

theorem confined_load {mem : Memory} {width address : Nat} {post : Nat -> Prop} :
    (load mem width address).Confined region post ↔
      region.Contains address width ∧ post (mem.load width address) := by
  constructor
  · intro ⟨inside, holds⟩
    exact ⟨inside (address, width) (List.mem_singleton_self _), holds⟩
  · intro ⟨inside, holds⟩
    refine ⟨fun range member => ?_, holds⟩
    rw [List.mem_singleton.mp member]
    exact inside

theorem confined_ite {condition : Prop} [Decidable condition] {yes no : Reading α} :
    (if condition then yes else no).Confined region post ↔
      (condition -> yes.Confined region post) ∧ (¬ condition -> no.Confined region post) := by
  split <;> simp_all

end Reading

end Hal9000.Lib
