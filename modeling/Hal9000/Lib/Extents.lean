import Mathlib.Data.List.Chain
import Mathlib.Tactic.Common

set_option autoImplicit false

namespace Hal9000.Lib

structure Extent where
  start : Nat
  length : Nat
  deriving DecidableEq, Repr

namespace Extent

def units (extent : Extent) : List Nat := List.range' extent.start extent.length

def Joins (first second : Extent) : Prop := first.start + first.length = second.start

instance (first second : Extent) : Decidable (first.Joins second) :=
  inferInstanceAs (Decidable (_ = _))

def join (first second : Extent) : Extent :=
  { start := first.start, length := first.length + second.length }

theorem units_join {first second : Extent} (joins : first.Joins second) :
    (first.join second).units = first.units ++ second.units := by
  rw [units, units, units, ← joins]
  exact List.range'_append_1.symm

def coalesce (current : Extent) : List Extent -> List Extent
  | [] => [current]
  | next :: rest =>
    if current.Joins next then coalesce (current.join next) rest else current :: coalesce next rest

theorem coalesce_flatMap {A : Type} {parts : Extent -> List A} {Whole : Extent -> Prop}
    (whole : forall first second, Whole first -> Whole second -> first.Joins second -> Whole (first.join second))
    (additive : forall first second, Whole first -> Whole second -> first.Joins second ->
      parts (first.join second) = parts first ++ parts second)
    (current : Extent) (extents : List Extent) (wholes : forall extent, extent ∈ current :: extents -> Whole extent) :
    (coalesce current extents).flatMap parts = (current :: extents).flatMap parts := by
  induction extents generalizing current with
  | nil => rfl
  | cons next rest ih =>
    have here := wholes current List.mem_cons_self
    have there := wholes next (List.mem_cons_of_mem _ List.mem_cons_self)
    rw [coalesce]
    split
    next joins =>
      rw [ih (current.join next), List.flatMap_cons, additive current next here there joins, List.append_assoc,
        List.flatMap_cons, List.flatMap_cons]
      intro extent member
      rcases List.mem_cons.mp member with rfl | later
      · exact whole current next here there joins
      · exact wholes extent (List.mem_cons_of_mem _ (List.mem_cons_of_mem _ later))
    next =>
      rw [List.flatMap_cons, ih next (fun extent member => wholes extent (List.mem_cons_of_mem _ member))]
      rfl

theorem coalesce_units (current : Extent) (extents : List Extent) :
    (coalesce current extents).flatMap units = (current :: extents).flatMap units :=
  coalesce_flatMap (fun _ _ _ _ _ => trivial) (fun _ _ _ _ joins => units_join joins) current extents
    (fun _ _ => trivial)

theorem coalesce_start (current : Extent) (extents : List Extent) :
    ∃ first rest, coalesce current extents = first :: rest ∧ first.start = current.start := by
  induction extents generalizing current with
  | nil => exact ⟨current, [], rfl, rfl⟩
  | cons next rest ih =>
    rw [coalesce]
    split
    next => exact ih (current.join next)
    next => exact ⟨current, _, rfl, rfl⟩

theorem coalesce_apart (current : Extent) (extents : List Extent) :
    (coalesce current extents).IsChain (fun first second => ¬ first.Joins second) := by
  induction extents generalizing current with
  | nil => exact List.isChain_singleton current
  | cons next rest ih =>
    rw [coalesce]
    split
    next => exact ih (current.join next)
    next apart =>
      obtain ⟨first, others, equal, start⟩ := coalesce_start next rest
      have chain := ih next
      rw [equal] at chain ⊢
      refine List.isChain_cons_cons.mpr ⟨?_, chain⟩
      rw [Joins, start]
      exact apart

theorem coalesce_forall {Whole : Extent -> Prop}
    (whole : forall first second, Whole first -> Whole second -> first.Joins second -> Whole (first.join second))
    (current : Extent) (extents : List Extent) (wholes : forall extent, extent ∈ current :: extents -> Whole extent) :
    forall extent, extent ∈ coalesce current extents -> Whole extent := by
  induction extents generalizing current with
  | nil => exact wholes
  | cons next rest ih =>
    have here := wholes current List.mem_cons_self
    rw [coalesce]
    split
    next joins =>
      refine ih (current.join next) (fun extent member => ?_)
      rcases List.mem_cons.mp member with rfl | later
      · exact whole current next here (wholes next (List.mem_cons_of_mem _ List.mem_cons_self)) joins
      · exact wholes extent (List.mem_cons_of_mem _ (List.mem_cons_of_mem _ later))
    next =>
      intro extent member
      rcases List.mem_cons.mp member with rfl | later
      · exact here
      · exact ih next (fun extent member => wholes extent (List.mem_cons_of_mem _ member)) extent later

theorem length_le_units {extent : Extent} {extents : List Extent} (member : extent ∈ extents) :
    extent.length ≤ (extents.flatMap units).length := by
  induction extents with
  | nil => exact absurd member List.not_mem_nil
  | cons first rest ih =>
    rw [List.flatMap_cons, List.length_append]
    rcases List.mem_cons.mp member with rfl | later
    · rw [units, List.length_range']
      exact Nat.le_add_right _ _
    · exact (ih later).trans (Nat.le_add_left _ _)

theorem units_length_le {bound : Nat} {extents : List Extent}
    (short : forall extent, extent ∈ extents -> extent.length ≤ bound) :
    (extents.flatMap units).length ≤ bound * extents.length := by
  induction extents with
  | nil => exact Nat.zero_le _
  | cons first rest ih =>
    have here := short first List.mem_cons_self
    have later := ih (fun extent member => short extent (List.mem_cons_of_mem _ member))
    rw [List.flatMap_cons, List.length_append, List.length_cons, Nat.mul_succ, units, List.length_range']
    omega

theorem coalesce_length_le (current : Extent) (extents : List Extent) :
    (coalesce current extents).length ≤ extents.length + 1 := by
  induction extents generalizing current with
  | nil => exact le_rfl
  | cons next rest ih =>
    rw [coalesce, List.length_cons]
    split
    next => exact (ih (current.join next)).trans (Nat.le_succ _)
    next => exact Nat.succ_le_succ (ih next)

end Extent

end Hal9000.Lib
