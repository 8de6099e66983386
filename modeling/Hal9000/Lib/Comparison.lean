import Mathlib.Data.List.Find
import Mathlib.Data.List.Sort
import Mathlib.Data.List.TakeWhile

set_option autoImplicit false

namespace Hal9000.Lib

variable {A : Type} {compare : A -> A -> Int} {value element : A} {values : List A}

structure TotalPreorder (compare : A -> A -> Int) : Prop where
  swap : forall a b, compare a b < 0 ↔ 0 < compare b a
  trans : forall a b c, compare a b ≤ 0 -> compare b c ≤ 0 -> compare a c ≤ 0

theorem TotalPreorder.of_key (key : A -> Int) : TotalPreorder fun a b => key a - key b := by
  constructor
  · intro a b
    omega
  · intro a b c
    omega

def Sorted (compare : A -> A -> Int) (values : List A) : Prop := values.Pairwise fun a b => compare a b ≤ 0

def insertOrdered (compare : A -> A -> Int) (value : A) (values : List A) : List A :=
  values.orderedInsert (fun a b => compare a b < 0) value

theorem insertOrdered_eq : insertOrdered compare value values =
    (values.takeWhile fun b => ¬compare value b < 0) ++ value :: values.dropWhile fun b => ¬compare value b < 0 :=
  List.orderedInsert_eq_take_drop ..

namespace TotalPreorder

variable (total : TotalPreorder compare)
include total

theorem lt_of_lt_of_le {a b c : A} (less : compare a b < 0) (least : compare b c ≤ 0) : compare a c < 0 := by
  by_contra not_less
  have back : compare c a ≤ 0 := by
    have := total.swap a c
    omega
  have around := total.trans b c a least back
  have := (total.swap a b).mp less
  omega

theorem insertOrdered_split (value : A) (sorted : Sorted compare values) : ∃ front rear, values = front ++ rear ∧
    insertOrdered compare value values = front ++ value :: rear ∧
    (forall a, a ∈ front -> compare a value ≤ 0) ∧ (forall b, b ∈ rear -> compare value b < 0) := by
  refine ⟨_, _, List.takeWhile_append_dropWhile.symm, insertOrdered_eq, ?_, ?_⟩
  · intro a member
    have reached := List.mem_takeWhile_imp member
    have := total.swap value a
    simp only [decide_eq_true_eq] at reached
    omega
  · have ordered : Sorted compare (values.dropWhile fun b => ¬compare value b < 0) :=
      sorted.sublist (List.dropWhile_sublist _)
    have stopped := List.head?_dropWhile_not (fun b => decide ¬compare value b < 0) values
    intro b member
    cases rest : values.dropWhile fun b => ¬compare value b < 0 with
    | nil =>
      rw [rest] at member
      simp at member
    | cons first rear =>
      rw [rest] at member ordered stopped
      have greater : compare value first < 0 := by simpa using stopped
      rcases List.mem_cons.mp member with rfl | later
      · exact greater
      · exact total.lt_of_lt_of_le greater ((List.pairwise_cons.mp ordered).1 b later)

theorem sorted_insertOrdered (value : A) (sorted : Sorted compare values) : Sorted compare (insertOrdered compare value values) := by
  obtain ⟨front, rear, rfl, inserted, behind, before⟩ := total.insertOrdered_split value sorted
  rw [inserted]
  obtain ⟨first, second, across⟩ := List.pairwise_append.mp sorted
  refine List.pairwise_append.mpr ⟨first, List.pairwise_cons.mpr ⟨?_, second⟩, ?_⟩
  · intro b member
    exact (before b member).le
  · intro a early b late
    rcases List.mem_cons.mp late with rfl | later
    · exact behind a early
    · exact across a early b later

end TotalPreorder

def search (compare : A -> A -> Int) (element : A) (ordered : Bool) : List A -> Option A
  | [] => none
  | value :: values =>
    if compare value element = 0 then some value
    else if ordered = true ∧ compare value element > 0 then none
    else search compare element ordered values

theorem search_linear : search compare element false values = values.find? fun value => compare value element = 0 := by
  induction values with
  | nil => rfl
  | cons value values ih =>
    by_cases equal : compare value element = 0
    · simp [search, equal]
    · simp [search, equal, ih]

theorem search_sorted (total : TotalPreorder compare) (sorted : Sorted compare values) :
    search compare element true values = values.find? fun value => compare value element = 0 := by
  induction values with
  | nil => rfl
  | cons value values ih =>
    obtain ⟨least, sorted⟩ := List.pairwise_cons.mp sorted
    by_cases equal : compare value element = 0
    · simp [search, equal]
    by_cases greater : compare value element > 0
    · have missing : (values.find? fun value => compare value element = 0) = none := by
        rw [List.find?_eq_none]
        intro other member
        have := total.trans value other element (least other member)
        simp only [decide_eq_true_eq]
        omega
      simp [search, equal, greater, missing]
    · simp [search, equal, greater, ih sorted]

end Hal9000.Lib
