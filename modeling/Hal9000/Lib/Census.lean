import Mathlib.Data.Fintype.Card
import Mathlib.Logic.Function.Basic

set_option autoImplicit false

namespace Hal9000.Lib

open Function (update)

variable {A P : Type} [Fintype A]

def census (counted : P -> Bool) (point : A -> P) : Nat :=
  (Finset.univ.filter fun a => counted (point a) = true).card

variable {counted other : P -> Bool} {point : A -> P} {a b : A}

theorem census_update [DecidableEq A] (counted : P -> Bool) (point : A -> P) (a : A) (p : P) :
    census counted (update point a p) + (counted (point a)).toNat = census counted point + (counted p).toNat := by
  have split (place : A -> P) : census counted place =
      ((Finset.univ.erase a).filter fun b => counted (place b) = true).card + (counted (place a)).toNat := by
    rw [census, ← Finset.insert_erase (Finset.mem_univ a), Finset.filter_insert, Finset.erase_insert_eq_erase]
    have outside : a ∉ (Finset.univ.erase a).filter fun b => counted (place b) = true := by simp
    cases here : counted (place a) with
    | true =>
      rw [if_pos rfl, Finset.card_insert_of_notMem]
      · simp
      · simp
    | false => simp
  have rest : (Finset.univ.erase a).filter (fun b => counted (update point a p b) = true) =
      (Finset.univ.erase a).filter fun b => counted (point b) = true := by
    refine Finset.filter_congr fun b member => ?_
    rw [Function.update_of_ne (Finset.ne_of_mem_erase member)]
  rw [split (update point a p), split point, rest, Function.update_self]
  omega

theorem census_pos (here : counted (point a) = true) : 0 < census counted point :=
  Finset.card_pos.mpr ⟨a, by simpa using here⟩

theorem census_eq_zero : census counted point = 0 ↔ forall a, counted (point a) = false := by
  simp [census, Finset.card_eq_zero, Finset.filter_eq_empty_iff]

theorem census_le_card : census counted point ≤ Fintype.card A := Finset.card_le_univ _

theorem census_mono (implies : forall p, counted p = true -> other p = true) :
    census counted point ≤ census other point :=
  Finset.card_le_card fun a member => by
    simp only [Finset.mem_filter, Finset.mem_univ, true_and] at member ⊢
    exact implies _ member

theorem census_or (apart : forall p, counted p = true -> other p = false) :
    census (fun p => counted p || other p) point = census counted point + census other point := by
  classical
  rw [census, census, census, ← Finset.card_union_of_disjoint]
  · congr 1
    ext a
    simp
  · refine Finset.disjoint_left.mpr fun a first second => ?_
    simp only [Finset.mem_filter, Finset.mem_univ, true_and] at first second
    rw [apart _ first] at second
    exact Bool.false_ne_true second

theorem eq_of_census_le_one (one : census counted point ≤ 1) (first : counted (point a) = true)
    (second : counted (point b) = true) : a = b :=
  Finset.card_le_one.mp one a (by simpa using first) b (by simpa using second)

end Hal9000.Lib
