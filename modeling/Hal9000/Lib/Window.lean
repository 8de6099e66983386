import Mathlib.Data.List.Basic
import Mathlib.Data.Nat.ModEq
import Mathlib.Logic.Function.Basic
import Mathlib.Tactic.Common

set_option autoImplicit false

namespace Hal9000.Lib

theorem slot_ne {n first i j : Nat} (left : i < n) (right : j < n) (different : i ≠ j) :
    (first + i) % n ≠ (first + j) % n := by
  intro same
  have difference : Nat.ModEq n i j := Nat.ModEq.add_left_cancel' first same
  exact different (Nat.ModEq.eq_of_lt_of_lt difference left right)

variable {A : Type} {n first : Nat} {filled filled' : Nat -> A -> Prop} {free free' : Nat -> Prop}

structure Window (n first : Nat) (filled : Nat -> A -> Prop) (free : Nat -> Prop) (items : List A) : Prop where
  fits : items.length ≤ n
  filled : forall j (within : j < items.length), filled ((first + j) % n) items[j]
  free : forall j, items.length ≤ j -> j < n -> free ((first + j) % n)

namespace Window

variable {item : A} {items : List A}

theorem empty (here : forall i, i < n -> free i) (positive : 0 < n) : Window n first filled free ([] : List A) :=
  ⟨Nat.zero_le _, nofun, fun _ _ _ => here _ (Nat.mod_lt _ positive)⟩

theorem head (window : Window n first filled free (item :: items)) : filled (first % n) item := by
  have here : filled (first % n) (item :: items)[0] := window.filled 0 (Nat.succ_pos _)
  exact here

theorem push (window : Window n first filled free items) (room : items.length < n)
    (here : filled' ((first + items.length) % n) item)
    (others : forall i, i ≠ (first + items.length) % n -> (forall a, filled i a -> filled' i a) ∧ (free i -> free' i)) :
    Window n first filled' free' (items ++ [item]) := by
  refine ⟨by rw [List.length_append]; exact room, fun j within => ?_, fun j beyond below => ?_⟩
  · rcases Nat.lt_or_ge j items.length with earlier | last
    · rw [List.getElem_append_left earlier]
      exact (others _ (slot_ne (by omega) room (by omega))).1 _ (window.filled j earlier)
    · have equal : j = items.length := by
        simp only [List.length_append, List.length_singleton] at within
        omega
      subst equal
      simpa using here
  · simp only [List.length_append, List.length_singleton] at beyond
    exact (others _ (slot_ne below room (by omega))).2 (window.free j (by omega) below)

theorem pop (window : Window n first filled free (item :: items)) (here : free' (first % n))
    (others : forall i, i ≠ first % n -> (forall a, filled i a -> filled' i a) ∧ (free i -> free' i)) :
    Window n (first + 1) filled' free' items := by
  have fits := window.fits
  simp only [List.length_cons] at fits
  have next : forall j, (first + 1 + j) % n = (first + (j + 1)) % n := fun j => by rw [Nat.add_assoc, Nat.add_comm 1 j]
  have away : forall j, j + 1 < n -> (first + (j + 1)) % n ≠ first % n := fun j below =>
    slot_ne (j := 0) below (by omega) (by omega)
  refine ⟨by omega, fun j within => ?_, fun j beyond below => ?_⟩
  · rw [next]
    exact (others _ (away j (by omega))).1 _ (window.filled (j + 1) (by simpa using within))
  · rw [next]
    rcases Nat.lt_or_ge (j + 1) n with inside | last
    · exact (others _ (away j inside)).2 (window.free (j + 1) (by simpa using beyond) inside)
    · have equal : j + 1 = n := by omega
      rw [equal, Nat.add_mod_right]
      exact here

end Window

end Hal9000.Lib
