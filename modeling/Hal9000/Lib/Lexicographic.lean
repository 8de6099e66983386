import Mathlib.Algebra.Order.Ring.Int
import Mathlib.Data.List.Lex
import Mathlib.Tactic.Common

set_option autoImplicit false

namespace Hal9000.Lib

variable {A : Type} [LinearOrder A] {xs ys zs : List A}

def lexSign : List A -> List A -> Int
  | [], [] => 0
  | [], _ :: _ => -1
  | _ :: _, [] => 1
  | x :: xs, y :: ys => if y < x then 1 else if x < y then -1 else lexSign xs ys

theorem lexSign_swap (xs ys : List A) : lexSign ys xs = -lexSign xs ys := by
  induction xs generalizing ys with
  | nil => cases ys <;> rfl
  | cons x xs ih =>
    cases ys with
    | nil => rfl
    | cons y ys =>
      rcases lt_trichotomy x y with less | rfl | more
      · simp [lexSign, less, less.not_gt]
      · simp [lexSign, ih]
      · simp [lexSign, more, more.not_gt]

theorem lexSign_neg : lexSign xs ys < 0 ↔ xs < ys := by
  induction xs generalizing ys with
  | nil => cases ys <;> simp [lexSign]
  | cons x xs ih =>
    cases ys with
    | nil => simp [lexSign]
    | cons y ys =>
      rw [List.cons_lt_cons_iff, ← @ih ys]
      rcases lt_trichotomy x y with less | rfl | more
      · simp [lexSign, less, less.not_gt]
      · simp [lexSign]
      · simp [lexSign, more, more.not_gt, more.ne']

theorem lexSign_pos : 0 < lexSign xs ys ↔ ys < xs := by
  rw [← lexSign_neg, lexSign_swap xs ys, neg_lt_zero]

theorem lexSign_eq_zero : lexSign xs ys = 0 ↔ xs = ys := by
  have less := @lexSign_neg A _ xs ys
  have more := @lexSign_pos A _ xs ys
  rcases lt_trichotomy xs ys with before | rfl | behind
  · exact iff_of_false (ne_of_lt (less.mpr before)) before.ne
  · refine iff_of_true ?_ rfl
    have neither := lexSign_swap xs xs
    omega
  · exact iff_of_false (ne_of_gt (more.mpr behind)) behind.ne'

theorem lexSign_nonpos : lexSign xs ys ≤ 0 ↔ xs ≤ ys := by
  rw [← not_lt, lexSign_pos, not_lt]

theorem lexSign_nonneg : 0 ≤ lexSign xs ys ↔ ys ≤ xs := by
  rw [← not_lt, lexSign_neg, not_lt]

end Hal9000.Lib
