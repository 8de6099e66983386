import Mathlib.Tactic.Common
import Mathlib.Algebra.Group.Nat.Defs

set_option autoImplicit false

namespace Hal9000.Lib

def insertBits {w v : Nat} (width offset : Nat) (word : BitVec w) (value : BitVec v) : BitVec w :=
  (word &&& ~~~(((BitVec.allOnes width).setWidth w) <<< offset)) |||
    ((value &&& (BitVec.allOnes width).setWidth v) <<< offset).setWidth w

def byteAt {w : Nat} (word : BitVec w) (i : Nat) : BitVec 8 := word.extractLsb' (8 * i) 8

variable {w v width offset bytes i j : Nat} {word : BitVec w} {value : BitVec v}

theorem insertBits_getLsbD (long : w ≤ v) (inside : j < w) :
    (insertBits width offset word value).getLsbD j =
      if offset ≤ j ∧ j < offset + width then value.getLsbD (j - offset) else word.getLsbD j := by
  have wide : j < v := Nat.lt_of_lt_of_le inside long
  simp only [insertBits, BitVec.getLsbD_or, BitVec.getLsbD_and, BitVec.getLsbD_not, BitVec.getLsbD_shiftLeft,
    BitVec.getLsbD_setWidth, BitVec.getLsbD_allOnes, inside, wide, decide_true, Bool.true_and]
  by_cases before : j < offset
  next =>
    have outside : ¬ (offset ≤ j ∧ j < offset + width) := by omega
    simp [before, outside]
  next =>
    have short : j - offset < w := by omega
    have low : j - offset < v := by omega
    by_cases covered : j - offset < width
    next =>
      have within : offset ≤ j ∧ j < offset + width := by omega
      simp [before, covered, within, short, low]
    next =>
      have outside : ¬ (offset ≤ j ∧ j < offset + width) := by omega
      simp [before, covered, outside]

theorem byteAt_getLsbD : (byteAt word i).getLsbD j = (decide (j < 8) && word.getLsbD (8 * i + j)) := by
  rw [byteAt, BitVec.getLsbD_extractLsb']

theorem byteAt_insertBits (long : w ≤ v) (inside : 8 * i + 8 ≤ w)
    (outside : i < offset ∨ offset + bytes ≤ i) :
    byteAt (insertBits (8 * bytes) (8 * offset) word value) i = byteAt word i := by
  refine BitVec.eq_of_getLsbD_eq (fun j short => ?_)
  have untouched : ¬ (8 * offset ≤ 8 * i + j ∧ 8 * i + j < 8 * offset + 8 * bytes) := by omega
  rw [byteAt_getLsbD, byteAt_getLsbD, insertBits_getLsbD long (by omega), if_neg untouched]

theorem shift_insertBits (fits : offset + width ≤ w) (long : w ≤ v) :
    (((insertBits width offset word value) >>> offset) &&& (BitVec.allOnes width).setWidth w).toNat =
      value.toNat % 2 ^ width := by
  refine Nat.eq_of_testBit_eq (fun j => ?_)
  rw [Nat.testBit_mod_two_pow, ← BitVec.getLsbD, ← BitVec.getLsbD, BitVec.getLsbD_and, BitVec.getLsbD_ushiftRight,
    BitVec.getLsbD_setWidth, BitVec.getLsbD_allOnes]
  by_cases covered : j < width
  next =>
    have inside : offset + j < w := by omega
    have within : offset ≤ offset + j ∧ offset + j < offset + width := by omega
    have short : j < w := by omega
    rw [insertBits_getLsbD long inside, if_pos within, Nat.add_sub_cancel_left, decide_eq_true covered,
      decide_eq_true short]
    simp
  next => simp [covered]

theorem insertBits_whole {word : BitVec w} {value : BitVec v} (long : w ≤ v) :
    insertBits w 0 word value = value.setWidth w := by
  refine BitVec.eq_of_getLsbD_eq (fun j inside => ?_)
  have within : 0 ≤ j ∧ j < 0 + w := by omega
  rw [insertBits_getLsbD long inside, if_pos within, BitVec.getLsbD_setWidth, decide_eq_true inside,
    Bool.true_and, Nat.sub_zero]

end Hal9000.Lib
