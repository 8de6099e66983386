import Mathlib.Tactic.Common
import Mathlib.Data.Nat.Bitwise

set_option autoImplicit false

namespace Hal9000

-- A kernel function stops at the first ASSERT that fails; the text is the condition of the source.
abbrev Kernel (α : Type) := Except String α

def assert (condition : Bool) (text : String) : Kernel Unit :=
  if condition then .ok () else .error text

@[simp] theorem assert_true (text : String) : assert true text = .ok () := rfl

@[simp] theorem assert_false (text : String) : assert false text = .error text := rfl

@[simp] theorem assert_eq_ok (condition : Bool) (text : String) :
    assert condition text = .ok () ↔ condition = true := by
  cases condition <;> simp [assert]

theorem Kernel.ok_bind {α β : Type} (value : α) (rest : α -> Kernel β) :
    ((.ok value : Kernel α) >>= rest) = rest value := rfl

theorem Kernel.error_bind {α β : Type} (text : String) (rest : α -> Kernel β) :
    ((.error text : Kernel α) >>= rest) = .error text := rfl

theorem Kernel.pure_eq {α : Type} (value : α) : (pure value : Kernel α) = .ok value := rfl

theorem Kernel.bind_eq_ok {α β : Type} {first : Kernel α} {rest : α -> Kernel β} {result : β} :
    (first >>= rest) = .ok result ↔ ∃ value, first = .ok value ∧ rest value = .ok result := by
  cases first <;> simp [bind, Except.bind]

theorem Kernel.assert_bind_eq_ok {β : Type} {condition : Bool} {text : String}
    {rest : Kernel β} {result : β} :
    (assert condition text >>= fun _ => rest) = .ok result ↔ condition = true ∧ rest = .ok result := by
  cases condition <;> simp [assert, bind, Except.bind]

def maxDword : Nat := 2 ^ 32 - 1

def qword (value : Nat) : Nat := value % 2 ^ 64

def dword (value : Nat) : Nat := value % 2 ^ 32

theorem qword_lt (value : Nat) : qword value < 2 ^ 64 := Nat.mod_lt _ (Nat.two_pow_pos 64)

theorem dword_lt (value : Nat) : dword value < 2 ^ 32 := Nat.mod_lt _ (Nat.two_pow_pos 32)

theorem qword_of_lt {value : Nat} (bound : value < 2 ^ 64) : qword value = value :=
  Nat.mod_eq_of_lt bound

theorem dword_of_lt {value : Nat} (bound : value < 2 ^ 32) : dword value = value :=
  Nat.mod_eq_of_lt bound

def pageSize : Nat := 0x1000

def isFlagOn (x f : Nat) : Bool := x &&& f != 0

def isBooleanFlagOn (x f : Nat) : Bool := f == x &&& f

-- `(QWORD)(addr) & ~((QWORD)(alig)-1)`
def alignAddressLower (addr alig : Nat) : Nat :=
  qword addr &&& (2 ^ 64 - 1 - qword (alig + (2 ^ 64 - 1)))

def alignAddressUpper (addr alig : Nat) : Nat :=
  alignAddressLower (qword (addr + alig + (2 ^ 64 - 1))) alig

def isAddressAligned (addr alig : Nat) : Bool :=
  qword addr &&& qword (alig + (2 ^ 64 - 1)) == 0

def ptrDiff (x y : Nat) : Nat := qword (x + 2 ^ 64 - qword y)

def ptrOffset (x y : Nat) : Nat := qword (x + y)

-- A signed 64-bit value divided by a positive `int`, rounding to zero and converted back to QWORD.
def signedQuotient (value divisor : Nat) : Nat :=
  if value < 2 ^ 63 then value / divisor else qword (2 ^ 64 - (2 ^ 64 - value) / divisor)

def checkBounds (p ps b s : Nat) : Bool :=
  decide (qword b ≤ qword p) && decide (qword (p + ps) ≤ qword (b + s))

theorem mask_testBit (k i : Nat) (small : k ≤ 64) :
    (2 ^ 64 - 2 ^ k).testBit i = (decide (k ≤ i) && decide (i < 64)) := by
  have below : 2 ^ k - 1 < 2 ^ 64 := by
    have := Nat.pow_le_pow_right (n := 2) (by omega) small
    have := Nat.two_pow_pos k
    omega
  have split : 2 ^ 64 - 2 ^ k = 2 ^ 64 - (2 ^ k - 1 + 1) := by
    have := Nat.two_pow_pos k
    omega
  rw [split, Nat.testBit_two_pow_sub_succ below, Nat.testBit_two_pow_sub_one]
  by_cases low : i < k <;> by_cases high : i < 64 <;> simp [low, high]
  all_goals omega

theorem alignAddressLower_two_pow (addr k : Nat) (small : k < 64) (bound : addr < 2 ^ 64) :
    alignAddressLower addr (2 ^ k) = addr / 2 ^ k * 2 ^ k := by
  have positive := Nat.two_pow_pos k
  have power : 2 ^ k < 2 ^ 64 := Nat.pow_lt_pow_right (by omega) small
  have mask : 2 ^ 64 - 1 - qword (2 ^ k + (2 ^ 64 - 1)) = 2 ^ 64 - 2 ^ k := by
    simp only [qword]
    omega
  rw [alignAddressLower, mask, qword_of_lt bound]
  apply Nat.eq_of_testBit_eq
  intro i
  rw [Nat.testBit_land, mask_testBit k i (by omega), Nat.testBit_mul_two_pow, Nat.testBit_div_two_pow]
  by_cases low : k ≤ i
  · have index : i - k + k = i := by omega
    by_cases high : i < 64
    · simp [low, high, index]
    · have zero : addr.testBit i = false :=
        Nat.testBit_lt_two_pow (lt_of_lt_of_le bound (Nat.pow_le_pow_right (by omega) (by omega)))
      simp [low, high, index, zero]
  · simp [low]

theorem isAddressAligned_two_pow (addr k : Nat) (small : k < 64) (bound : addr < 2 ^ 64) :
    isAddressAligned addr (2 ^ k) = decide (addr % 2 ^ k = 0) := by
  have positive := Nat.two_pow_pos k
  have power : 2 ^ k < 2 ^ 64 := Nat.pow_lt_pow_right (by omega) small
  have mask : qword (2 ^ k + (2 ^ 64 - 1)) = 2 ^ k - 1 := by
    simp only [qword]
    omega
  rw [isAddressAligned, mask, qword_of_lt bound, Nat.and_two_pow_sub_one_eq_mod]
  by_cases zero : addr % 2 ^ k = 0 <;> simp [zero]

theorem land_complement_add (x m : Nat) (bound : x < 2 ^ 64) (mask : m < 2 ^ 64) :
    (x &&& (2 ^ 64 - 1 - m)) + (x &&& m) = x := by
  have bits : (BitVec.ofNat 64 x &&& ~~~BitVec.ofNat 64 m) + (BitVec.ofNat 64 x &&& BitVec.ofNat 64 m) =
      BitVec.ofNat 64 x := by
    rw [BitVec.add_eq_or_of_and_eq_zero]
    · ext i inside
      simp only [BitVec.getElem_or, BitVec.getElem_and, BitVec.getElem_not]
      cases (BitVec.ofNat 64 x)[i] <;> cases (BitVec.ofNat 64 m)[i] <;> rfl
    · ext i inside
      simp only [BitVec.getElem_and, BitVec.getElem_not, BitVec.getElem_zero]
      cases (BitVec.ofNat 64 x)[i] <;> cases (BitVec.ofNat 64 m)[i] <;> rfl
  have sum := congrArg BitVec.toNat bits
  rw [BitVec.toNat_add, BitVec.toNat_and, BitVec.toNat_and, BitVec.toNat_not, BitVec.toNat_ofNat,
    BitVec.toNat_ofNat, Nat.mod_eq_of_lt bound, Nat.mod_eq_of_lt mask] at sum
  have first : x &&& (2 ^ 64 - 1 - m) ≤ x := Nat.and_le_left
  have second : x &&& m ≤ x := Nat.and_le_left
  omega

theorem alignAddressUpper_bounds (addr alig : Nat) (bound : addr < 2 ^ 64) (positive : 0 < alig)
    (small : alig < 2 ^ 32) :
    (addr + alig ≤ 2 ^ 64 -> addr ≤ alignAddressUpper addr alig ∧ alignAddressUpper addr alig < addr + alig) ∧
      (2 ^ 64 < addr + alig -> alignAddressUpper addr alig < alig) := by
  have mask : qword (alig + (2 ^ 64 - 1)) = alig - 1 := by
    simp only [qword]
    omega
  have sum : qword (qword (addr + alig + (2 ^ 64 - 1))) =
      if addr + alig ≤ 2 ^ 64 then addr + alig - 1 else addr + alig - 1 - 2 ^ 64 := by
    simp only [qword]
    split <;> omega
  have cleared := land_complement_add (qword (qword (addr + alig + (2 ^ 64 - 1)))) (alig - 1)
    (qword_lt _) (by omega)
  have low : qword (qword (addr + alig + (2 ^ 64 - 1))) &&& (alig - 1) ≤ alig - 1 := Nat.and_le_right
  rw [alignAddressUpper, alignAddressLower, mask]
  rw [sum] at cleared low ⊢
  constructor
  · intro fits
    rw [if_pos fits] at cleared low ⊢
    omega
  · intro wraps
    rw [if_neg (by omega)] at cleared low ⊢
    omega

theorem alignAddressUpper_aligned (addr k : Nat) (small : k < 64) :
    alignAddressUpper addr (2 ^ k) % 2 ^ k = 0 := by
  rw [alignAddressUpper, alignAddressLower_two_pow _ k small (qword_lt _)]
  exact Nat.mul_mod_left _ _

theorem alignAddressUpper_page (addr : Nat) (bound : addr < 2 ^ 44) :
    alignAddressUpper addr pageSize = (addr + (pageSize - 1)) / pageSize * pageSize := by
  have sum : qword (addr + pageSize + (2 ^ 64 - 1)) = addr + (pageSize - 1) := by
    simp only [qword, pageSize]
    omega
  rw [alignAddressUpper, sum]
  exact alignAddressLower_two_pow _ 12 (by decide) (by simp only [pageSize]; omega)

end Hal9000
