import Hal9000.CommonLib.Base
import Mathlib.Tactic.IntervalCases

set_option autoImplicit false

namespace Hal9000

abbrev Memory := Nat -> UInt8

structure Bitmap where
  bitmapBuffer : Nat := 0
  bufferSize : Nat := 0
  bitCount : Nat := 0
  deriving DecidableEq, Repr

namespace Bitmap

def entryBits : Nat := 8

def preinit (numberOfElements : Nat) : Kernel Bitmap := do
  assert (0 != numberOfElements) "0 != NumberOfElements"
  pure
    { bitmapBuffer := 0
      bufferSize := dword (alignAddressUpper numberOfElements entryBits / entryBits)
      bitCount := numberOfElements }

def initEx (memory : Memory) (bitmap : Bitmap) (bitmapBuffer : Nat) (set : Bool) :
    Kernel (Memory × Bitmap) := do
  assert (0 != bitmapBuffer) "NULL != BitmapBuffer"
  let fill : UInt8 := if set then 0xFF else 0
  pure (fun address => if bitmapBuffer ≤ address ∧ address < bitmapBuffer + bitmap.bufferSize
      then fill else memory address,
    { bitmap with bitmapBuffer := bitmapBuffer })

def getBit (memory : Memory) (bitmapBuffer index : Nat) : Bool :=
  (memory (bitmapBuffer + index / entryBits)).toNat.testBit (index % entryBits)

def changeBit (memory : Memory) (bitmapBuffer index : Nat) (set : Bool) : Memory :=
  let byteIndex := bitmapBuffer + index / entryBits
  let mask : UInt8 := 1 <<< UInt8.ofNat (index % entryBits)
  Function.update memory byteIndex
    (if set then memory byteIndex ||| mask else memory byteIndex &&& ~~~mask)

def changeBits (memory : Memory) (bitmapBuffer index : Nat) (set : Bool) : Nat -> Memory
  | 0 => memory
  | count + 1 =>
    changeBit (changeBits memory bitmapBuffer index set count) bitmapBuffer (dword (index + count)) set

def getBitValue (memory : Memory) (bitmap : Bitmap) (index : Nat) : Kernel Bool := do
  assert (decide (index < bitmap.bitCount)) "Index < Bitmap->BitCount"
  pure (getBit memory bitmap.bitmapBuffer index)

def setBitsValue (memory : Memory) (bitmap : Bitmap) (index count : Nat) (set : Bool) :
    Kernel Memory := do
  assert (decide (index < bitmap.bitCount)) "Index < Bitmap->BitCount"
  -- The subtraction is a DWORD one: a Count above BitCount wraps around.
  assert (decide (dword (bitmap.bitCount + 2 ^ 32 - count) ≥ index)) "Bitmap->BitCount - Count >= Index"
  pure (changeBits memory bitmap.bitmapBuffer index set count)

-- The inner loop of _BitmapScanInternal: `count` bits from `index` on have the value `set`.
def bitsAre (memory : Memory) (bitmapBuffer index : Nat) (set : Bool) : Nat -> Bool
  | 0 => true
  | count + 1 =>
    bitsAre memory bitmapBuffer index set count && (getBit memory bitmapBuffer (dword (index + count)) == set)

def scanLoop (memory : Memory) (bitmapBuffer consecutiveBits : Nat) (set : Bool) (i : Nat) : Nat -> Nat
  | 0 => maxDword
  | tries + 1 =>
    if bitsAre memory bitmapBuffer i set consecutiveBits then i
    else scanLoop memory bitmapBuffer consecutiveBits set (i + 1) tries

def scanInternal (memory : Memory) (bitmap : Bitmap) (startIndex firstInvalidBitIndex consecutiveBits : Nat)
    (set : Bool) : Kernel Nat := do
  assert (0 != consecutiveBits) "0 != ConsecutiveBits"
  assert (decide (startIndex ≤ firstInvalidBitIndex)) "StartIndex <= FirstInvalidBitIndex"
  assert (decide (firstInvalidBitIndex ≤ bitmap.bitCount)) "FirstInvalidBitIndex <= Bitmap->BitCount"
  if firstInvalidBitIndex - startIndex < consecutiveBits then
    pure maxDword
  else
    let lastIndex := firstInvalidBitIndex - consecutiveBits
    pure (scanLoop memory bitmap.bitmapBuffer consecutiveBits set startIndex (lastIndex + 1 - startIndex))

def scanFromTo (memory : Memory) (bitmap : Bitmap) (index firstInvalidBitIndex consecutiveBits : Nat) (set : Bool) :
    Kernel Nat :=
  if consecutiveBits = 0 then pure maxDword
  else if index > firstInvalidBitIndex ∨ firstInvalidBitIndex > bitmap.bitCount then pure maxDword
  else scanInternal memory bitmap index firstInvalidBitIndex consecutiveBits set

def scanFromToAndFlip (memory : Memory) (bitmap : Bitmap) (index firstInvalidBitIndex consecutiveBits : Nat)
    (set : Bool) : Kernel (Nat × Memory) :=
  if consecutiveBits = 0 then pure (maxDword, memory)
  else if index > firstInvalidBitIndex ∨ firstInvalidBitIndex > bitmap.bitCount then pure (maxDword, memory)
  else do
    let bitmapIndex ← scanInternal memory bitmap index firstInvalidBitIndex consecutiveBits set
    if bitmapIndex = maxDword then pure (maxDword, memory)
    else pure (bitmapIndex, changeBits memory bitmap.bitmapBuffer bitmapIndex (!set) consecutiveBits)

def scanFromAndFlip (memory : Memory) (bitmap : Bitmap) (index consecutiveBits : Nat) (set : Bool) :
    Kernel (Nat × Memory) :=
  scanFromToAndFlip memory bitmap index bitmap.bitCount consecutiveBits set

theorem toNat_mask {bit : Nat} (bound : bit < 8) : ((1 : UInt8) <<< UInt8.ofNat bit).toNat = 2 ^ bit := by
  interval_cases bit <;> rfl

theorem testBit_or_mask (value : UInt8) {bit queried : Nat} (bound : bit < 8) :
    (value ||| (1 : UInt8) <<< UInt8.ofNat bit).toNat.testBit queried =
      (decide (queried = bit) || value.toNat.testBit queried) := by
  rw [UInt8.toNat_or, Nat.testBit_or, toNat_mask bound, Nat.testBit_two_pow, Bool.or_comm]
  simp only [eq_comm]

theorem testBit_and_not_mask (value : UInt8) {bit queried : Nat} (bound : bit < 8) (other : queried < 8) :
    (value &&& ~~~((1 : UInt8) <<< UInt8.ofNat bit)).toNat.testBit queried =
      (decide (queried ≠ bit) && value.toNat.testBit queried) := by
  have small : 2 ^ bit < 2 ^ 8 := Nat.pow_lt_pow_right (by decide) bound
  have shape : UInt8.size - 1 - 2 ^ bit = 2 ^ 8 - (2 ^ bit + 1) := by
    simp only [UInt8.size]
    omega
  rw [UInt8.toNat_and, Nat.testBit_and, UInt8.toNat_not, toNat_mask bound, shape,
    Nat.testBit_two_pow_sub_succ small, Nat.testBit_two_pow, decide_eq_true other, Bool.true_and, Bool.and_comm]
  simp only [eq_comm, decide_not, ne_eq]

theorem getBit_changeBit (memory : Memory) (bitmapBuffer index j : Nat) (set : Bool) :
    getBit (changeBit memory bitmapBuffer index set) bitmapBuffer j =
      if j = index then set else getBit memory bitmapBuffer j := by
  unfold getBit changeBit
  by_cases byte : j / entryBits = index / entryBits
  · have bound : index % entryBits < 8 := Nat.mod_lt _ (by decide)
    have other : j % entryBits < 8 := Nat.mod_lt _ (by decide)
    have same : j = index ↔ j % entryBits = index % entryBits := by
      constructor
      · intro equal
        rw [equal]
      · intro equal
        rw [← Nat.div_add_mod j entryBits, ← Nat.div_add_mod index entryBits, byte, equal]
    rw [byte, Function.update_self]
    simp only [same]
    generalize index % entryBits = bit at bound ⊢
    generalize j % entryBits = queried at other ⊢
    generalize memory (bitmapBuffer + index / entryBits) = value
    cases set with
    | true =>
      rw [if_pos rfl, testBit_or_mask value bound]
      by_cases equal : queried = bit <;> simp [equal]
    | false =>
      rw [if_neg (by decide), testBit_and_not_mask value bound other]
      by_cases equal : queried = bit <;> simp [equal]
  · rw [Function.update_of_ne (by omega), if_neg (fun equal => byte (by rw [equal]))]

theorem getBit_changeBits (memory : Memory) (bitmapBuffer index count j : Nat) (set : Bool)
    (bound : index + count ≤ 2 ^ 32) :
    getBit (changeBits memory bitmapBuffer index set count) bitmapBuffer j =
      if index ≤ j ∧ j < index + count then set else getBit memory bitmapBuffer j := by
  induction count with
  | zero => simp [changeBits]
  | succ count ih =>
    rw [changeBits, getBit_changeBit, ih (by omega), dword_of_lt (by omega)]
    split_ifs <;> first | rfl | omega

theorem bitsAre_iff (memory : Memory) (bitmapBuffer index count : Nat) (set : Bool)
    (bound : index + count ≤ 2 ^ 32) :
    bitsAre memory bitmapBuffer index set count = true ↔
      forall j, index ≤ j -> j < index + count -> getBit memory bitmapBuffer j = set := by
  induction count with
  | zero => exact iff_of_true rfl fun j low high => by omega
  | succ count ih =>
    rw [bitsAre, Bool.and_eq_true, beq_iff_eq, ih (by omega), dword_of_lt (by omega)]
    constructor
    · rintro ⟨before, last⟩ j low high
      by_cases here : j = index + count
      · rw [here]
        exact last
      · exact before j low (by omega)
    · intro all
      exact ⟨fun j low high => all j low (by omega), all _ (by omega) (by omega)⟩

end Bitmap

end Hal9000
