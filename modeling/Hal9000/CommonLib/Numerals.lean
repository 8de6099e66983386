import Hal9000.CommonLib.Strings
import Mathlib.Data.Nat.Digits.Lemmas

set_option autoImplicit false

namespace Hal9000

open Lib (Bytes Access)

def swap (memory : Bytes) (a b : Nat) : Access Bytes := do
  let x <- memory.load a
  let y <- memory.load b
  let memory <- memory.store a (x ^^^ y)
  let y <- memory.load b
  let x <- memory.load a
  let memory <- memory.store b (y ^^^ x)
  let x <- memory.load a
  let y <- memory.load b
  memory.store a (x ^^^ y)

def digitChar (digit : Nat) : UInt8 :=
  if digit > 9 then UInt8.ofNat (digit - 10) + 0x41 else UInt8.ofNat digit + 0x30

def itoaNegative (raw : Nat) (signedValue is64BitValue : Bool) : Bool :=
  signedValue && if is64BitValue then decide (2 ^ 63 ≤ qword raw) else decide (2 ^ 31 ≤ dword raw)

def signExtend (value : Nat) : Nat := if value < 2 ^ 31 then value else value + (2 ^ 64 - 2 ^ 32)

def itoaValue (raw : Nat) (signedValue is64BitValue : Bool) : Nat :=
  if is64BitValue then
    if itoaNegative raw signedValue is64BitValue then qword (2 ^ 64 - qword raw) else qword raw
  else
    if itoaNegative raw signedValue is64BitValue then signExtend (dword (2 ^ 32 - dword raw)) else dword raw

def writeDigits (buffer base : Nat) : (fuel value index : Nat) -> Bytes -> Access (Bytes × Nat)
  | 0, _, _, _ => .error .unfinished
  | fuel + 1, value, index, memory =>
    if 0 = value then pure (memory, index)
    else do
      let memory <- memory.store (buffer + index) (digitChar (value % base))
      writeDigits buffer base fuel (value / base) (dword (index + 1)) memory

def reverseFrom (buffer index : Nat) : (i remaining : Nat) -> Bytes -> Access Bytes
  | _, 0, memory => pure memory
  | i, remaining + 1, memory => do
    let memory <- swap memory (buffer + i) (buffer + (index - i - 1))
    reverseFrom buffer index (i + 1) remaining memory

-- if (0 == value)
def writeZero (value buffer : Nat) (memory : Bytes) : Access (Bytes × Nat) :=
  if 0 = value then do
    let memory <- memory.store buffer 0x30
    pure (memory, 1)
  else pure (memory, 0)

-- if (negative)
def writeSign (negative : Bool) (buffer index : Nat) (memory : Bytes) : Access (Bytes × Nat) :=
  if negative then do
    let memory <- memory.store (buffer + index) 0x2D
    pure (memory, dword (index + 1))
  else pure (memory, index)

def itoa (fuel : Nat) (memory : Bytes) (raw : Nat) (signedValue : Bool) (buffer base : Nat) (is64BitValue : Bool) :
    Access Bytes := do
  Access.assert (0 != buffer) "NULL != buffer"
  Access.assert (0 != base) "0 != base"
  let negative := itoaNegative raw signedValue is64BitValue
  let value := itoaValue raw signedValue is64BitValue
  let (memory, index) <- writeZero value buffer memory
  let (memory, index) <- writeDigits buffer base fuel value index memory
  let (memory, index) <- writeSign negative buffer index memory
  let memory <- memory.store (buffer + index) 0
  reverseFrom buffer index 0 (index / 2) memory

def charValue (c : UInt8) : Nat :=
  if 0x30 ≤ c ∧ c ≤ 0x39 then (c - 0x30).toNat
  else if 0x61 ≤ c ∧ c ≤ 0x7A then (c - 0x61 + 10).toNat
  else 0xFF

def readDigits (memory : Bytes) (buffer base : Nat) : (fuel i value : Nat) -> Access Nat
  | 0, _, _ => .error .unfinished
  | fuel + 1, i, value => do
    let c <- memory.load (buffer + i)
    if c = 0 then pure value
    else do
      Access.assert (isascii c) "isascii(buffer[i])"
      Access.assert (decide (charValue (tolower c) < base)) "currentCharValue < base"
      readDigits memory buffer base fuel (dword (i + 1)) (qword (value * base + charValue (tolower c)))

def atoi (fuel : Nat) (memory : Bytes) (buffer base : Nat) (is64BitValue : Bool) : Access Nat := do
  Access.assert (0 != buffer) "NULL != buffer"
  Access.assert (0 != base) "0 != base"
  let first <- memory.load buffer
  let negative := first == 0x2D
  let value <- readDigits memory buffer base fuel (if negative then 1 else 0) 0
  let value := if negative then qword (2 ^ 64 - value) else value
  if is64BitValue then pure value
  else do
    Access.assert (negative || decide (value ≤ maxDword)) "negative || (value <= MAX_DWORD)"
    pure (dword value)

def numeralDigits : List Char :=
  ['0', '1', '2', '3', '4', '5', '6', '7', '8', '9', 'A', 'B', 'C', 'D', 'E', 'F', 'G', 'H', 'I', 'J',
    'K', 'L', 'M', 'N', 'O', 'P', 'Q', 'R', 'S', 'T', 'U', 'V', 'W', 'X', 'Y', 'Z']

def numeralDigit (digit : Nat) : UInt8 := UInt8.ofNat (numeralDigits.getD digit ' ').toNat

def numeral (base : Nat) (number : Int) : List UInt8 :=
  (if number < 0 then [0x2D] else []) ++
    (if number = 0 then [0] else (Nat.digits base number.natAbs).reverse).map numeralDigit

def number (raw : Nat) (signedValue is64BitValue : Bool) : Int :=
  if signedValue then
    if is64BitValue then (BitVec.ofNat 64 raw).toInt else (BitVec.ofNat 32 raw).toInt
  else if is64BitValue then (BitVec.ofNat 64 raw).toNat else (BitVec.ofNat 32 raw).toNat

def Converts (memory : Bytes) (raw : Nat) (signedValue : Bool) (buffer base : Nat) (is64BitValue : Bool) : Prop :=
  ∃ fuel after, itoa fuel memory raw signedValue buffer base is64BitValue = .ok after ∧
    after.Holds buffer (numeral base (number raw signedValue is64BitValue) ++ [0]) ∧
    (forall place, ¬ (buffer ≤ place ∧
        place ≤ buffer + (numeral base (number raw signedValue is64BitValue)).length) -> after place = memory place) ∧
    atoi fuel after buffer base is64BitValue = .ok (if is64BitValue then qword raw else dword raw)

section Reverse

variable {memory : Bytes} {a b : Nat}

theorem swap_eq (different : a ≠ b) {x y : UInt8} (left : memory a = some x) (right : memory b = some y) :
    swap memory a b = .ok ((memory.put b x).put a y) := by
  have one : (memory.put a (x ^^^ y)) b = some y := by rw [Bytes.put_elsewhere (Ne.symm different), right]
  have back : y ^^^ (x ^^^ y) = x := by
    rw [UInt8.xor_comm x y, ← UInt8.xor_assoc, UInt8.xor_self, UInt8.zero_xor]
  have two : ((memory.put a (x ^^^ y)).put b x) a = some (x ^^^ y) := by rw [Bytes.put_elsewhere different, Bytes.put_self]
  have last : (x ^^^ y) ^^^ x = y := by rw [UInt8.xor_comm x y, UInt8.xor_assoc, UInt8.xor_self, UInt8.xor_zero]
  rw [swap, Bytes.load_eq left, Access.ok_bind, Bytes.load_eq right, Access.ok_bind, Bytes.store_eq ⟨x, left⟩,
    Access.ok_bind, Bytes.load_eq one, Access.ok_bind, Bytes.load_eq Bytes.put_self, Access.ok_bind, back,
    Bytes.store_eq ⟨y, one⟩, Access.ok_bind, Bytes.load_eq two, Access.ok_bind, Bytes.load_eq Bytes.put_self,
    Access.ok_bind, last, Bytes.store_eq ⟨_, two⟩]
  congr 1
  funext place
  by_cases first : place = a
  · rw [first, Bytes.put_self, Bytes.put_self]
  · rw [Bytes.put_elsewhere first, Bytes.put_elsewhere first]
    by_cases second : place = b
    · rw [second, Bytes.put_self, Bytes.put_self]
    · rw [Bytes.put_elsewhere second, Bytes.put_elsewhere second, Bytes.put_elsewhere first]

theorem set_middle (front back : List UInt8) (x y : UInt8) :
    (front ++ x :: back).set front.length y = front ++ y :: back := by
  rw [List.set_append_right _ _ (Nat.le_refl _), Nat.sub_self, List.set_cons_zero]

theorem swap_outer (buffer : Nat) (front middle back : List UInt8) (x y : UInt8) :
    swap (memory.write buffer (front ++ x :: (middle ++ y :: back))) (buffer + front.length)
        (buffer + (front.length + 1 + middle.length)) =
      .ok (memory.write buffer (front ++ y :: (middle ++ x :: back))) := by
  have lengths : (front ++ x :: (middle ++ y :: back)).length = front.length + 1 + middle.length + 1 + back.length := by
    simp only [List.length_append, List.length_cons]
    omega
  have joined : front ++ x :: (middle ++ y :: back) = (front ++ x :: middle) ++ y :: back := by
    rw [List.append_assoc, List.cons_append]
  have place : (front ++ x :: middle).length = front.length + 1 + middle.length := by
    rw [List.length_append, List.length_cons]
    omega
  have left : (memory.write buffer (front ++ x :: (middle ++ y :: back))) (buffer + front.length) = some x := by
    rw [Bytes.write_at (by omega), List.getElem?_append_right (Nat.le_refl _), Nat.sub_self]
    rfl
  have right : (memory.write buffer (front ++ x :: (middle ++ y :: back)))
      (buffer + (front.length + 1 + middle.length)) = some y := by
    rw [Bytes.write_at (by omega), joined, ← place, List.getElem?_append_right (Nat.le_refl _), Nat.sub_self]
    rfl
  rw [swap_eq (by omega) left right, Bytes.put_write_set (by omega), joined, ← place, set_middle,
    Bytes.put_write_set (by simp only [List.length_append, List.length_cons]; omega), List.append_assoc,
    List.cons_append, set_middle]

attribute [local simp] reverseFrom in
theorem reverseFrom_eq (buffer : Nat) (front middle back : List UInt8) (remaining : Nat)
    (same : back.length = front.length) (half : remaining = middle.length / 2) :
    reverseFrom buffer (front.length + middle.length + back.length) front.length remaining
        (memory.write buffer (front ++ (middle ++ back))) =
      .ok (memory.write buffer (front ++ (middle.reverse ++ back))) := by
  induction remaining generalizing front middle back with
  | zero =>
    have short : middle.reverse = middle := by
      match middle with
      | [] => rfl
      | [x] => rfl
      | x :: y :: rest =>
        simp only [List.length_cons] at half
        omega
    rw [short]
    rfl
  | succ remaining ih =>
    obtain ⟨x, rest, rfl⟩ : ∃ x rest, middle = x :: rest := by
      cases middle with
      | nil => simp at half
      | cons x rest => exact ⟨x, rest, rfl⟩
    obtain ⟨inner, y, rfl⟩ : ∃ inner y, rest = inner ++ [y] := by
      rcases List.eq_nil_or_concat' rest with rfl | ⟨inner, y, rfl⟩
      · simp at half
      · exact ⟨inner, y, rfl⟩
    simp only [List.length_cons, List.length_append, List.length_nil] at half
    have shape (z w : UInt8) : front ++ (z :: (inner ++ [w]) ++ back) = front ++ z :: (inner ++ w :: back) := by simp
    have other : front.length + (x :: (inner ++ [y])).length + back.length - front.length - 1 =
        front.length + 1 + inner.length := by
      simp only [List.length_cons, List.length_append, List.length_nil]
      omega
    have next := ih (front ++ [y]) inner (x :: back) (by simp [same]) (by omega)
    have total : (front ++ [y]).length + inner.length + (x :: back).length =
        front.length + (x :: (inner ++ [y])).length + back.length := by
      simp only [List.length_cons, List.length_append, List.length_nil]
      omega
    have start : (front ++ [y]).length = front.length + 1 := List.length_append
    rw [total, start] at next
    rw [reverseFrom, shape, other, swap_outer, Access.ok_bind]
    rw [List.append_assoc] at next
    refine next.trans ?_
    simp

theorem reverse_terminated (text : List UInt8) (buffer : Nat) :
    reverseFrom buffer text.length 0 (text.length / 2) (memory.write buffer (text ++ [0])) =
      .ok (memory.write buffer (text.reverse ++ [0])) := by
  have run := @reverseFrom_eq (memory.put (buffer + text.length) 0) buffer [] text [] (text.length / 2) rfl rfl
  have mirror : (memory.put (buffer + text.length) 0).write buffer text.reverse =
      memory.write buffer (text.reverse ++ [0]) := by
    rw [← Bytes.write_put, List.length_reverse]
  rw [List.append_nil, List.append_nil, List.nil_append, List.nil_append, Bytes.write_put, mirror] at run
  simpa only [List.length_nil, Nat.zero_add, Nat.add_zero] using run

end Reverse

section Digits

variable {memory : Bytes} {buffer base count : Nat}

def reversedDigits (base value : Nat) : List UInt8 :=
  if value = 0 then [0x30] else (Nat.digits base value).map digitChar

def itoaText (raw : Nat) (signedValue : Bool) (base : Nat) (is64BitValue : Bool) : List UInt8 :=
  (reversedDigits base (itoaValue raw signedValue is64BitValue) ++
    if itoaNegative raw signedValue is64BitValue then [0x2D] else []).reverse

attribute [local simp] writeDigits in
theorem writeDigits_eq (positional : 1 < base) (accessible : memory.Accessible buffer count) (small : count < 2 ^ 32)
    (fuel value : Nat) (text : List UInt8) (enough : (Nat.digits base value).length < fuel)
    (room : text.length + (Nat.digits base value).length ≤ count) :
    writeDigits buffer base fuel value text.length (memory.write buffer text) =
      .ok (memory.write buffer (text ++ (Nat.digits base value).map digitChar),
        text.length + (Nat.digits base value).length) := by
  induction fuel generalizing value text with
  | zero => omega
  | succ fuel ih =>
    rw [writeDigits]
    by_cases zero : 0 = value
    · rw [if_pos zero, ← zero, Nat.digits_zero, List.map_nil, List.append_nil, List.length_nil]
      rfl
    · have digits := Nat.digits_def' positional (Nat.pos_of_ne_zero (Ne.symm zero))
      rw [digits, List.length_cons] at enough room
      have next := ih (value / base) (text ++ [digitChar (value % base)]) (by omega)
        (by rw [List.length_append, List.length_singleton]; omega)
      rw [List.length_append, List.length_singleton] at next
      rw [if_neg zero, Bytes.store_write accessible (by omega), Access.ok_bind, dword_of_lt (by omega), next, digits,
        List.map_cons, List.length_cons, List.append_assoc]
      congr 2
      omega

theorem writeDigits_ok (positional : 1 < base) (fuel value index : Nat) (memory after : Bytes) (last : Nat)
    (small : index + (Nat.digits base value).length < 2 ^ 32)
    (run : writeDigits buffer base fuel value index memory = .ok (after, last)) :
    (Nat.digits base value).length < fuel ∧ last = index + (Nat.digits base value).length ∧
      memory.Accessible (buffer + index) (Nat.digits base value).length ∧
      forall place, (∃ byte, after place = some byte) -> ∃ byte, memory place = some byte := by
  induction fuel generalizing value index memory with
  | zero => exact nomatch run
  | succ fuel ih =>
    rw [writeDigits] at run
    by_cases zero : 0 = value
    · rw [if_pos zero] at run
      cases run
      rw [← zero, Nat.digits_zero]
      exact ⟨Nat.zero_lt_succ fuel, rfl, fun i inside => absurd inside (Nat.not_lt_zero i), fun _ inside => inside⟩
    · have digits := Nat.digits_def' positional (Nat.pos_of_ne_zero (Ne.symm zero))
      rw [digits, List.length_cons] at small ⊢
      rw [if_neg zero] at run
      obtain ⟨stored, written, rest⟩ := Access.bind_eq_ok.mp run
      obtain ⟨first, rfl⟩ := Bytes.store_eq_ok.mp written
      rw [dword_of_lt (by omega)] at rest
      obtain ⟨fewer, place, behind, kept⟩ := ih (value / base) (index + 1) _ (by omega) rest
      refine ⟨by omega, by omega, fun i inside => ?_, fun place inside => Bytes.put_some first (kept place inside)⟩
      cases i with
      | zero => exact first
      | succ i =>
        have there := behind i (by omega)
        have same : buffer + (index + 1) + i = buffer + index + (i + 1) := by omega
        rw [same] at there
        exact Bytes.put_some first there

theorem itoaText_length (raw : Nat) (signedValue : Bool) (base : Nat) (is64BitValue : Bool) :
    (itoaText raw signedValue base is64BitValue).length =
      (reversedDigits base (itoaValue raw signedValue is64BitValue)).length +
        if itoaNegative raw signedValue is64BitValue then 1 else 0 := by
  rw [itoaText, List.length_reverse, List.length_append]
  split <;> rfl

def zeroDigit (value : Nat) : List UInt8 := if 0 = value then [0x30] else []

theorem zeroDigit_digits (base value : Nat) :
    zeroDigit value ++ (Nat.digits base value).map digitChar = reversedDigits base value := by
  rw [zeroDigit, reversedDigits]
  by_cases zero : 0 = value
  · rw [if_pos zero, if_pos zero.symm, ← zero, Nat.digits_zero]
    rfl
  · rw [if_neg zero, if_neg (Ne.symm zero), List.nil_append]

theorem writeZero_eq (accessible : memory.Accessible buffer count) (room : 0 < count) (value : Nat) :
    writeZero value buffer memory = .ok (memory.write buffer (zeroDigit value), (zeroDigit value).length) := by
  rw [writeZero, zeroDigit]
  by_cases zero : 0 = value
  · have stored := @Bytes.store_write memory buffer count 0x30 [] accessible room
    rw [Bytes.write_nil, List.length_nil, Nat.add_zero] at stored
    rw [if_pos zero, if_pos zero, stored]
    rfl
  · rw [if_neg zero, if_neg zero, Bytes.write_nil]
    rfl

theorem writeSign_eq (accessible : memory.Accessible buffer count) (small : count < 2 ^ 32) (text : List UInt8)
    (negative : Bool) (room : (text.length + if negative then 1 else 0) < count) :
    writeSign negative buffer text.length (memory.write buffer text) =
      .ok (memory.write buffer (text ++ if negative then [0x2D] else []),
        (text ++ if negative then [0x2D] else []).length) := by
  rw [writeSign]
  cases negative with
  | true =>
    simp only [if_true] at room ⊢
    rw [Bytes.store_write accessible (by omega), Access.ok_bind, dword_of_lt (by omega), List.length_append]
    rfl
  | false =>
    simp only [Bool.false_eq_true, if_false, List.append_nil]
    rfl

theorem itoa_eq (positional : 1 < base) (nonNull : buffer ≠ 0) (raw : Nat) (signedValue is64BitValue : Bool)
    (accessible : memory.Accessible buffer count) (small : count < 2 ^ 32)
    (room : (itoaText raw signedValue base is64BitValue).length < count) {fuel : Nat}
    (enough : (Nat.digits base (itoaValue raw signedValue is64BitValue)).length < fuel) :
    itoa fuel memory raw signedValue buffer base is64BitValue =
      .ok (memory.write buffer (itoaText raw signedValue base is64BitValue ++ [0])) := by
  have lengths := itoaText_length raw signedValue base is64BitValue
  rw [itoa, bne_iff_ne.mpr (Ne.symm nonNull), Access.assert_true, Access.ok_bind,
    bne_iff_ne.mpr (by omega : 0 ≠ base), Access.assert_true, Access.ok_bind]
  simp only [itoaText] at room lengths ⊢
  generalize itoaValue raw signedValue is64BitValue = value at room lengths enough ⊢
  generalize itoaNegative raw signedValue is64BitValue = negative at room lengths ⊢
  rw [lengths] at room
  have parts := congrArg List.length (zeroDigit_digits base value)
  rw [List.length_append, List.length_map] at parts
  have first := writeZero_eq accessible (Nat.zero_lt_of_lt room) value
  have second := writeDigits_eq positional accessible small fuel value (zeroDigit value) enough (by omega)
  rw [zeroDigit_digits, parts] at second
  have third := writeSign_eq accessible small (reversedDigits base value) negative room
  have whole : (reversedDigits base value ++ if negative then [0x2D] else []).length < count := by
    rw [List.length_append]
    cases negative with
    | true => exact room
    | false => exact room
  have terminated := @Bytes.store_write memory buffer count 0 _ accessible whole
  rw [first, Access.ok_bind]
  simp only [second, Access.ok_bind, third, terminated]
  exact reverse_terminated _ _

theorem digitChar_read {digit : Nat} (small : digit < 36) :
    digitChar digit ≠ 0 ∧ digitChar digit ≠ 0x2D ∧ isascii (digitChar digit) = true ∧
      charValue (tolower (digitChar digit)) = digit := by
  have all : forall d : Fin 36, digitChar d ≠ 0 ∧ digitChar d ≠ 0x2D ∧ isascii (digitChar d) = true ∧
      charValue (tolower (digitChar d)) = d := by decide
  exact all ⟨digit, small⟩

def horner (base : Nat) (digits : List Nat) (value : Nat) : Nat :=
  digits.foldl (fun value digit => value * base + digit) value

theorem horner_reverse (base value : Nat) : horner base (Nat.digits base value).reverse 0 = value := by
  have read := Nat.ofDigits_eq_foldr base (Nat.digits base value)
  rw [Nat.ofDigits_digits] at read
  rw [horner, List.foldl_reverse]
  refine Eq.trans ?_ read.symm
  congr 1
  funext digit rest
  rw [Nat.mul_comm, Nat.add_comm]
  rfl

attribute [local simp] readDigits in
theorem readDigits_eq (few : base ≤ 36) (fuel i : Nat) (digits : List Nat) (value : Nat)
    (below : forall digit, digit ∈ digits -> digit < base)
    (holds : memory.Holds (buffer + i) (digits.map digitChar ++ [0])) (small : i + digits.length < 2 ^ 32)
    (enough : digits.length < fuel) :
    readDigits memory buffer base fuel i (qword value) = .ok (qword (horner base digits value)) := by
  induction fuel generalizing i digits value with
  | zero => omega
  | succ fuel ih =>
    rw [readDigits]
    cases digits with
    | nil =>
      have ended : memory.load (buffer + i) = .ok 0 := holds.load (i := 0) rfl
      rw [ended, Access.ok_bind, if_pos rfl]
      rfl
    | cons digit rest =>
      have less := below digit List.mem_cons_self
      obtain ⟨some_, _, ascii, read⟩ := digitChar_read (less.trans_le few)
      have first : memory.load (buffer + i) = .ok (digitChar digit) := holds.load (i := 0) rfl
      rw [List.length_cons] at small enough
      have behind : memory.Holds (buffer + (i + 1)) (rest.map digitChar ++ [0]) := by
        intro j byte here
        have there := holds (j + 1) byte here
        have place : buffer + i + (j + 1) = buffer + (i + 1) + j := by omega
        rwa [place] at there
      have wraps : qword (qword value * base + digit) = qword (value * base + digit) := by
        rw [qword, qword, qword, Nat.add_mod, Nat.mul_mod, Nat.mod_mod, ← Nat.mul_mod, ← Nat.add_mod]
      rw [first, Access.ok_bind, if_neg some_, ascii, Access.assert_true, Access.ok_bind, read, decide_eq_true less,
        Access.assert_true, Access.ok_bind, wraps, dword_of_lt (by omega)]
      exact ih (i + 1) rest (value * base + digit) (fun digit member => below digit (List.mem_cons_of_mem _ member))
        behind (by omega) (by omega)

def orderedDigits (base value : Nat) : List Nat := if value = 0 then [0] else (Nat.digits base value).reverse

theorem reversedDigits_reverse (base value : Nat) :
    (reversedDigits base value).reverse = (orderedDigits base value).map digitChar := by
  rw [reversedDigits, orderedDigits]
  split
  · rfl
  · rw [List.map_reverse]

theorem orderedDigits_below (positional : 1 < base) {value digit : Nat} (member : digit ∈ orderedDigits base value) :
    digit < base := by
  rw [orderedDigits] at member
  split at member
  · rw [List.mem_singleton.mp member]
    omega
  · exact Nat.digits_lt_base positional (List.mem_reverse.mp member)

theorem horner_ordered (base value : Nat) : horner base (orderedDigits base value) 0 = value := by
  rw [orderedDigits]
  split
  next zero => rw [zero, horner, List.foldl_cons, Nat.zero_mul]; rfl
  next => exact horner_reverse base value

theorem orderedDigits_cons (positional : 1 < base) (value : Nat) :
    ∃ digit rest, orderedDigits base value = digit :: rest ∧ digit < base := by
  have some_ : orderedDigits base value ≠ [] := by
    rw [orderedDigits]
    split
    · exact List.cons_ne_nil _ _
    next other => exact mt List.reverse_eq_nil_iff.mp (mt Nat.digits_eq_nil_iff_eq_zero.mp other)
  obtain ⟨digit, rest, shape⟩ := List.exists_cons_of_ne_nil some_
  exact ⟨digit, rest, shape, orderedDigits_below positional (by rw [shape]; exact List.mem_cons_self)⟩

theorem itoaText_eq (raw : Nat) (signedValue : Bool) (base : Nat) (is64BitValue : Bool) :
    itoaText raw signedValue base is64BitValue =
      (if itoaNegative raw signedValue is64BitValue then [0x2D] else []) ++
        (orderedDigits base (itoaValue raw signedValue is64BitValue)).map digitChar := by
  rw [itoaText, List.reverse_append, reversedDigits_reverse]
  split <;> rfl

theorem itoaValue_lt (raw : Nat) (signedValue is64BitValue : Bool) : itoaValue raw signedValue is64BitValue < 2 ^ 64 := by
  have wide := qword_lt raw
  have narrow := dword_lt raw
  have negated := dword_lt (2 ^ 32 - dword raw)
  rw [itoaValue, signExtend]
  split_ifs
  · exact qword_lt _
  · exact wide
  · omega
  · omega
  · omega

theorem readText_eq (positional : 1 < base) (few : base ≤ 36) (value i fuel : Nat)
    (holds : memory.Holds (buffer + i) ((orderedDigits base value).map digitChar ++ [0]))
    (small : i + (orderedDigits base value).length < 2 ^ 32) (enough : (orderedDigits base value).length < fuel) :
    readDigits memory buffer base fuel i 0 = .ok (qword value) := by
  have run := readDigits_eq few fuel i (orderedDigits base value) 0 (fun digit => orderedDigits_below positional) holds
    small enough
  rwa [horner_ordered] at run

theorem itoaValue_positive {raw : Nat} {signedValue is64BitValue : Bool}
    (positive : itoaNegative raw signedValue is64BitValue = false) :
    itoaValue raw signedValue is64BitValue = if is64BitValue then qword raw else dword raw := by
  rw [itoaValue, positive]
  rfl

theorem itoaValue_negative {raw : Nat} {signedValue is64BitValue : Bool}
    (negative : itoaNegative raw signedValue is64BitValue = true) :
    (if is64BitValue then qword (2 ^ 64 - itoaValue raw signedValue is64BitValue)
      else dword (qword (2 ^ 64 - itoaValue raw signedValue is64BitValue))) =
      if is64BitValue then qword raw else dword raw := by
  have wide := qword_lt raw
  have narrow := dword_lt raw
  have sign := negative
  rw [itoaNegative, Bool.and_eq_true] at sign
  rw [itoaValue, negative]
  cases is64BitValue with
  | true =>
    have high : 2 ^ 63 ≤ qword raw := of_decide_eq_true sign.2
    have magnitude : qword (2 ^ 64 - qword raw) = 2 ^ 64 - qword raw := qword_of_lt (by omega)
    have back : 2 ^ 64 - (2 ^ 64 - qword raw) = qword raw := by omega
    rw [if_pos rfl, if_pos rfl, if_pos rfl, if_pos rfl, magnitude, back, qword_of_lt wide]
  | false =>
    have high : 2 ^ 31 ≤ dword raw := of_decide_eq_true sign.2
    have magnitude : dword (2 ^ 32 - dword raw) = 2 ^ 32 - dword raw := dword_of_lt (by omega)
    rw [if_neg Bool.false_ne_true, if_neg Bool.false_ne_true, if_neg Bool.false_ne_true, if_pos rfl, magnitude, signExtend]
    by_cases least : 2 ^ 32 - dword raw < 2 ^ 31
    · have back : 2 ^ 64 - (2 ^ 32 - dword raw) = dword raw + (2 ^ 64 - 2 ^ 32) := by omega
      have whole : qword (dword raw + (2 ^ 64 - 2 ^ 32)) = dword raw + (2 ^ 64 - 2 ^ 32) := qword_of_lt (by omega)
      rw [if_pos least, back, whole]
      simp only [dword]
      omega
    · have back : 2 ^ 64 - (2 ^ 32 - dword raw + (2 ^ 64 - 2 ^ 32)) = dword raw := by omega
      rw [if_neg least, back, qword_of_lt (by omega), dword_of_lt narrow]

theorem atoi_eq (positional : 1 < base) (few : base ≤ 36) (nonNull : buffer ≠ 0) (raw : Nat)
    (signedValue is64BitValue : Bool)
    (holds : memory.Holds buffer (itoaText raw signedValue base is64BitValue ++ [0]))
    (small : (itoaText raw signedValue base is64BitValue).length < 2 ^ 32) {fuel : Nat}
    (enough : (itoaText raw signedValue base is64BitValue).length < fuel) :
    atoi fuel memory buffer base is64BitValue = .ok (if is64BitValue then qword raw else dword raw) := by
  have bound := itoaValue_lt raw signedValue is64BitValue
  rw [itoaText_eq, List.append_assoc] at holds
  rw [itoaText_eq, List.length_append, List.length_map] at small enough
  obtain ⟨digit, rest, shape, less⟩ := orderedDigits_cons positional (itoaValue raw signedValue is64BitValue)
  rw [atoi, bne_iff_ne.mpr (Ne.symm nonNull), Access.assert_true, Access.ok_bind,
    bne_iff_ne.mpr (by omega : 0 ≠ base), Access.assert_true, Access.ok_bind]
  cases negative : itoaNegative raw signedValue is64BitValue with
  | true =>
    rw [negative, if_pos rfl] at holds small enough
    rw [List.length_singleton] at small enough
    have first : memory.load buffer = .ok 0x2D := holds.load (i := 0) rfl
    have behind : memory.Holds (buffer + 1) ((orderedDigits base (itoaValue raw signedValue is64BitValue)).map digitChar ++ [0]) :=
      (Bytes.Holds.append.mp holds).2
    have read := readText_eq positional few _ 1 fuel behind small (by omega)
    rw [qword_of_lt bound] at read
    rw [first, Access.ok_bind]
    simp only [beq_self_eq_true, if_true, read, Access.ok_bind, Bool.true_or, Access.assert_true]
    rw [← itoaValue_negative negative]
    cases is64BitValue <;> rfl
  | false =>
    rw [negative, if_neg Bool.false_ne_true, List.nil_append] at holds
    rw [negative, if_neg Bool.false_ne_true, List.length_nil, Nat.zero_add] at small enough
    have first : memory.load buffer = .ok (digitChar digit) := by
      rw [shape] at holds
      exact holds.load (i := 0) rfl
    have sign : (digitChar digit == 0x2D) = false := beq_eq_false_iff_ne.mpr (digitChar_read (less.trans_le few)).2.1
    have read := readText_eq positional few _ 0 fuel holds (by omega) enough
    rw [qword_of_lt bound] at read
    rw [first, Access.ok_bind]
    simp only [sign, Bool.false_eq_true, if_false, read, Access.ok_bind, Bool.false_or]
    rw [itoaValue_positive negative]
    cases is64BitValue with
    | true => rfl
    | false =>
      have narrow : decide (dword raw ≤ maxDword) = true := decide_eq_true (Nat.le_sub_one_of_lt (dword_lt raw))
      simp only [Bool.false_eq_true, if_false, narrow, Access.assert_true, Access.ok_bind, dword_of_lt (dword_lt raw)]
      rfl

def LeastNarrow (raw : Nat) (signedValue is64BitValue : Bool) : Prop :=
  signedValue = true ∧ is64BitValue = false ∧ dword raw = 2 ^ 31

theorem number_eq (raw : Nat) (signedValue is64BitValue : Bool) :
    number raw signedValue is64BitValue =
      (if is64BitValue then
        if itoaNegative raw signedValue is64BitValue then (qword raw : Int) - 2 ^ 64 else qword raw
      else
        if itoaNegative raw signedValue is64BitValue then (dword raw : Int) - 2 ^ 32 else dword raw : Int) := by
  cases signedValue with
  | false =>
    have positive : itoaNegative raw false is64BitValue = false := rfl
    rw [number, positive, if_neg Bool.false_ne_true, if_neg Bool.false_ne_true, if_neg Bool.false_ne_true,
      BitVec.toNat_ofNat, BitVec.toNat_ofNat]
    rfl
  | true =>
    rw [number, if_pos rfl, BitVec.toInt_eq_toNat_cond, BitVec.toInt_eq_toNat_cond, BitVec.toNat_ofNat,
      BitVec.toNat_ofNat]
    cases is64BitValue with
    | true =>
      rw [if_pos rfl, if_pos rfl]
      by_cases high : 2 ^ 63 ≤ qword raw
      · have negative : itoaNegative raw true true = true := decide_eq_true high
        rw [negative, if_pos rfl]
        simp only [qword] at high ⊢
        omega
      · have positive : itoaNegative raw true true = false := decide_eq_false high
        rw [positive, if_neg Bool.false_ne_true]
        simp only [qword] at high ⊢
        omega
    | false =>
      rw [if_neg Bool.false_ne_true, if_neg Bool.false_ne_true]
      by_cases high : 2 ^ 31 ≤ dword raw
      · have negative : itoaNegative raw true false = true := decide_eq_true high
        rw [negative, if_pos rfl]
        simp only [dword] at high ⊢
        omega
      · have positive : itoaNegative raw true false = false := decide_eq_false high
        rw [positive, if_neg Bool.false_ne_true]
        simp only [dword] at high ⊢
        omega

theorem number_negative (raw : Nat) (signedValue is64BitValue : Bool) :
    number raw signedValue is64BitValue < 0 ↔ itoaNegative raw signedValue is64BitValue = true := by
  have wide := qword_lt raw
  have narrow := dword_lt raw
  rw [number_eq]
  constructor
  · intro below
    by_contra positive
    simp only [positive, if_false] at below
    split at below <;> omega
  · intro negative
    simp only [negative, if_true]
    split <;> omega

theorem number_natAbs {raw : Nat} {signedValue is64BitValue : Bool} (fine : ¬ LeastNarrow raw signedValue is64BitValue) :
    (number raw signedValue is64BitValue).natAbs = itoaValue raw signedValue is64BitValue := by
  have wide := qword_lt raw
  have narrow := dword_lt raw
  cases negative : itoaNegative raw signedValue is64BitValue with
  | false =>
    rw [itoaValue_positive negative, number_eq, negative, if_neg Bool.false_ne_true, if_neg Bool.false_ne_true]
    cases is64BitValue <;> rfl
  | true =>
    have sign := negative
    rw [itoaNegative, Bool.and_eq_true] at sign
    rw [number_eq, itoaValue, negative]
    cases is64BitValue with
    | true =>
      have high : 2 ^ 63 ≤ qword raw := of_decide_eq_true sign.2
      have magnitude : qword (2 ^ 64 - qword raw) = 2 ^ 64 - qword raw := qword_of_lt (by omega)
      rw [if_pos rfl, if_pos rfl, if_pos rfl, if_pos rfl, magnitude]
      omega
    | false =>
      have high : 2 ^ 31 ≤ dword raw := of_decide_eq_true sign.2
      have other : dword raw ≠ 2 ^ 31 := fun least => fine ⟨sign.1, rfl, least⟩
      have magnitude : dword (2 ^ 32 - dword raw) = 2 ^ 32 - dword raw := dword_of_lt (by omega)
      rw [if_neg Bool.false_ne_true, if_neg Bool.false_ne_true, if_pos rfl, if_pos rfl, magnitude, signExtend,
        if_pos (by omega)]
      omega

theorem digitChar_numeralDigit {digit : Nat} (small : digit < 36) : digitChar digit = numeralDigit digit := by
  have all : forall d : Fin 36, digitChar d = numeralDigit d := by decide
  exact all ⟨digit, small⟩

theorem numeral_eq (positional : 1 < base) (few : base ≤ 36) (number : Int) :
    numeral base number = (if number < 0 then [0x2D] else []) ++ (orderedDigits base number.natAbs).map digitChar := by
  have written : (orderedDigits base number.natAbs).map digitChar =
      (orderedDigits base number.natAbs).map numeralDigit :=
    List.map_congr_left (fun _ member =>
      digitChar_numeralDigit ((orderedDigits_below positional member).trans_le few))
  rw [numeral, written, orderedDigits]
  by_cases zero : number = 0
  · rw [if_pos zero, if_pos (Int.natAbs_eq_zero.mpr zero)]
  · rw [if_neg zero, if_neg (mt Int.natAbs_eq_zero.mp zero)]

theorem itoaText_numeral (positional : 1 < base) (few : base ≤ 36) {raw : Nat} {signedValue is64BitValue : Bool}
    (fine : ¬ LeastNarrow raw signedValue is64BitValue) :
    itoaText raw signedValue base is64BitValue = numeral base (number raw signedValue is64BitValue) := by
  rw [itoaText_eq, numeral_eq positional few, number_natAbs fine]
  simp only [number_negative]

theorem orderedDigits_length {value : Nat} (positive : 0 < value) :
    (orderedDigits base value).length = (Nat.digits base value).length := by
  rw [orderedDigits, if_neg (by omega), List.length_reverse]

theorem leastNarrow_value {raw : Nat} {signedValue is64BitValue : Bool} (least : LeastNarrow raw signedValue is64BitValue) :
    itoaNegative raw signedValue is64BitValue = true ∧ itoaValue raw signedValue is64BitValue = 2 ^ 64 - 2 ^ 31 := by
  obtain ⟨rfl, rfl, bits⟩ := least
  have negative : itoaNegative raw true false = true := by
    rw [itoaNegative, bits]
    rfl
  have same : dword (2 ^ 32 - 2 ^ 31) = 2 ^ 31 := dword_of_lt (by omega)
  refine ⟨negative, ?_⟩
  simp only [itoaValue, negative, bits, Bool.false_eq_true, if_false, if_true, same, signExtend, Nat.lt_irrefl]
  omega

-- The widened value has more digits: it is at least `base` times the right one.
theorem numeral_length (positional : 1 < base) (few : base ≤ 36) {raw : Nat} {signedValue is64BitValue : Bool}
    (least : LeastNarrow raw signedValue is64BitValue) :
    (numeral base (number raw signedValue is64BitValue)).length < (itoaText raw signedValue base is64BitValue).length := by
  obtain ⟨negative, wrong⟩ := leastNarrow_value least
  have right : (number raw signedValue is64BitValue).natAbs = 2 ^ 31 := by
    obtain ⟨rfl, rfl, bits⟩ := least
    simp only [number_eq, negative, bits, Bool.false_eq_true, if_false, if_true]
    omega
  have longer := congrArg List.length (Nat.digits_base_mul positional (Nat.two_pow_pos 31))
  rw [List.length_cons] at longer
  have grows : (Nat.digits base (base * 2 ^ 31)).length ≤ (Nat.digits base (2 ^ 64 - 2 ^ 31)).length :=
    Nat.le_length_digits_le base _ _ (by omega)
  rw [numeral_eq positional few, itoaText_eq, right, wrong, negative, if_pos ((number_negative ..).mpr negative), if_pos rfl,
    List.length_append, List.length_append, List.length_map, List.length_map,
    orderedDigits_length (Nat.two_pow_pos 31), orderedDigits_length (by omega)]
  omega

theorem itoaText_short (positional : 1 < base) (raw : Nat) (signedValue is64BitValue : Bool) :
    (Nat.digits base (itoaValue raw signedValue is64BitValue)).length ≤ 64 := by
  have bound := itoaValue_lt raw signedValue is64BitValue
  rw [Nat.digits_length_le_iff positional]
  exact bound.trans_le (Nat.pow_le_pow_left positional 64)

theorem itoa_ok (positional : 1 < base) {raw fuel : Nat} {signedValue is64BitValue : Bool} {after : Bytes}
    (nonZero : itoaValue raw signedValue is64BitValue ≠ 0) (negative : itoaNegative raw signedValue is64BitValue = true)
    (run : itoa fuel memory raw signedValue buffer base is64BitValue = .ok after) :
    (Nat.digits base (itoaValue raw signedValue is64BitValue)).length < fuel ∧
      memory.Accessible buffer ((itoaText raw signedValue base is64BitValue).length + 1) := by
  have short := itoaText_short positional raw signedValue is64BitValue
  have length : (itoaText raw signedValue base is64BitValue).length =
      (Nat.digits base (itoaValue raw signedValue is64BitValue)).length + 1 := by
    rw [itoaText_length, negative, if_pos rfl, reversedDigits, if_neg nonZero, List.length_map]
  have noZero : writeZero (itoaValue raw signedValue is64BitValue) buffer memory = .ok (memory, 0) := by
    rw [writeZero, if_neg (Ne.symm nonZero)]
    rfl
  rw [itoa] at run
  obtain ⟨_, _, run⟩ := Access.bind_eq_ok.mp run
  obtain ⟨_, _, run⟩ := Access.bind_eq_ok.mp run
  simp only [noZero, Access.ok_bind] at run
  obtain ⟨⟨digits, index⟩, written, run⟩ := Access.bind_eq_ok.mp run
  obtain ⟨fewer, rfl, inside, kept⟩ := writeDigits_ok positional _ _ 0 memory digits index (by omega) written
  obtain ⟨⟨signed, index⟩, sign, run⟩ := Access.bind_eq_ok.mp run
  rw [writeSign, negative, if_pos rfl] at sign
  obtain ⟨stored, there, sign⟩ := Access.bind_eq_ok.mp sign
  obtain ⟨signPlace, rfl⟩ := Bytes.store_eq_ok.mp there
  cases sign
  obtain ⟨terminated, there, _⟩ := Access.bind_eq_ok.mp run
  obtain ⟨endPlace, _⟩ := Bytes.store_eq_ok.mp there
  rw [dword_of_lt (by omega)] at endPlace
  refine ⟨fewer, fun i within => ?_⟩
  rw [length] at within
  by_cases digit : i < (Nat.digits base (itoaValue raw signedValue is64BitValue)).length
  · exact inside i digit
  by_cases last : i = (Nat.digits base (itoaValue raw signedValue is64BitValue)).length
  · rw [last, ← Nat.zero_add (Nat.digits base _).length]
    exact kept _ signPlace
  · have place : i = 0 + (Nat.digits base (itoaValue raw signedValue is64BitValue)).length + 1 := by omega
    rw [place]
    exact kept _ (Bytes.put_some signPlace endPlace)

theorem itoaText_nonZero (positional : 1 < base) (few : base ≤ 36) {raw : Nat} {signedValue is64BitValue : Bool} {c : UInt8}
    (member : c ∈ itoaText raw signedValue base is64BitValue) : c ≠ 0 := by
  rw [itoaText_eq] at member
  rcases List.mem_append.mp member with sign | digit
  · split at sign
    · rw [List.mem_singleton.mp sign]
      decide
    · exact absurd sign List.not_mem_nil
  · obtain ⟨digit, inside, rfl⟩ := List.mem_map.mp digit
    exact (digitChar_read ((orderedDigits_below positional inside).trans_le few)).1

theorem itoaText_bounded (positional : 1 < base) (raw : Nat) (signedValue is64BitValue : Bool) :
    (itoaText raw signedValue base is64BitValue).length ≤ 65 := by
  have short := itoaText_short positional raw signedValue is64BitValue
  have digits : (reversedDigits base (itoaValue raw signedValue is64BitValue)).length ≤ 64 := by
    rw [reversedDigits]
    split
    · decide
    · rwa [List.length_map]
  rw [itoaText_length]
  split <;> omega

theorem fine_of_converts (positional : 1 < base) (few : base ≤ 36) (nonNull : buffer ≠ 0) {raw : Nat}
    {signedValue is64BitValue : Bool} (converts : Converts memory raw signedValue buffer base is64BitValue) :
    ¬ LeastNarrow raw signedValue is64BitValue := by
  intro least
  have bounded := itoaText_bounded positional raw signedValue is64BitValue
  obtain ⟨fuel, after, run, holds, _⟩ := converts
  obtain ⟨negative, wrong⟩ := leastNarrow_value least
  obtain ⟨enough, inside⟩ := itoa_ok positional (by omega) negative run
  have longer := numeral_length positional few least
  rw [itoa_eq positional nonNull raw signedValue is64BitValue inside (by omega) (Nat.lt_succ_self _) enough] at run
  cases run
  have ended := holds _ 0 List.getElem?_concat_length
  rw [Bytes.write_at (by rw [List.length_append]; omega), List.getElem?_append_left longer] at ended
  exact itoaText_nonZero positional few (List.mem_of_getElem? ended) rfl

theorem converts_of_fine (positional : 1 < base) (few : base ≤ 36) (nonNull : buffer ≠ 0) {raw : Nat}
    {signedValue is64BitValue : Bool}
    (room : memory.Accessible buffer ((numeral base (number raw signedValue is64BitValue)).length + 1))
    (fine : ¬ LeastNarrow raw signedValue is64BitValue) : Converts memory raw signedValue buffer base is64BitValue := by
  have short := itoaText_short positional raw signedValue is64BitValue
  have bounded := itoaText_bounded positional raw signedValue is64BitValue
  have same := itoaText_numeral positional few fine
  rw [← same] at room
  have run : itoa 66 memory raw signedValue buffer base is64BitValue = .ok _ :=
    itoa_eq positional nonNull raw signedValue is64BitValue room (by omega) (Nat.lt_succ_self _) (by omega)
  have back : atoi 66 (memory.write buffer (itoaText raw signedValue base is64BitValue ++ [0])) buffer base is64BitValue =
      .ok (if is64BitValue then qword raw else dword raw) :=
    atoi_eq positional few nonNull raw signedValue is64BitValue Bytes.write_holds (by omega) (by omega)
  refine ⟨66, _, run, ?_, fun place outside => Bytes.write_elsewhere ?_, back⟩
  · rw [← same]
    exact Bytes.write_holds
  · rw [← same] at outside
    rw [List.length_append, List.length_singleton]
    omega

end Digits

theorem conversions_exact_iff {memory : Bytes} {buffer base : Nat} (positional : 1 < base) (few : base ≤ 36)
    (nonNull : buffer ≠ 0) (raw : Nat) (signedValue is64BitValue : Bool)
    (room : memory.Accessible buffer ((numeral base (number raw signedValue is64BitValue)).length + 1)) :
    Converts memory raw signedValue buffer base is64BitValue ↔ ¬ LeastNarrow raw signedValue is64BitValue :=
  ⟨fine_of_converts positional few nonNull, converts_of_fine positional few nonNull room⟩

theorem conversions_exact_sample : Converts (Bytes.object 1 (List.replicate 66 0)) (2 ^ 63) true 1 2 true :=
  (conversions_exact_iff (by decide) (by decide) (by decide) (2 ^ 63) true true
    (fun i inside => (Bytes.object_holds 1 (List.replicate 66 0)).accessible i
      (Nat.lt_of_lt_of_le inside (by decide)))).mpr (fun least => nomatch least.2.1)

-- The least signed 32-bit value in decimal is written as -18446744071562067968.
theorem conversions_widened :
    (itoa 22 (Bytes.object 1 (List.replicate 32 0)) (2 ^ 31) true 1 10 false).map (fun after => (List.range' 1 22).map after) =
        .ok ([0x2D, 0x31, 0x38, 0x34, 0x34, 0x36, 0x37, 0x34, 0x34, 0x30, 0x37, 0x31, 0x35, 0x36, 0x32, 0x30, 0x36, 0x37,
          0x39, 0x36, 0x38, 0].map some) ∧
      ¬ Converts (Bytes.object 1 (List.replicate 32 0)) (2 ^ 31) true 1 10 false :=
  ⟨by rfl, fun converts => fine_of_converts (by decide) (by decide) (by decide) converts ⟨rfl, rfl, rfl⟩⟩

end Hal9000
