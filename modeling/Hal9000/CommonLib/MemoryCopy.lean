import Hal9000.CommonLib.Base
import Hal9000.Lib.Bytes
import Mathlib.Tactic.IntervalCases

set_option autoImplicit false

namespace Hal9000

open Lib (Bytes Access)

def moveBytes (destination source : Nat) : (i remaining : Nat) -> Bytes -> Access Bytes
  | _, 0, memory => pure memory
  | i, remaining + 1, memory => do
    let byte <- memory.load (source + i)
    let memory <- memory.store (destination + i) byte
    moveBytes destination source (i + 1) remaining memory

def clMemmove (memory : Bytes) (destination source count : Nat) : Access Bytes :=
  if 0 = destination ∨ 0 = source then pure memory
  else moveBytes destination source 0 count memory

def loadWord (memory : Bytes) : (width address : Nat) -> Access (List UInt8)
  | 0, _ => pure []
  | width + 1, address => do
    let byte <- memory.load address
    let rest <- loadWord memory width (address + 1)
    pure (byte :: rest)

def storeWord (memory : Bytes) : (address : Nat) -> List UInt8 -> Access Bytes
  | _, [] => pure memory
  | address, byte :: rest => do
    let memory <- memory.store address byte
    storeWord memory (address + 1) rest

def copyWord (width destination source : Nat) (memory : Bytes) : Access Bytes := do
  let word <- loadWord memory width source
  storeWord memory destination word

def movsq (destination source : Nat) : Nat -> Bytes -> Access Bytes
  | 0, memory => pure memory
  | count + 1, memory => do
    let memory <- copyWord 8 destination source memory
    movsq (destination + 8) (source + 8) count memory

def copyHead (unalignedCount width destination source : Nat) : Bytes × Nat -> Access (Bytes × Nat)
  | (memory, advanced) =>
    if unalignedCount &&& width ≠ 0 then do
      let memory <- copyWord width (destination + advanced) (source + advanced) memory
      pure (memory, advanced + width)
    else pure (memory, advanced)

def clMemcpy (memory : Bytes) (destination source count : Nat) : Access Bytes :=
  if 0 = destination ∨ 0 = source then pure memory
  else do
    let unalignedCount := count &&& 0x7
    let alignedCount := count - unalignedCount
    let copied <- copyHead unalignedCount 4 destination source (memory, 0)
    let copied <- copyHead unalignedCount 2 destination source copied
    let (memory, _) <- copyHead unalignedCount 1 destination source copied
    if 0 ≠ alignedCount then do
      Access.assert (isAddressAligned alignedCount 8) "IsAddressAligned(alignedCount, sizeof(QWORD))"
      movsq (destination + unalignedCount) (source + unalignedCount) (alignedCount / 8) memory
    else pure memory

structure Moved (before after : Bytes) (destination source count : Nat) : Prop where
  moved : forall i, i < count -> after (destination + i) = before (source + i)
  others : forall address, ¬ (destination ≤ address ∧ address < destination + count) -> after address = before address

section Move

variable {memory : Bytes} {destination source count : Nat}

def movedByte (memory : Bytes) (destination source i : Nat) : Option UInt8 :=
  memory (source + if source < destination then i % (destination - source) else i)

def movedTo (memory : Bytes) (destination source count : Nat) : Bytes := fun address =>
  if destination ≤ address ∧ address < destination + count then
    movedByte memory destination source (address - destination)
  else memory address

theorem movedTo_at {i : Nat} (inside : i < count) :
    movedTo memory destination source count (destination + i) = movedByte memory destination source i := by
  rw [movedTo, if_pos ⟨Nat.le_add_right _ _, Nat.add_lt_add_left inside _⟩, Nat.add_sub_cancel_left]

theorem movedTo_source (i : Nat) :
    movedTo memory destination source i (source + i) = movedByte memory destination source i := by
  rcases Nat.lt_or_ge source destination with behind | ahead
  · rcases Nat.lt_or_ge i (destination - source) with before | past
    · rw [movedTo, if_neg (by omega), movedByte, if_pos behind, Nat.mod_eq_of_lt before]
    · have distance : source + i - destination = i - (destination - source) := by omega
      rw [movedTo, if_pos (by omega), distance, movedByte, movedByte, if_pos behind, if_pos behind,
        Nat.mod_eq_sub_mod past]
  · rw [movedTo, if_neg (by omega), movedByte, if_neg (by omega)]

theorem movedTo_succ {i : Nat} {byte : UInt8} (here : movedByte memory destination source i = some byte) :
    (movedTo memory destination source i).put (destination + i) byte = movedTo memory destination source (i + 1) := by
  funext address
  by_cases last : address = destination + i
  · rw [last, Bytes.put_self, movedTo_at (Nat.lt_succ_self i), here]
  · rw [Bytes.put_elsewhere last, movedTo, movedTo]
    have same : (destination ≤ address ∧ address < destination + i) ↔
        (destination ≤ address ∧ address < destination + (i + 1)) := by omega
    simp only [same]

theorem movedTo_zero : movedTo memory destination source 0 = memory := by
  funext address
  rw [movedTo, if_neg (by omega)]

theorem movedByte_accessible (accessible : memory.Accessible source count) {i : Nat} (inside : i < count) :
    ∃ byte, movedByte memory destination source i = some byte := by
  rw [movedByte]
  split
  · exact accessible _ (Nat.lt_of_le_of_lt (Nat.mod_le _ _) inside)
  · exact accessible i inside

theorem movedTo_accessible (target : memory.Accessible destination count) (accessible : memory.Accessible source count)
    {i j : Nat} (inside : j < count) :
    ∃ byte, movedTo memory destination source i (destination + j) = some byte := by
  rw [movedTo]
  split
  next here => exact movedByte_accessible accessible (by omega)
  next => exact target j inside

theorem moveBytes_eq (target : memory.Accessible destination count) (accessible : memory.Accessible source count)
    (i remaining : Nat) (total : i + remaining = count) :
    moveBytes destination source i remaining (movedTo memory destination source i) =
      .ok (movedTo memory destination source count) := by
  induction remaining generalizing i with
  | zero => rw [← total]; rfl
  | succ remaining ih =>
    obtain ⟨byte, here⟩ := @movedByte_accessible memory destination source count accessible i (by omega)
    have read := Bytes.load_eq ((@movedTo_source memory destination source i).trans here)
    have written : (movedTo memory destination source i).store (destination + i) byte =
        .ok (movedTo memory destination source (i + 1)) := by
      rw [Bytes.store_eq (movedTo_accessible target accessible (by omega)), movedTo_succ here]
    rw [moveBytes, read, Access.ok_bind, written, Access.ok_bind]
    exact ih (i + 1) (by omega)

theorem clMemmove_eq (nonNull : destination ≠ 0 ∧ source ≠ 0) (target : memory.Accessible destination count)
    (accessible : memory.Accessible source count) :
    clMemmove memory destination source count = .ok (movedTo memory destination source count) := by
  have run := moveBytes_eq target accessible 0 count (Nat.zero_add count)
  rw [clMemmove, if_neg (by omega), ← run, movedTo_zero]

theorem moved_iff : Moved memory (movedTo memory destination source count) destination source count ↔
    forall i, i < count -> movedByte memory destination source i = memory (source + i) := by
  constructor
  · intro moved i inside
    rw [← moved.moved i inside, movedTo_at inside]
  · intro same
    refine ⟨fun i inside => ?_, fun address outside => if_neg outside⟩
    rw [movedTo_at inside, same i inside]

end Move

section Copy

variable {memory : Bytes} {destination source count width : Nat}

def copiedTo (memory : Bytes) (destination source count : Nat) : Bytes := fun address =>
  if destination ≤ address ∧ address < destination + count then memory (source + (address - destination))
  else memory address

theorem copiedTo_moved : Moved memory (copiedTo memory destination source count) destination source count := by
  refine ⟨fun i inside => ?_, fun address outside => if_neg outside⟩
  rw [copiedTo, if_pos (by omega), Nat.add_sub_cancel_left]

theorem copiedTo_zero : copiedTo memory destination source 0 = memory := by
  funext address
  rw [copiedTo, if_neg (by omega)]

theorem copiedTo_copiedTo {first second : Nat}
    (disjoint : source + (first + second) ≤ destination ∨ destination + first ≤ source) :
    copiedTo (copiedTo memory destination source first) (destination + first) (source + first) second =
      copiedTo memory destination source (first + second) := by
  funext address
  by_cases later : destination + first ≤ address ∧ address < destination + first + second
  · have distance : source + first + (address - (destination + first)) = source + (address - destination) := by omega
    rw [copiedTo, if_pos later, copiedTo, if_neg (by omega), copiedTo, if_pos (by omega), distance]
  · rw [copiedTo, if_neg later, copiedTo, copiedTo]
    have same : (destination ≤ address ∧ address < destination + first) ↔
        (destination ≤ address ∧ address < destination + (first + second)) := by omega
    simp only [same]

theorem loadWord_eq (accessible : memory.Accessible source width) :
    ∃ word, loadWord memory width source = .ok word ∧ word.length = width ∧ memory.Holds source word := by
  induction width generalizing source with
  | zero =>
    refine ⟨[], rfl, rfl, fun i byte here => ?_⟩
    rw [List.getElem?_nil] at here
    cases here
  | succ width ih =>
    obtain ⟨byte, first⟩ := accessible 0 (Nat.succ_pos _)
    obtain ⟨rest, read, length, holds⟩ := @ih (source + 1) (fun i inside => by
      rw [Nat.add_assoc, Nat.add_comm 1]
      exact accessible (i + 1) (by omega))
    refine ⟨byte :: rest, ?_, by rw [List.length_cons, length], ?_⟩
    · have here : memory source = some byte := first
      rw [loadWord, Bytes.load_eq here, Access.ok_bind, read, Access.ok_bind]
      rfl
    · change memory.Holds source ([byte] ++ rest)
      refine Bytes.Holds.append.mpr ⟨fun i other here => ?_, holds⟩
      cases i with
      | zero => rw [first, ← here]; rfl
      | succ i => cases here

theorem storeWord_eq {word : List UInt8} (target : memory.Accessible destination word.length) :
    storeWord memory destination word = .ok fun address =>
      if destination ≤ address ∧ address < destination + word.length then word[address - destination]?
      else memory address := by
  induction word generalizing memory destination with
  | nil =>
    rw [storeWord]
    congr 1
    funext address
    rw [if_neg (by simp only [List.length_nil]; omega)]
  | cons byte rest ih =>
    have inside : ∃ old, memory destination = some old := target 0 (Nat.succ_pos _)
    have behind : memory.Accessible (destination + 1) rest.length := fun i inside => by
      rw [Nat.add_assoc, Nat.add_comm 1]
      exact target (i + 1) (by rw [List.length_cons]; omega)
    rw [storeWord, Bytes.store_eq inside, Access.ok_bind, ih behind.put]
    congr 1
    funext address
    rw [List.length_cons]
    by_cases first : address = destination
    · rw [first, if_neg (by omega), if_pos (by omega), Bytes.put_self, Nat.sub_self]
      rfl
    · rw [Bytes.put_elsewhere first]
      by_cases later : destination + 1 ≤ address ∧ address < destination + 1 + rest.length
      · have distance : address - destination = (address - (destination + 1)) + 1 := by omega
        rw [if_pos later, if_pos (by omega), distance, List.getElem?_cons_succ]
      · rw [if_neg later, if_neg (by omega)]

theorem copyWord_eq (target : memory.Accessible destination width) (accessible : memory.Accessible source width) :
    copyWord width destination source memory = .ok (copiedTo memory destination source width) := by
  obtain ⟨word, read, length, holds⟩ := loadWord_eq accessible
  rw [copyWord, read, Access.ok_bind, storeWord_eq (by rwa [length])]
  congr 1
  funext address
  rw [copiedTo, length]
  split
  next inside =>
    have here : word[address - destination]? = some word[address - destination] :=
      List.getElem?_eq_getElem (by omega)
    rw [holds _ _ here, here]
  next => rfl

theorem copiedTo_accessible {start length : Nat} (accessible : memory.Accessible source count)
    (region : memory.Accessible start length) : (copiedTo memory destination source count).Accessible start length := by
  intro i inside
  rw [copiedTo]
  split
  · exact accessible _ (by omega)
  · exact region i inside

theorem movsq_eq (target : memory.Accessible destination count) (accessible : memory.Accessible source count)
    (disjoint : source + count ≤ destination ∨ destination + count ≤ source) (words advanced : Nat)
    (total : advanced + 8 * words = count) :
    movsq (destination + advanced) (source + advanced) words (copiedTo memory destination source advanced) =
      .ok (copiedTo memory destination source count) := by
  induction words generalizing advanced with
  | zero => rw [← total]; rfl
  | succ words ih =>
    have before : memory.Accessible source advanced := fun i inside => accessible i (by omega)
    have there : memory.Accessible (destination + advanced) 8 := fun i inside => by
      rw [Nat.add_assoc]
      exact target (advanced + i) (by omega)
    have here : memory.Accessible (source + advanced) 8 := fun i inside => by
      rw [Nat.add_assoc]
      exact accessible (advanced + i) (by omega)
    rw [movsq, copyWord_eq (copiedTo_accessible before there) (copiedTo_accessible before here), Access.ok_bind,
      copiedTo_copiedTo (by omega), Nat.add_assoc, Nat.add_assoc]
    exact ih (advanced + 8) (by omega)

def headPart (unalignedCount width : Nat) : Nat := if unalignedCount &&& width ≠ 0 then width else 0

theorem copyHead_eq (target : memory.Accessible destination count) (accessible : memory.Accessible source count)
    (disjoint : source + count ≤ destination ∨ destination + count ≤ source) (unalignedCount width advanced : Nat)
    (room : advanced + headPart unalignedCount width ≤ count) :
    copyHead unalignedCount width destination source (copiedTo memory destination source advanced, advanced) =
      .ok (copiedTo memory destination source (advanced + headPart unalignedCount width),
        advanced + headPart unalignedCount width) := by
  rw [copyHead]
  rw [headPart] at room ⊢
  by_cases part : unalignedCount &&& width ≠ 0
  · rw [if_pos part] at room
    have before : memory.Accessible source advanced := fun i inside => accessible i (by omega)
    have there : memory.Accessible (destination + advanced) width := fun i inside => by
      rw [Nat.add_assoc]
      exact target (advanced + i) (by omega)
    have here : memory.Accessible (source + advanced) width := fun i inside => by
      rw [Nat.add_assoc]
      exact accessible (advanced + i) (by omega)
    rw [if_pos part, if_pos part, copyWord_eq (copiedTo_accessible before there) (copiedTo_accessible before here),
      Access.ok_bind, copiedTo_copiedTo (by omega)]
    rfl
  · rw [if_neg part, if_neg part, Nat.add_zero]
    rfl

theorem headPart_sum {head : Nat} (small : head < 8) : headPart head 4 + headPart head 2 + headPart head 1 = head := by
  interval_cases head <;> rfl

theorem isAddressAligned_qword (words : Nat) : isAddressAligned (8 * words) 8 = true := by
  have eight : 8 = 2 ^ 3 := rfl
  rw [eight]
  have narrow : isAddressAligned (2 ^ 3 * words) (2 ^ 3) = isAddressAligned (qword (2 ^ 3 * words)) (2 ^ 3) := by
    rw [isAddressAligned, isAddressAligned, qword_of_lt (qword_lt _)]
  have multiple : qword (2 ^ 3 * words) % 2 ^ 3 = 0 := by
    simp only [qword]
    omega
  rw [narrow, isAddressAligned_two_pow _ 3 (by decide) (qword_lt _), multiple]
  rfl

theorem clMemcpy_eq (nonNull : destination ≠ 0 ∧ source ≠ 0) (target : memory.Accessible destination count)
    (accessible : memory.Accessible source count)
    (disjoint : source + count ≤ destination ∨ destination + count ≤ source) :
    clMemcpy memory destination source count = .ok (copiedTo memory destination source count) := by
  have head : count &&& 0x7 = count % 8 := Nat.and_two_pow_sub_one_eq_mod count 3
  have parts := headPart_sum (Nat.mod_lt count (by decide : 8 > 0))
  have short : count % 8 ≤ count := Nat.mod_le _ _
  have copies := copyHead_eq target accessible disjoint (count % 8)
  have first := copies 4 0 (by omega)
  have second := copies 2 (headPart (count % 8) 4) (by omega)
  have third := copies 1 (headPart (count % 8) 4 + headPart (count % 8) 2) (by omega)
  rw [copiedTo_zero, Nat.zero_add] at first
  rw [parts] at third
  have pointers : ¬ (0 = destination ∨ 0 = source) := by omega
  rw [clMemcpy, if_neg pointers]
  simp only [head, first, Access.ok_bind, second, third]
  by_cases whole : 0 ≠ count - count % 8
  · have multiple : count - count % 8 = 8 * (count / 8) := by omega
    have words := movsq_eq target accessible disjoint (count / 8) (count % 8) (by omega)
    rw [if_pos whole, multiple, isAddressAligned_qword, Access.assert_true, Access.ok_bind,
      Nat.mul_div_cancel_left _ (by decide), words]
  · have all : count % 8 = count := by omega
    rw [if_neg whole, all]
    rfl

end Copy

-- When `clMemmove` moves: the source is not overtaken, or what it holds repeats at the distance of the two.
structure Movable (memory : Bytes) (destination source count : Nat) : Prop where
  unmoved : destination = 0 ∨ source = 0 -> forall i, i < count -> memory (destination + i) = memory (source + i)
  periodic : destination ≠ 0 -> source ≠ 0 -> source < destination -> forall i, i < count ->
    memory (source + i % (destination - source)) = memory (source + i)

section Exact

variable {memory : Bytes} {destination source count : Nat}

theorem clMemmove_moves (target : memory.Accessible destination count) (accessible : memory.Accessible source count) :
    (∃ after, clMemmove memory destination source count = .ok after ∧ Moved memory after destination source count) ↔
      Movable memory destination source count := by
  by_cases null : 0 = destination ∨ 0 = source
  · have run : clMemmove memory destination source count = .ok memory := if_pos null
    constructor
    · rintro ⟨after, result, moved⟩
      obtain rfl := Except.ok.inj (run.symm.trans result)
      exact ⟨fun _ => moved.moved, fun left right => by omega⟩
    · intro movable
      exact ⟨memory, run, movable.unmoved (by omega), fun _ _ => rfl⟩
  · have run := clMemmove_eq (by omega) target accessible
    constructor
    · rintro ⟨after, result, moved⟩
      obtain rfl := Except.ok.inj (run.symm.trans result)
      refine ⟨fun left => by omega, fun _ _ behind i inside => ?_⟩
      rw [← moved_iff.mp moved i inside, movedByte, if_pos behind]
    · intro movable
      refine ⟨_, run, moved_iff.mpr (fun i inside => ?_)⟩
      rw [movedByte]
      split
      next behind => exact movable.periodic (by omega) (by omega) behind i inside
      next => rfl

theorem memory_moves_iff (memory : Bytes) (destination source count : Nat)
    (target : memory.Accessible destination count) (accessible : memory.Accessible source count) :
    ((∃ after, clMemmove memory destination source count = .ok after ∧ Moved memory after destination source count) ↔
      Movable memory destination source count) ∧
    (destination ≠ 0 -> source ≠ 0 -> source + count ≤ destination ∨ destination + count ≤ source ->
      ∃ after, clMemcpy memory destination source count = .ok after ∧ Moved memory after destination source count) := by
  refine ⟨clMemmove_moves target accessible, fun left right disjoint => ?_⟩
  exact ⟨_, clMemcpy_eq ⟨left, right⟩ target accessible disjoint, copiedTo_moved⟩

def numberedMemory : Bytes := fun place => some (UInt8.ofNat place)

theorem numberedMemory_accessible (address count : Nat) : numberedMemory.Accessible address count :=
  fun i _ => ⟨UInt8.ofNat (address + i), rfl⟩

theorem memory_moves_sample :
    (∃ after, clMemmove numberedMemory 100 102 4 = .ok after ∧ Moved numberedMemory after 100 102 4) ∧
      ∃ after, clMemcpy numberedMemory 100 200 15 = .ok after ∧ Moved numberedMemory after 100 200 15 := by
  constructor
  · refine (memory_moves_iff numberedMemory 100 102 4 (numberedMemory_accessible 100 4)
      (numberedMemory_accessible 102 4)).1.mpr ⟨fun null => ?_, fun _ _ behind => ?_⟩
    · exact absurd null (by decide)
    · exact absurd behind (by decide)
  · exact (memory_moves_iff numberedMemory 100 200 15 (numberedMemory_accessible 100 15)
      (numberedMemory_accessible 200 15)).2 (by decide) (by decide) (by decide)

-- A move of two bytes by one place upwards puts the first byte at both places.
theorem clMemmove_overtakes :
    ∃ after, clMemmove numberedMemory 2 1 2 = .ok after ∧ after 3 = some 1 ∧ numberedMemory 2 = some 2 ∧
      ¬ Moved numberedMemory after 2 1 2 := by
  refine ⟨_, clMemmove_eq (by decide) (numberedMemory_accessible 2 2) (numberedMemory_accessible 1 2), rfl, rfl, ?_⟩
  intro moved
  exact absurd (moved.moved 1 (by decide)) (by decide)

end Exact

end Hal9000
