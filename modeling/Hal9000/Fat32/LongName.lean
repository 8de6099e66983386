import Hal9000.Fat32.DirEntry

set_option autoImplicit false

namespace Hal9000.Fat32

open Lib (Program)
open Lib.Program (fail require modify Returns Fails Stops)

def longNameMaxChars : Nat := 255
def longNameOrdEndMask : Nat := 0x40

def longName1Chars : Nat := 5
def longName2Chars : Nat := 6
def longName3Chars : Nat := 2
def longNameTotalChars : Nat := longName1Chars + longName2Chars + longName3Chars

def ldirOrd (entry : Lib.Memory) : Nat := entry.load 1 0

-- longNames with longNameLengths: where LDIR_Name1, LDIR_Name2 and LDIR_Name3 start in a LONG_DIR_ENTRY,
-- and their characters.
def longNames : List (Nat × Nat) := [(1, longName1Chars), (14, longName2Chars), (28, longName3Chars)]

def longNameOffsets : List Nat :=
  longNames.flatMap fun (start, chars) => (List.range chars).map fun i => start + 2 * i

-- The loops over the characters. The state is the memory from `Buffer` on, what lies behind the buffer included;
-- the result is `bufferWriteIndex`.
def writeCharacters (entry : Lib.Memory) (bufferSize : Nat) : List Nat -> Nat -> Program Lib.Memory Stop Status Nat
  | [], bufferWriteIndex => pure bufferWriteIndex
  | offset :: rest, bufferWriteIndex =>
    if entry offset = 0 then pure bufferWriteIndex
    else if bufferWriteIndex ≥ bufferSize - 1 then fail .bufferTooSmall
    else do
      modify fun buffer => buffer.put bufferWriteIndex (entry offset)
      writeCharacters entry bufferSize rest (bufferWriteIndex + 1)

def entryOrdinal (entry : Lib.Memory) : Nat :=
  dword ((ldirOrd entry &&& (2 ^ 8 - 1 - longNameOrdEndMask)) + 2 ^ 32 - 1)

def lastLongEntry (entry : Lib.Memory) : Bool := isBooleanFlagOn (ldirOrd entry) longNameOrdEndMask

def writePartialLongFatNameToName (entry : Lib.Memory) (bufferSize : Nat) : Program Lib.Memory Stop Status Unit := do
  require (bufferSize != 0) (.assertion "0 != BufferSize")
  let bufferWriteIndex <- writeCharacters entry bufferSize longNameOffsets
    (dword (longNameTotalChars * entryOrdinal entry))
  if lastLongEntry entry then modify fun buffer => buffer.put bufferWriteIndex 0 else pure ()

def writeLongName (bufferSize : Nat) : List Lib.Memory -> Program Lib.Memory Stop Status Unit
  | [] => pure ()
  | entry :: rest => do
    writePartialLongFatNameToName entry bufferSize
    writeLongName bufferSize rest

def namePart (entry : Lib.Memory) (offsets : List Nat) : List UInt8 := (offsets.map fun offset => entry offset).takeWhile (· != 0)

section Characters

variable {entry buffer buffer' : Lib.Memory} {bufferSize offset bufferWriteIndex : Nat} {offsets : List Nat}

theorem namePart_zero (zero : entry offset = 0) : namePart entry (offset :: offsets) = [] := by
  simp [namePart, zero]

theorem namePart_cons (character : entry offset ≠ 0) :
    namePart entry (offset :: offsets) = entry offset :: namePart entry offsets := by
  simp [namePart, character]

theorem writeCharacters_room
    (room : namePart entry offsets = [] ∨ bufferWriteIndex + (namePart entry offsets).length < bufferSize) :
    Returns (writeCharacters entry bufferSize offsets bufferWriteIndex) buffer
      (bufferWriteIndex + (namePart entry offsets).length)
      (buffer.copy bufferWriteIndex (namePart entry offsets).length (.text (namePart entry offsets))) := by
  induction offsets generalizing bufferWriteIndex buffer with
  | nil =>
    rw [writeCharacters, Program.pure_returns]
    exact ⟨rfl, Lib.Memory.copy_zero.symm⟩
  | cons offset rest ih =>
    rw [writeCharacters]
    by_cases zero : entry offset = 0
    · rw [if_pos zero, namePart_zero zero, Program.pure_returns]
      exact ⟨rfl, Lib.Memory.copy_zero.symm⟩
    · rw [namePart_cons zero] at room ⊢
      have space : bufferWriteIndex + ((namePart entry rest).length + 1) < bufferSize := by simpa using room
      have next := @ih (buffer.put bufferWriteIndex (entry offset)) (bufferWriteIndex + 1) (.inr (by omega))
      rw [if_neg zero, if_neg (by omega), Returns, Returns.bind Program.modify_apply, next,
        Lib.Memory.put_copy_text, List.length_cons]
      congr 3
      omega

theorem writeCharacters_inside {result : Except Status Nat}
    (run : writeCharacters entry bufferSize offsets bufferWriteIndex buffer = .ok (result, buffer')) :
    (forall place, bufferSize ≤ place -> buffer' place = buffer place) ∧
      forall next, result = .ok next -> next = bufferWriteIndex + (namePart entry offsets).length ∧
        (namePart entry offsets = [] ∨ next < bufferSize) := by
  induction offsets generalizing bufferWriteIndex buffer with
  | nil =>
    rw [writeCharacters, Program.pure_apply] at run
    cases run
    exact ⟨fun _ _ => rfl, fun next same => by cases same; exact ⟨rfl, .inl rfl⟩⟩
  | cons offset rest ih =>
    rw [writeCharacters] at run
    by_cases zero : entry offset = 0
    · rw [if_pos zero, Program.pure_apply] at run
      cases run
      rw [namePart_zero zero]
      exact ⟨fun _ _ => rfl, fun next same => by cases same; exact ⟨rfl, .inl rfl⟩⟩
    · rw [if_neg zero] at run
      by_cases full : bufferWriteIndex ≥ bufferSize - 1
      · rw [if_pos full, Program.fail_apply] at run
        cases run
        exact ⟨fun _ _ => rfl, fun next same => nomatch same⟩
      · rw [if_neg full, Returns.bind Program.modify_apply] at run
        obtain ⟨outside, ends⟩ := ih run
        constructor
        · intro place behind
          rw [outside place behind, Lib.Memory.put_elsewhere (by omega)]
        · intro next same
          obtain ⟨position, room⟩ := ends next same
          rw [namePart_cons zero, List.length_cons]
          refine ⟨by omega, .inr ?_⟩
          rcases room with none_left | room
          · rw [none_left, List.length_nil] at position
            omega
          · exact room

end Characters

section Entry

variable {entry buffer buffer' : Lib.Memory} {bufferSize : Nat}

def firstWriteIndex (entry : Lib.Memory) : Nat := dword (longNameTotalChars * entryOrdinal entry)

theorem writePartial_eq (room : 1 ≤ bufferSize) : writePartialLongFatNameToName entry bufferSize =
    writeCharacters entry bufferSize longNameOffsets (firstWriteIndex entry) >>= fun bufferWriteIndex =>
      if lastLongEntry entry then modify fun buffer => buffer.put bufferWriteIndex 0 else pure () := by
  have some_room : (bufferSize != 0) = true := by
    rw [bne_iff_ne]
    omega
  rw [writePartialLongFatNameToName, some_room]
  rfl

theorem writePartial_room
    (room : namePart entry longNameOffsets = [] ∨
      firstWriteIndex entry + (namePart entry longNameOffsets).length < bufferSize) (some_room : 1 ≤ bufferSize) :
    Returns (writePartialLongFatNameToName entry bufferSize) buffer ()
      (let written := buffer.copy (firstWriteIndex entry) (namePart entry longNameOffsets).length
        (.text (namePart entry longNameOffsets))
      if lastLongEntry entry then
        written.put (firstWriteIndex entry + (namePart entry longNameOffsets).length) 0
      else written) := by
  rw [writePartial_eq some_room, Returns, Returns.bind (writeCharacters_room room)]
  cases lastLongEntry entry <;> rfl

def WritesInside (entry : Lib.Memory) (bufferSize : Nat) : Prop :=
  forall buffer result buffer', writePartialLongFatNameToName entry bufferSize buffer = .ok (result, buffer') ->
    forall place, bufferSize ≤ place -> buffer' place = buffer place

-- The last entry of a name, without a character of its own, whose terminator belongs behind the buffer.
def TerminatorOutside (entry : Lib.Memory) (bufferSize : Nat) : Prop :=
  lastLongEntry entry = true ∧ entry 1 = 0 ∧ bufferSize ≤ firstWriteIndex entry

theorem namePart_eq_nil : namePart entry longNameOffsets = [] ↔ entry 1 = 0 := by
  have first : longNameOffsets = 1 :: longNameOffsets.tail := rfl
  rw [first]
  by_cases zero : entry 1 = 0
  · exact iff_of_true (namePart_zero zero) zero
  · rw [namePart_cons zero]
    exact iff_of_false (List.cons_ne_nil _ _) zero

theorem writesInside_iff (some_room : 1 ≤ bufferSize) :
    WritesInside entry bufferSize ↔ ¬ TerminatorOutside entry bufferSize := by
  constructor
  · rintro inside ⟨last, empty, behind⟩
    have nothing : namePart entry longNameOffsets = [] := namePart_eq_nil.mpr empty
    have run := @writePartial_room entry (fun _ => 1) bufferSize (.inl nothing) some_room
    rw [nothing, last] at run
    have same := inside _ _ _ run (firstWriteIndex entry) behind
    simp at same
  · intro safe buffer result buffer' run place behind
    rw [writePartial_eq some_room] at run
    rcases Program.cases_end (writeCharacters entry bufferSize longNameOffsets (firstWriteIndex entry)) buffer
      with ⟨next, middle, first⟩ | ⟨code, middle, first⟩ | ⟨reason, first⟩
    · rw [Returns.bind first] at run
      obtain ⟨outside, ends⟩ := writeCharacters_inside first
      obtain ⟨position, room⟩ := ends next rfl
      cases last : lastLongEntry entry with
      | false =>
        rw [last] at run
        cases run
        exact outside place behind
      | true =>
        rw [last] at run
        cases run
        have fits : next < bufferSize := by
          rcases room with nothing | fits
          · rw [nothing, List.length_nil] at position
            have small : ¬ bufferSize ≤ firstWriteIndex entry := fun far =>
              safe ⟨last, namePart_eq_nil.mp nothing, far⟩
            omega
          · exact fits
        change middle.put next 0 place = buffer place
        rw [Lib.Memory.put_elsewhere (by omega), outside place behind]
    · rw [Fails.bind first] at run
      cases run
      exact (writeCharacters_inside first).1 place behind
    · rw [Stops.bind first] at run
      cases run

end Entry

def vfatUnit (name : List UInt8) (position : Nat) : Nat :=
  if position < name.length then (name.getD position 0).toNat
  else if position = name.length then 0 else 0xFFFF

def longEntryCount (name : List UInt8) : Nat := (name.length + (longNameTotalChars - 1)) / longNameTotalChars

structure LongEntryOf (name : List UInt8) (ordinal : Nat) (entry : Lib.Memory) : Prop where
  order : ldirOrd entry = if ordinal = longEntryCount name then ordinal + longNameOrdEndMask else ordinal
  units : forall slot offset, longNameOffsets[slot]? = some offset ->
    entry.load 2 offset = vfatUnit name (longNameTotalChars * (ordinal - 1) + slot)

inductive LongEntries (name : List UInt8) : Nat -> List Lib.Memory -> Prop
  | nil : LongEntries name 0 []
  | cons {ordinal : Nat} {entry : Lib.Memory} {rest : List Lib.Memory} (first : LongEntryOf name (ordinal + 1) entry)
      (behind : LongEntries name ordinal rest) : LongEntries name (ordinal + 1) (entry :: rest)

def VfatEncoding (name : List UInt8) (entries : List Lib.Memory) : Prop :=
  LongEntries name (longEntryCount name) entries

section Name

variable {name : List UInt8} {entry original mem : Lib.Memory} {ordinal : Nat} {entries : List Lib.Memory}

theorem namePart_units (nonzero : forall character, character ∈ name -> character ≠ 0) {offsets : List Nat}
    {start : Nat} (reach : start ≤ name.length)
    (units : forall slot offset, offsets[slot]? = some offset ->
      entry.load 2 offset = vfatUnit name (start + slot)) :
    namePart entry offsets = (name.drop start).take offsets.length := by
  induction offsets generalizing start with
  | nil => rfl
  | cons offset rest ih =>
    have unit : entry.load 2 offset = vfatUnit name start := units 0 offset rfl
    have byte := Lib.Memory.load_mod entry 1 offset
    rw [unit] at byte
    by_cases within : start < name.length
    · have character : entry offset = name[start] := by
        have small := name[start].toNat_lt
        rw [vfatUnit, if_pos within, List.getD_eq_getElem name 0 within, Nat.mod_eq_of_lt (by omega)] at byte
        exact (UInt8.toNat_inj.mp byte).symm
      have following : forall slot offset, rest[slot]? = some offset ->
          entry.load 2 offset = vfatUnit name (start + 1 + slot) := by
        intro slot offset here
        rw [Nat.add_assoc, Nat.add_comm 1]
        exact units (slot + 1) offset here
      have used : entry offset ≠ 0 := by
        rw [character]
        exact nonzero _ (List.getElem_mem within)
      rw [namePart_cons used, ih within following, List.drop_eq_getElem_cons within, character]
      rfl
    · have zero : entry offset = 0 := by
        rw [vfatUnit, if_neg within, if_pos (by omega)] at byte
        exact UInt8.toNat_inj.mp byte.symm
      rw [namePart_zero zero, List.drop_eq_nil_of_le (by omega), List.take_nil]

theorem longEntryCount_le (long : name.length ≤ longNameMaxChars) : longEntryCount name ≤ 20 := by
  change name.length ≤ 255 at long
  change (name.length + 12) / 13 ≤ 20
  omega

theorem entryOrdinal_of (first : LongEntryOf name (ordinal + 1) entry) (bound : ordinal < 20) :
    entryOrdinal entry = ordinal ∧ (lastLongEntry entry = true ↔ ordinal + 1 = longEntryCount name) := by
  have numbers : forall ordinal, ordinal < 20 ->
      (dword ((ordinal + 1 &&& (2 ^ 8 - 1 - longNameOrdEndMask)) + 2 ^ 32 - 1) = ordinal ∧
        dword ((ordinal + 1 + longNameOrdEndMask &&& (2 ^ 8 - 1 - longNameOrdEndMask)) + 2 ^ 32 - 1) = ordinal) ∧
      isBooleanFlagOn (ordinal + 1) longNameOrdEndMask = false ∧
        isBooleanFlagOn (ordinal + 1 + longNameOrdEndMask) longNameOrdEndMask = true := by
    decide
  obtain ⟨⟨inner, last⟩, unmarked, marked⟩ := numbers ordinal bound
  rw [entryOrdinal, lastLongEntry, first.order]
  by_cases final : ordinal + 1 = longEntryCount name
  · rw [if_pos final]
    exact ⟨last, iff_of_true marked final⟩
  · rw [if_neg final]
    exact ⟨inner, iff_of_false (by rw [unmarked]; decide) final⟩

def Filled (name : List UInt8) (original : Lib.Memory) (ordinal : Nat) (mem : Lib.Memory) : Prop :=
  forall place, mem place =
    if longNameTotalChars * ordinal ≤ place ∧ place < longNameMaxChars + 1 then Lib.Memory.text name place
    else original place

theorem filled_start (zeroed : forall place, place < longNameMaxChars + 1 -> original place = 0) :
    Filled name original (longEntryCount name) original := by
  intro place
  split
  case isTrue inside =>
    have behind : name.length ≤ place := by
      have reached : longNameTotalChars * longEntryCount name ≤ place := inside.1
      change 13 * ((name.length + 12) / 13) ≤ place at reached
      omega
    rw [zeroed place inside.2, Lib.Memory.text_apply, List.getD_eq_default _ _ behind]
  case isFalse => rfl

theorem namePart_of (first : LongEntryOf name (ordinal + 1) entry)
    (nonzero : forall character, character ∈ name -> character ≠ 0)
    (within : ordinal < longEntryCount name) :
    namePart entry longNameOffsets = (name.drop (longNameTotalChars * ordinal)).take longNameTotalChars := by
  refine namePart_units nonzero ?_ first.units
  change ordinal < (name.length + 12) / 13 at within
  change 13 * ordinal ≤ name.length
  omega

theorem copy_namePart (part : namePart entry longNameOffsets = (name.drop (13 * ordinal)).take 13) (place : Nat) :
    (mem.copy (13 * ordinal) (namePart entry longNameOffsets).length (.text (namePart entry longNameOffsets))) place =
      if 13 * ordinal ≤ place ∧ place < 13 * ordinal + (namePart entry longNameOffsets).length then
        Lib.Memory.text name place
      else mem place := by
  split
  case isTrue inside =>
    have size : (namePart entry longNameOffsets).length ≤ 13 := by
      rw [part]
      exact List.length_take_le _ _
    have position : 13 * ordinal + (place - 13 * ordinal) = place := by omega
    rw [Lib.Memory.copy_inside inside.1 inside.2, Lib.Memory.text_apply, Lib.Memory.text_apply, part,
      List.getD_eq_getElem?_getD, List.getD_eq_getElem?_getD, List.getElem?_take_of_lt (by omega),
      List.getElem?_drop, position]
  case isFalse outside => exact Lib.Memory.copy_elsewhere outside

theorem text_behind {place : Nat} (behind : name.length ≤ place) : Lib.Memory.text name place = 0 := by
  rw [Lib.Memory.text_apply, List.getD_eq_default _ _ behind]

theorem copy_filled (zeroed : forall place, place < 256 -> original place = 0) (long : name.length ≤ 255)
    (part : namePart entry longNameOffsets = (name.drop (13 * ordinal)).take 13)
    (filled : Filled name original (ordinal + 1) mem) :
    Filled name original ordinal (mem.copy (13 * ordinal) (namePart entry longNameOffsets).length
      (.text (namePart entry longNameOffsets))) := by
  have size : (namePart entry longNameOffsets).length = min 13 (name.length - 13 * ordinal) := by
    rw [part, List.length_take, List.length_drop]
  have before : forall place, mem place =
      if 13 * (ordinal + 1) ≤ place ∧ place < 256 then Lib.Memory.text name place else original place := filled
  have goal : forall place, (mem.copy (13 * ordinal) (namePart entry longNameOffsets).length
      (.text (namePart entry longNameOffsets))) place =
      if 13 * ordinal ≤ place ∧ place < 256 then Lib.Memory.text name place else original place := by
    intro place
    rw [copy_namePart part, before place]
    by_cases here : 13 * ordinal ≤ place ∧ place < 13 * ordinal + (namePart entry longNameOffsets).length
    · rw [if_pos here, if_pos (by omega)]
    · rw [if_neg here]
      by_cases above : 13 * (ordinal + 1) ≤ place ∧ place < 256
      · rw [if_pos above, if_pos (by omega)]
      · rw [if_neg above]
        by_cases gap : 13 * ordinal ≤ place ∧ place < 256
        · rw [if_pos gap, zeroed place gap.2, text_behind (by omega)]
        · rw [if_neg gap]
  exact goal

theorem writePartial_filled (zeroed : forall place, place < longNameMaxChars + 1 -> original place = 0)
    (nonzero : forall character, character ∈ name -> character ≠ 0) (long : name.length ≤ longNameMaxChars)
    (first : LongEntryOf name (ordinal + 1) entry) (within : ordinal < longEntryCount name)
    (filled : Filled name original (ordinal + 1) mem) :
    ∃ mem', Returns (writePartialLongFatNameToName entry (longNameMaxChars + 1)) mem () mem' ∧
      Filled name original ordinal mem' := by
  have few := longEntryCount_le long
  obtain ⟨number, last⟩ := entryOrdinal_of first (by omega)
  have part : namePart entry longNameOffsets = (name.drop (13 * ordinal)).take 13 :=
    namePart_of first nonzero within
  have start : firstWriteIndex entry = 13 * ordinal := by
    have small : 13 * ordinal < 2 ^ 32 := by omega
    rw [firstWriteIndex, number]
    exact dword_of_lt small
  have size : (namePart entry longNameOffsets).length = min 13 (name.length - 13 * ordinal) := by
    rw [part, List.length_take, List.length_drop]
  have count : longEntryCount name = (name.length + 12) / 13 := rfl
  have short : name.length ≤ 255 := long
  have base := copy_filled zeroed short part filled
  have room : firstWriteIndex entry + (namePart entry longNameOffsets).length < 256 := by omega
  have run := @writePartial_room entry mem 256 (.inr room) (by decide)
  refine ⟨_, run, ?_⟩
  rw [start]
  cases final : lastLongEntry entry with
  | false => exact base
  | true =>
    have top := last.mp final
    have finish : Filled name original ordinal ((mem.copy (13 * ordinal) (namePart entry longNameOffsets).length
        (.text (namePart entry longNameOffsets))).put
          (13 * ordinal + (namePart entry longNameOffsets).length) 0) := by
      intro place
      by_cases end_ : place = 13 * ordinal + (namePart entry longNameOffsets).length
      · have inside : longNameTotalChars * ordinal ≤ place ∧ place < longNameMaxChars + 1 := by
          have bounds : 13 * ordinal ≤ place ∧ place < 256 := by omega
          exact bounds
        rw [if_pos inside, text_behind (by omega), end_, Lib.Memory.put_same]
      · rw [Lib.Memory.put_elsewhere end_]
        exact base place
    exact finish

theorem writeLongName_filled (zeroed : forall place, place < longNameMaxChars + 1 -> original place = 0)
    (nonzero : forall character, character ∈ name -> character ≠ 0) (long : name.length ≤ longNameMaxChars)
    (encoded : LongEntries name ordinal entries) (within : ordinal ≤ longEntryCount name)
    (filled : Filled name original ordinal mem) :
    ∃ mem', Returns (writeLongName (longNameMaxChars + 1) entries) mem () mem' ∧
      Filled name original 0 mem' := by
  induction encoded generalizing mem with
  | nil => exact ⟨mem, rfl, filled⟩
  | cons first behind ih =>
    obtain ⟨middle, step, filled⟩ := writePartial_filled zeroed nonzero long first within filled
    obtain ⟨after, run, filled⟩ := ih (by omega) filled
    refine ⟨after, ?_, filled⟩
    rw [writeLongName, Returns, Returns.bind step]
    exact run

theorem writeLongName_name (zeroed : forall place, place < longNameMaxChars + 1 -> original place = 0)
    (nonzero : forall character, character ∈ name -> character ≠ 0) (long : name.length ≤ longNameMaxChars)
    (encoded : VfatEncoding name entries) :
    Returns (writeLongName (longNameMaxChars + 1) entries) original ()
      (original.copy 0 (longNameMaxChars + 1) (.text name)) := by
  obtain ⟨after, run, filled⟩ :=
    writeLongName_filled zeroed nonzero long encoded (Nat.le_refl _) (filled_start zeroed)
  have whole : after = original.copy 0 (longNameMaxChars + 1) (.text name) := by
    funext place
    rw [filled place, Nat.mul_zero]
    by_cases inside : 0 ≤ place ∧ place < longNameMaxChars + 1
    · rw [if_pos inside, Lib.Memory.copy_inside inside.1 (by omega), Nat.sub_zero]
    · rw [if_neg inside, Lib.Memory.copy_elsewhere (by omega)]
  rw [← whole]
  exact run

end Name

theorem long_names_iff (entry : Lib.Memory) (bufferSize : Nat) (some_room : 1 ≤ bufferSize) :
    (forall (name : List UInt8) (entries : List Lib.Memory) (original : Lib.Memory), name.length ≤ longNameMaxChars ->
      (forall character, character ∈ name -> character ≠ 0) -> VfatEncoding name entries ->
      (forall place, place < longNameMaxChars + 1 -> original place = 0) ->
      Returns (writeLongName (longNameMaxChars + 1) entries) original ()
        (original.copy 0 (longNameMaxChars + 1) (.text name))) ∧
      (WritesInside entry bufferSize ↔ ¬ TerminatorOutside entry bufferSize) :=
  ⟨fun _ _ _ long nonzero encoded zeroed => writeLongName_name zeroed nonzero long encoded, writesInside_iff some_room⟩

def letterEntry : Lib.Memory
  | 0 => 0x41
  | 1 => 0x61
  | 2 => 0
  | 3 => 0
  | 4 => 0
  | 11 => 0x0F
  | 12 => 0
  | 13 => 0
  | 26 => 0
  | 27 => 0
  | _ => 0xFF

theorem letterEntry_encodes : VfatEncoding [0x61] [letterEntry] := by
  have entry : LongEntryOf [0x61] (0 + 1) letterEntry := by
    refine ⟨by decide +kernel, ?_⟩
    have units : forall slot, slot < 13 -> letterEntry.load 2 (longNameOffsets.getD slot 0) =
        vfatUnit [0x61] (longNameTotalChars * (0 + 1 - 1) + slot) := by
      decide +kernel
    intro slot offset found
    have unit := units slot (List.getElem?_eq_some_iff.mp found).1
    rw [List.getD_eq_getElem?_getD, found] at unit
    exact unit
  exact .cons entry .nil

theorem long_names_letter :
    Returns (writeLongName (longNameMaxChars + 1) [letterEntry]) (fun _ => 0) ()
        (Lib.Memory.copy (fun _ => 0) 0 (longNameMaxChars + 1) (.text [0x61])) ∧
      WritesInside letterEntry (longNameMaxChars + 1) := by
  obtain ⟨reassembled, inside⟩ := long_names_iff letterEntry (longNameMaxChars + 1) (by decide)
  refine ⟨reassembled [0x61] [letterEntry] (fun _ => 0) (by decide) (by simp) letterEntry_encodes fun _ _ => rfl,
    inside.mpr fun ⟨_, empty, _⟩ => ?_⟩
  revert empty
  decide

-- An entry that calls itself the last of 21, with no character.
def strayEntry : Lib.Memory
  | 0 => 0x55
  | 11 => 0x0F
  | _ => 0

theorem long_names_stray : ¬ WritesInside strayEntry (longNameMaxChars + 1) := by
  intro inside
  have outside : TerminatorOutside strayEntry (longNameMaxChars + 1) :=
    ⟨by decide +kernel, rfl, by decide +kernel⟩
  exact (writesInside_iff (by decide)).mp inside outside

end Hal9000.Fat32
