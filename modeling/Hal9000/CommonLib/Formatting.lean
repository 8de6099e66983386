import Hal9000.CommonLib.Numerals

set_option autoImplicit false

namespace Hal9000

open Lib (Bytes Access)

def statusBufferTooSmall : Nat := 0xE0100002
def statusParseFailed : Nat := 0xE8000021

def statusOfParameter (parameter : Nat) : Nat := 0xE8000010 + parameter

def succeeded (status : Nat) : Bool := 0 == status &&& 0x80000000

def memsetFrom (address : Nat) (value : UInt8) : (i remaining : Nat) -> Bytes -> Access Bytes
  | _, 0, memory => pure memory
  | i, remaining + 1, memory => do
    let memory <- memory.store (address + i) value
    memsetFrom address value (i + 1) remaining memory

def clMemset (memory : Bytes) (address : Nat) (value : UInt8) (size : Nat) : Access Bytes :=
  if 0 = address then pure memory else memsetFrom address value 0 size memory

def strncpyFrom (source : Bytes) (src dst : Nat) : (i remaining : Nat) -> Bytes -> Access (Bytes × Nat)
  | i, 0, memory => pure (memory, i)
  | i, remaining + 1, memory => do
    let c <- source.load (src + i)
    if c = 0 then pure (memory, i)
    else do
      let memory <- memory.store (dst + i) c
      strncpyFrom source src dst (i + 1) remaining memory

def clStrncpy (memory : Bytes) (dst : Nat) (source : Bytes) (src length : Nat) : Access Bytes := do
  Access.assert (0 != dst) "NULL != dst"
  Access.assert (0 != src) "NULL != src"
  Access.assert (0 != length) "0 != length"
  let (memory, i) <- strncpyFrom source src dst 0 length memory
  memory.store (dst + i) 0

def strcpyFrom (source : Bytes) (src dst : Nat) : (fuel i : Nat) -> Bytes -> Access (Bytes × Nat)
  | 0, _, _ => .error .unfinished
  | fuel + 1, i, memory => do
    let c <- source.load (src + i)
    if c ≠ 0 then do
      let memory <- memory.store (dst + i) c
      strcpyFrom source src dst fuel (dword (i + 1)) memory
    else pure (memory, i)

def clStrcpy (fuel : Nat) (memory : Bytes) (dst : Nat) (source : Bytes) (src : Nat) : Access Bytes := do
  Access.assert (0 != dst) "NULL != dst"
  Access.assert (0 != src) "NULL != src"
  let (memory, i) <- strcpyFrom source src dst fuel 0 memory
  memory.store (dst + i) 0

namespace Formatting

inductive Argument where
  | value (raw : Nat)
  | string (text : CString)

structure NumberFormat where
  signedValue : Bool
  base : Nat
  is64BitValue : Bool
  positional : 1 < base
  few : base ≤ 36
  decimal : signedValue = true -> base = 10

inductive Conversion where
  | number (format : NumberFormat)
  | character
  | string (limited : Bool)

def conversion (next : UInt8) : Option Conversion :=
  if next = 0x62 then some (.number ⟨false, 2, false, by decide, by decide, by decide⟩)
  else if next = 0x42 then some (.number ⟨false, 2, true, by decide, by decide, by decide⟩)
  else if next = 0x75 then some (.number ⟨false, 10, false, by decide, by decide, by decide⟩)
  else if next = 0x55 then some (.number ⟨false, 10, true, by decide, by decide, by decide⟩)
  else if next = 0x64 then some (.number ⟨true, 10, false, by decide, by decide, by decide⟩)
  else if next = 0x44 then some (.number ⟨true, 10, true, by decide, by decide, by decide⟩)
  else if next = 0x78 then some (.number ⟨false, 16, false, by decide, by decide, by decide⟩)
  else if next = 0x58 then some (.number ⟨false, 16, true, by decide, by decide, by decide⟩)
  else if next = 0x63 then some .character
  else if next = 0x73 then some (.string false)
  else if next = 0x53 then some (.string true)
  else none

def isDigit (next : UInt8) : Bool := 0x30 ≤ next && next ≤ 0x39

def readWidth (format : CString) : (fuel index digits : Nat) -> (fillChar : UInt8) -> (firstSpecificator : Bool) ->
    Access (Nat × Nat × UInt8 × UInt8)
  | 0, _, _, _, _ => .error .unfinished
  | fuel + 1, index, digits, fillChar, firstSpecificator =>
    let next := format.at_ (dword (index + 1))
    if isDigit next then
      readWidth format fuel (dword (index + 1)) (dword (digits * 10 + (next.toNat - 0x30)))
        (if firstSpecificator && next == 0x30 then 0x30 else fillChar) false
    else pure (index, digits, fillChar, next)

-- An argument that was not passed, or is of another kind, must not be read.
def missing {α : Type} : Access α := .error (.outOfBounds 0)

-- temp_str after the switch: a memory and an address; with the arguments that are left and the array temp.
def argumentText (fuel : Nat) (temp : Bytes) : Conversion -> List Argument ->
    Access (Bytes × Bytes × Nat × List Argument)
  | .number format, .value raw :: rest => do
    let tempValue := if format.is64BitValue then qword raw else dword raw
    let temp <- itoa fuel temp tempValue format.signedValue 1 format.base format.is64BitValue
    pure (temp, temp, 1, rest)
  | .character, .value raw :: rest => do
    let temp <- clStrncpy temp 1 (Bytes.object 1 [UInt8.ofNat raw]) 1 1
    pure (temp, temp, 1, rest)
  | .string _, .string text :: rest => pure (temp, Bytes.object 1 text.bytes, 1, rest)
  | _, _ => missing

def fillWith (memory : Bytes) (outputBuffer outBufferOffset : Nat) (fillChar : UInt8) (fillSpaces : Nat) :
    Access (Bytes × Nat) :=
  if 0 ≠ fillSpaces then do
    let memory <- clMemset memory (outputBuffer + outBufferOffset) fillChar fillSpaces
    pure (memory, dword (outBufferOffset + fillSpaces))
  else pure (memory, outBufferOffset)

def copyText (memory : Bytes) (outputBuffer outBufferOffset : Nat) (source : Bytes) (tempStr charsToCopy : Nat) :
    Access (Bytes × Nat) := do
  let memory <- if charsToCopy ≠ 0 then clStrncpy memory (outputBuffer + outBufferOffset) source tempStr charsToCopy
    else pure memory
  pure (memory, dword (outBufferOffset + charsToCopy))

-- The tests for space and the output of one specifier; no result is STATUS_BUFFER_TOO_SMALL.
def putText (buffSize outputBuffer : Nat) (memory : Bytes) (outBufferOffset digits : Nat) (fillChar : UInt8)
    (limited : Bool) (source : Bytes) (tempStr tempLen : Nat) : Access (Option (Bytes × Nat)) :=
  let charsToCopy := if limited then min digits tempLen else tempLen
  let fillSpaces := if digits > tempLen then digits - tempLen else 0
  if dword (outBufferOffset + tempLen) ≥ buffSize then pure none
  else if dword (dword (outBufferOffset + tempLen) + fillSpaces) ≥ buffSize then pure none
  else do
    let (memory, outBufferOffset) <- fillWith memory outputBuffer outBufferOffset fillChar fillSpaces
    let written <- copyText memory outputBuffer outBufferOffset source tempStr charsToCopy
    pure (some written)

def Conversion.limited : Conversion -> Bool
  | .string limited => limited
  | _ => false

def printFrom (limit : Nat) (format : CString) (outputBuffer buffSize : Nat) :
    (fuel index paramIndex outBufferOffset : Nat) -> List Argument -> (temp memory : Bytes) -> Access (Nat × Bytes)
  | 0, _, _, _, _, _, _ => .error .unfinished
  | fuel + 1, index, paramIndex, outBufferOffset, arguments, temp, memory =>
    if format.at_ index = 0 then do
      let memory <- memory.store (outputBuffer + outBufferOffset) 0
      pure (dword (paramIndex + (2 ^ 32 - 1)), memory)
    else if format.at_ index = 0x25 then do
      let (index, digits, fillChar, next) <- readWidth format limit index 0 0x20 true
      match conversion next with
      | none => pure (statusParseFailed, memory)
      | some conversion => do
        let (temp, source, tempStr, arguments) <- argumentText limit temp conversion arguments
        let tempLen <- clStrlen limit source tempStr
        Access.assert (tempLen != maxDword) "temp_len != INVALID_STRING_SIZE"
        let written <- putText buffSize outputBuffer memory outBufferOffset digits fillChar conversion.limited source tempStr
          tempLen
        match written with
        | none => pure (statusBufferTooSmall, memory)
        | some (memory, outBufferOffset) =>
          printFrom limit format outputBuffer buffSize fuel (dword (index + 2)) (dword (paramIndex + 1)) outBufferOffset
            arguments temp memory
    else if dword (outBufferOffset + 1) ≥ buffSize then do
      let memory <- memory.store (outputBuffer + outBufferOffset) 0
      pure (statusBufferTooSmall, memory)
    else do
      let memory <- memory.store (outputBuffer + outBufferOffset) (format.at_ index)
      printFrom limit format outputBuffer buffSize fuel (dword (index + 1)) paramIndex (dword (outBufferOffset + 1))
        arguments temp memory

def clVsnprintf (fuel : Nat) (temp memory : Bytes) (outputBuffer buffSize : Nat) (inputBuffer : Option CString)
    (arguments : List Argument) : Access (Nat × Bytes) :=
  if 0 = outputBuffer then pure (statusOfParameter 1, memory)
  else if 0 = buffSize then pure (statusOfParameter 2, memory)
  else
    match inputBuffer with
    | none => pure (statusOfParameter 3, memory)
    | some format => printFrom fuel format outputBuffer buffSize fuel 0 1 0 arguments temp memory

def out (initial : Bytes) (buffer : Nat) (printed : List UInt8) (terminated : Bool) : Bytes :=
  initial.write buffer (printed ++ if terminated then [0] else [])

section Output

variable {initial : Bytes} {buffer count : Nat} {printed : List UInt8} {terminated : Bool} {c : UInt8}

theorem out_store (accessible : initial.Accessible buffer count) (room : printed.length < count) :
    (out initial buffer printed terminated).store (buffer + printed.length) c = .ok (out initial buffer (printed ++ [c]) false) := by
  have last : out initial buffer (printed ++ [c]) false = initial.write buffer (printed ++ [c]) := by
    rw [out, if_neg Bool.false_ne_true, List.append_nil]
  rw [last, out]
  cases terminated with
  | false => rw [if_neg Bool.false_ne_true, List.append_nil, Bytes.store_write accessible room]
  | true =>
    have inside : printed.length < (printed ++ [(0 : UInt8)]).length := by
      rw [List.length_append, List.length_singleton]
      omega
    rw [if_pos rfl, Bytes.store_eq (Bytes.write_accessible accessible _ room), Bytes.put_write_set inside, set_middle]

theorem out_terminate (accessible : initial.Accessible buffer count) (room : printed.length < count) :
    (out initial buffer printed terminated).store (buffer + printed.length) 0 = .ok (out initial buffer printed true) := by
  have same : out initial buffer (printed ++ [0]) false = out initial buffer printed true := by
    rw [out, out, if_neg Bool.false_ne_true, if_pos rfl, List.append_nil]
  rw [out_store accessible room, same]

theorem out_holds : (out initial buffer printed true).Holds buffer (printed ++ [0]) := by
  rw [out, if_pos rfl]
  exact Bytes.write_holds

theorem out_front {front : List UInt8} :
    out (initial.write buffer front) (buffer + front.length) printed terminated =
      out initial buffer (front ++ printed) terminated := by
  rw [out, Bytes.write_append, out, List.append_assoc]

def storeAll : (address : Nat) -> List UInt8 -> Bytes -> Access Bytes
  | _, [], memory => pure memory
  | address, c :: rest, memory => do
    let memory <- memory.store address c
    storeAll (address + 1) rest memory

attribute [local simp] storeAll in
theorem storeAll_out (accessible : initial.Accessible buffer count) (text : List UInt8)
    (room : printed.length + text.length ≤ count) :
    storeAll (buffer + printed.length) text (out initial buffer printed terminated) =
      .ok (out initial buffer (printed ++ text) (terminated && text.isEmpty)) := by
  induction text generalizing printed terminated with
  | nil =>
    rw [List.append_nil, List.isEmpty_nil, Bool.and_true]
    rfl
  | cons c rest ih =>
    rw [List.length_cons] at room
    have next := @ih (printed ++ [c]) false (by rw [List.length_append, List.length_singleton]; omega)
    rw [List.length_append, List.length_singleton] at next
    rw [storeAll, out_store accessible (by omega), Access.ok_bind, Nat.add_assoc, next, List.append_assoc, List.singleton_append,
      List.isEmpty_cons, Bool.and_false, Bool.false_and]

theorem storeAll_overrun (accessible : initial.Accessible buffer count) (ends : initial (buffer + count) = none)
    (text : List UInt8) (start : printed.length ≤ count) (past : count < printed.length + text.length)
    (open_ : printed.length = count -> terminated = false) (result : Bytes) :
    storeAll (buffer + printed.length) text (out initial buffer printed terminated) ≠ .ok result := by
  induction text generalizing printed terminated with
  | nil =>
    rw [List.length_nil] at past
    omega
  | cons c rest ih =>
    rw [List.length_cons] at past
    rw [storeAll]
    rcases Nat.eq_or_lt_of_le start with full | room
    · have outside : (out initial buffer printed terminated) (buffer + printed.length) = none := by
        rw [open_ full, out, if_neg Bool.false_ne_true, List.append_nil, Bytes.write_elsewhere (by omega), full, ends]
      intro run
      obtain ⟨written, stored, _⟩ := Access.bind_eq_ok.mp run
      obtain ⟨⟨old, here⟩, _⟩ := Bytes.store_eq_ok.mp stored
      rw [outside] at here
      cases here
    · have next := @ih (printed ++ [c]) false (by rw [List.length_append, List.length_singleton]; omega)
        (by rw [List.length_append, List.length_singleton]; omega) (fun _ => rfl)
      rw [List.length_append, List.length_singleton, ← Nat.add_assoc] at next
      rwa [out_store accessible room, Access.ok_bind]

attribute [local simp] memsetFrom in
theorem memsetFrom_eq (address : Nat) (value : UInt8) (i remaining : Nat) (memory : Bytes) :
    memsetFrom address value i remaining memory = storeAll (address + i) (List.replicate remaining value) memory := by
  induction remaining generalizing i memory with
  | zero => rfl
  | succ remaining ih =>
    rw [memsetFrom, List.replicate_succ, storeAll]
    congr 1
    funext memory
    rw [ih, Nat.add_assoc]

attribute [local simp] strncpyFrom in
theorem strncpyFrom_eq {source : Bytes} {src : Nat} {text : CString} (holds : source.Holds src text.bytes) (dst i remaining : Nat)
    (inside : i ≤ text.length) (memory : Bytes) :
    strncpyFrom source src dst i remaining memory =
      storeAll (dst + i) ((text.chars.drop i).take remaining) memory >>= fun memory =>
        .ok (memory, min (i + remaining) text.length) := by
  induction remaining generalizing i memory with
  | zero =>
    rw [Nat.add_zero, Nat.min_eq_left inside]
    rfl
  | succ remaining ih =>
    rw [strncpyFrom, load_string holds inside, Access.ok_bind]
    rcases Nat.eq_or_lt_of_le inside with rfl | before
    · obtain ⟨zero, nothing⟩ := drop_end (Nat.le_refl text.length)
      rw [if_pos zero, nothing, Nat.min_eq_right (Nat.le_add_right _ _)]
      rfl
    · obtain ⟨char, split⟩ := drop_at before
      rw [if_neg char, split, List.take_succ_cons, storeAll, bind_assoc]
      congr 1
      funext memory
      rw [ih (i + 1) before, Nat.add_assoc, Nat.add_assoc, Nat.add_comm 1 remaining]

theorem clStrncpy_take {source : Bytes} {src : Nat} {text : CString} (holds : source.Holds src text.bytes) {dst length : Nat}
    (nonNull : dst ≠ 0) (other : src ≠ 0) (positive : length ≠ 0) (memory : Bytes) :
    clStrncpy memory dst source src length =
      storeAll dst (text.chars.take length) memory >>= fun memory => memory.store (dst + min length text.length) 0 := by
  rw [clStrncpy, bne_iff_ne.mpr (Ne.symm nonNull), Access.assert_true, Access.ok_bind, bne_iff_ne.mpr (Ne.symm other),
    Access.assert_true, Access.ok_bind, bne_iff_ne.mpr (Ne.symm positive), Access.assert_true, Access.ok_bind,
    strncpyFrom_eq holds dst 0 length (Nat.zero_le _), bind_assoc, Nat.zero_add]
  rfl

theorem clStrncpy_eq {source : Bytes} {src : Nat} {text : CString} (holds : source.Holds src text.bytes) {dst length : Nat}
    (nonNull : dst ≠ 0) (other : src ≠ 0) (positive : length ≠ 0) (short : length ≤ text.length) (memory : Bytes) :
    clStrncpy memory dst source src length =
      storeAll dst (text.chars.take length) memory >>= fun memory => memory.store (dst + length) 0 := by
  rw [clStrncpy_take holds nonNull other positive, Nat.min_eq_left short]

theorem clStrncpy_write {source memory : Bytes} {src count : Nat} {text : CString} (holds : source.Holds src text.bytes)
    {dst length : Nat} (nonNull : dst ≠ 0) (other : src ≠ 0) (positive : length ≠ 0) (accessible : memory.Accessible dst count)
    (room : min length text.length < count) :
    clStrncpy memory dst source src length = .ok (memory.write dst (text.chars.take length ++ [0])) := by
  have size : (text.chars.take length).length = min length text.length := List.length_take
  have stored := @storeAll_out memory dst count [] false accessible (text.chars.take length)
    (by rw [List.length_nil, size, Nat.zero_add]; exact Nat.le_of_lt room)
  have nothing : out memory dst [] false = memory := by
    rw [out, if_neg Bool.false_ne_true, List.append_nil, Bytes.write_nil]
  rw [nothing, List.length_nil, Nat.add_zero, Bool.false_and, List.nil_append] at stored
  have ended := @out_terminate memory dst count (text.chars.take length) false accessible (by rw [size]; exact room)
  rw [size] at ended
  rw [clStrncpy_take holds nonNull other positive, stored, Access.ok_bind, ended, out, if_pos rfl]

theorem strcpyFrom_eq {source : Bytes} {src : Nat} {text : CString} (holds : source.Holds src text.bytes)
    (small : text.length < 2 ^ 32) (dst fuel i : Nat) (inside : i ≤ text.length) (enough : text.length < i + fuel)
    (memory : Bytes) :
    strcpyFrom source src dst fuel i memory =
      storeAll (dst + i) (text.chars.drop i) memory >>= fun memory => .ok (memory, text.length) := by
  induction fuel generalizing i memory with
  | zero => omega
  | succ fuel ih =>
    rw [strcpyFrom, load_string holds inside, Access.ok_bind]
    rcases Nat.eq_or_lt_of_le inside with rfl | before
    · obtain ⟨zero, nothing⟩ := drop_end (Nat.le_refl text.length)
      rw [if_neg (not_not_intro zero), nothing]
      rfl
    · obtain ⟨char, split⟩ := drop_at before
      rw [if_pos char, split, storeAll, bind_assoc, dword_of_lt (by omega)]
      congr 1
      funext memory
      rw [ih (i + 1) before (by omega), Nat.add_assoc]

theorem clStrcpy_eq {source : Bytes} {src : Nat} {text : CString} (holds : source.Holds src text.bytes)
    (small : text.length < 2 ^ 32) {dst fuel : Nat} (nonNull : dst ≠ 0) (other : src ≠ 0) (enough : text.length < fuel)
    (memory : Bytes) :
    clStrcpy fuel memory dst source src =
      storeAll dst text.chars memory >>= fun memory => memory.store (dst + text.length) 0 := by
  rw [clStrcpy, bne_iff_ne.mpr (Ne.symm nonNull), Access.assert_true, Access.ok_bind, bne_iff_ne.mpr (Ne.symm other),
    Access.assert_true, Access.ok_bind, strcpyFrom_eq holds small dst fuel 0 (Nat.zero_le _) (by omega), bind_assoc]
  rfl

end Output

def HasRoom (buffSize outBufferOffset digits tempLen : Nat) : Prop :=
  dword (outBufferOffset + tempLen) < buffSize ∧
    dword (dword (outBufferOffset + tempLen) + (digits - tempLen)) < buffSize

instance (buffSize outBufferOffset digits tempLen : Nat) : Decidable (HasRoom buffSize outBufferOffset digits tempLen) :=
  inferInstanceAs (Decidable (_ ∧ _))

def copied (digits : Nat) (limited : Bool) (chars : List UInt8) : List UInt8 :=
  if limited then chars.take digits else chars

def padded (digits : Nat) (fillChar : UInt8) (limited : Bool) (chars : List UInt8) : List UInt8 :=
  List.replicate (digits - chars.length) fillChar ++ copied digits limited chars

section PutText

variable {initial source : Bytes} {buffer count digits src : Nat} {printed : List UInt8} {terminated limited : Bool}
  {fillChar : UInt8} {text : CString}

theorem fillWith_out (accessible : initial.Accessible buffer count) (nonNull : buffer ≠ 0) (small : count < 2 ^ 32)
    {fillSpaces : Nat} (room : printed.length + fillSpaces ≤ count) :
    fillWith (out initial buffer printed terminated) buffer printed.length fillChar fillSpaces =
      .ok (out initial buffer (printed ++ List.replicate fillSpaces fillChar) (terminated && decide (fillSpaces = 0)),
        printed.length + fillSpaces) := by
  rw [fillWith]
  by_cases none_ : 0 = fillSpaces
  · rw [if_neg (not_not_intro none_), ← none_, List.replicate_zero, List.append_nil, decide_eq_true rfl, Bool.and_true]
    rfl
  · have stored := @storeAll_out initial buffer count printed terminated accessible (List.replicate fillSpaces fillChar)
      (by rwa [List.length_replicate])
    have some_ : (List.replicate fillSpaces fillChar).isEmpty = decide (fillSpaces = 0) := by
      rw [decide_eq_false (Ne.symm none_)]
      exact List.isEmpty_eq_false_iff.mpr (fun empty => none_ ((List.replicate_eq_nil_iff fillChar).mp empty).symm)
    rw [if_pos none_, clMemset, if_neg (by omega), memsetFrom_eq, Nat.add_zero, stored, Access.ok_bind, dword_of_lt (by omega),
      some_]
    rfl

theorem fillWith_overrun (accessible : initial.Accessible buffer count) (ends : initial (buffer + count) = none)
    (nonNull : buffer ≠ 0) (start : printed.length < count) {fillSpaces : Nat} (past : count < printed.length + fillSpaces)
    (result : Bytes × Nat) :
    fillWith (out initial buffer printed terminated) buffer printed.length fillChar fillSpaces ≠ .ok result := by
  rw [fillWith, if_pos (by omega), clMemset, if_neg (by omega), memsetFrom_eq, Nat.add_zero]
  intro run
  obtain ⟨written, stored, _⟩ := Access.bind_eq_ok.mp run
  exact storeAll_overrun accessible ends _ (Nat.le_of_lt start) (by rwa [List.length_replicate])
    (fun full => absurd full (Nat.ne_of_lt start)) written stored

theorem isEmpty_take {chars : List UInt8} {count : Nat} (short : count ≤ chars.length) :
    (chars.take count).isEmpty = decide (count = 0) := by
  rw [Bool.eq_iff_iff, List.isEmpty_iff_length_eq_zero, List.length_take_of_le short, decide_eq_true_iff]

theorem copyText_out (accessible : initial.Accessible buffer count) (nonNull : buffer ≠ 0) (small : count < 2 ^ 32)
    (holds : source.Holds src text.bytes) (other : src ≠ 0) {charsToCopy : Nat} (short : charsToCopy ≤ text.length)
    (room : printed.length + charsToCopy < count) :
    copyText (out initial buffer printed terminated) buffer printed.length source src charsToCopy =
      .ok (out initial buffer (printed ++ text.chars.take charsToCopy) (terminated || decide (charsToCopy ≠ 0)),
        printed.length + charsToCopy) := by
  have length : (text.chars.take charsToCopy).length = charsToCopy := List.length_take_of_le short
  rw [copyText, dword_of_lt (by omega)]
  by_cases none_ : charsToCopy = 0
  · rw [if_neg (not_not_intro none_), none_, List.take_zero, List.append_nil, decide_eq_false (not_not_intro rfl), Bool.or_false]
    rfl
  · have stored := @storeAll_out initial buffer count printed terminated accessible (text.chars.take charsToCopy) (by omega)
    have ended := @out_terminate initial buffer count (printed ++ text.chars.take charsToCopy)
      (terminated && (text.chars.take charsToCopy).isEmpty) accessible (by rw [List.length_append]; omega)
    rw [List.length_append, length, ← Nat.add_assoc] at ended
    rw [if_pos none_, clStrncpy_eq holds (by omega) other none_ short, stored, Access.ok_bind, ended, Access.ok_bind,
      decide_eq_true none_, Bool.or_true]
    rfl

theorem copyText_overrun (accessible : initial.Accessible buffer count) (ends : initial (buffer + count) = none)
    (nonNull : buffer ≠ 0) (holds : source.Holds src text.bytes) (other : src ≠ 0) {charsToCopy : Nat}
    (short : charsToCopy ≤ text.length) (positive : charsToCopy ≠ 0) (start : printed.length ≤ count)
    (open_ : printed.length = count -> terminated = false) (past : count ≤ printed.length + charsToCopy) (result : Bytes × Nat) :
    copyText (out initial buffer printed terminated) buffer printed.length source src charsToCopy ≠ .ok result := by
  have length : (text.chars.take charsToCopy).length = charsToCopy := List.length_take_of_le short
  rw [copyText, if_pos positive, clStrncpy_eq holds (by omega) other positive short]
  intro run
  obtain ⟨written, stored, _⟩ := Access.bind_eq_ok.mp run
  obtain ⟨copied, stored, ended⟩ := Access.bind_eq_ok.mp stored
  rcases Nat.eq_or_lt_of_le past with full | more
  · rw [storeAll_out accessible _ (by omega)] at stored
    cases stored
    obtain ⟨⟨old, here⟩, _⟩ := Bytes.store_eq_ok.mp ended
    rw [Nat.add_assoc, ← full, out, Bytes.write_elsewhere, ends] at here
    · cases here
    · rw [isEmpty_take short, decide_eq_false positive, Bool.and_false, if_neg Bool.false_ne_true, List.append_nil, List.length_append]
      omega
  · exact storeAll_overrun accessible ends _ start (by omega) open_ copied stored

theorem padded_length (digits : Nat) (fillChar : UInt8) (limited : Bool) (chars : List UInt8) :
    (padded digits fillChar limited chars).length =
      digits - chars.length + if limited then min digits chars.length else chars.length := by
  rw [padded, copied, List.length_append, List.length_replicate]
  split
  · rw [List.length_take]
  · rfl

theorem take_copied (digits : Nat) (limited : Bool) (chars : List UInt8) :
    chars.take (if limited then min digits chars.length else chars.length) = copied digits limited chars := by
  rw [copied]
  split
  · rw [List.take_eq_take_iff, Nat.min_assoc, Nat.min_self]
  · rw [List.take_length]

theorem putText_none (noRoom : ¬ HasRoom count printed.length digits text.length) (memory : Bytes) :
    putText count buffer memory printed.length digits fillChar limited source src text.length = .ok none := by
  have fill : (if digits > text.length then digits - text.length else 0) = digits - text.length := by
    split <;> omega
  have noRoom := not_and_or.mp noRoom
  simp only [putText, fill]
  split
  · rfl
  next first => rw [if_pos (by omega)]; rfl

theorem putText_eq (room : HasRoom count printed.length digits text.length) (memory : Bytes) :
    putText count buffer memory printed.length digits fillChar limited source src text.length = (do
      let (memory, outBufferOffset) <- fillWith memory buffer printed.length fillChar (digits - text.length)
      let written <- copyText memory buffer outBufferOffset source src (if limited then min digits text.length else text.length)
      pure (some written)) := by
  have fill : (if digits > text.length then digits - text.length else 0) = digits - text.length := by
    split <;> omega
  simp only [putText, fill]
  rw [if_neg (Nat.not_le_of_lt room.1), if_neg (Nat.not_le_of_lt room.2)]

theorem putText_out (accessible : initial.Accessible buffer count) (nonNull : buffer ≠ 0) (small : count < 2 ^ 32)
    (holds : source.Holds src text.bytes) (other : src ≠ 0) (room : HasRoom count printed.length digits text.length)
    (inside : printed.length + (padded digits fillChar limited text.chars).length < count) :
    putText count buffer (out initial buffer printed terminated) printed.length digits fillChar limited source src text.length =
      .ok (some (out initial buffer (printed ++ padded digits fillChar limited text.chars)
        (terminated && decide (digits - text.length = 0) || !(copied digits limited text.chars).isEmpty),
        printed.length + (padded digits fillChar limited text.chars).length)) := by
  rw [padded_length] at inside ⊢
  change printed.length + (digits - text.length + if limited then min digits text.length else text.length) < count at inside
  change _ = Except.ok (some (_, printed.length + (digits - text.length + if limited then min digits text.length else text.length)))
  have short : (if limited then min digits text.length else text.length) ≤ text.length := by
    split <;> omega
  have filled := @fillWith_out initial buffer count printed terminated fillChar accessible nonNull small (digits - text.length)
    (by omega)
  have written := @copyText_out initial source buffer count src
    (printed ++ List.replicate (digits - text.length) fillChar) (terminated && decide (digits - text.length = 0)) text accessible
    nonNull small holds other (if limited then min digits text.length else text.length) short
    (by rw [List.length_append, List.length_replicate]; omega)
  rw [List.length_append, List.length_replicate] at written
  have whole := take_copied digits limited text.chars
  change text.chars.take (if limited then min digits text.length else text.length) = _ at whole
  have some_ : decide ((if limited then min digits text.length else text.length) ≠ 0) = !(copied digits limited text.chars).isEmpty := by
    rw [← whole, isEmpty_take short, decide_not]
  rw [putText_eq room, filled, Access.ok_bind]
  simp only [written, Access.ok_bind, whole, some_, padded, List.append_assoc, Nat.add_assoc]
  rfl

theorem putText_overrun (accessible : initial.Accessible buffer count) (ends : initial (buffer + count) = none)
    (nonNull : buffer ≠ 0) (small : count < 2 ^ 32)
    (holds : source.Holds src text.bytes) (other : src ≠ 0) (start : printed.length < count)
    (room : HasRoom count printed.length digits text.length)
    (past : count ≤ printed.length + (padded digits fillChar limited text.chars).length) (result : Option (Bytes × Nat)) :
    putText count buffer (out initial buffer printed terminated) printed.length digits fillChar limited source src text.length ≠
      .ok result := by
  rw [padded_length] at past
  change count ≤ printed.length + (digits - text.length + if limited then min digits text.length else text.length) at past
  have short : (if limited then min digits text.length else text.length) ≤ text.length := by
    split <;> omega
  rw [putText_eq room]
  intro run
  obtain ⟨filled, fill, run⟩ := Access.bind_eq_ok.mp run
  by_cases beyond : count < printed.length + (digits - text.length)
  · exact fillWith_overrun accessible ends nonNull start beyond filled fill
  · rw [fillWith_out accessible nonNull small (Nat.le_of_not_lt beyond)] at fill
    cases fill
    obtain ⟨written, copy, _⟩ := Access.bind_eq_ok.mp run
    by_cases none_ : (if limited then min digits text.length else text.length) = 0
    · -- Then the spaces end just behind the buffer, but the test has found room for them.
      have exact_ : printed.length + (digits - text.length) = count := by omega
      have empty : text.length = 0 := by
        split at none_ <;> omega
      have test := room.2
      rw [empty, Nat.add_zero, dword_of_lt (by omega : printed.length < 2 ^ 32), dword_of_lt (by omega)] at test
      omega
    · have place : (printed ++ List.replicate (digits - text.length) fillChar).length = printed.length + (digits - text.length) := by
        rw [List.length_append, List.length_replicate]
      rw [← place] at copy
      refine copyText_overrun accessible ends nonNull holds other short none_ (by omega) (fun full => ?_)
        (by omega) written copy
      rw [decide_eq_false (by omega), Bool.and_false]

end PutText

inductive Value where
  | number (format : NumberFormat) (raw : Nat)
  | character (c : UInt8)
  | string (limited : Bool) (text : CString)

def Conversion.value : Conversion -> Argument -> Option Value
  | .number format, .value raw => some (.number format (if format.is64BitValue then qword raw else dword raw))
  | .character, .value raw => some (.character (UInt8.ofNat raw))
  | .string limited, .string text => some (.string limited text)
  | _, _ => none

def numberText (format : NumberFormat) (raw : Nat) : CString :=
  ⟨itoaText raw format.signedValue format.base format.is64BitValue,
    fun _ member => itoaText_nonZero format.positional format.few member⟩

def characterText (c : UInt8) : CString := ⟨if c = 0 then [] else [c], by
  intro char member zero
  split at member
  · cases member
  next other => exact other (by rw [← List.mem_singleton.mp member, zero])⟩

-- The string that temp_str points to.
def Value.text : Value -> CString
  | .number format raw => numberText format raw
  | .character c => characterText c
  | .string _ text => text

def Value.limited : Value -> Bool
  | .string limited _ => limited
  | _ => false

section ArgumentText

theorem numberText_short (format : NumberFormat) (raw : Nat) : (numberText format raw).length < 65 := by
  have short := itoaText_short format.positional raw format.signedValue format.is64BitValue
  have bound := itoaValue_lt raw format.signedValue format.is64BitValue
  have length := itoaText_length raw format.signedValue format.base format.is64BitValue
  change (itoaText raw format.signedValue format.base format.is64BitValue).length < 65
  have reversed : (reversedDigits format.base (itoaValue raw format.signedValue format.is64BitValue)).length ≤
      max 1 (Nat.digits format.base (itoaValue raw format.signedValue format.is64BitValue)).length := by
    rw [reversedDigits]
    split
    · exact Nat.le_max_left ..
    · rw [List.length_map]
      exact Nat.le_max_right ..
  cases signed : format.signedValue with
  | false =>
    have positive : itoaNegative raw false format.is64BitValue = false := rfl
    rw [signed] at length short reversed
    rw [positive, if_neg Bool.false_ne_true] at length
    omega
  | true =>
    have few : (Nat.digits 10 (itoaValue raw true format.is64BitValue)).length ≤ 20 := by
      rw [signed] at bound
      rw [Nat.digits_length_le_iff (by decide)]
      exact bound.trans_le (by decide)
    rw [signed] at length reversed
    rw [format.decimal signed] at length reversed ⊢
    split at length <;> omega

attribute [local simp] Conversion.value in
theorem conversion_limited {conversion : Conversion} {argument : Argument} {value : Value}
    (same : conversion.value argument = some value) : conversion.limited = value.limited := by
  cases conversion <;> cases argument <;> cases same <;> rfl

theorem copyCharacter_eq {temp : Bytes} (accessible : temp.Accessible 1 65) (c : UInt8) :
    ∃ after, clStrncpy temp 1 (Bytes.object 1 [c]) 1 1 = .ok after ∧ after.Accessible 1 65 ∧
      after.Holds 1 (characterText c).bytes := by
  have first : (Bytes.object 1 [c]).load (1 + 0) = .ok c := (Bytes.object_holds 1 [c]).load rfl
  have inside := accessible 0 (by decide)
  by_cases zero : c = 0
  · refine ⟨temp.put (1 + 0) 0, ?_, accessible.put, ?_⟩
    · simp only [clStrncpy, strncpyFrom, first, Access.ok_bind, if_pos zero]
      exact Bytes.store_eq inside
    · intro i byte here
      change ((if c = 0 then [] else [c]) ++ [0])[i]? = some byte at here
      rw [if_pos zero] at here
      cases i with
      | zero => rw [Bytes.put_self]; exact here
      | succ i => cases here
  · have behind := (@Bytes.Accessible.put temp (1 + 0) 65 c 1 accessible) 1 (by decide)
    refine ⟨(temp.put (1 + 0) c).put (1 + 1) 0, ?_, accessible.put.put, ?_⟩
    · simp only [clStrncpy, strncpyFrom, first, Access.ok_bind, if_neg zero, Bytes.store_eq inside]
      exact Bytes.store_eq behind
    · intro i byte here
      change ((if c = 0 then [] else [c]) ++ [0])[i]? = some byte at here
      rw [if_neg zero] at here
      match i with
      | 0 =>
        rw [Bytes.put_elsewhere (by decide), Bytes.put_self]
        exact here
      | 1 => rw [Bytes.put_self]; exact here
      | i + 2 => cases here

attribute [local simp] argumentText in
attribute [local simp] Value.text in
theorem argumentText_eq {temp : Bytes} (accessible : temp.Accessible 1 65) {limit : Nat} (enough : 64 < limit)
    {conversion : Conversion} {argument : Argument} {value : Value} (same : conversion.value argument = some value)
    (rest : List Argument) :
    ∃ after source, argumentText limit temp conversion (argument :: rest) = .ok (after, source, 1, rest) ∧
      after.Accessible 1 65 ∧ source.Holds 1 value.text.bytes := by
  cases conversion with
  | number format =>
    cases argument with
    | string text => cases same
    | value raw =>
      cases same
      have short := itoaText_short format.positional (if format.is64BitValue then qword raw else dword raw) format.signedValue
        format.is64BitValue
      have run := itoa_eq format.positional (by decide : 1 ≠ 0) (if format.is64BitValue then qword raw else dword raw)
        format.signedValue format.is64BitValue accessible (by decide) (numberText_short format _)
        (Nat.lt_of_le_of_lt short enough)
      refine ⟨_, _, by rw [argumentText, run]; rfl, Bytes.write_accessible accessible, Bytes.write_holds⟩
  | character =>
    cases argument with
    | string text => cases same
    | value raw =>
      cases same
      obtain ⟨after, run, inside, holds⟩ := copyCharacter_eq accessible (UInt8.ofNat raw)
      exact ⟨after, after, by rw [argumentText, run]; rfl, inside, holds⟩
  | string limited =>
    cases argument with
    | value raw => cases same
    | string text =>
      cases same
      exact ⟨temp, _, rfl, accessible, Bytes.object_holds 1 text.bytes⟩

end ArgumentText

end Formatting

end Hal9000
