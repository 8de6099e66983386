import Hal9000.CommonLib.Formatting

set_option autoImplicit false

namespace Hal9000.Formatting

open Lib (Bytes Access)

inductive Piece where
  | plain (c : UInt8)
  | printed (digits : List UInt8) (value : Value)
  | broken (digits : List UInt8)

inductive Parses : List UInt8 -> List Argument -> List Piece -> Prop where
  | done (arguments : List Argument) : Parses [] arguments []
  | plain {c : UInt8} {rest : List UInt8} {arguments : List Argument} {pieces : List Piece} (other : c ≠ 0x25)
      (behind : Parses rest arguments pieces) : Parses (c :: rest) arguments (.plain c :: pieces)
  | printed {digits rest : List UInt8} {letter : UInt8} {asked : Conversion} {argument : Argument} {value : Value}
      {arguments : List Argument} {pieces : List Piece} (numeric : forall digit, digit ∈ digits -> isDigit digit = true)
      (known : conversion letter = some asked) (matched : asked.value argument = some value)
      (behind : Parses rest arguments pieces) :
      Parses (0x25 :: (digits ++ letter :: rest)) (argument :: arguments) (.printed digits value :: pieces)
  | broken {digits rest : List UInt8} {arguments : List Argument}
      (numeric : forall digit, digit ∈ digits -> isDigit digit = true)
      (unknown : forall letter, rest.head? = some letter -> isDigit letter = false ∧ conversion letter = none) :
      Parses (0x25 :: (digits ++ rest)) arguments [.broken digits]

def width (digits : List UInt8) : Nat := digits.foldl (fun width digit => width * 10 + (digit.toNat - 0x30)) 0

def fillOf (digits : List UInt8) : UInt8 := if digits.head? = some 0x30 then 0x30 else 0x20

def output (digits : List UInt8) (value : Value) : List UInt8 :=
  padded (dword (width digits)) (fillOf digits) value.limited value.text.chars

def endsText (digits : List UInt8) (value : Value) (terminated : Bool) : Bool :=
  terminated && decide (dword (width digits) - value.text.length = 0) ||
    !(copied (dword (width digits)) value.limited value.text.chars).isEmpty

def Reaches (buffSize : Nat) : (outBufferOffset : Nat) -> List Piece -> Prop
  | _, [] => True
  | outBufferOffset, .plain _ :: pieces => outBufferOffset + 1 < buffSize ∧ Reaches buffSize (outBufferOffset + 1) pieces
  | _, .broken _ :: _ => False
  | outBufferOffset, .printed digits value :: pieces =>
    HasRoom buffSize outBufferOffset (dword (width digits)) value.text.length ∧
      Reaches buffSize (outBufferOffset + (output digits value).length) pieces

-- No string is too long to be measured, the tests for space do not wrap around, the index of the format does not
-- either, and where a specifier is refused the text before it ends with a terminator.
def Safe (buffSize : Nat) : (index outBufferOffset : Nat) -> (terminated : Bool) -> List Piece -> Prop
  | _, _, _, [] => True
  | index, outBufferOffset, _, .plain _ :: pieces => outBufferOffset + 1 < buffSize ->
      index + 1 < 2 ^ 32 ∧ Safe buffSize (index + 1) (outBufferOffset + 1) false pieces
  | index, _, terminated, .broken digits :: _ => index + digits.length + 1 < 2 ^ 32 ∧ terminated = true
  | index, outBufferOffset, terminated, .printed digits value :: pieces =>
    index + digits.length + 1 < 2 ^ 32 ∧ value.text.length < maxDword ∧
      (HasRoom buffSize outBufferOffset (dword (width digits)) value.text.length ->
        outBufferOffset + (output digits value).length < buffSize ∧ index + digits.length + 2 < 2 ^ 32 ∧
          Safe buffSize (index + digits.length + 2) (outBufferOffset + (output digits value).length)
            (endsText digits value terminated) pieces) ∧
      (¬ HasRoom buffSize outBufferOffset (dword (width digits)) value.text.length -> terminated = true)

instance decidableReaches (buffSize : Nat) : (outBufferOffset : Nat) -> (pieces : List Piece) ->
    Decidable (Reaches buffSize outBufferOffset pieces)
  | _, [] => isTrue trivial
  | outBufferOffset, .plain _ :: pieces =>
    have := decidableReaches buffSize (outBufferOffset + 1) pieces
    inferInstanceAs (Decidable (_ ∧ _))
  | _, .broken _ :: _ => isFalse id
  | outBufferOffset, .printed digits value :: pieces =>
    have := decidableReaches buffSize (outBufferOffset + (output digits value).length) pieces
    inferInstanceAs (Decidable (_ ∧ _))

instance decidableSafe (buffSize : Nat) : (index outBufferOffset : Nat) -> (terminated : Bool) -> (pieces : List Piece) ->
    Decidable (Safe buffSize index outBufferOffset terminated pieces)
  | _, _, _, [] => isTrue trivial
  | index, outBufferOffset, _, .plain _ :: pieces =>
    have := decidableSafe buffSize (index + 1) (outBufferOffset + 1) false pieces
    inferInstanceAs (Decidable (_ -> _ ∧ _))
  | _, _, _, .broken _ :: _ => inferInstanceAs (Decidable (_ ∧ _))
  | index, outBufferOffset, terminated, .printed digits value :: pieces =>
    have := decidableSafe buffSize (index + digits.length + 2) (outBufferOffset + (output digits value).length)
      (endsText digits value terminated) pieces
    inferInstanceAs (Decidable (_ ∧ _ ∧ (_ -> _ ∧ _ ∧ _) ∧ (_ -> _)))

section Width

variable {format : CString} {rest : List UInt8}

theorem at_of_drop {i : Nat} (here : format.chars.drop i = rest) : format.at_ i = rest.headD 0 := by
  rw [CString.at_, List.getD_eq_getElem?_getD, ← List.head?_drop, here]
  cases rest <;> rfl

theorem drop_succ {i : Nat} {c : UInt8} (here : format.chars.drop i = c :: rest) : format.chars.drop (i + 1) = rest := by
  rw [← List.tail_drop, here]
  rfl

attribute [local simp] readWidth in
attribute [local simp] width in
theorem readWidth_eq {limit index : Nat} {digits : List UInt8} (number : Nat) (fillChar : UInt8) (firstSpecificator : Bool)
    (here : format.chars.drop (index + 1) = digits ++ rest) (numeric : forall digit, digit ∈ digits -> isDigit digit = true)
    (stops : forall letter, rest.head? = some letter -> isDigit letter = false)
    (small : index + digits.length + 1 < 2 ^ 32) (enough : digits.length < limit) :
    readWidth format limit index (dword number) fillChar firstSpecificator =
      .ok (index + digits.length, dword (digits.foldl (fun width digit => width * 10 + (digit.toNat - 0x30)) number),
        if firstSpecificator && digits.head? == some 0x30 then 0x30 else fillChar, rest.headD 0) := by
  induction digits generalizing index number fillChar firstSpecificator limit with
  | nil =>
    obtain ⟨limit, rfl⟩ := Nat.exists_eq_succ_of_ne_zero (Nat.ne_of_gt enough)
    rw [List.length_nil] at small
    have next : format.at_ (dword (index + 1)) = rest.headD 0 := by
      rw [dword_of_lt (by omega)]
      exact at_of_drop here
    have other : isDigit (rest.headD 0) = false := by
      cases rest with
      | nil => rfl
      | cons letter rest => exact stops letter rfl
    rw [readWidth, next, if_neg (by rw [other]; exact Bool.false_ne_true)]
    cases firstSpecificator <;> rfl
  | cons digit digits ih =>
    obtain ⟨limit, rfl⟩ := Nat.exists_eq_succ_of_ne_zero (Nat.ne_of_gt (Nat.zero_lt_of_lt enough))
    rw [List.length_cons] at small enough
    have next : format.at_ (dword (index + 1)) = digit := by
      rw [dword_of_lt (by omega)]
      exact at_of_drop here
    have wraps : dword (dword number * 10 + (digit.toNat - 0x30)) = dword (number * 10 + (digit.toNat - 0x30)) := by
      simp only [dword]
      omega
    have run := ih (number * 10 + (digit.toNat - 0x30)) (if firstSpecificator && digit == 0x30 then 0x30 else fillChar) false (drop_succ here)
      (fun other member => numeric other (List.mem_cons_of_mem _ member)) (by omega) (Nat.lt_of_succ_lt_succ enough)
    rw [readWidth, next, if_pos (numeric digit List.mem_cons_self), wraps, dword_of_lt (by omega), run, List.length_cons,
      List.foldl_cons, Bool.false_and, if_neg Bool.false_ne_true]
    congr 2
    omega

end Width

structure Enough (limit : Nat) (format : CString) (pieces : List Piece) : Prop where
  format : format.length < limit
  digits : 64 < limit
  texts : forall digits value, .printed digits value ∈ pieces -> value.text.length < limit

section Steps

variable {format : CString} {initial temp : Bytes} {buffer count limit fuel index paramIndex : Nat} {printed : List UInt8}
  {terminated : Bool} {arguments : List Argument} {rest : List UInt8}

attribute [local simp] printFrom in
theorem printFrom_end (accessible : initial.Accessible buffer count) (room : printed.length < count)
    (here : format.chars.drop index = []) :
    printFrom limit format buffer count (fuel + 1) index paramIndex printed.length arguments temp
        (out initial buffer printed terminated) =
      .ok (dword (paramIndex + (2 ^ 32 - 1)), out initial buffer printed true) := by
  have next : format.at_ index = 0 := at_of_drop here
  rw [printFrom, if_pos next, out_terminate accessible room]
  rfl

theorem printFrom_plain (accessible : initial.Accessible buffer count) {c : UInt8}
    (here : format.chars.drop index = c :: rest) (other : c ≠ 0x25) (char : c ≠ 0) (small : count < 2 ^ 32)
    (room : printed.length + 1 < count) :
    printFrom limit format buffer count (fuel + 1) index paramIndex printed.length arguments temp
        (out initial buffer printed terminated) =
      printFrom limit format buffer count fuel (dword (index + 1)) paramIndex (printed ++ [c]).length arguments temp
        (out initial buffer (printed ++ [c]) false) := by
  have next : format.at_ index = c := at_of_drop here
  have longer : (printed ++ [c]).length = printed.length + 1 := by rw [List.length_append, List.length_singleton]
  rw [printFrom, next, if_neg char, if_neg other, dword_of_lt (by omega), if_neg (by omega), out_store accessible (by omega),
    longer]
  rfl

theorem printFrom_full (accessible : initial.Accessible buffer count) {c : UInt8}
    (here : format.chars.drop index = c :: rest) (other : c ≠ 0x25) (char : c ≠ 0) (small : count < 2 ^ 32)
    (inside : printed.length < count) (full : ¬ printed.length + 1 < count) :
    printFrom limit format buffer count (fuel + 1) index paramIndex printed.length arguments temp
        (out initial buffer printed terminated) = .ok (statusBufferTooSmall, out initial buffer printed true) := by
  have next : format.at_ index = c := at_of_drop here
  rw [printFrom, next, if_neg char, if_neg other, dword_of_lt (by omega), if_pos (by omega), out_terminate accessible inside]
  rfl

theorem printFrom_broken {digits : List UInt8} {memory : Bytes} {outBufferOffset : Nat}
    (here : format.chars.drop index = 0x25 :: (digits ++ rest))
    (numeric : forall digit, digit ∈ digits -> isDigit digit = true)
    (unknown : forall letter, rest.head? = some letter -> isDigit letter = false ∧ conversion letter = none)
    (small : index + digits.length + 1 < 2 ^ 32) (enough : digits.length < limit) :
    printFrom limit format buffer count (fuel + 1) index paramIndex outBufferOffset arguments temp memory =
      .ok (statusParseFailed, memory) := by
  have next : format.at_ index = 0x25 := at_of_drop here
  have read := @readWidth_eq format rest limit index digits 0 0x20 true (drop_succ here) numeric
    (fun letter first => (unknown letter first).1) small enough
  have none_ : conversion (rest.headD 0) = none := by
    cases rest with
    | nil => rfl
    | cons letter rest => exact (unknown letter rfl).2
  rw [printFrom, next, if_neg (by decide), if_pos rfl]
  change readWidth format limit index 0 0x20 true >>= _ = _
  have zero : dword 0 = 0 := rfl
  rw [zero] at read
  rw [read, Access.ok_bind]
  simp only [none_]
  rfl

theorem conversion_isDigit {letter : UInt8} {asked : Conversion} (known : conversion letter = some asked) :
    isDigit letter = false := by
  rw [Bool.eq_false_iff]
  intro digit
  have last : letter ≤ 0x39 := of_decide_eq_true ((Bool.and_eq_true _ _).mp digit).2
  have other (c : UInt8) (above : 0x39 < c) : letter ≠ c := fun same => UInt8.not_le.mpr above (same ▸ last)
  rw [conversion, if_neg (other 0x62 (by decide)), if_neg (other 0x42 (by decide)), if_neg (other 0x75 (by decide)),
    if_neg (other 0x55 (by decide)), if_neg (other 0x64 (by decide)), if_neg (other 0x44 (by decide)),
    if_neg (other 0x78 (by decide)), if_neg (other 0x58 (by decide)), if_neg (other 0x63 (by decide)),
    if_neg (other 0x73 (by decide)), if_neg (other 0x53 (by decide))] at known
  cases known

theorem fillOf_eq (digits : List UInt8) : (if true && digits.head? == some 0x30 then 0x30 else 0x20) = fillOf digits := by
  simp only [Bool.true_and, beq_iff_eq]
  rfl

theorem printFrom_specifier {digits : List UInt8} {letter : UInt8} {asked : Conversion} {argument : Argument} {value : Value}
    {memory : Bytes} {outBufferOffset : Nat} (inside : temp.Accessible 1 65)
    (here : format.chars.drop index = 0x25 :: (digits ++ letter :: rest))
    (numeric : forall digit, digit ∈ digits -> isDigit digit = true) (known : conversion letter = some asked)
    (matched : asked.value argument = some value) (small : index + digits.length + 1 < 2 ^ 32)
    (enough : digits.length < limit) (number : 64 < limit) (measured : value.text.length < limit)
    (short : value.text.length < maxDword) :
    ∃ after source, after.Accessible 1 65 ∧ source.Holds 1 value.text.bytes ∧
      printFrom limit format buffer count (fuel + 1) index paramIndex outBufferOffset (argument :: arguments) temp memory =
        putText count buffer memory outBufferOffset (dword (width digits)) (fillOf digits) value.limited source 1
            value.text.length >>= fun written =>
          match written with
          | none => pure (statusBufferTooSmall, memory)
          | some (memory, outBufferOffset) =>
            printFrom limit format buffer count fuel (dword (index + digits.length + 2)) (dword (paramIndex + 1)) outBufferOffset
              arguments after memory := by
  have next : format.at_ index = 0x25 := at_of_drop here
  have read := @readWidth_eq format (letter :: rest) limit index digits 0 0x20 true (drop_succ here) numeric
    (fun other first => by
      obtain rfl := Option.some.inj first
      exact conversion_isDigit known) small enough
  have zero : dword 0 = 0 := rfl
  rw [zero] at read
  obtain ⟨after, source, run, accessible, holds⟩ := argumentText_eq inside number matched arguments
  have top : maxDword = 2 ^ 32 - 1 := rfl
  have length := clStrlen_eq holds (by omega) measured
  refine ⟨after, source, accessible, holds, ?_⟩
  rw [printFrom, next, if_neg (by decide), if_pos rfl, read, Access.ok_bind]
  simp only [List.headD_cons, known, run, Access.ok_bind, length, bne_iff_ne.mpr (Nat.ne_of_lt short), Access.assert_true,
    conversion_limited matched]
  rw [fillOf_eq]
  rfl

-- A string whose length is no DWORD but INVALID_STRING_SIZE is never printed.
theorem printFrom_long {digits : List UInt8} {letter : UInt8} {asked : Conversion} {argument : Argument} {value : Value}
    {memory : Bytes} {outBufferOffset : Nat} (inside : temp.Accessible 1 65)
    (here : format.chars.drop index = 0x25 :: (digits ++ letter :: rest))
    (numeric : forall digit, digit ∈ digits -> isDigit digit = true) (known : conversion letter = some asked)
    (matched : asked.value argument = some value) (small : index + digits.length + 1 < 2 ^ 32)
    (enough : digits.length < limit) (number : 64 < limit) (long : ¬ value.text.length < maxDword) (result : Nat × Bytes) :
    printFrom limit format buffer count (fuel + 1) index paramIndex outBufferOffset (argument :: arguments) temp memory ≠
      .ok result := by
  have next : format.at_ index = 0x25 := at_of_drop here
  have read := @readWidth_eq format (letter :: rest) limit index digits 0 0x20 true (drop_succ here) numeric
    (fun other first => by
      obtain rfl := Option.some.inj first
      exact conversion_isDigit known) small enough
  have zero : dword 0 = 0 := rfl
  rw [zero] at read
  obtain ⟨after, source, run, accessible, holds⟩ := argumentText_eq inside number matched arguments
  have top : maxDword = 2 ^ 32 - 1 := rfl
  rw [printFrom, next, if_neg (by decide), if_pos rfl, read, Access.ok_bind]
  simp only [List.headD_cons, known, run, Access.ok_bind]
  intro result
  obtain ⟨length, measured, result⟩ := Access.bind_eq_ok.mp result
  obtain ⟨fits, less⟩ := clStrlen_eq_ok holds measured
  rw [clStrlen_eq holds fits less] at measured
  cases measured
  have last : value.text.length = maxDword := by omega
  rw [last, bne_self_eq_false, Access.assert_false, Access.error_bind] at result
  cases result

end Steps

def printedCount : List Piece -> Nat
  | [] => 0
  | .printed .. :: pieces => printedCount pieces + 1
  | _ :: pieces => printedCount pieces

def outputs : List Piece -> List UInt8
  | [] => []
  | .plain c :: pieces => c :: outputs pieces
  | .printed digits value :: pieces => output digits value ++ outputs pieces
  | .broken _ :: _ => []

def passed (buffSize : Nat) : (outBufferOffset : Nat) -> List Piece -> List Piece
  | _, [] => []
  | outBufferOffset, .plain c :: pieces =>
    if outBufferOffset + 1 < buffSize then .plain c :: passed buffSize (outBufferOffset + 1) pieces else []
  | _, .broken _ :: _ => []
  | outBufferOffset, .printed digits value :: pieces =>
    if HasRoom buffSize outBufferOffset (dword (width digits)) value.text.length then
      .printed digits value :: passed buffSize (outBufferOffset + (output digits value).length) pieces
    else []

section Passed

attribute [local simp] outputs passed

variable {count : Nat} {printed digits : List UInt8} {value : Value} {pieces : List Piece} {c : UInt8}

theorem passed_plain (less : printed.length + 1 < count) :
    printed ++ outputs (passed count printed.length (.plain c :: pieces)) =
      (printed ++ [c]) ++ outputs (passed count (printed ++ [c]).length pieces) := by
  rw [passed, if_pos less, outputs, List.length_append, List.length_singleton, List.append_assoc, List.singleton_append]

theorem passed_full (past : ¬ printed.length + 1 < count) :
    printed ++ outputs (passed count printed.length (.plain c :: pieces)) = printed := by
  rw [passed, if_neg past, outputs, List.append_nil]

theorem passed_printed (tests : HasRoom count printed.length (dword (width digits)) value.text.length) :
    printed ++ outputs (passed count printed.length (.printed digits value :: pieces)) =
      (printed ++ output digits value) ++ outputs (passed count (printed ++ output digits value).length pieces) := by
  rw [passed, if_pos tests, outputs, List.length_append, List.append_assoc]

theorem passed_refused (tests : ¬ HasRoom count printed.length (dword (width digits)) value.text.length) :
    printed ++ outputs (passed count printed.length (.printed digits value :: pieces)) = printed := by
  rw [passed, if_neg tests, outputs, List.append_nil]

theorem passed_broken : printed ++ outputs (passed count printed.length (.broken digits :: pieces)) = printed :=
  List.append_nil printed

end Passed

attribute [local simp] Reaches in
theorem Reaches.passed_eq {count outBufferOffset : Nat} {pieces : List Piece} (reaches : Reaches count outBufferOffset pieces) :
    passed count outBufferOffset pieces = pieces := by
  induction pieces generalizing outBufferOffset with
  | nil => rfl
  | cons piece pieces ih =>
    cases piece with
    | plain c => rw [passed, if_pos reaches.1, ih reaches.2]
    | printed digits value => rw [passed, if_pos reaches.1, ih reaches.2]
    | broken digits => exact absurd reaches id

theorem passed_append (count outBufferOffset : Nat) (pieces : List Piece) :
    ∃ behind, pieces = passed count outBufferOffset pieces ++ behind := by
  induction pieces generalizing outBufferOffset with
  | nil => exact ⟨[], rfl⟩
  | cons piece pieces ih =>
    cases piece with
    | plain c =>
      obtain ⟨behind, split⟩ := ih (outBufferOffset + 1)
      rw [passed]
      split
      · exact ⟨behind, congrArg (Piece.plain c :: ·) split⟩
      · exact ⟨_, rfl⟩
    | printed digits value =>
      obtain ⟨behind, split⟩ := ih (outBufferOffset + (output digits value).length)
      rw [passed]
      split
      · exact ⟨behind, congrArg (Piece.printed digits value :: ·) split⟩
      · exact ⟨_, rfl⟩
    | broken digits => exact ⟨_, rfl⟩

theorem passed_whole (count outBufferOffset : Nat) (pieces : List Piece) :
    forall digits, .broken digits ∉ passed count outBufferOffset pieces := by
  induction pieces generalizing outBufferOffset with
  | nil => exact fun _ => List.not_mem_nil
  | cons piece pieces ih =>
    intro digits member
    cases piece with
    | plain c =>
      rw [passed] at member
      split at member
      · rcases List.mem_cons.mp member with same | behind
        · cases same
        · exact ih _ digits behind
      · cases member
    | printed first value =>
      rw [passed] at member
      split at member
      · rcases List.mem_cons.mp member with same | behind
        · cases same
        · exact ih _ digits behind
      · cases member
    | broken other => cases member

attribute [local simp] Safe in
theorem passed_room {count index outBufferOffset : Nat} {terminated : Bool} {pieces : List Piece}
    (safe : Safe count index outBufferOffset terminated pieces) (inside : outBufferOffset < count) :
    outBufferOffset + (outputs (passed count outBufferOffset pieces)).length < count := by
  induction pieces generalizing index outBufferOffset terminated with
  | nil => exact inside
  | cons piece pieces ih =>
    cases piece with
    | plain c =>
      rw [passed]
      split
      next less =>
        have further := ih (safe less).2 less
        simp only [outputs, List.length_cons]
        omega
      next => exact inside
    | printed digits value =>
      rw [passed]
      split
      next tests =>
        obtain ⟨less, _, behind⟩ := safe.2.2.1 tests
        have further := ih behind less
        simp only [outputs, List.length_append]
        omega
      next => exact inside
    | broken digits => exact inside

attribute [local simp] printedCount in
theorem Parses.printedCount {chars : List UInt8} {arguments : List Argument} {pieces : List Piece}
    (parses : Parses chars arguments pieces) : 2 * printedCount pieces ≤ chars.length := by
  induction parses with
  | done arguments => exact Nat.le_refl _
  | plain other behind ih => exact ih.trans (Nat.le_succ _)
  | printed numeric known matched behind ih =>
    simp only [Formatting.printedCount, List.length_cons, List.length_append]
    omega
  | broken numeric unknown => exact Nat.zero_le _

section Runs

variable {format : CString} {initial : Bytes} {buffer count : Nat}

theorem char_of_drop {i : Nat} {c : UInt8} {rest : List UInt8} (here : format.chars.drop i = c :: rest) : c ≠ 0 :=
  format.nonZero c (List.mem_of_mem_drop (by rw [here]; exact List.mem_cons_self))

theorem digits_of_drop {i : Nat} {digits rest : List UInt8} (here : format.chars.drop i = 0x25 :: (digits ++ rest)) :
    i + digits.length + rest.length + 1 = format.length := by
  have lengths := congrArg List.length here
  rw [List.length_drop, List.length_cons, List.length_append] at lengths
  change format.length - i = _ at lengths
  omega

theorem drop_behind {i : Nat} {digits rest : List UInt8} {letter : UInt8}
    (here : format.chars.drop i = 0x25 :: (digits ++ letter :: rest)) : format.chars.drop (i + digits.length + 2) = rest := by
  have split : 0x25 :: (digits ++ letter :: rest) = (0x25 :: (digits ++ [letter])) ++ rest := by
    rw [List.cons_append, List.append_assoc, List.singleton_append]
  have length : (0x25 :: (digits ++ [letter])).length = digits.length + 2 := by
    rw [List.length_cons, List.length_append, List.length_singleton]
  rw [Nat.add_assoc, ← List.drop_drop, here, split, ← length, List.drop_left]

theorem output_nonZero {digits : List UInt8} {value : Value} {c : UInt8} (member : c ∈ output digits value) : c ≠ 0 := by
  rcases List.mem_append.mp member with fill | char
  · rw [List.eq_of_mem_replicate fill, fillOf]
    split <;> decide
  · refine value.text.nonZero c ?_
    rw [copied] at char
    split at char
    · exact List.mem_of_mem_take char
    · exact char

theorem Enough.tail {limit : Nat} {piece : Piece} {pieces : List Piece} (enough : Enough limit format (piece :: pieces)) :
    Enough limit format pieces :=
  ⟨enough.format, enough.digits, fun digits value member => enough.texts digits value (List.mem_cons_of_mem _ member)⟩

theorem enough_exists (format : CString) (pieces : List Piece) :
    ∃ least, forall limit, least ≤ limit -> Enough limit format pieces ∧ pieces.length < limit := by
  induction pieces with
  | nil =>
    refine ⟨max (format.length + 1) 65, fun limit more => ⟨⟨by omega, by omega, ?_⟩, ?_⟩⟩
    · exact fun _ _ member => absurd member List.not_mem_nil
    · rw [List.length_nil]
      omega
  | cons piece pieces ih =>
    obtain ⟨least, enough⟩ := ih
    let text := match piece with
      | .printed _ value => value.text.length
      | _ => 0
    refine ⟨max (least + 1) (text + 1), fun limit more => ?_⟩
    obtain ⟨here, fewer⟩ := enough (limit - 1) (by omega)
    refine ⟨⟨by have := here.format; omega, by have := here.digits; omega, fun digits value member => ?_⟩, ?_⟩
    · rcases List.mem_cons.mp member with rfl | behind
      · change max (least + 1) (value.text.length + 1) ≤ limit at more
        omega
      · have shorter := here.texts digits value behind
        omega
    · rw [List.length_cons]
      omega

theorem printFrom_reaches (accessible : initial.Accessible buffer count) (nonNull : buffer ≠ 0) (small : count < 2 ^ 32)
    {chars : List UInt8} {arguments : List Argument} {pieces : List Piece} (parses : Parses chars arguments pieces)
    {index : Nat} (paramIndex : Nat) {printed : List UInt8} {terminated : Bool} (here : format.chars.drop index = chars)
    (room : printed.length < count) (safe : Safe count index printed.length terminated pieces)
    (reaches : Reaches count printed.length pieces) {limit fuel : Nat} (enough : Enough limit format pieces)
    (more : pieces.length < fuel) {temp : Bytes} (inside : temp.Accessible 1 65) :
    printFrom limit format buffer count fuel index paramIndex printed.length arguments temp (out initial buffer printed terminated) =
      .ok (dword (paramIndex + printedCount pieces + (2 ^ 32 - 1)), out initial buffer (printed ++ outputs pieces) true) := by
  induction parses generalizing index paramIndex printed terminated fuel temp with
  | done arguments =>
    obtain ⟨fuel, rfl⟩ := Nat.exists_eq_succ_of_ne_zero (Nat.ne_of_gt more)
    rw [printFrom_end accessible room here, outputs, List.append_nil]
    rfl
  | @plain c rest arguments pieces other behind ih =>
    obtain ⟨fuel, rfl⟩ := Nat.exists_eq_succ_of_ne_zero (Nat.ne_of_gt (Nat.zero_lt_of_lt more))
    obtain ⟨less, reaches⟩ := reaches
    obtain ⟨bound, safe⟩ := safe less
    have longer : (printed ++ [c]).length = printed.length + 1 := by rw [List.length_append, List.length_singleton]
    rw [← longer] at less safe reaches
    rw [printFrom_plain accessible here other (char_of_drop here) small (by omega), dword_of_lt bound,
      ih paramIndex (drop_succ here) less safe reaches enough.tail (Nat.lt_of_succ_lt_succ more) inside, outputs,
      List.append_assoc, List.singleton_append]
    rfl
  | @printed digits rest letter asked argument value arguments pieces numeric known matched behind ih =>
    obtain ⟨fuel, rfl⟩ := Nat.exists_eq_succ_of_ne_zero (Nat.ne_of_gt (Nat.zero_lt_of_lt more))
    obtain ⟨tests, reaches⟩ := reaches
    obtain ⟨bound, short, safe, _⟩ := safe
    obtain ⟨less, far, safe⟩ := safe tests
    have whole := digits_of_drop here
    have longer : (printed ++ output digits value).length = printed.length + (output digits value).length := List.length_append
    obtain ⟨after, source, accessibleAfter, holds, step⟩ := @printFrom_specifier format temp buffer count limit fuel index paramIndex
      arguments rest digits letter asked argument value (out initial buffer printed terminated) printed.length inside here numeric
      known matched bound (by have := enough.format; omega) enough.digits (enough.texts digits value List.mem_cons_self) short
    have put := @putText_out initial source buffer count (dword (width digits)) 1 printed terminated value.limited (fillOf digits)
      value.text accessible nonNull small holds (by decide) tests less
    rw [step, put, Access.ok_bind]
    rw [← longer] at less safe reaches
    have next := ih (dword (paramIndex + 1)) (drop_behind here) less safe reaches enough.tail (Nat.lt_of_succ_lt_succ more)
      accessibleAfter
    have counted : dword (dword (paramIndex + 1) + printedCount pieces + (2 ^ 32 - 1)) =
        dword (paramIndex + (printedCount pieces + 1) + (2 ^ 32 - 1)) := by
      simp only [dword]
      omega
    rw [longer, List.append_assoc] at next
    change printFrom limit format buffer count fuel (dword (index + digits.length + 2)) (dword (paramIndex + 1))
      (printed.length + (output digits value).length) arguments after
      (out initial buffer (printed ++ output digits value) (endsText digits value terminated)) = _
    rw [dword_of_lt far, next, counted]
    rfl
  | broken numeric unknown => exact absurd reaches id

theorem printFrom_refuses (accessible : initial.Accessible buffer count) (nonNull : buffer ≠ 0) (small : count < 2 ^ 32)
    {chars : List UInt8} {arguments : List Argument} {pieces : List Piece} (parses : Parses chars arguments pieces)
    {index : Nat} (paramIndex : Nat) {printed : List UInt8} {terminated : Bool} (here : format.chars.drop index = chars)
    (room : printed.length < count) (safe : Safe count index printed.length terminated pieces)
    (refused : ¬ Reaches count printed.length pieces) :
    ∃ status, succeeded status = false ∧ (printed ++ outputs (passed count printed.length pieces)).length < count ∧
      forall (limit fuel : Nat) (temp : Bytes), Enough limit format pieces -> pieces.length < fuel -> temp.Accessible 1 65 ->
        printFrom limit format buffer count fuel index paramIndex printed.length arguments temp
          (out initial buffer printed terminated) =
            .ok (status, out initial buffer (printed ++ outputs (passed count printed.length pieces)) true) := by
  induction parses generalizing index paramIndex printed terminated with
  | done arguments => exact absurd trivial refused
  | @plain c rest arguments pieces other behind ih =>
    by_cases less : printed.length + 1 < count
    · obtain ⟨bound, safe⟩ := safe less
      have further : ¬ Reaches count (printed.length + 1) pieces := fun reaches => refused ⟨less, reaches⟩
      have longer : (printed ++ [c]).length = printed.length + 1 := by rw [List.length_append, List.length_singleton]
      rw [← longer] at safe further
      obtain ⟨status, error, inner, always⟩ := ih paramIndex (drop_succ here) (by rwa [longer]) safe further
      rw [passed_plain less]
      refine ⟨status, error, inner, fun limit fuel temp enough more inside => ?_⟩
      obtain ⟨fuel, rfl⟩ := Nat.exists_eq_succ_of_ne_zero (Nat.ne_of_gt (Nat.zero_lt_of_lt more))
      rw [printFrom_plain accessible here other (char_of_drop here) small less, dword_of_lt bound]
      exact always limit fuel temp enough.tail (Nat.lt_of_succ_lt_succ more) inside
    · rw [passed_full less]
      refine ⟨statusBufferTooSmall, by decide, room, fun limit fuel temp _ more _ => ?_⟩
      obtain ⟨fuel, rfl⟩ := Nat.exists_eq_succ_of_ne_zero (Nat.ne_of_gt (Nat.zero_lt_of_lt more))
      exact printFrom_full accessible here other (char_of_drop here) small room less
  | @printed digits rest letter asked argument value arguments pieces numeric known matched behind ih =>
    obtain ⟨bound, short, goes, stops⟩ := safe
    have whole := digits_of_drop here
    by_cases tests : HasRoom count printed.length (dword (width digits)) value.text.length
    · obtain ⟨less, far, safe⟩ := goes tests
      have further : ¬ Reaches count (printed.length + (output digits value).length) pieces :=
        fun reaches => refused ⟨tests, reaches⟩
      have longer : (printed ++ output digits value).length = printed.length + (output digits value).length :=
        List.length_append
      have next := @ih (index + digits.length + 2) (dword (paramIndex + 1)) (printed ++ output digits value)
        (endsText digits value terminated) (drop_behind here)
      rw [← longer] at less safe further
      obtain ⟨status, error, inner, always⟩ := next less safe further
      rw [longer] at less always
      rw [passed_printed tests, longer]
      rw [longer] at inner
      refine ⟨status, error, inner, fun limit fuel temp enough more inside => ?_⟩
      obtain ⟨fuel, rfl⟩ := Nat.exists_eq_succ_of_ne_zero (Nat.ne_of_gt (Nat.zero_lt_of_lt more))
      obtain ⟨after, source, accessibleAfter, holds, step⟩ := @printFrom_specifier format temp buffer count limit fuel index
        paramIndex arguments rest digits letter asked argument value (out initial buffer printed terminated) printed.length inside
        here numeric known matched bound (by have := enough.format; omega) enough.digits
        (enough.texts digits value List.mem_cons_self) short
      have put := @putText_out initial source buffer count (dword (width digits)) 1 printed terminated value.limited
        (fillOf digits) value.text accessible nonNull small holds (by decide) tests less
      rw [step, put, Access.ok_bind]
      change printFrom limit format buffer count fuel (dword (index + digits.length + 2)) (dword (paramIndex + 1))
        (printed.length + (output digits value).length) arguments after
        (out initial buffer (printed ++ output digits value) (endsText digits value terminated)) = _
      rw [dword_of_lt far]
      exact always limit fuel after enough.tail (Nat.lt_of_succ_lt_succ more) accessibleAfter
    · rw [passed_refused tests]
      refine ⟨statusBufferTooSmall, by decide, room, fun limit fuel temp enough more inside => ?_⟩
      obtain ⟨fuel, rfl⟩ := Nat.exists_eq_succ_of_ne_zero (Nat.ne_of_gt (Nat.zero_lt_of_lt more))
      obtain ⟨after, source, accessibleAfter, holds, step⟩ := @printFrom_specifier format temp buffer count limit fuel index
        paramIndex arguments rest digits letter asked argument value (out initial buffer printed terminated) printed.length inside
        here numeric known matched bound (by have := enough.format; omega) enough.digits
        (enough.texts digits value List.mem_cons_self) short
      rw [step, putText_none tests, Access.ok_bind, stops tests]
      rfl
  | @broken digits rest arguments numeric unknown =>
    obtain ⟨bound, rfl⟩ := safe
    have whole := digits_of_drop here
    rw [passed_broken]
    refine ⟨statusParseFailed, by decide, room, fun limit fuel temp enough more _ => ?_⟩
    obtain ⟨fuel, rfl⟩ := Nat.exists_eq_succ_of_ne_zero (Nat.ne_of_gt (Nat.zero_lt_of_lt more))
    exact printFrom_broken here numeric unknown bound (by have := enough.format; omega)

theorem printFrom_ended (accessible : initial.Accessible buffer count) (nonNull : buffer ≠ 0) (small : count < 2 ^ 32)
    {arguments : List Argument} {pieces : List Piece} (parses : Parses format.chars arguments pieces) {terminated : Bool}
    (some_ : 0 < count) (safe : Safe count 0 0 terminated pieces) :
    ∃ status, forall (limit fuel : Nat) (temp : Bytes), Enough limit format pieces -> pieces.length < fuel ->
      temp.Accessible 1 65 ->
        printFrom limit format buffer count fuel 0 1 0 arguments temp (out initial buffer [] terminated) =
          .ok (status, out initial buffer (outputs (passed count 0 pieces)) true) := by
  by_cases reaches : Reaches count 0 pieces
  · rw [reaches.passed_eq]
    exact ⟨_, fun limit fuel temp enough more inside => @printFrom_reaches format initial buffer count accessible nonNull small format.chars arguments pieces parses 0 1 []
      terminated rfl some_ safe reaches limit fuel enough more temp inside⟩
  · obtain ⟨status, _, _, always⟩ := @printFrom_refuses format initial buffer count accessible nonNull small format.chars
      arguments pieces parses 0 1 [] terminated rfl some_ safe reaches
    exact ⟨status, always⟩

theorem printFrom_unended (accessible : initial.Accessible buffer count) (ends : initial (buffer + count) = none)
    (nonNull : buffer ≠ 0) (small : count < 2 ^ 32) (indexed : format.length < 2 ^ 32)
    {chars : List UInt8} {arguments : List Argument} {pieces : List Piece} (parses : Parses chars arguments pieces)
    {index : Nat} (paramIndex : Nat) {printed : List UInt8} {terminated : Bool} (here : format.chars.drop index = chars)
    (room : printed.length < count) (nonZero : forall c, c ∈ printed -> c ≠ 0)
    (unsafe_ : ¬ Safe count index printed.length terminated pieces) {limit fuel : Nat} (enough : Enough limit format pieces)
    (more : pieces.length < fuel) {temp : Bytes} (inside : temp.Accessible 1 65) {status : Nat} {after : Bytes}
    (run : printFrom limit format buffer count fuel index paramIndex printed.length arguments temp
      (out initial buffer printed terminated) = .ok (status, after)) :
    (forall c, c ∈ printed ++ outputs (passed count printed.length pieces) -> c ≠ 0) ∧
      after = out initial buffer (printed ++ outputs (passed count printed.length pieces)) false := by
  induction parses generalizing index paramIndex printed terminated fuel temp with
  | done arguments => exact absurd trivial unsafe_
  | @plain c rest arguments pieces other behind ih =>
    obtain ⟨fuel, rfl⟩ := Nat.exists_eq_succ_of_ne_zero (Nat.ne_of_gt (Nat.zero_lt_of_lt more))
    have less : printed.length + 1 < count := by
      by_contra full
      exact unsafe_ (fun less => absurd less full)
    have lengths := congrArg List.length here
    rw [List.length_drop, List.length_cons] at lengths
    change format.length - index = _ at lengths
    have bound : index + 1 < 2 ^ 32 := by omega
    have further : ¬ Safe count (index + 1) (printed.length + 1) false pieces := fun safe => unsafe_ (fun _ => ⟨bound, safe⟩)
    have longer : (printed ++ [c]).length = printed.length + 1 := by rw [List.length_append, List.length_singleton]
    have char := char_of_drop here
    rw [printFrom_plain accessible here other char small less, dword_of_lt bound] at run
    rw [← longer] at less further
    rw [passed_plain (longer ▸ less)]
    refine ih paramIndex (drop_succ here) less (fun d member => ?_) further enough.tail (Nat.lt_of_succ_lt_succ more) inside run
    rcases List.mem_append.mp member with before | last
    · exact nonZero d before
    · rw [List.mem_singleton.mp last]
      exact char
  | @printed digits rest letter asked argument value arguments pieces numeric known matched behind ih =>
    obtain ⟨fuel, rfl⟩ := Nat.exists_eq_succ_of_ne_zero (Nat.ne_of_gt (Nat.zero_lt_of_lt more))
    have whole := digits_of_drop here
    rw [List.length_cons] at whole
    have bound : index + digits.length + 1 < 2 ^ 32 := by omega
    have far : index + digits.length + 2 < 2 ^ 32 := by omega
    have fewer : digits.length < limit := by have := enough.format; omega
    by_cases short : value.text.length < maxDword
    next =>
      obtain ⟨left, source, accessibleAfter, holds, step⟩ := @printFrom_specifier format temp buffer count limit fuel index
        paramIndex arguments rest digits letter asked argument value (out initial buffer printed terminated) printed.length inside
        here numeric known matched bound fewer enough.digits (enough.texts digits value List.mem_cons_self) short
      rw [step] at run
      by_cases tests : HasRoom count printed.length (dword (width digits)) value.text.length
      · by_cases less : printed.length + (output digits value).length < count
        · have put := @putText_out initial source buffer count (dword (width digits)) 1 printed terminated value.limited
            (fillOf digits) value.text accessible nonNull small holds (by decide) tests less
          have further : ¬ Safe count (index + digits.length + 2) (printed.length + (output digits value).length)
              (endsText digits value terminated) pieces :=
            fun safe => unsafe_ ⟨bound, short, fun _ => ⟨less, far, safe⟩, fun other => absurd tests other⟩
          have longer : (printed ++ output digits value).length = printed.length + (output digits value).length :=
            List.length_append
          rw [put, Access.ok_bind] at run
          change printFrom limit format buffer count fuel (dword (index + digits.length + 2)) (dword (paramIndex + 1))
            (printed.length + (output digits value).length) arguments left
            (out initial buffer (printed ++ output digits value) (endsText digits value terminated)) = _ at run
          rw [← longer] at less further run
          rw [dword_of_lt far] at run
          rw [passed_printed tests]
          refine ih (dword (paramIndex + 1)) (drop_behind here) less (fun d member => ?_) further enough.tail
            (Nat.lt_of_succ_lt_succ more) accessibleAfter run
          rcases List.mem_append.mp member with before | last
          · exact nonZero d before
          · exact output_nonZero last
        · obtain ⟨written, put, _⟩ := Access.bind_eq_ok.mp run
          exact absurd put (putText_overrun accessible ends nonNull small holds (by decide) room tests (Nat.le_of_not_lt less) _)
      · have open_ : terminated = false := by
          rw [← Bool.not_eq_true]
          exact fun ended => unsafe_ ⟨bound, short, fun fits => absurd fits tests, fun _ => ended⟩
        rw [putText_none tests, Access.ok_bind, open_] at run
        cases run
        rw [passed_refused tests]
        exact ⟨nonZero, rfl⟩
    next =>
      exact absurd run (printFrom_long inside here numeric known matched bound fewer enough.digits short _)
  | @broken digits rest arguments numeric unknown =>
    obtain ⟨fuel, rfl⟩ := Nat.exists_eq_succ_of_ne_zero (Nat.ne_of_gt (Nat.zero_lt_of_lt more))
    have whole := digits_of_drop here
    have bound : index + digits.length + 1 < 2 ^ 32 := by omega
    have open_ : terminated = false := by
      rw [← Bool.not_eq_true]
      exact fun ended => unsafe_ ⟨bound, ended⟩
    rw [printFrom_broken here numeric unknown bound (by have := enough.format; omega), open_] at run
    cases run
    rw [passed_broken]
    exact ⟨nonZero, rfl⟩

end Runs

end Hal9000.Formatting
