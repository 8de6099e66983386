import Hal9000.CommonLib.FormattingPieces

set_option autoImplicit false

namespace Hal9000.Formatting

open Lib (Bytes Access)

def NumberFormat.number (format : NumberFormat) (raw : Nat) : Int :=
  Hal9000.number raw format.signedValue format.is64BitValue

def Value.sign : Value -> List UInt8
  | .number format raw => if format.number raw < 0 then [0x2D] else []
  | _ => []

def Value.body (digits : List UInt8) : Value -> List UInt8
  | .number format raw => numeral format.base (format.number raw).natAbs
  | .character c => [c]
  | .string limited text => if limited && !digits.isEmpty then text.chars.take (width digits) else text.chars

def expansion (digits : List UInt8) (value : Value) : List UInt8 :=
  let fill := List.replicate (width digits - (value.sign ++ value.body digits).length) (fillOf digits)
  if fillOf digits = 0x30 then value.sign ++ fill ++ value.body digits else fill ++ value.sign ++ value.body digits

def expansions : List Piece -> List UInt8
  | [] => []
  | .plain c :: pieces => c :: expansions pieces
  | .printed digits value :: pieces => expansion digits value ++ expansions pieces
  | .broken _ :: _ => []

def Right (digits : List UInt8) (value : Value) : Prop :=
  width digits < 2 ^ 32 ∧
    match value with
    | .number format raw =>
      ¬ LeastNarrow raw format.signedValue format.is64BitValue ∧
        (fillOf digits = 0x30 -> format.number raw < 0 ->
          width digits ≤ (numeral format.base (format.number raw)).length)
    | .character c => c ≠ 0
    | .string limited text => limited = true -> digits = [] -> text.chars = []

def Printable (buffSize : Nat) (pieces : List Piece) : Prop :=
  Safe buffSize 0 0 false pieces ∧
    (Reaches buffSize 0 pieces -> forall digits value, .printed digits value ∈ pieces -> Right digits value)

def Prints (format : CString) (arguments : List Argument) (pieces : List Piece) (buffSize : Nat) : Prop :=
  forall (buffer : Nat) (contents : List UInt8) (temp : Bytes), buffer ≠ 0 -> contents.length = buffSize ->
    temp.Accessible 1 65 -> ∃ status after,
      Access.Returns (fun fuel => clVsnprintf fuel temp (Bytes.object buffer contents) buffer buffSize (some format) arguments)
        (status, after) ∧
      (∃ i, i < buffSize ∧ after (buffer + i) = some 0) ∧
      (succeeded status = true -> after.Holds buffer (expansions pieces ++ [0]))

section Pieces

variable {digits : List UInt8} {value : Value} {pieces : List Piece}

theorem numeral_sign (base : Nat) (number : Int) :
    numeral base number = (if number < 0 then [0x2D] else []) ++ numeral base number.natAbs := by
  rw [numeral, numeral, Int.natAbs_natCast, if_neg (Int.not_lt.mpr (Int.natCast_nonneg _)), List.nil_append]
  simp only [Int.natCast_natAbs, abs_eq_zero]

theorem fillOf_zero (other : fillOf digits ≠ 0x30) : fillOf digits = 0x20 := by
  rw [fillOf] at other ⊢
  split at other
  · exact absurd rfl other
  next first => rw [if_neg first]

attribute [local simp] Value.sign in
attribute [local simp] Value.body in
theorem expansion_length : (expansion digits value).length = max (width digits) (value.sign ++ value.body digits).length := by
  rw [expansion]
  split <;> simp only [List.length_append, List.length_replicate] <;> omega

theorem output_length : (output digits value).length = dword (width digits) - value.text.length +
    if value.limited then min (dword (width digits)) value.text.length else value.text.length := padded_length ..

def Value.Narrow : Value -> Prop
  | .number format raw => LeastNarrow raw format.signedValue format.is64BitValue
  | _ => False

theorem count_fill (count : Nat) : (List.replicate count (fillOf digits)).count 0x33 = 0 := by
  rw [List.count_replicate, if_neg]
  by_cases zero : fillOf digits = 0x30
  · rw [zero]
    decide
  · rw [fillOf_zero zero]
    decide

theorem expansion_count : (expansion digits value).count 0x33 = (value.sign ++ value.body digits).count 0x33 := by
  rw [expansion]
  split <;> simp only [List.count_append, count_fill] <;> omega

theorem output_count :
    (output digits value).count 0x33 = (copied (dword (width digits)) value.limited value.text.chars).count 0x33 := by
  rw [output, padded, List.count_append, count_fill, Nat.zero_add]

theorem numberText_eq {format : NumberFormat} {raw : Nat} (fine : ¬ (Value.number format raw).Narrow) :
    (Value.number format raw).text.chars = (Value.number format raw).sign ++ (Value.number format raw).body digits := by
  change itoaText raw format.signedValue format.base format.is64BitValue = _
  rw [itoaText_numeral format.positional format.few fine, numeral_sign]
  rfl

attribute [local simp] Value.Narrow in
theorem narrow_count {format : NumberFormat} {raw : Nat} (least : (Value.number format raw).Narrow) :
    (output digits (.number format raw)).count 0x33 < (expansion digits (.number format raw)).count 0x33 := by
  obtain ⟨negative, wrong⟩ := leastNarrow_value least
  have right : (format.number raw).natAbs = 2 ^ 31 := by
    obtain ⟨signed, narrow, bits⟩ := least
    rw [NumberFormat.number, number_eq, negative, narrow, if_neg Bool.false_ne_true, if_pos rfl, bits]
    rfl
  have text : copied (dword (width digits)) false (numberText format raw).chars =
      [0x2D] ++ (orderedDigits 10 (2 ^ 64 - 2 ^ 31)).map digitChar := by
    change itoaText raw format.signedValue format.base format.is64BitValue = _
    rw [itoaText_eq, negative, wrong, format.decimal least.1, if_pos rfl]
  have meant : (Value.number format raw).sign ++ (Value.number format raw).body digits =
      [0x2D] ++ (orderedDigits 10 (2 ^ 31)).map digitChar := by
    have below : format.number raw < 0 := (number_negative ..).mpr negative
    change (if format.number raw < 0 then [0x2D] else []) ++ numeral format.base (format.number raw).natAbs = _
    rw [if_pos below, right, format.decimal least.1, numeral_eq (by decide) (by decide)]
    rfl
  rw [output_count, expansion_count, meant]
  change List.count 0x33 (copied (dword (width digits)) false (numberText format raw).chars) < _
  rw [text]
  decide

theorem output_count_le : (output digits value).count 0x33 ≤ (expansion digits value).count 0x33 := by
  cases value with
  | number format raw =>
    by_cases least : (Value.number format raw).Narrow
    · exact Nat.le_of_lt (narrow_count least)
    · rw [output_count, expansion_count, ← numberText_eq least]
      exact Nat.le_refl _
  | character c =>
    rw [output_count, expansion_count]
    change (characterText c).chars.count 0x33 ≤ [c].count 0x33
    change List.count _ (if c = 0 then [] else [c]) ≤ _
    split
    · exact Nat.zero_le _
    · exact Nat.le_refl _
  | string limited text =>
    rw [output_count, expansion_count]
    change (copied (dword (width digits)) limited text.chars).count 0x33 ≤
      (if limited && !digits.isEmpty then text.chars.take (width digits) else text.chars).count 0x33
    cases limited with
    | false => exact Nat.le_refl _
    | true =>
      rw [copied, if_pos rfl, Bool.true_and]
      split
      · exact (List.take_sublist_take_left (Nat.mod_le _ _)).count_le _
      · exact (List.take_sublist ..).count_le _

theorem output_length_le (fine : ¬ value.Narrow) : (output digits value).length ≤ (expansion digits value).length := by
  have low : dword (width digits) ≤ width digits := Nat.mod_le _ _
  rw [output_length, expansion_length]
  cases value with
  | number format raw =>
    rw [← numberText_eq fine]
    change _ - (numberText format raw).chars.length + (numberText format raw).chars.length ≤
      max (width digits) (numberText format raw).chars.length
    omega
  | character c =>
    change _ - (if c = 0 then [] else [c]).length + (if c = 0 then [] else [c]).length ≤ max (width digits) [c].length
    split <;> simp only [List.length_nil, List.length_singleton] <;> omega
  | string limited text =>
    change _ - text.chars.length + (if limited then min (dword (width digits)) text.chars.length else text.chars.length) ≤
      max (width digits) (if limited && !digits.isEmpty then text.chars.take (width digits) else text.chars).length
    cases limited with
    | false => simp only [Bool.false_and, Bool.false_eq_true, if_false]; omega
    | true =>
      rw [if_pos rfl, Bool.true_and]
      split
      · rw [List.length_take]
        omega
      · omega

theorem expansion_unsigned (unsigned : value.sign = []) :
    expansion digits value = List.replicate (width digits - (value.body digits).length) (fillOf digits) ++ value.body digits := by
  rw [expansion, unsigned]
  simp only [List.nil_append, List.append_nil, ite_self]

theorem width_of_expansion (bounded : (output digits value).length < 2 ^ 32) (same : expansion digits value = output digits value) :
    width digits < 2 ^ 32 := by
  have length := @expansion_length digits value
  rw [same] at length
  omega

theorem expansion_eq_iff (fine : ¬ value.Narrow) (bounded : (output digits value).length < 2 ^ 32) :
    expansion digits value = output digits value ↔ Right digits value := by
  constructor
  · intro same
    have small := width_of_expansion bounded same
    refine ⟨small, ?_⟩
    cases value with
    | number format raw =>
      refine ⟨fine, fun zeros below => ?_⟩
      by_contra past
      have text := @numberText_eq digits format raw fine
      have more : dword (width digits) - (Value.number format raw).text.chars.length ≠ 0 := by
        rw [dword_of_lt small, text]
        have split := numeral_sign format.base (format.number raw)
        change _ = (Value.number format raw).sign ++ (Value.number format raw).body digits at split
        rw [← split]
        omega
      obtain ⟨count, more⟩ := Nat.exists_eq_succ_of_ne_zero more
      have heads := congrArg List.head? same
      rw [output, padded, more, List.replicate_succ, expansion, if_pos zeros, zeros] at heads
      change ((if format.number raw < 0 then [0x2D] else []) ++ _ ++ _ : List UInt8).head? = some 0x30 at heads
      rw [if_pos below] at heads
      have first : (0x2D : UInt8) = 0x30 := Option.some.inj heads
      exact absurd first (by decide)
    | character c =>
      intro zero
      rw [expansion_unsigned rfl, zero] at same
      have member : (0 : UInt8) ∈ output digits (.character 0) := by
        rw [← same]
        exact List.mem_append_right _ List.mem_cons_self
      exact output_nonZero member rfl
    | string limited text =>
      rintro rfl rfl
      rw [expansion_unsigned rfl] at same
      have empty := (List.append_eq_nil_iff.mp (same.trans (List.length_eq_zero_iff.mp (by
        rw [output_length]
        change dword 0 - text.length + min (dword 0) text.length = 0
        have zero : dword 0 = 0 := rfl
        omega)))).2
      exact empty
  · rintro ⟨small, right⟩
    cases value with
    | number format raw =>
      have text := @numberText_eq digits format raw fine
      obtain ⟨_, signed⟩ := right
      change _ = List.replicate _ _ ++ (Value.number format raw).text.chars
      rw [dword_of_lt small, text, expansion]
      split
      next zeros =>
        by_cases below : format.number raw < 0
        · have split := numeral_sign format.base (format.number raw)
          change _ = (Value.number format raw).sign ++ (Value.number format raw).body digits at split
          have wide := signed zeros below
          rw [split] at wide
          rw [Nat.sub_eq_zero_of_le wide, List.replicate_zero, List.append_nil, List.nil_append]
        · have unsigned : (Value.number format raw).sign = [] := if_neg below
          rw [unsigned, List.nil_append, List.nil_append]
      next => rw [List.append_assoc]
    | character c =>
      have text : (Value.character c).text.chars = [c] := if_neg right
      rw [expansion_unsigned rfl, output, padded, text, dword_of_lt small]
      rfl
    | string limited text =>
      rw [expansion_unsigned rfl, output, padded, dword_of_lt small]
      cases limited with
      | false => rfl
      | true =>
        change List.replicate (_ - (if true && !digits.isEmpty then text.chars.take (width digits) else text.chars).length) _ ++
          (if true && !digits.isEmpty then text.chars.take (width digits) else text.chars) =
          List.replicate (width digits - text.chars.length) _ ++ text.chars.take (width digits)
        cases digits with
        | nil =>
          rw [right rfl rfl]
          rfl
        | cons digit digits =>
          change List.replicate (width (digit :: digits) - (text.chars.take (width (digit :: digits))).length) _ ++ _ = _
          rw [List.length_take]
          congr 2
          omega

theorem behind_plain {c : UInt8} (member : .printed digits value ∈ .plain c :: pieces) : .printed digits value ∈ pieces := by
  rcases List.mem_cons.mp member with same | behind
  · cases same
  · exact behind

attribute [local simp] expansions in
-- No text but the right one takes its place: a text of the same length would need all the threes.
theorem expansions_count : (outputs pieces).count 0x33 ≤ (expansions pieces).count 0x33 ∧
    forall digits value, value.Narrow -> .printed digits value ∈ pieces -> (forall other, .broken other ∉ pieces) ->
      (outputs pieces).count 0x33 < (expansions pieces).count 0x33 := by
  induction pieces with
  | nil => exact ⟨Nat.le_refl _, fun _ _ _ member => absurd member List.not_mem_nil⟩
  | cons piece pieces ih =>
    obtain ⟨all, strict⟩ := ih
    cases piece with
    | plain c =>
      simp only [outputs, expansions, List.count_cons]
      refine ⟨by omega, fun digits value least member whole => ?_⟩
      have less := strict digits value least (behind_plain member)
        (fun other broken => whole other (List.mem_cons_of_mem _ broken))
      omega
    | printed first shown =>
      have here := @output_count_le first shown
      simp only [outputs, expansions, List.count_append]
      refine ⟨by omega, fun digits value least member whole => ?_⟩
      rcases List.mem_cons.mp member with same | behind
      · cases same
        cases shown with
        | number format raw =>
          have less := @narrow_count first format raw least
          omega
        | character c => exact absurd least id
        | string limited text => exact absurd least id
      · have less := strict digits value least behind (fun other broken => whole other (List.mem_cons_of_mem _ broken))
        omega
    | broken digits =>
      exact ⟨Nat.le_refl _, fun _ _ _ _ whole => absurd List.mem_cons_self (whole digits)⟩

theorem expansions_length (fine : forall digits value, .printed digits value ∈ pieces -> ¬ value.Narrow) :
    (outputs pieces).length ≤ (expansions pieces).length := by
  induction pieces with
  | nil => exact Nat.le_refl _
  | cons piece pieces ih =>
    have behind := ih (fun digits value member => fine digits value (List.mem_cons_of_mem _ member))
    cases piece with
    | plain c => simpa [outputs, expansions] using behind
    | printed digits value =>
      have here := @output_length_le digits value (fine digits value List.mem_cons_self)
      simp only [outputs, expansions, List.length_append]
      omega
    | broken digits => exact Nat.le_refl _

theorem Right.fine (right : Right digits value) : ¬ value.Narrow := by
  cases value with
  | number format raw => exact right.2.1
  | character c => exact id
  | string limited text => exact id

theorem expansions_eq (bounded : (outputs pieces).length < 2 ^ 32)
    (right : forall digits value, .printed digits value ∈ pieces -> Right digits value) :
    expansions pieces = outputs pieces := by
  induction pieces with
  | nil => rfl
  | cons piece pieces ih =>
    have behind := fun shorter => ih shorter (fun digits value member => right digits value (List.mem_cons_of_mem _ member))
    cases piece with
    | plain c =>
      have shorter : (outputs pieces).length < 2 ^ 32 := Nat.lt_of_succ_lt bounded
      simp only [outputs, expansions, behind shorter]
    | printed digits value =>
      have here := right digits value List.mem_cons_self
      simp only [outputs, List.length_append] at bounded
      simp only [outputs, expansions, behind (by omega), (expansion_eq_iff here.fine (by omega)).mpr here]
    | broken other => rfl

theorem right_of_expansions (whole : forall other, .broken other ∉ pieces) (bounded : (outputs pieces).length < 2 ^ 32)
    (same : expansions pieces = outputs pieces) :
    forall digits value, .printed digits value ∈ pieces -> Right digits value := by
  have fine : forall digits value, .printed digits value ∈ pieces -> ¬ value.Narrow := by
    intro digits value member least
    have less := expansions_count.2 digits value least member whole
    rw [same] at less
    exact Nat.lt_irrefl _ less
  induction pieces with
  | nil => exact fun _ _ member => absurd member List.not_mem_nil
  | cons piece pieces ih =>
    have further : forall other, .broken other ∉ pieces := fun other broken => whole other (List.mem_cons_of_mem _ broken)
    have fineBehind : forall digits value, .printed digits value ∈ pieces -> ¬ value.Narrow :=
      fun digits value member => fine digits value (List.mem_cons_of_mem _ member)
    intro digits value member
    cases piece with
    | plain c =>
      have shorter : (outputs pieces).length < 2 ^ 32 := Nat.lt_of_succ_lt bounded
      exact ih further shorter (List.cons.inj same).2 fineBehind digits value
        (behind_plain member)
    | printed first shown =>
      have here := fine first shown List.mem_cons_self
      have lengths := congrArg List.length same
      have least := @output_length_le first shown here
      have most := expansions_length fineBehind
      simp only [outputs, expansions, List.length_append] at lengths bounded
      obtain ⟨this_, rest⟩ := List.append_inj same (by omega)
      rcases List.mem_cons.mp member with same | behind
      · cases same
        exact (expansion_eq_iff here (by omega)).mp this_
      · exact ih further (by omega) rest fineBehind digits value behind
    | broken other => exact absurd List.mem_cons_self (whole other)

theorem expansions_append {front : List Piece} (whole : forall other, .broken other ∉ front) (back : List Piece) :
    expansions (front ++ back) = expansions front ++ expansions back := by
  induction front with
  | nil => rfl
  | cons piece front ih =>
    have further := ih (fun other broken => whole other (List.mem_cons_of_mem _ broken))
    cases piece with
    | plain c => rw [List.cons_append, expansions, expansions, further, List.cons_append]
    | printed digits value => rw [List.cons_append, expansions, expansions, further, List.append_assoc]
    | broken other => exact absurd List.mem_cons_self (whole other)

theorem outputs_append {front : List Piece} (whole : forall other, .broken other ∉ front) (back : List Piece) :
    outputs (front ++ back) = outputs front ++ outputs back := by
  induction front with
  | nil => rfl
  | cons piece front ih =>
    have further := ih (fun other broken => whole other (List.mem_cons_of_mem _ broken))
    cases piece with
    | plain c => rw [List.cons_append, outputs, outputs, further, List.cons_append]
    | printed digits value => rw [List.cons_append, outputs, outputs, further, List.append_assoc]
    | broken other => exact absurd List.mem_cons_self (whole other)

theorem right_of_front {front back : List Piece} (whole : forall other, .broken other ∉ front)
    (bounded : (outputs front).length < 2 ^ 32) (same : outputs front = expansions (front ++ back)) :
    (forall digits value, .printed digits value ∈ front -> Right digits value) ∧ expansions back = [] := by
  rw [expansions_append whole] at same
  have fine : forall digits value, .printed digits value ∈ front -> ¬ value.Narrow := by
    intro digits value member least
    have less := expansions_count.2 digits value least member whole
    rw [same, List.count_append] at less
    omega
  have lengths := congrArg List.length same
  rw [List.length_append] at lengths
  have least := expansions_length fine
  have nothing : expansions back = [] := List.eq_nil_of_length_eq_zero (by omega)
  rw [nothing, List.append_nil] at same
  exact ⟨right_of_expansions whole bounded same.symm, nothing⟩

end Pieces

section Calls

variable {format : CString} {arguments : List Argument} {pieces : List Piece} {buffSize buffer : Nat} {contents : List UInt8}
  {temp : Bytes}

theorem clVsnprintf_eq (nonNull : buffer ≠ 0) (some_ : 0 < buffSize) (fuel : Nat) (temp initial : Bytes) (format : CString)
    (arguments : List Argument) :
    clVsnprintf fuel temp initial buffer buffSize (some format) arguments =
      printFrom fuel format buffer buffSize fuel 0 1 ([] : List UInt8).length arguments temp (out initial buffer [] false) := by
  have fresh : out initial buffer [] false = initial := Bytes.write_nil
  rw [clVsnprintf, if_neg (Ne.symm nonNull), if_neg (Nat.ne_of_lt some_), fresh]
  rfl

theorem buffer_accessible (length : contents.length = buffSize) :
    (Bytes.object buffer contents).Accessible buffer buffSize := by
  rw [← length]
  exact (Bytes.object_holds buffer contents).accessible

theorem call_reaches (parses : Parses format.chars arguments pieces) (some_ : 0 < buffSize) (small : buffSize < 2 ^ 32)
    (nonNull : buffer ≠ 0) (length : contents.length = buffSize) (inside : temp.Accessible 1 65)
    (safe : Safe buffSize 0 0 false pieces) (reaches : Reaches buffSize 0 pieces) :
    ∃ enough, forall fuel, enough ≤ fuel ->
      clVsnprintf fuel temp (Bytes.object buffer contents) buffer buffSize (some format) arguments =
        .ok (dword (printedCount pieces), out (Bytes.object buffer contents) buffer (outputs pieces) true) := by
  obtain ⟨least, enough⟩ := enough_exists format pieces
  refine ⟨least, fun fuel more => ?_⟩
  obtain ⟨fits, fewer⟩ := enough fuel more
  have counted : dword (1 + printedCount pieces + (2 ^ 32 - 1)) = dword (printedCount pieces) := by
    simp only [dword]
    omega
  rw [clVsnprintf_eq nonNull some_, ← counted]
  exact @printFrom_reaches format (Bytes.object buffer contents) buffer buffSize (buffer_accessible length) nonNull small
    format.chars arguments pieces parses 0 1 [] false rfl some_ safe reaches fuel fuel fits fewer temp inside

theorem prints_of_printable (parses : Parses format.chars arguments pieces) (some_ : 0 < buffSize)
    (small : buffSize < 2 ^ 32) (printable : Printable buffSize pieces) : Prints format arguments pieces buffSize := by
  intro buffer contents temp nonNull length inside
  obtain ⟨safe, right⟩ := printable
  by_cases reaches : Reaches buffSize 0 pieces
  · have room := passed_room safe some_
    rw [Nat.zero_add, reaches.passed_eq] at room
    refine ⟨_, _, call_reaches parses some_ small nonNull length inside safe reaches,
      ⟨(outputs pieces).length, room, ?_⟩, fun _ => ?_⟩
    · exact out_holds _ 0 List.getElem?_concat_length
    · rw [expansions_eq (by omega) (right reaches)]
      exact out_holds
  · obtain ⟨status, error, room, always⟩ := @printFrom_refuses format (Bytes.object buffer contents) buffer buffSize
      (buffer_accessible length) nonNull small format.chars arguments pieces parses 0 1 [] false rfl some_ safe reaches
    obtain ⟨least, enough⟩ := enough_exists format pieces
    rw [List.nil_append] at room always
    refine ⟨status, out (Bytes.object buffer contents) buffer (outputs (passed buffSize 0 pieces)) true,
      ⟨least, fun fuel more => ?_⟩, ⟨_, room, ?_⟩, fun fine => ?_⟩
    · simp only [clVsnprintf_eq nonNull some_]
      exact always fuel fuel temp (enough fuel more).1 (enough fuel more).2 inside
    · exact out_holds _ 0 List.getElem?_concat_length
    · rw [error] at fine
      cases fine

def full (buffSize : Nat) : List UInt8 := List.replicate buffSize 1

theorem full_at (buffer : Nat) {place : Nat} {byte : UInt8} (here : Bytes.object buffer (full buffSize) place = some byte) :
    byte ≠ 0 := by
  by_cases within : buffer ≤ place ∧ place < buffer + (full buffSize).length
  · have held := Bytes.object_holds buffer (full buffSize) (place - buffer) 1 (by
      rw [full, List.length_replicate] at within
      rw [full, List.getElem?_replicate, if_pos (by omega)])
    rw [Nat.add_sub_cancel' within.1, here] at held
    rw [Option.some.inj held]
    decide
  · rw [Bytes.object_outside within] at here
    cases here

theorem out_full {text : List UInt8} (nonZero : forall c, c ∈ text -> c ≠ 0) {place : Nat} :
    out (Bytes.object buffer (full buffSize)) buffer text false place ≠ some 0 := by
  intro zero
  rw [out, if_neg Bool.false_ne_true, List.append_nil] at zero
  by_cases within : buffer ≤ place ∧ place < buffer + text.length
  · have held := @Bytes.write_at (Bytes.object buffer (full buffSize)) buffer text (place - buffer) (by omega)
    rw [Nat.add_sub_cancel' within.1, zero] at held
    exact nonZero 0 (List.mem_of_getElem? held.symm) rfl
  · rw [Bytes.write_elsewhere within] at zero
    exact full_at buffer zero rfl

theorem holds_full {expected text : List UInt8} (nonZero : forall c, c ∈ text -> c ≠ 0)
    (holds : (out (Bytes.object buffer (full buffSize)) buffer text true).Holds buffer (expected ++ [0])) : expected = text := by
  have shown : (out (Bytes.object buffer (full buffSize)) buffer text true).Holds buffer (text ++ [0]) := out_holds
  have ended := holds expected.length 0 List.getElem?_concat_length
  rcases Nat.lt_trichotomy expected.length text.length with less | same | more
  · have char := shown expected.length text[expected.length] (by
      rw [List.getElem?_append_left less, List.getElem?_eq_getElem less])
    rw [ended] at char
    exact absurd (Option.some.inj char).symm (nonZero _ (List.getElem_mem less))
  · refine List.ext_getElem same (fun i first second => ?_)
    have one := holds i expected[i] (by rw [List.getElem?_append_left first, List.getElem?_eq_getElem first])
    have other := shown i text[i] (by rw [List.getElem?_append_left second, List.getElem?_eq_getElem second])
    rw [one] at other
    exact Option.some.inj other
  · rw [out, if_pos rfl, Bytes.write_elsewhere (by rw [List.length_append, List.length_singleton]; omega)] at ended
    exact absurd rfl (full_at buffer ended)

theorem outputs_nonZero {chars : List UInt8} (parses : Parses chars arguments pieces) (strings : forall c, c ∈ chars -> c ≠ 0) :
    forall c, c ∈ outputs pieces -> c ≠ 0 := by
  induction parses with
  | done arguments => exact fun _ member => absurd member List.not_mem_nil
  | @plain c rest arguments pieces other behind ih =>
    intro d member
    rcases List.mem_cons.mp member with rfl | member
    · exact strings d List.mem_cons_self
    · exact ih (fun c member => strings c (List.mem_cons_of_mem _ member)) d member
  | @printed digits rest letter asked argument value arguments pieces numeric known matched behind ih =>
    intro c member
    rcases List.mem_append.mp member with here | member
    · exact output_nonZero here
    · refine ih (fun c member => strings c ?_) c member
      exact List.mem_cons_of_mem _ (List.mem_append_right _ (List.mem_cons_of_mem _ member))
  | broken numeric unknown => exact fun _ member => absurd member List.not_mem_nil

theorem passed_nonZero {chars : List UInt8} (parses : Parses chars arguments pieces) (strings : forall c, c ∈ chars -> c ≠ 0)
    (count outBufferOffset : Nat) : forall c, c ∈ outputs (passed count outBufferOffset pieces) -> c ≠ 0 := by
  obtain ⟨behind, split⟩ := passed_append count outBufferOffset pieces
  have all := outputs_nonZero parses strings
  rw [split, outputs_append (passed_whole count outBufferOffset pieces)] at all
  exact fun c member => all c (List.mem_append_left _ member)

theorem succeeded_count {count : Nat} (small : count < 2 ^ 31) : succeeded count = true := by
  have clear := Nat.and_two_pow count 31
  rw [Nat.testBit_lt_two_pow small, Bool.toNat_false, Nat.zero_mul] at clear
  rw [succeeded]
  change (0 == count &&& 2 ^ 31) = true
  rw [clear]
  rfl

theorem printable_of_prints (parses : Parses format.chars arguments pieces) (some_ : 0 < buffSize)
    (small : buffSize < 2 ^ 32) (indexed : format.length < 2 ^ 32) (prints : Prints format arguments pieces buffSize) :
    Printable buffSize pieces := by
  have length : (full buffSize).length = buffSize := List.length_replicate
  have inside : (Bytes.object 1 (full 65)).Accessible 1 65 := (Bytes.object_holds 1 (full 65)).accessible
  obtain ⟨status, after, ⟨least, returns⟩, ⟨i, _, ended⟩, meant⟩ := prints 1 (full buffSize) _ (by decide) length inside
  have safe : Safe buffSize 0 0 false pieces := by
    by_contra unsafe_
    obtain ⟨large, enough⟩ := enough_exists format pieces
    obtain ⟨fits, fewer⟩ := enough (max least large) (Nat.le_max_right ..)
    have run := returns (max least large) (Nat.le_max_left ..)
    simp only [clVsnprintf_eq (by decide : 1 ≠ 0) some_] at run
    have beyond : Bytes.object 1 (full buffSize) (1 + buffSize) = none := Bytes.object_none (Nat.le_of_eq length)
    obtain ⟨nonZero, rfl⟩ := @printFrom_unended format (Bytes.object 1 (full buffSize)) 1 buffSize
      (buffer_accessible length) beyond (by decide) small indexed format.chars arguments pieces parses 0 1 [] false rfl some_
      (fun c member => absurd member List.not_mem_nil) unsafe_ _ _ fits fewer _ inside status after run
    exact out_full nonZero ended
  refine ⟨safe, fun reaches => ?_⟩
  obtain ⟨large, always⟩ := call_reaches parses some_ small (by decide : 1 ≠ 0) length inside safe reaches
  have same := Access.Returns.unique ⟨least, returns⟩ always
  cases same
  have few := parses.printedCount
  change _ ≤ format.length at few
  have count : printedCount pieces < 2 ^ 31 := by omega
  have room := passed_room safe some_
  have whole := passed_whole buffSize 0 pieces
  rw [reaches.passed_eq] at room whole
  rw [dword_of_lt (by omega)] at meant
  have holds := meant (succeeded_count count)
  exact right_of_expansions whole (by omega) (holds_full (outputs_nonZero parses format.nonZero) holds)

end Calls

theorem printing_exact {format : CString} {arguments : List Argument} {pieces : List Piece} {buffSize : Nat}
    (parses : Parses format.chars arguments pieces) (some_ : 0 < buffSize) (small : buffSize < 2 ^ 32) :
    (Printable buffSize pieces -> Prints format arguments pieces buffSize) ∧
      (format.length < 2 ^ 32 -> Prints format arguments pieces buffSize -> Printable buffSize pieces) :=
  ⟨prints_of_printable parses some_ small, printable_of_prints parses some_ small⟩

theorem printing_exact_sample :
    Prints (.of [0x61, 0x25, 0x30, 0x35, 0x64]) [.value 42]
        [.plain 0x61, .printed [0x30, 0x35] (.number ⟨true, 10, false, by decide, by decide, by decide⟩ 42)] 8 ∧
      ¬ Prints (.of [0x61, 0x25, 0x30, 0x35, 0x64]) [.value (2 ^ 32 - 42)]
        [.plain 0x61, .printed [0x30, 0x35] (.number ⟨true, 10, false, by decide, by decide, by decide⟩ (2 ^ 32 - 42))] 8 := by
  have parses : forall raw, raw < 2 ^ 32 -> Parses [0x61, 0x25, 0x30, 0x35, 0x64] [.value raw] [.plain 0x61,
      .printed [0x30, 0x35] (.number ⟨true, 10, false, by decide, by decide, by decide⟩ raw)] := by
    intro raw small
    have same : dword raw = raw := dword_of_lt small
    exact .plain (by decide) (@Parses.printed [0x30, 0x35] [] 0x64 _ (.value raw) _ [] [] (List.all_eq_true.mp rfl) rfl
      (by simp only [Conversion.value, same]; rfl) (.done []))
  refine ⟨(printing_exact (parses 42 (by decide)) (by decide) (by decide)).1 ⟨by decide, fun _ digits value member => ?_⟩, ?_⟩
  · obtain ⟨rfl, rfl⟩ := Piece.printed.inj (List.mem_singleton.mp (behind_plain member))
    exact ⟨by decide, fun least => absurd least.2.2 (by decide), fun _ below => absurd below (by decide)⟩
  · intro prints
    obtain ⟨_, right⟩ := (printing_exact (parses (2 ^ 32 - 42) (by decide)) (by decide) (by decide)).2 (by decide) prints
    obtain ⟨_, _, signed⟩ := right (by decide) _ _ (List.mem_cons_of_mem _ List.mem_cons_self)
    exact absurd (signed (by decide) (by decide)) (by decide)

-- "ab%d" does not fit into 3 bytes, and what is left there has no terminator.
theorem printing_unended :
    (clVsnprintf 70 (Bytes.object 1 (full 65)) (Bytes.object 1 (full 3)) 1 3 (some (.of [0x61, 0x62, 0x25, 0x64]))
        [.value 7]).map (fun result => (result.1, (List.range' 1 3).map result.2)) =
        .ok (statusBufferTooSmall, [some 0x61, some 0x62, some 1]) ∧
      ¬ Prints (.of [0x61, 0x62, 0x25, 0x64]) [.value 7]
        [.plain 0x61, .plain 0x62, .printed [] (.number ⟨true, 10, false, by decide, by decide, by decide⟩ 7)] 3 := by
  refine ⟨by decide +kernel, fun prints => ?_⟩
  have parses : Parses [0x61, 0x62, 0x25, 0x64] [.value 7]
      [.plain 0x61, .plain 0x62, .printed [] (.number ⟨true, 10, false, by decide, by decide, by decide⟩ 7)] :=
    .plain (by decide) (.plain (by decide) (@Parses.printed [] [] 0x64 _ (.value 7) _ [] [] (List.all_eq_true.mp rfl) rfl rfl (.done [])))
  exact absurd (printable_of_prints parses (by decide) (by decide) (by decide) prints).1 (by decide)

end Hal9000.Formatting
