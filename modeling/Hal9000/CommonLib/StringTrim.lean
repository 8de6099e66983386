import Hal9000.CommonLib.MemoryCopy
import Hal9000.CommonLib.Strings
import Mathlib.Data.List.DropRight

set_option autoImplicit false

namespace Hal9000

open Lib (Bytes Access)

def trimRight (memory : Bytes) (string startIndex length : Nat) : Nat -> Access (Bytes × Nat)
  | 0 => pure (memory, length)
  | i + 1 =>
    if i + 1 > startIndex then do
      let c <- memory.load (string + i)
      if !isspace c then do
        let memory <- memory.store (string + (i + 1)) 0
        pure (memory, i + 1)
      else trimRight memory string startIndex length i
    else pure (memory, length)

def clStrtrim (fuel : Nat) (memory : Bytes) (string : Nat) : Access Bytes := do
  Access.assert (0 != string) "NULL != string"
  let (i, c) <- scan (fun c => c == 0 || !isspace c) memory string fuel 0
  let startIndex := if c == 0 then maxDword else i
  if maxDword = startIndex then memory.store string 0
  else do
    let lengthAfterRightTrim <- clStrlen fuel memory string
    let last <- clStrlen fuel memory string
    let (memory, lengthAfterRightTrim) <- trimRight memory string startIndex lengthAfterRightTrim last
    if 0 ≠ startIndex then do
      Access.assert (lengthAfterRightTrim != 0) "lengthAfterRightTrim != 0"
      clMemmove memory string (string + startIndex) lengthAfterRightTrim
    else pure memory

def trimmed (chars : List UInt8) : List UInt8 := (chars.dropWhile isspace).rdropWhile isspace

def TrimExact (string : CString) (address : Nat) : Prop :=
  ∃ fuel after, clStrtrim fuel (Bytes.object address string.bytes) address = .ok after ∧
    after.Holds address (trimmed string.chars ++ [0]) ∧ clStrtrim fuel after address = .ok after

structure Trimmable (string : CString) : Prop where
  length : string.length < 2 ^ 32
  balanced : trimmed string.chars ≠ [] ->
    (string.chars.takeWhile isspace).length ≤ (string.chars.rtakeWhile isspace).length + 1

-- A string that is not blank: spaces, a core that starts and ends with no space, and spaces.
structure Parts (chars lead core trail : List UInt8) : Prop where
  whole : chars = lead ++ (core ++ trail)
  lead : forall c, c ∈ lead -> isspace c = true
  trail : forall c, c ∈ trail -> isspace c = true
  first : ∃ c rest, core = c :: rest ∧ isspace c = false
  last : ∃ c rest, core.reverse = c :: rest ∧ isspace c = false

section Parts

variable {chars lead core trail : List UInt8}

theorem parts_exist (some_ : trimmed chars ≠ []) : ∃ lead core trail, Parts chars lead core trail := by
  let rest := chars.dropWhile isspace
  have whole : chars = chars.takeWhile isspace ++ (rest.rdropWhile isspace ++ rest.rtakeWhile isspace) := by
    rw [List.rdropWhile_append_rtakeWhile, List.takeWhile_append_dropWhile]
  refine ⟨chars.takeWhile isspace, rest.rdropWhile isspace, rest.rtakeWhile isspace, whole, ?_, ?_, ?_, ?_⟩
  · exact fun c member => List.mem_takeWhile_imp member
  · exact fun c member => List.mem_rtakeWhile_imp member
  · obtain ⟨c, tail, core⟩ := List.exists_cons_of_ne_nil some_
    obtain ⟨behind, joined⟩ := @List.rdropWhile_prefix _ isspace rest
    have head : rest.head? = some c := by
      rw [← joined, show rest.rdropWhile isspace = c :: tail from core]
      rfl
    have stops := List.head?_dropWhile_not isspace chars
    rw [show chars.dropWhile isspace = rest from rfl, head] at stops
    exact ⟨c, tail, core, stops⟩
  · obtain ⟨c, tail, core⟩ := List.exists_cons_of_ne_nil (mt List.reverse_eq_nil_iff.mp some_)
    have back : (rest.rdropWhile isspace).reverse = rest.reverse.dropWhile isspace := List.reverse_reverse _
    have stops := List.head?_dropWhile_not isspace rest.reverse
    rw [← back, show (rest.rdropWhile isspace).reverse = c :: tail from core] at stops
    exact ⟨c, tail, core, stops⟩

variable (parts : Parts chars lead core trail)

include parts

theorem Parts.takeWhile_eq : chars.takeWhile isspace = lead := by
  obtain ⟨c, rest, core, stops⟩ := parts.first
  rw [parts.whole, List.takeWhile_append_of_pos parts.lead, core, List.cons_append, List.takeWhile_cons, stops,
    if_neg Bool.false_ne_true, List.append_nil]

theorem Parts.rtakeWhile_eq : chars.rtakeWhile isspace = trail := by
  obtain ⟨c, rest, core, stops⟩ := parts.last
  have spaces : forall c, c ∈ trail.reverse -> isspace c = true := fun c member =>
    parts.trail c (List.mem_reverse.mp member)
  rw [parts.whole, List.rtakeWhile, List.reverse_append, List.reverse_append, List.append_assoc,
    List.takeWhile_append_of_pos spaces, core, List.cons_append, List.takeWhile_cons, stops,
    if_neg Bool.false_ne_true, List.append_nil, List.reverse_reverse]

theorem Parts.trimmed_eq : trimmed chars = core := by
  obtain ⟨c, rest, front, stops⟩ := parts.first
  obtain ⟨d, other, back, ends⟩ := parts.last
  have spaces : forall c, c ∈ trail.reverse -> isspace c = true := fun c member =>
    parts.trail c (List.mem_reverse.mp member)
  have dropped : chars.dropWhile isspace = core ++ trail := by
    rw [parts.whole, List.dropWhile_append_of_pos parts.lead, front, List.cons_append, List.dropWhile_cons, stops,
      if_neg Bool.false_ne_true]
  rw [trimmed, dropped, List.rdropWhile, List.reverse_append, List.dropWhile_append_of_pos spaces, back,
    List.dropWhile_cons, ends, if_neg Bool.false_ne_true, ← back, List.reverse_reverse]

theorem Parts.lengths : chars.length = lead.length + core.length + trail.length := by
  rw [parts.whole, List.length_append, List.length_append, Nat.add_assoc]

end Parts

section Characters

variable {string : CString} {lead core trail : List UInt8} (parts : Parts string.chars lead core trail)

include parts

theorem Parts.getElem?_at {i : Nat} {c : UInt8} (here : (lead ++ (core ++ trail))[i]? = some c) : string.at_ i = c := by
  rw [← parts.whole] at here
  rw [CString.at_, List.getD_eq_getElem?_getD, here, Option.getD_some]

theorem Parts.nonZero (c : UInt8) (member : c ∈ core) : c ≠ 0 := by
  refine string.nonZero c ?_
  rw [parts.whole]
  exact List.mem_append_right _ (List.mem_append_left _ member)

theorem Parts.core_at {i : Nat} {c : UInt8} (here : core[i]? = some c) : string.at_ (lead.length + i) = c := by
  have inside := (List.getElem?_eq_some_iff.mp here).1
  refine parts.getElem?_at ?_
  rw [List.getElem?_append_right (Nat.le_add_right _ _), Nat.add_sub_cancel_left, List.getElem?_append_left inside, here]

theorem Parts.positive : 0 < core.length := by
  obtain ⟨c, rest, front, _⟩ := parts.first
  rw [front]
  exact Nat.succ_pos _

theorem Parts.at_lead {i : Nat} (inside : i < lead.length) : isspace (string.at_ i) = true := by
  have here : lead[i]? = some lead[i] := List.getElem?_eq_getElem inside
  rw [parts.getElem?_at (by rw [List.getElem?_append_left inside, here])]
  exact parts.lead _ (List.mem_of_getElem? here)

theorem Parts.at_first : isspace (string.at_ lead.length) = false := by
  obtain ⟨c, rest, front, stops⟩ := parts.first
  have here := @Parts.core_at string lead core trail parts 0 c (by rw [front]; rfl)
  rw [Nat.add_zero] at here
  rwa [here]

theorem Parts.at_last : isspace (string.at_ (lead.length + (core.length - 1))) = false := by
  obtain ⟨c, rest, back, stops⟩ := parts.last
  have here : core[core.length - 1]? = some c := by
    rw [← List.getLast?_eq_getElem?, List.getLast?_eq_head?_reverse, back]
    rfl
  rwa [parts.core_at here]

theorem Parts.at_trail {i : Nat} (inside : i < trail.length) :
    isspace (string.at_ (lead.length + core.length + i)) = true := by
  have here : trail[i]? = some trail[i] := List.getElem?_eq_getElem inside
  have there : (lead ++ (core ++ trail))[lead.length + core.length + i]? = some trail[i] := by
    rw [← List.append_assoc, List.getElem?_append_right (by rw [List.length_append]; omega), List.length_append,
      Nat.add_sub_cancel_left, here]
  rw [parts.getElem?_at there]
  exact parts.trail _ (List.mem_of_getElem? here)

theorem Parts.length_eq : string.length = lead.length + core.length + trail.length := parts.lengths

variable {memory : Bytes} {address : Nat} (holds : memory.Holds address string.bytes)

include holds

attribute [local simp] trimRight in
theorem trimRight_eq (length more : Nat) (inside : more ≤ trail.length) :
    trimRight memory address lead.length length (lead.length + core.length + more) =
      .ok (memory.put (address + (lead.length + core.length)) 0, lead.length + core.length) := by
  have positive := parts.positive
  have lengths := parts.length_eq
  induction more with
  | zero =>
    have last : lead.length + core.length + 0 = lead.length + (core.length - 1) + 1 := by omega
    have reached : ∃ byte, memory (address + (lead.length + (core.length - 1) + 1)) = some byte :=
      holds.accessible _ (by rw [CString.bytes_length]; omega)
    rw [last, trimRight, if_pos (by omega), load_string holds (by omega), Access.ok_bind, parts.at_last,
      if_pos (by rfl), Bytes.store_eq reached, ← last]
    rfl
  | succ more ih =>
    have next : lead.length + core.length + (more + 1) = lead.length + core.length + more + 1 := rfl
    rw [next, trimRight, if_pos (by omega), load_string holds (by omega), Access.ok_bind, parts.at_trail inside,
      if_neg (by decide)]
    exact ih (by omega)

theorem scan_parts (small : string.length < 2 ^ 32) {fuel : Nat} (enough : string.length < fuel) :
    scan (fun c => c == 0 || !isspace c) memory address fuel 0 = .ok (lead.length, string.at_ lead.length) := by
  have positive := parts.positive
  have lengths := parts.length_eq
  refine scan_eq holds (by omega) (by omega) (by simp [parts.at_first]) fuel 0 (Nat.zero_le _) (by omega) ?_
  intro j _ before
  have char : string.at_ j ≠ 0 := fun zero => absurd (CString.at_eq_zero.mp zero) (by omega)
  rw [parts.at_lead before, beq_eq_false_iff_ne.mpr char]
  rfl

theorem clStrtrim_right (small : string.length < 2 ^ 32) {fuel : Nat} (enough : string.length < fuel)
    (nonNull : address ≠ 0) :
    clStrtrim fuel memory address =
      if 0 ≠ lead.length then
        clMemmove (memory.put (address + (lead.length + core.length)) 0) address (address + lead.length)
          (lead.length + core.length)
      else .ok (memory.put (address + (lead.length + core.length)) 0) := by
  have positive := parts.positive
  have lengths := parts.length_eq
  have char : (string.at_ lead.length == 0) = false :=
    beq_eq_false_iff_ne.mpr (fun zero => absurd (CString.at_eq_zero.mp zero) (by omega))
  have start : ¬ maxDword = lead.length := by
    simp only [maxDword]
    omega
  have some_ : (lead.length + core.length != 0) = true := bne_iff_ne.mpr (by omega)
  have right := trimRight_eq parts holds string.length trail.length (Nat.le_refl _)
  rw [← lengths] at right
  rw [clStrtrim, bne_iff_ne.mpr (Ne.symm nonNull), Access.assert_true, Access.ok_bind,
    scan_parts parts holds small enough, Access.ok_bind]
  simp only [char, Bool.false_eq_true, if_false, if_neg start, clStrlen_eq holds small enough, Access.ok_bind, right,
    some_, Access.assert_true]
  rfl

theorem put_holds : (memory.put (address + (lead.length + core.length)) 0).Holds (address + lead.length) (core ++ [0]) := by
  have whole : memory.Holds address (lead ++ (core ++ trail) ++ [0]) := by
    rw [← parts.whole]
    exact holds
  rw [List.append_assoc, List.append_assoc] at whole
  have inner := (Bytes.Holds.append.mp (Bytes.Holds.append.mp whole).2).1
  refine Bytes.Holds.append.mpr ⟨inner.congr (fun i inside => Bytes.put_elsewhere (by omega)), ?_⟩
  intro i byte here
  cases i with
  | zero =>
    rw [← show some (0 : UInt8) = some byte from here, Nat.add_zero, Nat.add_assoc, Bytes.put_self]
  | succ i => cases here

-- The move reads as many bytes behind the white space as it leaves before the terminator.
theorem clStrtrim_core (small : string.length < 2 ^ 32) {fuel : Nat} (enough : string.length < fuel) (nonNull : address ≠ 0)
    (readable : memory.Accessible (address + lead.length) (lead.length + core.length)) :
    ∃ after, clStrtrim fuel memory address = .ok after ∧ after.Holds address (core ++ [0]) ∧
      forall place, ¬ (address ≤ place ∧ place < address + (string.length + 1)) -> after place = memory place := by
  have positive := parts.positive
  have lengths := parts.length_eq
  have written := put_holds parts holds
  have inside := holds.accessible
  rw [CString.bytes_length] at inside
  rw [clStrtrim_right parts holds small enough nonNull]
  by_cases shift : 0 ≠ lead.length
  · have target : (memory.put (address + (lead.length + core.length)) 0).Accessible address (lead.length + core.length) :=
      Bytes.Accessible.put fun i before => inside i (by omega)
    refine ⟨_, by rw [if_pos shift, clMemmove_eq ⟨nonNull, by omega⟩ target readable.put], ?_, ?_⟩
    · intro i byte here
      have inside : i < lead.length + core.length := by
        have bound := (List.getElem?_eq_some_iff.mp here).1
        rw [List.length_append, List.length_singleton] at bound
        omega
      rw [movedTo_at inside, movedByte, if_neg (by omega)]
      exact written i byte here
    · intro place outside
      rw [movedTo, if_neg (by omega), Bytes.put_elsewhere (by omega)]
  · have none_ : lead.length = 0 := by omega
    refine ⟨_, if_neg shift, ?_, fun place outside => Bytes.put_elsewhere (by omega)⟩
    rw [none_, Nat.add_zero] at written
    rwa [none_]

theorem clStrtrim_eq (trimmable : string.length < 2 ^ 32) (balanced : lead.length ≤ trail.length + 1) {fuel : Nat}
    (enough : string.length < fuel) (nonNull : address ≠ 0) :
    ∃ after, clStrtrim fuel memory address = .ok after ∧ after.Holds address (core ++ [0]) := by
  have lengths := parts.length_eq
  have inside := holds.accessible
  rw [CString.bytes_length] at inside
  have readable : memory.Accessible (address + lead.length) (lead.length + core.length) := fun i before => by
    rw [Nat.add_assoc]
    exact inside (lead.length + i) (by omega)
  obtain ⟨after, run, left, _⟩ := clStrtrim_core parts holds trimmable enough nonNull readable
  exact ⟨after, run, left⟩

end Characters

section Runs

variable {string : CString} {lead core trail : List UInt8} {memory : Bytes} {address : Nat}

theorem moveBytes_reads {destination source i remaining : Nat} {memory after : Bytes}
    (run : moveBytes destination source i remaining memory = .ok after) {j : Nat} (lower : i ≤ j)
    (upper : j < i + remaining) : ∃ byte, memory (source + j) = some byte := by
  induction remaining generalizing i memory with
  | zero => omega
  | succ remaining ih =>
    rw [moveBytes] at run
    obtain ⟨byte, read, run⟩ := Access.bind_eq_ok.mp run
    obtain ⟨stored, written, run⟩ := Access.bind_eq_ok.mp run
    rcases Nat.eq_or_lt_of_le lower with rfl | behind
    · exact ⟨byte, Bytes.load_eq_ok.mp read⟩
    · obtain ⟨moved, there⟩ := ih run behind (by omega)
      rw [Bytes.store] at written
      cases old : memory (destination + i) with
      | none =>
        rw [old] at written
        cases written
      | some previous =>
        rw [old] at written
        cases written
        by_cases same : source + j = destination + i
        · exact ⟨previous, by rw [same, old]⟩
        · exact ⟨moved, by rwa [Bytes.put_elsewhere same] at there⟩

theorem clStrtrim_ends (holds : memory.Holds address string.bytes) {fuel : Nat} {after : Bytes}
    (run : clStrtrim fuel memory address = .ok after) :
    (after address = some 0 ∧ (string.length < 2 ^ 32 ∨ ∃ i, i < 2 ^ 32 ∧ isspace (string.at_ i) = false)) ∨
      (string.length < 2 ^ 32 ∧ string.length < fuel) := by
  rw [clStrtrim] at run
  obtain ⟨_, _, run⟩ := Access.bind_eq_ok.mp run
  obtain ⟨⟨i, c⟩, found, run⟩ := Access.bind_eq_ok.mp run
  by_cases blank : maxDword = (if c == 0 then maxDword else i)
  · simp only [if_pos blank] at run
    rw [Bytes.store] at run
    refine .inl ⟨?_, ?_⟩
    · cases here : memory address with
      | none =>
        rw [here] at run
        cases run
      | some old =>
        rw [here] at run
        cases run
        exact Bytes.put_self
    · rcases Nat.lt_or_ge string.length (2 ^ 32) with small | long
      · exact .inl small
      · refine .inr ?_
        by_contra none_
        have goes (j : Nat) (small : j < 2 ^ 32) :
            (fun c => c == 0 || !isspace c) (string.at_ j) = false := by
          have char : string.at_ j ≠ 0 := fun zero => absurd (CString.at_eq_zero.mp zero) (by omega)
          have space : isspace (string.at_ j) = true := by
            by_contra other
            exact none_ ⟨j, small, Bool.eq_false_iff.mpr other⟩
          change (string.at_ j == 0 || !isspace (string.at_ j)) = false
          rw [beq_eq_false_iff_ne.mpr char, space]
          rfl
        rw [scan_unfinished holds long goes fuel 0 (Nat.two_pow_pos 32)] at found
        cases found
  · simp only [if_neg blank] at run
    obtain ⟨length, known, _⟩ := Access.bind_eq_ok.mp run
    exact .inr (clStrlen_eq_ok holds known)

theorem clStrtrim_unbalanced (parts : Parts string.chars lead core trail) (small : string.length < 2 ^ 32)
    (unbalanced : trail.length + 1 < lead.length) (nonNull : address ≠ 0) {fuel : Nat} {after : Bytes}
    (run : clStrtrim fuel (Bytes.object address string.bytes) address = .ok after) (enough : string.length < fuel) :
    False := by
  have lengths := parts.length_eq
  rw [clStrtrim_right parts (Bytes.object_holds _ _) small enough nonNull, if_pos (by omega), clMemmove,
    if_neg (by omega)] at run
  have inside : core.length + trail.length + 1 < 0 + (lead.length + core.length) := by omega
  obtain ⟨byte, there⟩ := moveBytes_reads run (Nat.zero_le _) inside
  have beyond : address + lead.length + (core.length + trail.length + 1) = address + (string.length + 1) := by omega
  rw [beyond, Bytes.put_elsewhere (by omega), Bytes.object_none (by rw [CString.bytes_length])] at there
  cases there

theorem clStrtrim_blank (holds : memory.Holds address string.bytes) (small : string.length < 2 ^ 32)
    (blank : forall c, c ∈ string.chars -> isspace c = true) {fuel : Nat} (enough : string.length < fuel)
    (nonNull : address ≠ 0) : clStrtrim fuel memory address = .ok (memory.put address 0) := by
  have run := @scan_eq (fun c => c == 0 || !isspace c) memory address string holds string.length (Nat.le_refl _) small
    (by rw [CString.at_length]; rfl) fuel 0 (Nat.zero_le _) (by omega) (fun j _ before => by
      have here := CString.chars_getElem? before
      have char := string.nonZero _ (List.mem_of_getElem? here)
      change (string.at_ j == 0 || !isspace (string.at_ j)) = false
      rw [beq_eq_false_iff_ne.mpr char, blank _ (List.mem_of_getElem? here)]
      rfl)
  have first : ∃ byte, memory address = some byte := holds.accessible 0 (by rw [CString.bytes_length]; omega)
  rw [clStrtrim, bne_iff_ne.mpr (Ne.symm nonNull), Access.assert_true, Access.ok_bind, run, Access.ok_bind]
  simp only [CString.at_length]
  exact Bytes.store_eq first

theorem put_same {byte : UInt8} (here : memory address = some byte) : memory.put address byte = memory := by
  rw [Bytes.put, ← here]
  exact Function.update_eq_self address memory

theorem trimmed_blank {chars : List UInt8} (blank : trimmed chars = []) : forall c, c ∈ chars -> isspace c = true := by
  have spaces := List.rdropWhile_eq_nil_iff.mp blank
  intro c member
  rw [← @List.takeWhile_append_dropWhile _ isspace chars] at member
  rcases List.mem_append.mp member with front | back
  · exact List.mem_takeWhile_imp front
  · exact spaces c back

theorem clStrtrim_trimmed (parts : Parts string.chars [] core []) (holds : memory.Holds address string.bytes)
    (small : string.length < 2 ^ 32) {fuel : Nat} (enough : string.length < fuel) (nonNull : address ≠ 0) :
    clStrtrim fuel memory address = .ok memory := by
  have lengths := parts.length_eq
  have right := clStrtrim_right parts holds small enough nonNull
  have ends : memory (address + (([] : List UInt8).length + core.length)) = some 0 := by
    have place : ([] : List UInt8).length + core.length = string.length := by
      rw [lengths, Nat.add_assoc]
      rfl
    rw [place]
    exact holds _ 0 (by rw [CString.bytes_getElem? (Nat.le_refl _), CString.at_length])
  rwa [if_neg (by decide), put_same ends] at right

end Runs

theorem put_terminator {memory : Bytes} {address : Nat} : (memory.put address 0).Holds address [0] := by
  intro i byte here
  cases i with
  | zero => rw [← show some (0 : UInt8) = some byte from here, Nat.add_zero, Bytes.put_self]
  | succ i => cases here

section Exact

variable {string : CString} {address : Nat} (nonNull : address ≠ 0)

include nonNull

theorem trimmable_of_exact (trims : TrimExact string address) : Trimmable string := by
  have holds := Bytes.object_holds address string.bytes
  obtain ⟨fuel, after, run, left, _⟩ := trims
  by_cases blank : trimmed string.chars = []
  · refine ⟨?_, fun some_ => absurd blank some_⟩
    rcases clStrtrim_ends holds run with ⟨_, small | ⟨i, low, char⟩⟩ | ⟨small, _⟩
    · exact small
    · rcases Nat.lt_or_ge i string.length with inside | past
      · rw [trimmed_blank blank _ (List.mem_of_getElem? (CString.chars_getElem? inside))] at char
        cases char
      · omega
    · exact small
  · obtain ⟨lead, core, trail, parts⟩ := parts_exist blank
    have known : string.length < 2 ^ 32 ∧ string.length < fuel := by
      rcases clStrtrim_ends holds run with ⟨zero, _⟩ | known
      · obtain ⟨c, rest, front, _⟩ := parts.first
        have first := left 0 c (by rw [parts.trimmed_eq, front]; rfl)
        rw [Nat.add_zero, zero] at first
        exact absurd (Option.some.inj first).symm (parts.nonZero c (by rw [front]; exact List.mem_cons_self))
      · exact known
    refine ⟨known.1, fun _ => ?_⟩
    rw [parts.takeWhile_eq, parts.rtakeWhile_eq]
    by_contra unbalanced
    exact clStrtrim_unbalanced parts known.1 (Nat.lt_of_not_le unbalanced) nonNull run known.2

theorem exact_of_trimmable (trimmable : Trimmable string) : TrimExact string address := by
  have holds := Bytes.object_holds address string.bytes
  by_cases blank : trimmed string.chars = []
  · have first := clStrtrim_blank holds trimmable.length (trimmed_blank blank) (Nat.lt_succ_self _) nonNull
    have zero : ((Bytes.object address string.bytes).put address 0).Holds address [0] := put_terminator
    refine ⟨string.length + 1, _, first, by rwa [blank], ?_⟩
    let empty : CString := ⟨[], fun c member => absurd member List.not_mem_nil⟩
    have again := @clStrtrim_blank empty _ address zero (Nat.two_pow_pos 32)
      (fun c member => absurd member List.not_mem_nil) (string.length + 1) (Nat.succ_pos _) nonNull
    rwa [put_same Bytes.put_self] at again
  · obtain ⟨lead, core, trail, parts⟩ := parts_exist blank
    have balanced := trimmable.balanced blank
    rw [parts.takeWhile_eq, parts.rtakeWhile_eq] at balanced
    obtain ⟨after, run, left⟩ := clStrtrim_eq parts holds trimmable.length balanced (Nat.lt_succ_self _) nonNull
    refine ⟨string.length + 1, after, run, by rwa [parts.trimmed_eq], ?_⟩
    let rest : CString := ⟨core, parts.nonZero⟩
    have inner : Parts rest.chars [] core [] :=
      ⟨(List.append_nil core).symm, fun c member => absurd member List.not_mem_nil,
        fun c member => absurd member List.not_mem_nil, parts.first, parts.last⟩
    have shorter : rest.length ≤ string.length := by
      have lengths := parts.length_eq
      change core.length ≤ string.length
      omega
    exact clStrtrim_trimmed inner left (shorter.trans_lt trimmable.length) (Nat.lt_succ_of_le shorter) nonNull

end Exact

theorem clStrtrim_exact_iff (string : CString) (address : Nat) (nonNull : address ≠ 0) :
    TrimExact string address ↔ Trimmable string :=
  ⟨trimmable_of_exact nonNull, exact_of_trimmable nonNull⟩

theorem clStrtrim_exact_sample : TrimExact (.of [0x20, 0x61, 0x20, 0x62, 0x0A]) 1 :=
  (clStrtrim_exact_iff (.of [0x20, 0x61, 0x20, 0x62, 0x0A]) 1 (by decide)).mpr ⟨by decide, by decide⟩

-- Two spaces in front of one letter: the move reads the byte behind the terminator.
theorem clStrtrim_overreads :
    clStrtrim 4 (Bytes.object 1 [0x20, 0x20, 0x61, 0]) 1 = .error (.outOfBounds 5) ∧
      ¬ TrimExact (.of [0x20, 0x20, 0x61]) 1 := by
  refine ⟨by rfl, fun trims => ?_⟩
  have trimmable := trimmable_of_exact (by decide) trims
  exact absurd (trimmable.balanced (by decide)) (by decide)

end Hal9000
