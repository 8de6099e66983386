import Hal9000.CommonLib.Base
import Hal9000.Lib.Bytes

set_option autoImplicit false

namespace Hal9000

open Lib (Bytes Access)

structure CString where
  chars : List UInt8
  nonZero : forall char, char ∈ chars -> char ≠ 0
  deriving DecidableEq

namespace CString

def length (string : CString) : Nat := string.chars.length

def bytes (string : CString) : List UInt8 := string.chars ++ [0]

def at_ (string : CString) (i : Nat) : UInt8 := string.chars.getD i 0

variable {string : CString} {i : Nat}

theorem bytes_length : string.bytes.length = string.length + 1 := by
  rw [bytes, List.length_append, length, List.length_singleton]

theorem chars_getElem? (inside : i < string.length) : string.chars[i]? = some (string.at_ i) := by
  rw [at_, List.getD_eq_getElem _ _ inside]
  exact List.getElem?_eq_getElem inside

theorem at_length : string.at_ string.length = 0 :=
  List.getD_eq_default _ _ (Nat.le_refl _)

theorem at_eq_zero : string.at_ i = 0 ↔ string.length ≤ i := by
  constructor
  · intro zero
    by_contra inside
    have member := List.mem_of_getElem? (chars_getElem? (Nat.lt_of_not_le inside))
    exact string.nonZero _ member zero
  · intro beyond
    exact List.getD_eq_default _ _ beyond

theorem bytes_getElem? (inside : i ≤ string.length) : string.bytes[i]? = some (string.at_ i) := by
  rcases Nat.lt_or_ge i string.length with before | past
  · rw [bytes, List.getElem?_append_left before, chars_getElem? before]
  · obtain rfl : i = string.length := Nat.le_antisymm inside past
    rw [at_length, bytes]
    exact List.getElem?_concat_length

end CString

theorem CString.nonZero_of_all {chars : List UInt8} (all : chars.all (· != 0) = true) (char : UInt8)
    (member : char ∈ chars) : char ≠ 0 :=
  bne_iff_ne.mp (List.all_eq_true.mp all char member)

abbrev CString.of (chars : List UInt8) (all : chars.all (· != 0) = true := by decide) : CString :=
  ⟨chars, CString.nonZero_of_all all⟩

def CString.empty : CString := ⟨[], fun _ member => absurd member List.not_mem_nil⟩

def CString.cons (c : UInt8) (char : c ≠ 0) (rest : CString) : CString :=
  ⟨c :: rest.chars, List.forall_mem_cons.mpr ⟨char, rest.nonZero⟩⟩

def readString (memory : Bytes) : (fuel address : Nat) -> Access CString
  | 0, _ => .error .unfinished
  | fuel + 1, address => do
    let c <- memory.load address
    if char : c ≠ 0 then do
      let rest <- readString memory fuel (address + 1)
      pure (CString.cons c char rest)
    else pure CString.empty

section Suffix

variable {string : CString} {i : Nat}

theorem drop_at (inside : i < string.length) :
    string.at_ i ≠ 0 ∧ string.chars.drop i = string.at_ i :: string.chars.drop (i + 1) := by
  refine ⟨fun zero => absurd (CString.at_eq_zero.mp zero) (Nat.not_le_of_lt inside), ?_⟩
  have here := CString.chars_getElem? inside
  rw [List.drop_eq_getElem_cons inside]
  rw [List.getElem?_eq_getElem inside] at here
  rw [Option.some.inj here]

theorem drop_end (past : string.length ≤ i) : string.at_ i = 0 ∧ string.chars.drop i = [] :=
  ⟨CString.at_eq_zero.mpr past, List.drop_eq_nil_of_le past⟩

end Suffix

def isascii (c : UInt8) : Bool := 0x1F < c && c < 0x80

def tolower (c : UInt8) : UInt8 := c ||| 0x20

def isspace (c : UInt8) : Bool := 0x20 == c || 0x09 == c || 0x0A == c || 0x0D == c

def scan (stop : UInt8 -> Bool) (memory : Bytes) (string : Nat) : (fuel i : Nat) -> Access (Nat × UInt8)
  | 0, _ => .error .unfinished
  | fuel + 1, i => do
    let c <- memory.load (string + i)
    if stop c then pure (i, c) else scan stop memory string fuel (dword (i + 1))

def clStrlen (fuel : Nat) (memory : Bytes) (string : Nat) : Access Nat := do
  let (i, _) <- scan (fun c => c == 0) memory string fuel 0
  pure i

section Text

variable {memory : Bytes}

theorem readString_eq {fuel address : Nat} {text : CString} (holds : memory.Holds address text.bytes)
    (enough : text.length < fuel) : readString memory fuel address = .ok text := by
  obtain ⟨chars, nonZero⟩ := text
  induction chars generalizing fuel address with
  | nil =>
    obtain ⟨fuel, rfl⟩ := Nat.exists_eq_succ_of_ne_zero (Nat.ne_of_gt enough)
    have ended : memory.load (address + 0) = .ok 0 := holds.load rfl
    rw [Nat.add_zero] at ended
    rw [readString, ended, Access.ok_bind, dif_neg (not_not_intro rfl)]
    rfl
  | cons c rest ih =>
    obtain ⟨fuel, rfl⟩ := Nat.exists_eq_succ_of_ne_zero (Nat.ne_of_gt (Nat.zero_lt_of_lt enough))
    obtain ⟨char, others⟩ := List.forall_mem_cons.mp nonZero
    have first : memory.load (address + 0) = .ok c := holds.load rfl
    have behind : memory.Holds (address + 1) (rest ++ [0]) := ((@Bytes.Holds.append memory address [c] (rest ++ [0])).mp holds).2
    rw [Nat.add_zero] at first
    rw [readString, first, Access.ok_bind, dif_pos char, ih others behind (Nat.lt_of_succ_lt_succ enough), Access.ok_bind]
    rfl

theorem readString_eq_ok {fuel address : Nat} {text : CString} (result : readString memory fuel address = .ok text) :
    memory.Holds address text.bytes := by
  induction fuel generalizing address text with
  | zero => cases result
  | succ fuel ih =>
    rw [readString] at result
    obtain ⟨c, load, result⟩ := Access.bind_eq_ok.mp result
    have here := Bytes.load_eq_ok.mp load
    have first : memory.Holds address [c] := by
      intro i byte at_
      match i with
      | 0 => rwa [← Option.some.inj at_]
      | i + 1 => cases at_
    split at result
    · obtain ⟨rest, more, result⟩ := Access.bind_eq_ok.mp result
      cases result
      exact (@Bytes.Holds.append memory address [c] rest.bytes).mpr ⟨first, ih more⟩
    next zero =>
      cases result
      rwa [not_not.mp zero] at first

end Text

section Scan

variable {stop : UInt8 -> Bool} {memory : Bytes} {address : Nat} {string : CString}

theorem load_string (holds : memory.Holds address string.bytes) {i : Nat} (inside : i ≤ string.length) :
    memory.load (address + i) = .ok (string.at_ i) := holds.load (CString.bytes_getElem? inside)

theorem scan_eq (holds : memory.Holds address string.bytes) {last : Nat} (inside : last ≤ string.length)
    (small : last < 2 ^ 32) (stops : stop (string.at_ last) = true) (fuel i : Nat) (start : i ≤ last)
    (enough : last < i + fuel) (goes : forall j, i ≤ j -> j < last -> stop (string.at_ j) = false) :
    scan stop memory address fuel i = .ok (last, string.at_ last) := by
  induction fuel generalizing i with
  | zero => omega
  | succ fuel ih =>
    rw [scan, load_string holds (start.trans inside), Access.ok_bind]
    rcases Nat.eq_or_lt_of_le start with rfl | before
    · rw [if_pos stops]
      rfl
    · rw [if_neg (by rw [goes i (Nat.le_refl i) before]; exact Bool.false_ne_true), dword_of_lt (by omega)]
      exact ih (i + 1) before (by omega) (fun j lower upper => goes j (by omega) upper)

-- A string with no such character at an index of 32 bits keeps the loop going.
theorem scan_unfinished (holds : memory.Holds address string.bytes) (long : 2 ^ 32 ≤ string.length)
    (goes : forall j, j < 2 ^ 32 -> stop (string.at_ j) = false) (fuel i : Nat) (small : i < 2 ^ 32) :
    scan stop memory address fuel i = .error .unfinished := by
  induction fuel generalizing i with
  | zero => rfl
  | succ fuel ih =>
    rw [scan, load_string holds (by omega), Access.ok_bind, if_neg (by rw [goes i small]; exact Bool.false_ne_true)]
    exact ih (dword (i + 1)) (dword_lt _)

theorem scan_eq_ok (holds : memory.Holds address string.bytes) {last : Nat} {c : UInt8} (fuel i : Nat) (inside : i ≤ string.length)
    (ends : forall j, j ≤ string.length -> string.at_ j = 0 -> stop (string.at_ j) = true)
    (result : scan stop memory address fuel i = .ok (last, c)) :
    last < i + fuel ∧ last ≤ string.length ∧ c = string.at_ last ∧ stop c = true := by
  induction fuel generalizing i with
  | zero => cases result
  | succ fuel ih =>
    rw [scan, load_string holds inside, Access.ok_bind] at result
    cases stops : stop (string.at_ i) with
    | true =>
      rw [stops, if_pos rfl] at result
      cases result
      exact ⟨by omega, inside, rfl, stops⟩
    | false =>
      rw [stops, if_neg Bool.false_ne_true] at result
      have before : i < string.length := by
        by_contra past
        have zero := CString.at_eq_zero.mpr (Nat.le_of_not_lt past)
        rw [ends i inside zero] at stops
        cases stops
      have back : dword (i + 1) ≤ i + 1 := Nat.mod_le _ _
      obtain ⟨bound, rest⟩ := ih (dword (i + 1)) (back.trans before) result
      exact ⟨by omega, rest⟩

theorem clStrlen_eq (holds : memory.Holds address string.bytes) (small : string.length < 2 ^ 32) {fuel : Nat}
    (enough : string.length < fuel) : clStrlen fuel memory address = .ok string.length := by
  have run := @scan_eq (fun c => c == 0) memory address string holds string.length (Nat.le_refl _) small
    (by rw [CString.at_length]; rfl) fuel 0 (Nat.zero_le _) (by omega) (fun j _ before => by
      rw [beq_eq_false_iff_ne]
      exact fun zero => absurd (CString.at_eq_zero.mp zero) (Nat.not_le_of_lt before))
  rw [clStrlen, run]
  rfl

theorem clStrlen_unfinished (holds : memory.Holds address string.bytes) (long : 2 ^ 32 ≤ string.length) (fuel : Nat) :
    clStrlen fuel memory address = .error .unfinished := by
  have run := @scan_unfinished (fun c => c == 0) memory address string holds long (fun j small => by
    rw [beq_eq_false_iff_ne]
    exact fun zero => absurd (CString.at_eq_zero.mp zero) (by omega)) fuel 0 (Nat.two_pow_pos 32)
  rw [clStrlen, run]
  rfl

theorem clStrlen_eq_ok (holds : memory.Holds address string.bytes) {fuel length : Nat}
    (result : clStrlen fuel memory address = .ok length) : string.length < 2 ^ 32 ∧ string.length < fuel := by
  have small : string.length < 2 ^ 32 := by
    by_contra long
    rw [clStrlen_unfinished holds (Nat.le_of_not_lt long) fuel] at result
    cases result
  rw [clStrlen] at result
  obtain ⟨⟨last, c⟩, run, _⟩ := Access.bind_eq_ok.mp result
  obtain ⟨bound, _, rfl, stops⟩ := scan_eq_ok holds fuel 0 (Nat.zero_le _)
    (fun j _ zero => by rw [zero]; rfl) run
  have past := CString.at_eq_zero.mp (beq_iff_eq.mp stops)
  exact ⟨small, by omega⟩

end Scan

end Hal9000
