import Hal9000.CommonLib.Strings
import Mathlib.Data.Nat.Find

set_option autoImplicit false

namespace Hal9000

open Lib (Bytes Access)

-- for (i = 0; pStr[i] != '\0'; ++i), with the loop over the delimiters inside; whether a delimiter ended it.
def tokenEnd (limit : Nat) (memory : Bytes) (pStr delimiters : Nat) : (fuel i : Nat) -> Access (Nat × Bool)
  | 0, _ => .error .unfinished
  | fuel + 1, i => do
    let c <- memory.load (pStr + i)
    if c = 0 then pure (i, false)
    else do
      let (_, d) <- scan (fun d => d == 0 || c == d) memory delimiters limit 0
      if d = 0 then tokenEnd limit memory pStr delimiters fuel (dword (i + 1)) else pure (i, true)

def clStrtokS (fuel : Nat) (memory : Bytes) (strToken delimiters : Nat) :
    Option Nat -> Access (Nat × Option Nat × Bytes)
  | none => pure (0, none, memory)
  | some context =>
    if 0 = delimiters then pure (0, some context, memory)
    else if 0 = context ∧ 0 = strToken then pure (0, some context, memory)
    else do
      let pStr := if 0 = context then strToken else context
      let first <- memory.load pStr
      if first = 0 then pure (0, some context, memory)
      else do
        let (i, found) <- tokenEnd fuel memory pStr delimiters fuel 0
        if found then do
          let memory <- memory.store (pStr + i) 0
          pure (pStr, some (pStr + i + 1), memory)
        else do
          let last <- memory.load (pStr + i)
          pure (pStr, some (if last = 0 then pStr + i else pStr + i + 1), memory)

def tokenize (limit strToken delimiters : Nat) :
    (fuel : Nat) -> (context : Option Nat) -> Bytes -> Access (List Nat × Bytes)
  | 0, _, _ => .error .unfinished
  | fuel + 1, context, memory => do
    let (token, context, memory) <- clStrtokS limit memory strToken delimiters context
    if 0 = token then pure ([], memory)
    else do
      let (tokens, memory) <- tokenize limit strToken delimiters fuel context memory
      pure (token :: tokens, memory)

def clStrchr (fuel : Nat) (memory : Bytes) (str : Nat) (c : UInt8) : Access Nat :=
  if 0 = str then pure 0
  else do
    let (i, found) <- scan (fun d => d == 0 || d == c) memory str fuel 0
    pure (if found = 0 then str else str + i)

def invalidStringSize : Nat := maxDword

def countElements (limit : Nat) (memory : Bytes) (delimiter : UInt8) :
    (fuel curPosition pPrevValue noOfElements : Nat) -> Access Nat
  | 0, _, _, _ => .error .unfinished
  | fuel + 1, curPosition, pPrevValue, noOfElements =>
    if curPosition = pPrevValue then pure noOfElements
    else do
      let next <- clStrchr limit memory (curPosition + 1) delimiter
      countElements limit memory delimiter fuel next (curPosition + 1) (dword (noOfElements + 1))

def clStrcelem (fuel : Nat) (memory : Bytes) (string : Nat) (delimiter : UInt8) : Access Nat :=
  if 0 = string then pure invalidStringSize
  else do
    let curPosition <- clStrchr fuel memory string delimiter
    countElements fuel memory delimiter fuel curPosition string 1

-- Process->NumberOfArguments, as _ProcessParseCommandLine computes it once it has printed the full command line.
def numberOfArguments (fuel : Nat) (memory : Bytes) (commandLine : Nat) : Access Nat := do
  let noOfArgs <- if 0 ≠ commandLine then clStrcelem fuel memory commandLine 0x20 else pure 0
  Access.assert (noOfArgs != invalidStringSize) "noOfArgs != INVALID_STRING_SIZE"
  pure (dword (noOfArgs + 1))

def isDelimiter (delimiters : CString) (c : UInt8) : Bool := delimiters.chars.contains c

def segments (delimiters : CString) (string : CString) : List (List UInt8) :=
  string.chars.splitOnP (isDelimiter delimiters)

-- The segments without a final empty one.
def tokensOf (segments : List (List UInt8)) : List (List UInt8) :=
  if segments.getLast? = some [] then segments.dropLast else segments

def Settles (delimiters : CString) (c : UInt8) : Prop :=
  delimiters.length < 2 ^ 32 ∨ c ∈ delimiters.chars.take (2 ^ 32)

section Delimiters

variable {memory : Bytes} {place : Nat} {delimiters : CString} {c : UInt8}

theorem mem_of_isDelimiter : isDelimiter delimiters c = true ↔ c ∈ delimiters.chars := List.contains_iff_mem

theorem at_of_mem_take {count : Nat} (member : c ∈ delimiters.chars.take count) :
    ∃ k, k < count ∧ k < delimiters.length ∧ delimiters.at_ k = c := by
  obtain ⟨k, here⟩ := List.mem_iff_getElem?.mp member
  rw [List.getElem?_take] at here
  split at here
  next before =>
    have inside := (List.getElem?_eq_some_iff.mp here).1
    exact ⟨k, before, inside, Option.some.inj ((CString.chars_getElem? inside).symm.trans here)⟩
  next => cases here

theorem mem_take_of_at {count k : Nat} (before : k < count) (inside : k < delimiters.length)
    (here : delimiters.at_ k = c) : c ∈ delimiters.chars.take count := by
  refine List.mem_iff_getElem?.mpr ⟨k, ?_⟩
  rw [List.getElem?_take, if_pos before, CString.chars_getElem? inside, here]

theorem stops_iff {d : UInt8} : ((d == 0) || (c == d)) = false ↔ d ≠ 0 ∧ c ≠ d := by
  rw [Bool.or_eq_false_iff, beq_eq_false_iff_ne, beq_eq_false_iff_ne]

theorem scanDelimiters_eq (holds : memory.Holds place delimiters.bytes) (char : c ≠ 0) (settles : Settles delimiters c)
    {fuel : Nat} (enough : delimiters.length < fuel) :
    ∃ j d, scan (fun d => d == 0 || c == d) memory place fuel 0 = .ok (j, d) ∧ (d = 0 ↔ isDelimiter delimiters c = false) := by
  rw [← Bool.not_eq_true, mem_of_isDelimiter]
  by_cases member : c ∈ delimiters.chars
  · have somewhere : ∃ k, k < 2 ^ 32 ∧ k < delimiters.length ∧ delimiters.at_ k = c := by
      rcases settles with short | early
      · rw [← List.take_length (l := delimiters.chars)] at member
        obtain ⟨k, inside, _, here⟩ := at_of_mem_take member
        exact ⟨k, inside.trans short, inside, here⟩
      · exact at_of_mem_take early
    obtain ⟨small, inside, here⟩ := Nat.find_spec somewhere
    refine ⟨_, _, scan_eq holds (Nat.le_of_lt inside) small (by rw [here, beq_self_eq_true, Bool.or_true]) fuel 0
      (Nat.zero_le _) (by omega) (fun j _ before => ?_), ?_⟩
    · rw [stops_iff]
      refine ⟨fun zero => ?_, fun same => Nat.find_min somewhere before ⟨by omega, by omega, same.symm⟩⟩
      have past := CString.at_eq_zero.mp zero
      omega
    · rw [here]
      exact ⟨fun zero => absurd zero char, fun absent => absurd member absent⟩
  · have short : delimiters.length < 2 ^ 32 := settles.resolve_right (fun early => member (List.mem_of_mem_take early))
    refine ⟨_, _, scan_eq holds (Nat.le_refl _) short (by rw [CString.at_length]; rfl) fuel 0 (Nat.zero_le _) (by omega)
      (fun j _ before => ?_), ?_⟩
    · rw [stops_iff]
      refine ⟨fun zero => absurd (CString.at_eq_zero.mp zero) (Nat.not_le_of_lt before), fun same => member ?_⟩
      exact List.mem_of_mem_take (mem_take_of_at before before same.symm)
    · rw [CString.at_length]
      exact ⟨fun _ => member, fun _ => rfl⟩

theorem scanDelimiters_endless (holds : memory.Holds place delimiters.bytes) (endless : ¬ Settles delimiters c)
    (fuel : Nat) : scan (fun d => d == 0 || c == d) memory place fuel 0 = .error .unfinished := by
  rw [Settles, not_or] at endless
  refine scan_unfinished holds (Nat.le_of_not_lt endless.1) (fun j small => ?_) fuel 0 (Nat.two_pow_pos 32)
  rw [stops_iff]
  refine ⟨fun zero => ?_, fun same => endless.2 (mem_take_of_at small (by omega) same.symm)⟩
  have past := CString.at_eq_zero.mp zero
  omega

end Delimiters

section Segments

variable {delimiters string : CString}

theorem exists_first_delimiter {chars : List UInt8} (some_ : ∃ d, d ∈ chars ∧ isDelimiter delimiters d = true) :
    ∃ segment d rest, (forall c, c ∈ segment -> isDelimiter delimiters c = false) ∧ isDelimiter delimiters d = true ∧
      chars = segment ++ d :: rest := by
  obtain ⟨d, member, ends⟩ := some_
  induction chars with
  | nil => cases member
  | cons c chars ih =>
    cases first : isDelimiter delimiters c with
    | true => exact ⟨[], c, chars, fun c inside => absurd inside List.not_mem_nil, first, rfl⟩
    | false =>
      rcases List.mem_cons.mp member with rfl | member
      · rw [first] at ends
        cases ends
      · obtain ⟨segment, d, rest, plain, ends, whole⟩ := ih member
        refine ⟨c :: segment, d, rest, fun e inside => ?_, ends, by rw [whole]; rfl⟩
        rcases List.mem_cons.mp inside with rfl | inside
        · exact first
        · exact plain e inside

theorem split_cases (delimiters string : CString) :
    (forall c, c ∈ string.chars -> isDelimiter delimiters c = false) ∨
    ∃ segment d, ∃ rest : CString, string.chars = segment ++ d :: rest.chars ∧ isDelimiter delimiters d = true ∧
      forall c, c ∈ segment -> isDelimiter delimiters c = false := by
  by_cases none_ : forall c, c ∈ string.chars -> isDelimiter delimiters c = false
  · exact .inl none_
  · right
    push Not at none_
    obtain ⟨d, first, ends⟩ := none_
    rw [ne_eq, Bool.not_eq_false] at ends
    obtain ⟨segment, d, rest, plain, ends, whole⟩ := exists_first_delimiter ⟨d, first, ends⟩
    exact ⟨segment, d, ⟨rest, fun c member => string.nonZero c (by rw [whole]; simp [member])⟩, whole, ends, plain⟩

theorem tokensOf_nil : tokensOf [[]] = [] := rfl

theorem tokensOf_one {segment : List UInt8} (nonEmpty : segment ≠ []) : tokensOf [segment] = [segment] := by
  rw [tokensOf, List.getLast?_singleton, if_neg (by simpa using nonEmpty)]

theorem tokensOf_cons (segment : List UInt8) {rest : List (List UInt8)} (more : rest ≠ []) :
    tokensOf (segment :: rest) = segment :: tokensOf rest := by
  obtain ⟨next, others, rfl⟩ := List.exists_cons_of_ne_nil more
  rw [tokensOf, tokensOf, List.getLast?_cons_cons, List.dropLast_cons_cons]
  split <;> rfl

theorem segments_one (plain : forall c, c ∈ string.chars -> isDelimiter delimiters c = false) :
    segments delimiters string = [string.chars] := List.splitOnP_eq_singleton plain

theorem segments_cons {rest : CString} {segment : List UInt8} {d : UInt8} (whole : string.chars = segment ++ d :: rest.chars)
    (ends : isDelimiter delimiters d = true) (plain : forall c, c ∈ segment -> isDelimiter delimiters c = false) :
    segments delimiters string = segment :: segments delimiters rest := by
  rw [segments, whole]
  exact List.splitOnP_append_cons_of_forall_mem plain d ends rest.chars

theorem segments_ne_nil : segments delimiters string ≠ [] := List.splitOnP_ne_nil _ _

end Segments

section Token

variable {memory : Bytes} {address place limit : Nat} {string delimiters : CString}

theorem at_mem {j : Nat} (before : j < string.length) : string.at_ j ∈ string.chars :=
  List.mem_of_getElem? (CString.chars_getElem? before)

attribute [local simp] tokenEnd in
theorem tokenEnd_eq (holds : memory.Holds address string.bytes) (ends : memory.Holds place delimiters.bytes)
    {last : Nat} (settles : forall j, j ≤ last -> j < string.length -> Settles delimiters (string.at_ j))
    (room : delimiters.length < limit) (inside : last ≤ string.length) (small : last < 2 ^ 32)
    (plain : forall j, j < last -> isDelimiter delimiters (string.at_ j) = false)
    (stops : last < string.length -> isDelimiter delimiters (string.at_ last) = true) (fuel i : Nat) (start : i ≤ last)
    (enough : last < i + fuel) :
    tokenEnd limit memory address place fuel i = .ok (last, decide (last < string.length)) := by
  induction fuel generalizing i with
  | zero => omega
  | succ fuel ih =>
    rw [tokenEnd, load_string holds (start.trans inside), Access.ok_bind]
    by_cases past : i = string.length
    · have same : last = string.length := by omega
      rw [if_pos (by rw [past, CString.at_length]), past, same, decide_eq_false (Nat.lt_irrefl _)]
      rfl
    · have before : i < string.length := by omega
      have char : string.at_ i ≠ 0 := fun zero => absurd (CString.at_eq_zero.mp zero) (Nat.not_le_of_lt before)
      obtain ⟨j, d, scanned, found⟩ := scanDelimiters_eq ends char (settles i start before) room
      simp only [if_neg char, scanned, Access.ok_bind]
      rcases Nat.eq_or_lt_of_le start with rfl | earlier
      · have stop := stops before
        rw [if_neg (fun zero => absurd (found.mp zero) (by rw [stop]; exact Bool.noConfusion)), decide_eq_true before]
        rfl
      · rw [if_pos (found.mpr (plain i earlier)), dword_of_lt (by omega)]
        exact ih (i + 1) earlier (by omega)

theorem tokenEnd_ok (holds : memory.Holds address string.bytes) (ends : memory.Holds place delimiters.bytes)
    {last : Nat} (inside : last ≤ string.length)
    (plain : forall j, j < last -> isDelimiter delimiters (string.at_ j) = false)
    (room : delimiters.length < limit) (fuel i : Nat) (start : i ≤ last) (small : i < 2 ^ 32) {result : Nat × Bool} (run : tokenEnd limit memory address place fuel i = .ok result) :
    last < 2 ^ 32 ∧ forall j, i ≤ j -> j ≤ last -> j < string.length -> Settles delimiters (string.at_ j) := by
  induction fuel generalizing i with
  | zero => cases run
  | succ fuel ih =>
    rw [tokenEnd, load_string holds (start.trans inside), Access.ok_bind] at run
    by_cases past : i = string.length
    · exact ⟨by omega, fun j lower _ before => by omega⟩
    · have before : i < string.length := by omega
      have char : string.at_ i ≠ 0 := fun zero => absurd (CString.at_eq_zero.mp zero) (Nat.not_le_of_lt before)
      have settles : Settles delimiters (string.at_ i) := by
        by_contra endless
        rw [if_neg char, scanDelimiters_endless ends endless limit] at run
        cases run
      rcases Nat.eq_or_lt_of_le start with rfl | earlier
      · refine ⟨small, fun j lower upper _ => ?_⟩
        obtain rfl : j = i := Nat.le_antisymm upper lower
        exact settles
      · obtain ⟨j, d, scanned, found⟩ := scanDelimiters_eq ends char settles room
        simp only [if_neg char, scanned, Access.ok_bind, if_pos (found.mpr (plain i earlier))] at run
        have next : i + 1 < 2 ^ 32 := by
          by_contra wraps
          obtain rfl : i = 2 ^ 32 - 1 := by omega
          have short := (ih 0 (Nat.zero_le _) (Nat.two_pow_pos 32) run).1
          omega
        rw [dword_of_lt next] at run
        obtain ⟨short, behind⟩ := ih (i + 1) earlier next run
        refine ⟨short, fun j lower upper before => ?_⟩
        rcases Nat.eq_or_lt_of_le lower with rfl | later
        · exact settles
        · exact behind j later upper before

attribute [local simp] clStrtokS in
theorem clStrtokS_nil (holds : memory.Holds address string.bytes) (nonNull : address ≠ 0) (other : place ≠ 0)
    {strToken context : Nat} (start : (if 0 = context then strToken else context) = address) (empty : string.chars = [])
    (fuel : Nat) : clStrtokS fuel memory strToken place (some context) = .ok (0, some context, memory) := by
  have both : ¬ (0 = context ∧ 0 = strToken) := by
    rintro ⟨rfl, rfl⟩
    exact nonNull start.symm
  have zero : memory.load address = .ok 0 := by
    rw [← Nat.add_zero address, load_string holds (Nat.zero_le _), CString.at_, empty]
    rfl
  simp only [clStrtokS, if_neg (Ne.symm other), if_neg both, start, zero, Access.ok_bind, if_true]
  rfl

theorem clStrtokS_cons (holds : memory.Holds address string.bytes) (nonNull : address ≠ 0) (other : place ≠ 0)
    {strToken context : Nat} (start : (if 0 = context then strToken else context) = address) (some_ : string.chars ≠ [])
    (fuel : Nat) : clStrtokS fuel memory strToken place (some context) = (do
      let (i, found) <- tokenEnd fuel memory address place fuel 0
      if found then do
        let memory <- memory.store (address + i) 0
        pure (address, some (address + i + 1), memory)
      else do
        let last <- memory.load (address + i)
        pure (address, some (if last = 0 then address + i else address + i + 1), memory)) := by
  have both : ¬ (0 = context ∧ 0 = strToken) := by
    rintro ⟨rfl, rfl⟩
    exact nonNull start.symm
  have first : memory.load address = .ok (string.at_ 0) := load_string holds (Nat.zero_le _)
  have char : string.at_ 0 ≠ 0 := fun zero => absurd (CString.at_eq_zero.mp zero)
    (Nat.not_le_of_lt (List.length_pos_iff.mpr some_))
  simp only [clStrtokS, if_neg (Ne.symm other), if_neg both, start, first, Access.ok_bind, if_neg char]

theorem clStrtokS_one (holds : memory.Holds address string.bytes) (ends : memory.Holds place delimiters.bytes)
    (nonNull : address ≠ 0) (other : place ≠ 0)
    {strToken context : Nat} (start : (if 0 = context then strToken else context) = address) (some_ : string.chars ≠ [])
    (plain : forall c, c ∈ string.chars -> isDelimiter delimiters c = false)
    (settles : forall j, j ≤ string.length -> j < string.length -> Settles delimiters (string.at_ j))
    (small : string.length < 2 ^ 32) {fuel : Nat}
    (room : delimiters.length < fuel) (enough : string.length < fuel) :
    clStrtokS fuel memory strToken place (some context) = .ok (address, some (address + string.length), memory) := by
  have found := tokenEnd_eq holds ends settles room (Nat.le_refl _) small (fun j before => plain _ (at_mem before))
    (fun before => absurd before (Nat.lt_irrefl _)) fuel 0 (Nat.zero_le _) (by omega)
  rw [decide_eq_false (Nat.lt_irrefl _)] at found
  rw [clStrtokS_cons holds nonNull other start some_]
  simp only [found, Access.ok_bind, Bool.false_eq_true, if_false, load_string holds (Nat.le_refl _), CString.at_length, if_true]
  rfl

variable {segment : List UInt8} {d : UInt8} {rest : CString}

theorem at_segment (whole : string.chars = segment ++ d :: rest.chars) {j : Nat} (before : j < segment.length) :
    string.at_ j ∈ segment := by
  rw [CString.at_, whole, List.getD_append _ _ _ _ before, List.getD_eq_getElem _ _ before]
  exact List.getElem_mem before

theorem at_delimiter (whole : string.chars = segment ++ d :: rest.chars) : string.at_ segment.length = d := by
  rw [CString.at_, whole, List.getD_append_right _ _ _ _ (Nat.le_refl _), Nat.sub_self]
  rfl

theorem length_split (whole : string.chars = segment ++ d :: rest.chars) :
    string.length = segment.length + 1 + rest.length := by
  rw [CString.length, whole, List.length_append, List.length_cons, CString.length]
  omega

theorem clStrtokS_split (holds : memory.Holds address string.bytes) (ends : memory.Holds place delimiters.bytes)
    (nonNull : address ≠ 0) (other : place ≠ 0)
    {strToken context : Nat} (start : (if 0 = context then strToken else context) = address)
    (whole : string.chars = segment ++ d :: rest.chars) (stop : isDelimiter delimiters d = true)
    (plain : forall c, c ∈ segment -> isDelimiter delimiters c = false)
    (settles : forall j, j ≤ segment.length -> j < string.length -> Settles delimiters (string.at_ j))
    (small : segment.length < 2 ^ 32) {fuel : Nat}
    (room : delimiters.length < fuel) (enough : segment.length < fuel) :
    clStrtokS fuel memory strToken place (some context) =
      .ok (address, some (address + segment.length + 1), memory.put (address + segment.length) 0) := by
  have length := length_split whole
  have found := tokenEnd_eq holds ends settles room (by omega) small (fun j before => plain _ (at_segment whole before))
    (fun _ => by rwa [at_delimiter whole]) fuel 0 (Nat.zero_le _) (by omega)
  rw [decide_eq_true (by omega)] at found
  rw [clStrtokS_cons holds nonNull other start (by rw [whole]; simp)]
  have stored := holds segment.length _ (CString.bytes_getElem? (by omega))
  simp only [found, Access.ok_bind, if_true, Bytes.store_eq ⟨_, stored⟩]
  rfl

theorem rest_holds (holds : memory.Holds address string.bytes) (whole : string.chars = segment ++ d :: rest.chars) :
    memory.Holds (address + segment.length + 1) rest.bytes := by
  rw [CString.bytes, whole, List.append_assoc, Bytes.Holds.append] at holds
  intro i byte here
  have there := holds.2 (i + 1) byte here
  rwa [Nat.add_assoc, Nat.add_comm 1 i]

theorem segment_holds (holds : memory.Holds address string.bytes) (whole : string.chars = segment ++ d :: rest.chars) :
    memory.Holds address segment := by
  rw [CString.bytes, whole, List.append_assoc, Bytes.Holds.append] at holds
  exact holds.1

end Token

structure Yields (memory after : Bytes) (address : Nat) (string : CString) (tokens : List (List UInt8))
    (pointers : List Nat) : Prop where
  tokens : List.Forall₂ (fun pointer token => after.Holds pointer (token ++ [0])) pointers tokens
  frame : forall place, ¬ (address ≤ place ∧ place < address + string.length) -> after place = memory place

-- Each character is looked up, and each segment is passed, with indexes of 32 bits.
structure Tokenisable (delimiters string : CString) : Prop where
  settles : forall c, c ∈ string.chars -> Settles delimiters c
  lengths : forall segment, segment ∈ segments delimiters string -> segment.length < 2 ^ 32

def starts : Nat -> List (List UInt8) -> List Nat
  | _, [] => []
  | address, token :: rest => address :: starts (address + token.length + 1) rest

def terminated : Bytes -> Nat -> List (List UInt8) -> Bytes
  | memory, _, [] => memory
  | memory, address, token :: rest =>
    terminated (memory.put (address + token.length) 0) (address + token.length + 1) rest

section Tokenize

variable {memory : Bytes} {address place limit strToken context : Nat} {string delimiters : CString}

theorem Tokenisable.settles_at (fine : Tokenisable delimiters string) {j : Nat} (before : j < string.length) :
    Settles delimiters (string.at_ j) := fine.settles _ (at_mem before)

theorem Tokenisable.rest {segment : List UInt8} {d : UInt8} {rest : CString} (fine : Tokenisable delimiters string)
    (whole : string.chars = segment ++ d :: rest.chars) (stop : isDelimiter delimiters d = true)
    (plain : forall c, c ∈ segment -> isDelimiter delimiters c = false) :
    segment.length < 2 ^ 32 ∧ Tokenisable delimiters rest := by
  have lengths := fine.lengths
  rw [segments_cons whole stop plain] at lengths
  refine ⟨lengths segment List.mem_cons_self, ⟨fun c member => fine.settles c ?_, fun other member => lengths other ?_⟩⟩
  · rw [whole]
    exact List.mem_append_right _ (List.mem_cons_of_mem _ member)
  · exact List.mem_cons_of_mem _ member

theorem rest_kept (holds : memory.Holds address string.bytes) (ends : memory.Holds place delimiters.bytes)
    (apart : forall i j, i < string.length -> j ≤ delimiters.length -> address + i ≠ place + j)
    {segment : List UInt8} {d : UInt8} {rest : CString} (whole : string.chars = segment ++ d :: rest.chars) :
    (memory.put (address + segment.length) 0).Holds (address + segment.length + 1) rest.bytes ∧
      (memory.put (address + segment.length) 0).Holds place delimiters.bytes ∧
      forall i j, i < rest.length -> j ≤ delimiters.length -> address + segment.length + 1 + i ≠ place + j := by
  have length := length_split whole
  refine ⟨(rest_holds holds whole).congr (fun i _ => Bytes.put_elsewhere (by omega)), ends.congr (fun j inside => ?_), ?_⟩
  · rw [CString.bytes_length] at inside
    exact Bytes.put_elsewhere (apart segment.length j (by omega) (by omega)).symm
  · intro i j inside under
    have elsewhere := apart (segment.length + 1 + i) j (by omega) under
    omega

attribute [local simp] terminated in
attribute [local simp] starts in
attribute [local simp] tokenize in
theorem tokenize_eq (other : place ≠ 0) (fine : Tokenisable delimiters string)
    (holds : memory.Holds address string.bytes) (ends : memory.Holds place delimiters.bytes) (nonNull : address ≠ 0)
    (apart : forall i j, i < string.length -> j ≤ delimiters.length -> address + i ≠ place + j)
    (start : (if 0 = context then strToken else context) = address) (room : delimiters.length < limit)
    (wide : string.length < limit) (fuel : Nat) (enough : string.length < fuel) :
    tokenize limit strToken place fuel (some context) memory =
        .ok (starts address (tokensOf (segments delimiters string)),
          terminated memory address (tokensOf (segments delimiters string))) ∧
      Yields memory (terminated memory address (tokensOf (segments delimiters string))) address string
        (tokensOf (segments delimiters string)) (starts address (tokensOf (segments delimiters string))) := by
  induction fuel generalizing string address context memory with
  | zero => omega
  | succ fuel ih =>
    by_cases empty : string.chars = []
    · have none_ : segments delimiters string = [[]] := by
        rw [segments, empty]
        rfl
      rw [none_, tokensOf_nil]
      refine ⟨?_, .nil, fun _ _ => rfl⟩
      simp only [tokenize, clStrtokS_nil holds nonNull other start empty, Access.ok_bind, if_true]
      rfl
    · rcases split_cases delimiters string with plain | ⟨segment, d, rest, whole, stop, plain⟩
      · have nonEmpty : 0 < string.length := List.length_pos_iff.mpr empty
        have one := segments_one plain
        have small := fine.lengths string.chars (by rw [one]; exact List.mem_cons_self)
        have first := clStrtokS_one holds ends nonNull other start empty plain (fun j _ => fine.settles_at) small room wide
        have last : memory.Holds (address + string.length) (CString.bytes ⟨[], fun c inside => nomatch inside⟩) :=
          (Bytes.Holds.append.mp holds).2
        obtain ⟨fuel, rfl⟩ := Nat.exists_eq_succ_of_ne_zero (by omega : fuel ≠ 0)
        have second : clStrtokS limit memory strToken place (some (address + string.length)) = .ok (0, _, memory) :=
          clStrtokS_nil last (by omega) other (if_neg (by omega)) rfl limit
        have same : terminated memory address [string.chars] = memory :=
          Function.update_eq_self_iff.mpr ((last 0 0 rfl).symm)
        rw [one, tokensOf_one empty, same]
        refine ⟨?_, .cons holds .nil, fun _ _ => rfl⟩
        simp only [tokenize, first, second, Access.ok_bind, if_neg (Ne.symm nonNull), if_true]
        rfl
      · obtain ⟨small, restFine⟩ := fine.rest whole stop plain
        have length := length_split whole
        have first := clStrtokS_split holds ends nonNull other start whole stop plain (fun j _ => fine.settles_at) small room
          (by omega)
        obtain ⟨behind, kept, further⟩ := rest_kept holds ends apart whole
        obtain ⟨run, tokens, frame⟩ := ih restFine behind kept (by omega) further (if_neg (by omega)) (by omega) (by omega)
        rw [segments_cons whole stop plain, tokensOf_cons _ segments_ne_nil]
        refine ⟨?_, .cons (Bytes.Holds.append.mpr ⟨?_, ?_⟩) tokens, fun elsewhere outside => ?_⟩
        · simp only [tokenize, first, run, Access.ok_bind, if_neg (Ne.symm nonNull)]
          rfl
        · refine (segment_holds holds whole).congr (fun i inside => ?_)
          rw [terminated, frame _ (by omega), Bytes.put_elsewhere (by omega)]
        · intro i byte here
          cases i with
          | zero =>
            rw [terminated, frame _ (by omega), Nat.add_zero (address + segment.length), Bytes.put_self]
            exact here
          | succ i => cases here
        · rw [terminated, frame _ (by omega), Bytes.put_elsewhere (by omega)]

theorem tokenisable_of_at (settles : forall j, j < string.length -> Settles delimiters (string.at_ j))
    (lengths : forall segment, segment ∈ segments delimiters string -> segment.length < 2 ^ 32) :
    Tokenisable delimiters string := by
  refine ⟨fun c member => ?_, lengths⟩
  obtain ⟨j, here⟩ := List.mem_iff_getElem?.mp member
  have inside := (List.getElem?_eq_some_iff.mp here).1
  rw [← Option.some.inj ((CString.chars_getElem? inside).symm.trans here)]
  exact settles j inside

theorem tokenisable_of_run (other : place ≠ 0)
    (holds : memory.Holds address string.bytes) (ends : memory.Holds place delimiters.bytes) (nonNull : address ≠ 0)
    (apart : forall i j, i < string.length -> j ≤ delimiters.length -> address + i ≠ place + j)
    (start : (if 0 = context then strToken else context) = address) (room : delimiters.length < limit)
    (wide : string.length < limit) (fuel : Nat) {result : List Nat × Bytes}
    (run : tokenize limit strToken place fuel (some context) memory = .ok result) : Tokenisable delimiters string := by
  induction fuel generalizing string address context memory result with
  | zero => cases run
  | succ fuel ih =>
    by_cases empty : string.chars = []
    · refine ⟨fun c member => ?_, fun segment member => ?_⟩
      · rw [empty] at member
        cases member
      · rw [segments, empty] at member
        rw [List.mem_singleton.mp member]
        exact Nat.two_pow_pos 32
    · rw [tokenize] at run
      obtain ⟨⟨token, next, between⟩, first, run⟩ := Access.bind_eq_ok.mp run
      have begins := first
      rw [clStrtokS_cons holds nonNull other start empty] at begins
      obtain ⟨found, ended, _⟩ := Access.bind_eq_ok.mp begins
      rcases split_cases delimiters string with plain | ⟨segment, d, rest, whole, stop, plain⟩
      · obtain ⟨small, settles⟩ := tokenEnd_ok holds ends (Nat.le_refl _) (fun j before => plain _ (at_mem before)) room limit 0
          (Nat.zero_le _) (Nat.two_pow_pos 32) ended
        refine tokenisable_of_at (fun j before => settles j (Nat.zero_le j) (Nat.le_of_lt before) before) ?_
        rw [segments_one plain]
        intro segment member
        rwa [List.mem_singleton.mp member]
      · have length := length_split whole
        obtain ⟨small, settles⟩ := tokenEnd_ok holds ends (by omega) (fun j before => plain _ (at_segment whole before)) room
          limit 0 (Nat.zero_le _) (Nat.two_pow_pos 32) ended
        have split := clStrtokS_split holds ends nonNull other start whole stop plain (fun j => settles j (Nat.zero_le j)) small
          room (by omega)
        rw [split] at first
        cases first
        simp only [if_neg (Ne.symm nonNull)] at run
        obtain ⟨_, run, _⟩ := Access.bind_eq_ok.mp run
        obtain ⟨behind, kept, further⟩ := rest_kept holds ends apart whole
        have restFine := ih behind kept (by omega) further (if_neg (by omega)) (by omega) run
        refine tokenisable_of_at (fun j before => ?_) ?_
        · by_cases early : j ≤ segment.length
          · exact settles j (Nat.zero_le j) early before
          · have same : string.at_ j = rest.at_ (j - (segment.length + 1)) := by
              rw [CString.at_, whole, List.getD_append_right _ _ _ _ (by omega), CString.at_]
              obtain ⟨k, rfl⟩ := Nat.exists_eq_add_of_lt (Nat.lt_of_not_le early)
              rw [Nat.add_assoc, Nat.add_sub_cancel_left, Nat.add_comm k 1, ← Nat.add_assoc, Nat.add_sub_cancel_left,
                Nat.add_comm 1 k]
              rfl
            rw [same]
            exact restFine.settles_at (by omega)
        · rw [segments_cons whole stop plain]
          exact List.forall_mem_cons.mpr ⟨small, restFine.lengths⟩

end Tokenize

def single (delimiter : UInt8) (char : delimiter ≠ 0) : CString := ⟨[delimiter], fun c member => by
  rwa [List.mem_singleton.mp member]⟩

def steps : List (List UInt8) -> Nat
  | segment :: next :: rest => if segment = [] then 0 else steps (next :: rest) + 1
  | _ => 0

-- No segment is empty, or the last two are and no others.
def Evened (segments : List (List UInt8)) : Prop :=
  (forall segment, segment ∈ segments -> segment ≠ []) ∨
    ∃ front, segments = front ++ [[], []] ∧ forall segment, segment ∈ front -> segment ≠ []

section Elements

variable {memory : Bytes} {address limit : Nat} {delimiter : UInt8} {char : delimiter ≠ 0} {string : CString}

theorem isDelimiter_single (c : UInt8) : isDelimiter (single delimiter char) c = (c == delimiter) := by
  rw [isDelimiter, single, List.contains_cons, List.contains_nil, Bool.or_false]

theorem clStrchr_one (holds : memory.Holds address string.bytes) (nonNull : address ≠ 0)
    (plain : forall c, c ∈ string.chars -> isDelimiter (single delimiter char) c = false) (small : string.length < 2 ^ 32)
    (enough : string.length < limit) : clStrchr limit memory address delimiter = .ok address := by
  have run := @scan_eq (fun d => d == 0 || d == delimiter) memory address string holds _ (Nat.le_refl _) small
    (by rw [CString.at_length]; rfl) limit 0 (Nat.zero_le _) (by omega) (fun j _ before => by
      have other := plain _ (at_mem before)
      rw [isDelimiter_single] at other
      rw [other, Bool.or_false, beq_eq_false_iff_ne]
      exact fun zero => absurd (CString.at_eq_zero.mp zero) (Nat.not_le_of_lt before))
  rw [clStrchr, if_neg (Ne.symm nonNull)]
  simp only [run, Access.ok_bind, CString.at_length, if_true]
  rfl

theorem clStrchr_split (holds : memory.Holds address string.bytes) (nonNull : address ≠ 0) {segment : List UInt8} {d : UInt8}
    {rest : CString} (whole : string.chars = segment ++ d :: rest.chars)
    (stop : isDelimiter (single delimiter char) d = true)
    (plain : forall c, c ∈ segment -> isDelimiter (single delimiter char) c = false) (small : segment.length < 2 ^ 32)
    (enough : segment.length < limit) : clStrchr limit memory address delimiter = .ok (address + segment.length) := by
  have length := length_split whole
  have here := at_delimiter whole
  rw [isDelimiter_single] at stop
  have run := @scan_eq (fun d => d == 0 || d == delimiter) memory address string holds _ (by omega) small
    (by rw [here, stop, Bool.or_true]) limit 0 (Nat.zero_le _) (by omega) (fun j _ before => by
      have other := plain _ (at_segment whole before)
      rw [isDelimiter_single] at other
      rw [other, Bool.or_false, beq_eq_false_iff_ne]
      exact fun zero => absurd (CString.at_eq_zero.mp zero) (by omega))
  have found : d ≠ 0 := by
    rw [beq_iff_eq.mp stop]
    exact char
  rw [clStrchr, if_neg (Ne.symm nonNull)]
  simp only [run, Access.ok_bind, here, if_neg found]
  rfl

attribute [local simp] steps in
theorem segments_steps_one (plain : forall c, c ∈ string.chars -> isDelimiter (single delimiter char) c = false) :
    steps (segments (single delimiter char) string) = 0 := by
  rw [segments_one plain]
  rfl

attribute [local simp] countElements in
theorem countElements_eq (holds : memory.Holds address string.bytes) (nonNull : address ≠ 0)
    (lengths : forall segment, segment ∈ segments (single delimiter char) string -> segment.length < 2 ^ 32)
    (wide : string.length < limit) (fuel noOfElements : Nat) (enough : string.length < fuel) :
    (clStrchr limit memory address delimiter >>= fun curPosition =>
      countElements limit memory delimiter fuel curPosition address (dword noOfElements)) =
      .ok (dword (noOfElements + steps (segments (single delimiter char) string))) := by
  induction fuel generalizing string address noOfElements with
  | zero => omega
  | succ fuel ih =>
    rcases split_cases (single delimiter char) string with plain | ⟨segment, d, rest, whole, stop, plain⟩
    · have one := segments_one plain
      rw [clStrchr_one holds nonNull plain (lengths _ (by rw [one]; exact List.mem_cons_self)) wide, Access.ok_bind,
        countElements, if_pos rfl, segments_steps_one plain]
      rfl
    · have length := length_split whole
      rw [segments_cons whole stop plain] at lengths ⊢
      rw [clStrchr_split holds nonNull whole stop plain (lengths _ List.mem_cons_self) (by omega), Access.ok_bind,
        countElements]
      obtain ⟨next, others, shape⟩ := List.exists_cons_of_ne_nil (@segments_ne_nil (single delimiter char) rest)
      by_cases empty : segment = []
      · rw [if_pos (by rw [empty]; rfl), shape, steps, if_pos empty]
        rfl
      · have positive := List.length_pos_iff.mpr empty
        have run := ih (rest_holds holds whole) (by omega) (fun other member => lengths other (List.mem_cons_of_mem _ member))
          (by omega) (noOfElements + 1) (by omega)
        have wraps : dword (dword noOfElements + 1) = dword (noOfElements + 1) := by
          rw [dword, dword, dword, Nat.mod_add_mod]
        rw [if_neg (by omega), wraps, run, shape, steps, if_neg empty, Nat.add_assoc, Nat.add_comm 1]

end Elements

section Counting

variable {segment : List UInt8} {rest : List (List UInt8)}

theorem evened_one : Evened [segment] ↔ segment ≠ [] := by
  constructor
  · rintro (all | ⟨front, shape, _⟩)
    · exact all segment List.mem_cons_self
    · have lengths := congrArg List.length shape
      rw [List.length_append, List.length_singleton] at lengths
      exact absurd lengths (by simp)
  · intro some_
    exact .inl (fun other member => by rwa [List.mem_singleton.mp member])

theorem evened_cons (some_ : segment ≠ []) : Evened (segment :: rest) ↔ Evened rest := by
  constructor
  · rintro (all | ⟨front, shape, all⟩)
    · exact .inl (fun other member => all other (List.mem_cons_of_mem _ member))
    · cases front with
      | nil => exact absurd (List.cons.inj shape).1 some_
      | cons first front =>
        exact .inr ⟨front, (List.cons.inj shape).2, fun other member => all other (List.mem_cons_of_mem _ member)⟩
  · rintro (all | ⟨front, shape, all⟩)
    · exact .inl (List.forall_mem_cons.mpr ⟨some_, all⟩)
    · exact .inr ⟨segment :: front, by rw [shape]; rfl, List.forall_mem_cons.mpr ⟨some_, all⟩⟩

theorem evened_empty : Evened ([] :: rest) ↔ rest = [[]] := by
  constructor
  · rintro (all | ⟨front, shape, all⟩)
    · exact absurd rfl (all [] List.mem_cons_self)
    · cases front with
      | nil => exact (List.cons.inj shape).2
      | cons first front => exact absurd (List.cons.inj shape).1.symm (all first List.mem_cons_self)
  · rintro rfl
    exact .inr ⟨[], rfl, fun other member => nomatch member⟩

theorem tokensOf_eq_nil (more : rest ≠ []) : tokensOf rest = [] ↔ rest = [[]] := by
  constructor
  · intro none_
    obtain ⟨segment, others, rfl⟩ := List.exists_cons_of_ne_nil more
    cases others with
    | nil =>
      by_contra other
      rw [tokensOf_one (fun empty => other (by rw [empty]))] at none_
      cases none_
    | cons next others =>
      rw [tokensOf_cons _ (List.cons_ne_nil _ _)] at none_
      cases none_
  · rintro rfl
    rfl

theorem steps_le : steps rest ≤ (tokensOf rest).length := by
  induction rest with
  | nil => exact Nat.zero_le _
  | cons segment rest ih =>
    cases rest with
    | nil => exact Nat.zero_le _
    | cons next others =>
      rw [tokensOf_cons _ (List.cons_ne_nil _ _), List.length_cons, steps]
      split
      · exact Nat.zero_le _
      · exact Nat.succ_le_succ ih

theorem steps_eq (more : rest ≠ []) : steps rest + 1 = (tokensOf rest).length ↔ Evened rest := by
  induction rest with
  | nil => exact absurd rfl more
  | cons segment rest ih =>
    cases rest with
    | nil =>
      have zero : steps [segment] = 0 := rfl
      rw [evened_one, zero]
      by_cases empty : segment = []
      · rw [empty, tokensOf_nil]
        simp
      · rw [tokensOf_one empty]
        exact ⟨fun _ => empty, fun _ => rfl⟩
    | cons next others =>
      have some_ : next :: others ≠ [] := List.cons_ne_nil _ _
      rw [tokensOf_cons _ some_, List.length_cons, steps]
      by_cases empty : segment = []
      · rw [if_pos empty, empty, evened_empty, ← tokensOf_eq_nil some_, ← List.length_eq_zero_iff]
        omega
      · rw [if_neg empty, evened_cons empty, ← ih some_]
        omega

theorem dword_steps (more : rest ≠ []) :
    dword (1 + steps rest) = (tokensOf rest).length ↔ Evened rest ∧ (tokensOf rest).length < 2 ^ 32 := by
  have fewer := @steps_le rest
  rw [← steps_eq more]
  constructor
  · intro same
    have small := dword_lt (1 + steps rest)
    rw [same] at small
    by_cases wraps : 1 + steps rest < 2 ^ 32
    · rw [dword_of_lt wraps] at same
      omega
    · have zero : 1 + steps rest = 2 ^ 32 := by omega
      rw [zero] at same
      change 0 = _ at same
      omega
  · rintro ⟨same, small⟩
    rw [dword_of_lt (by omega)]
    omega

end Counting

def Apart (address place : Nat) (string delimiters : CString) : Prop :=
  address + string.length < place ∨ place + delimiters.length < address

def texts (address place : Nat) (string delimiters : CString) : Bytes :=
  (Bytes.object address string.bytes).beside (Bytes.object place delimiters.bytes)

def Tokenises (address place : Nat) (string delimiters : CString) : Prop :=
  ∃ pointers after,
    Access.Returns (fun fuel => tokenize fuel address place fuel (some 0) (texts address place string delimiters))
      (pointers, after) ∧
    Yields (texts address place string delimiters) after address string (tokensOf (segments delimiters string)) pointers

def CountAgrees (address place : Nat) (string delimiters : CString) (count : Nat -> Bytes -> Access Nat) (more : Nat) : Prop :=
  ∃ pointers after,
    Access.Returns (fun fuel => tokenize fuel address place fuel (some 0) (texts address place string delimiters))
      (pointers, after) ∧
    Access.Returns (fun fuel => count fuel (texts address place string delimiters)) (pointers.length + more)

structure Countable (string delimiters : CString) (bound : Nat) : Prop where
  lengths : forall segment, segment ∈ segments delimiters string -> segment.length < 2 ^ 32
  evened : Evened (segments delimiters string)
  few : (tokensOf (segments delimiters string)).length < bound

section Texts

variable {address place : Nat} {string delimiters : CString} {delimiter : UInt8} {char : delimiter ≠ 0}

theorem texts_string : (texts address place string delimiters).Holds address string.bytes :=
  Bytes.beside_left (Bytes.object_holds address string.bytes)

theorem texts_delimiters (apart : Apart address place string delimiters) :
    (texts address place string delimiters).Holds place delimiters.bytes := by
  refine Bytes.beside_right (Bytes.object_holds place delimiters.bytes) (fun j inside => Bytes.object_outside ?_)
  rw [CString.bytes_length] at inside ⊢
  rcases apart with before | behind <;> omega

theorem apart_ne (apart : Apart address place string delimiters) (i j : Nat) (inside : i < string.length)
    (under : j ≤ delimiters.length) : address + i ≠ place + j := by
  rcases apart with before | behind <;> omega

theorem tokenize_texts (nonNull : address ≠ 0) (other : place ≠ 0) (apart : Apart address place string delimiters)
    (fine : Tokenisable delimiters string) {fuel : Nat} (enough : string.length + delimiters.length < fuel) :
    tokenize fuel address place fuel (some 0) (texts address place string delimiters) =
        .ok (starts address (tokensOf (segments delimiters string)),
          terminated (texts address place string delimiters) address (tokensOf (segments delimiters string))) ∧
      Yields (texts address place string delimiters)
        (terminated (texts address place string delimiters) address (tokensOf (segments delimiters string))) address string
        (tokensOf (segments delimiters string)) (starts address (tokensOf (segments delimiters string))) :=
  tokenize_eq other fine texts_string (texts_delimiters apart) nonNull (apart_ne apart) (if_pos rfl) (by omega) (by omega)
    fuel (by omega)

theorem tokenisable_of_returns (nonNull : address ≠ 0) (other : place ≠ 0) (apart : Apart address place string delimiters)
    {result : List Nat × Bytes}
    (returns : Access.Returns
      (fun fuel => tokenize fuel address place fuel (some 0) (texts address place string delimiters)) result) :
    Tokenisable delimiters string := by
  obtain ⟨enough, always⟩ := returns
  exact tokenisable_of_run other texts_string (texts_delimiters apart) nonNull (apart_ne apart) (if_pos rfl) (by omega)
    (by omega) _ (always (max enough (string.length + delimiters.length + 1)) (Nat.le_max_left ..))

theorem clStrcelem_texts (nonNull : address ≠ 0)
    (lengths : forall segment, segment ∈ segments (single delimiter char) string -> segment.length < 2 ^ 32) {fuel : Nat}
    (enough : string.length < fuel) :
    clStrcelem fuel (texts address place string (single delimiter char)) address delimiter =
      .ok (dword (1 + steps (segments (single delimiter char) string))) := by
  rw [clStrcelem, if_neg (Ne.symm nonNull)]
  exact countElements_eq texts_string nonNull lengths enough fuel 1 enough

theorem numberOfArguments_texts (nonNull : address ≠ 0)
    (lengths : forall segment, segment ∈ segments (single 0x20 (by decide)) string -> segment.length < 2 ^ 32) {fuel : Nat}
    (enough : string.length < fuel) :
    numberOfArguments fuel (texts address place string (single 0x20 (by decide))) address =
      (Access.assert (dword (1 + steps (segments (single 0x20 (by decide)) string)) != invalidStringSize)
          "noOfArgs != INVALID_STRING_SIZE" >>=
        fun _ => .ok (dword (dword (1 + steps (segments (single 0x20 (by decide)) string)) + 1))) := by
  rw [numberOfArguments, if_pos (Ne.symm nonNull), clStrcelem_texts nonNull lengths enough]
  rfl

theorem oneMore_eq_ok {count number : Nat} (small : count < 2 ^ 32) (text : String) :
    (Access.assert (count != invalidStringSize) text >>= fun _ => .ok (dword (count + 1))) = .ok (number + 1) ↔
      count = number ∧ number < 2 ^ 32 - 1 := by
  have top : invalidStringSize = 2 ^ 32 - 1 := rfl
  by_cases invalid : count = invalidStringSize
  · rw [invalid, bne_self_eq_false, Access.assert_false, Access.error_bind]
    constructor
    · exact nofun
    · rintro ⟨rfl, less⟩
      omega
  · rw [bne_iff_ne.mpr invalid, Access.assert_true, Access.ok_bind, dword_of_lt (by omega), Except.ok.injEq]
    omega

theorem tokenisable_single : Tokenisable (single delimiter char) string ↔
    forall segment, segment ∈ segments (single delimiter char) string -> segment.length < 2 ^ 32 :=
  ⟨Tokenisable.lengths, fun lengths => ⟨fun _ _ => .inl (show 1 < 2 ^ 32 by decide), lengths⟩⟩

theorem starts_length (address : Nat) (tokens : List (List UInt8)) : (starts address tokens).length = tokens.length := by
  induction tokens generalizing address with
  | nil => rfl
  | cons token rest ih => rw [starts, List.length_cons, List.length_cons, ih]

theorem tokenises_iff (nonNull : address ≠ 0) (other : place ≠ 0) (apart : Apart address place string delimiters) :
    Tokenises address place string delimiters ↔ Tokenisable delimiters string := by
  constructor
  · rintro ⟨pointers, after, returns, _⟩
    exact tokenisable_of_returns nonNull other apart returns
  · intro fine
    exact ⟨_, _, ⟨string.length + delimiters.length + 1, fun fuel enough => (tokenize_texts nonNull other apart fine enough).1⟩,
      (tokenize_texts nonNull other apart fine (Nat.lt_succ_self _)).2⟩

theorem countAgrees_iff (nonNull : address ≠ 0) (other : place ≠ 0) (apart : Apart address place string (single delimiter char))
    {count : Nat -> Bytes -> Access Nat} {more : Nat} {value : Access Nat}
    (counts : (forall segment, segment ∈ segments (single delimiter char) string -> segment.length < 2 ^ 32) ->
      forall fuel, string.length < fuel -> count fuel (texts address place string (single delimiter char)) = value) :
    CountAgrees address place string (single delimiter char) count more ↔
      (forall segment, segment ∈ segments (single delimiter char) string -> segment.length < 2 ^ 32) ∧
        value = .ok ((tokensOf (segments (single delimiter char) string)).length + more) := by
  constructor
  · rintro ⟨pointers, after, tokens, enough, always⟩
    have fine := tokenisable_of_returns nonNull other apart tokens
    have result := tokens.unique (fun fuel more => (tokenize_texts nonNull other apart fine more).1)
    have lengths := tokenisable_single.mp fine
    have same := always (max enough (string.length + 1)) (Nat.le_max_left ..)
    change count _ _ = _ at same
    rw [counts lengths _ (by omega), (Prod.mk.inj result).1, starts_length] at same
    exact ⟨lengths, same⟩
  · rintro ⟨lengths, same⟩
    have fine := tokenisable_single.mpr lengths
    refine ⟨_, _, ⟨string.length + 1 + 1, fun fuel enough => (tokenize_texts nonNull other apart fine enough).1⟩,
      string.length + 1, fun fuel enough => ?_⟩
    change count fuel _ = _
    rw [starts_length, counts lengths fuel enough, same]

end Texts

theorem tokens_counted_iff (string : CString) {address place : Nat} (nonNull : address ≠ 0) (other : place ≠ 0) :
    (forall delimiters, Apart address place string delimiters ->
      (Tokenises address place string delimiters ↔ Tokenisable delimiters string)) ∧
    (forall delimiter char, Apart address place string (single delimiter char) ->
      (CountAgrees address place string (single delimiter char)
          (fun fuel memory => clStrcelem fuel memory address delimiter) 0 ↔
        Countable string (single delimiter char) (2 ^ 32))) ∧
    (Apart address place string (single 0x20 (by decide)) ->
      (CountAgrees address place string (single 0x20 (by decide)) (fun fuel memory => numberOfArguments fuel memory address) 1 ↔
        Countable string (single 0x20 (by decide)) (2 ^ 32 - 1))) := by
  refine ⟨fun delimiters => tokenises_iff nonNull other, fun delimiter char apart => ?_, fun apart => ?_⟩
  · rw [countAgrees_iff nonNull other apart (fun lengths fuel enough => clStrcelem_texts nonNull lengths enough),
      Except.ok.injEq, Nat.add_zero, dword_steps segments_ne_nil]
    exact ⟨fun ⟨lengths, evened, few⟩ => ⟨lengths, evened, few⟩, fun ⟨lengths, evened, few⟩ => ⟨lengths, evened, few⟩⟩
  · rw [countAgrees_iff nonNull other apart (fun lengths fuel enough => numberOfArguments_texts nonNull lengths enough),
      oneMore_eq_ok (dword_lt _), dword_steps segments_ne_nil]
    exact ⟨fun ⟨lengths, ⟨evened, _⟩, few⟩ => ⟨lengths, evened, few⟩,
      fun ⟨lengths, evened, few⟩ => ⟨lengths, ⟨evened, by omega⟩, few⟩⟩

theorem tokens_counted_sample :
    Tokenises 1 8 (.of [0x61, 0x2C, 0x62, 0x2C, 0x2C]) (single 0x2C (by decide)) ∧
    CountAgrees 1 8 (.of [0x61, 0x2C, 0x62, 0x2C, 0x2C]) (single 0x2C (by decide))
      (fun fuel memory => clStrcelem fuel memory 1 0x2C) 0 := by
  have whole : segments (single 0x2C (by decide)) (.of [0x61, 0x2C, 0x62, 0x2C, 0x2C]) = [[0x61], [0x62], [], []] := by
    decide
  have lengths : forall segment, segment ∈ segments (single 0x2C (by decide)) (.of [0x61, 0x2C, 0x62, 0x2C, 0x2C]) ->
      segment.length < 2 ^ 32 := by
    rw [whole]
    decide
  have all := tokens_counted_iff (.of [0x61, 0x2C, 0x62, 0x2C, 0x2C]) (by decide : 1 ≠ 0) (by decide : 8 ≠ 0)
  refine ⟨(all.1 _ (.inl (by decide))).mpr (tokenisable_single.mpr lengths), (all.2.1 _ _ (.inl (by decide))).mpr ⟨lengths, ?_, ?_⟩⟩
  · rw [whole]
    exact .inr ⟨[[0x61], [0x62]], rfl, by decide⟩
  · rw [whole]
    decide

-- "a  b": the calls return three tokens, and two elements are counted, so that a process has three arguments.
theorem tokens_miscounted :
    (tokenize 8 1 8 8 (some 0) (texts 1 8 (.of [0x61, 0x20, 0x20, 0x62]) (single 0x20 (by decide)))).map Prod.fst =
      .ok [1, 3, 4] ∧
    clStrcelem 8 (texts 1 8 (.of [0x61, 0x20, 0x20, 0x62]) (single 0x20 (by decide))) 1 0x20 = .ok 2 ∧
    numberOfArguments 8 (texts 1 8 (.of [0x61, 0x20, 0x20, 0x62]) (single 0x20 (by decide))) 1 = .ok 3 ∧
    ¬ CountAgrees 1 8 (.of [0x61, 0x20, 0x20, 0x62]) (single 0x20 (by decide))
      (fun fuel memory => clStrcelem fuel memory 1 0x20) 0 := by
  have whole : segments (single 0x20 (by decide)) (.of [0x61, 0x20, 0x20, 0x62]) = [[0x61], [], [0x62]] := by decide
  refine ⟨by rfl, by rfl, by rfl, fun agrees => ?_⟩
  have same := ((countAgrees_iff (by decide) (by decide) (.inl (by decide))
    (fun lengths fuel enough => clStrcelem_texts (by decide) lengths enough)).mp agrees).2
  rw [whole] at same
  exact absurd (Except.ok.inj same) (by decide)

end Hal9000
