import Hal9000.CommonLib.Strings
import Hal9000.Lib.Lexicographic

set_option autoImplicit false

namespace Hal9000

open Lib (lexSign)

def statusInvalidParameter1 : Int := 0xE8000011 - 2 ^ 32
def statusInvalidParameter2 : Int := 0xE8000012 - 2 ^ 32
def statusInvalidParameter3 : Int := 0xE8000013 - 2 ^ 32

-- The loops of cl_strcmp and cl_stricmp over the DWORD index i; a char is signed.
def compareFrom (fold : UInt8 -> UInt8) (str1 str2 : CString) : (fuel i : Nat) -> Option Int
  | 0, _ => none
  | fuel + 1, i =>
    if str1.at_ i ≠ 0 ∧ str2.at_ i ≠ 0 then
      if (fold (str1.at_ i)).toInt8 > (fold (str2.at_ i)).toInt8 then some 1
      else if (fold (str1.at_ i)).toInt8 < (fold (str2.at_ i)).toInt8 then some (-1)
      else compareFrom fold str1 str2 fuel (dword (i + 1))
    else if str1.at_ i ≠ 0 then some 1
    else if str2.at_ i ≠ 0 then some (-1)
    else some 0

-- The loops of cl_strncmp and cl_strnicmp, with `remaining` values of i to go.
def compareUpTo (fold : UInt8 -> UInt8) (str1 str2 : CString) : (i remaining : Nat) -> Int
  | _, 0 => 0
  | i, remaining + 1 =>
    if str1.at_ i ≠ 0 ∧ str2.at_ i ≠ 0 then
      if (fold (str1.at_ i)).toInt8 > (fold (str2.at_ i)).toInt8 then 1
      else if (fold (str1.at_ i)).toInt8 < (fold (str2.at_ i)).toInt8 then -1
      else compareUpTo fold str1 str2 (i + 1) remaining
    else if str1.at_ i ≠ 0 then 1
    else -1

-- A NULL pointer is `none`.
def compareWhole (fold : UInt8 -> UInt8) (fuel : Nat) : Option CString -> Option CString -> Option Int
  | none, _ => some statusInvalidParameter1
  | _, none => some statusInvalidParameter2
  | some str1, some str2 => compareFrom fold str1 str2 fuel 0

def compareBounded (fold : UInt8 -> UInt8) (length : Nat) : Option CString -> Option CString -> Int
  | none, _ => statusInvalidParameter1
  | _, none => statusInvalidParameter2
  | some str1, some str2 => if 0 = length then statusInvalidParameter3 else compareUpTo fold str1 str2 0 length

def clStrcmp (fuel : Nat) (str1 str2 : Option CString) : Option Int := compareWhole id fuel str1 str2
def clStricmp (fuel : Nat) (str1 str2 : Option CString) : Option Int := compareWhole tolower fuel str1 str2
def clStrncmp (str1 str2 : Option CString) (length : Nat) : Int := compareBounded id length str1 str2
def clStrnicmp (str1 str2 : Option CString) (length : Nat) : Int := compareBounded tolower length str1 str2

def caseless (c : UInt8) : UInt8 := if 0x41 ≤ c ∧ c ≤ 0x5A then c + 0x20 else c

def key (fold : UInt8 -> UInt8) (chars : List UInt8) : List Int := chars.map (fun c => (fold c).toInt8.toInt)

def Ordered (returns : CString -> CString -> Int -> Prop) (agree : CString -> CString -> Prop)
    (str1 str2 : CString) : Prop :=
  ∃ result swapped, returns str1 str2 result ∧ returns str2 str1 swapped ∧
    (result = 0 ↔ agree str1 str2) ∧ swapped.sign = -result.sign

def Transitive (returns : CString -> CString -> Int -> Prop) : Prop :=
  forall str1 str2 str3 first second third, returns str1 str2 first -> returns str2 str3 second ->
    returns str1 str3 third -> (first ≤ 0 -> second ≤ 0 -> third ≤ 0) ∧ (0 ≤ first -> 0 ≤ second -> 0 ≤ third)

def Endless (fold : UInt8 -> UInt8) (str1 str2 : CString) : Prop :=
  2 ^ 32 ≤ str1.length ∧ 2 ^ 32 ≤ str2.length ∧
    (str1.chars.take (2 ^ 32)).map fold = (str2.chars.take (2 ^ 32)).map fold

section Keys

variable {fold : UInt8 -> UInt8} {a b : List UInt8}

theorem toInt8_toInt_injective {x y : UInt8} (same : x.toInt8.toInt = y.toInt8.toInt) : x = y := by
  have bits : x.toInt8 = y.toInt8 := Int8.toInt_inj.mp same
  simpa using congrArg Int8.toUInt8 bits

theorem key_eq : key fold a = key fold b ↔ a.map fold = b.map fold := by
  have split (chars : List UInt8) : key fold chars = (chars.map fold).map (fun c => c.toInt8.toInt) := by
    rw [key, List.map_map]
    rfl
  rw [split, split]
  exact (List.map_injective_iff.mpr (fun x y same => toInt8_toInt_injective same)).eq_iff

theorem tolower_caseless (c : UInt8) : tolower (caseless c) = tolower c := by
  have all : forall n : Fin 256, tolower (caseless (UInt8.ofFin n)) = tolower (UInt8.ofFin n) := by
    decide +kernel
  exact all c.toFin

theorem tolower_of_caseless (same : a.map caseless = b.map caseless) : a.map tolower = b.map tolower := by
  have through (chars : List UInt8) : chars.map tolower = (chars.map caseless).map tolower := by
    rw [List.map_map]
    exact List.map_congr_left (fun c _ => (tolower_caseless c).symm)
  rw [through, same, ← through]

end Keys

section Loops

variable {fold : UInt8 -> UInt8} {str1 str2 : CString} {i : Nat}

theorem signed_lt {x y : UInt8} : x.toInt8 < y.toInt8 ↔ x.toInt8.toInt < y.toInt8.toInt := Int8.lt_iff_toInt_lt

theorem lexSign_drop (fold : UInt8 -> UInt8) (str1 str2 : CString) (i : Nat) :
    lexSign (key fold (str1.chars.drop i)) (key fold (str2.chars.drop i)) =
      if str1.at_ i ≠ 0 ∧ str2.at_ i ≠ 0 then
        if (fold (str1.at_ i)).toInt8 > (fold (str2.at_ i)).toInt8 then 1
        else if (fold (str1.at_ i)).toInt8 < (fold (str2.at_ i)).toInt8 then -1
        else lexSign (key fold (str1.chars.drop (i + 1))) (key fold (str2.chars.drop (i + 1)))
      else if str1.at_ i ≠ 0 then 1
      else if str2.at_ i ≠ 0 then -1
      else 0 := by
  rcases Nat.lt_or_ge i str1.length with inside1 | over1 <;> rcases Nat.lt_or_ge i str2.length with inside2 | over2
  · obtain ⟨char1, rest1⟩ := drop_at inside1
    obtain ⟨char2, rest2⟩ := drop_at inside2
    rw [rest1, rest2, if_pos ⟨char1, char2⟩]
    simp only [gt_iff_lt, signed_lt]
    rfl
  · obtain ⟨char1, rest1⟩ := drop_at inside1
    obtain ⟨char2, rest2⟩ := drop_end over2
    rw [rest1, rest2, if_neg (fun both => both.2 char2), if_pos char1]
    rfl
  · obtain ⟨char1, rest1⟩ := drop_end over1
    obtain ⟨char2, rest2⟩ := drop_at inside2
    rw [rest1, rest2, if_neg (fun both => both.1 char1), if_neg (not_not_intro char1), if_pos char2]
    rfl
  · obtain ⟨char1, rest1⟩ := drop_end over1
    obtain ⟨char2, rest2⟩ := drop_end over2
    rw [rest1, rest2, if_neg (fun both => both.1 char1), if_neg (not_not_intro char1), if_neg (not_not_intro char2)]
    rfl

theorem same_succ (both : str1.at_ i ≠ 0 ∧ str2.at_ i ≠ 0)
    (notMore : ¬ (fold (str1.at_ i)).toInt8 > (fold (str2.at_ i)).toInt8)
    (notLess : ¬ (fold (str1.at_ i)).toInt8 < (fold (str2.at_ i)).toInt8)
    (same : (str1.chars.take i).map fold = (str2.chars.take i).map fold) :
    i < str1.length ∧ i < str2.length ∧
      (str1.chars.take (i + 1)).map fold = (str2.chars.take (i + 1)).map fold := by
  have inside1 : i < str1.length := Nat.lt_of_not_le (mt CString.at_eq_zero.mpr both.1)
  have inside2 : i < str2.length := Nat.lt_of_not_le (mt CString.at_eq_zero.mpr both.2)
  have equal : fold (str1.at_ i) = fold (str2.at_ i) := by
    rw [gt_iff_lt, signed_lt] at notMore
    rw [signed_lt] at notLess
    exact toInt8_toInt_injective (le_antisymm (not_lt.mp notMore) (not_lt.mp notLess))
  refine ⟨inside1, inside2, ?_⟩
  rw [List.take_add_one, List.take_add_one, CString.chars_getElem? inside1, CString.chars_getElem? inside2,
    List.map_append, List.map_append, same]
  simp [equal]

attribute [local simp] compareFrom in
theorem compareFrom_eq (endless : ¬ Endless fold str1 str2) (fuel i : Nat) (small : i < 2 ^ 32)
    (same : (str1.chars.take i).map fold = (str2.chars.take i).map fold) :
    compareFrom fold str1 str2 fuel i =
        some (lexSign (key fold (str1.chars.drop i)) (key fold (str2.chars.drop i))) ∨
      (compareFrom fold str1 str2 fuel i = none ∧ fuel < 2 ^ 32 - i) := by
  induction fuel generalizing i with
  | zero => exact .inr ⟨rfl, by omega⟩
  | succ fuel ih =>
    rw [compareFrom, lexSign_drop]
    by_cases both : str1.at_ i ≠ 0 ∧ str2.at_ i ≠ 0
    · rw [if_pos both, if_pos both]
      by_cases more : (fold (str1.at_ i)).toInt8 > (fold (str2.at_ i)).toInt8
      · exact .inl (by rw [if_pos more, if_pos more])
      · rw [if_neg more, if_neg more]
        by_cases less : (fold (str1.at_ i)).toInt8 < (fold (str2.at_ i)).toInt8
        · exact .inl (by rw [if_pos less, if_pos less])
        · rw [if_neg less, if_neg less]
          obtain ⟨inside1, inside2, next⟩ := same_succ both more less same
          have below : i + 1 < 2 ^ 32 := by
            by_contra past
            obtain last : i + 1 = 2 ^ 32 := by omega
            rw [last] at next
            exact endless ⟨by omega, by omega, next⟩
          rw [dword_of_lt below]
          rcases ih (i + 1) below next with found | ⟨none_, short⟩
          · exact .inl found
          · exact .inr ⟨none_, by omega⟩
    · rw [if_neg both, if_neg both]
      refine .inl ?_
      by_cases char1 : str1.at_ i ≠ 0
      · rw [if_pos char1, if_pos char1]
      · rw [if_neg char1, if_neg char1]
        by_cases char2 : str2.at_ i ≠ 0
        · rw [if_pos char2, if_pos char2]
        · rw [if_neg char2, if_neg char2]

theorem compareFrom_endless (endless : Endless fold str1 str2) (fuel i : Nat) (small : i < 2 ^ 32) :
    compareFrom fold str1 str2 fuel i = none := by
  obtain ⟨long1, long2, same⟩ := endless
  induction fuel generalizing i with
  | zero => rfl
  | succ fuel ih =>
    have both : str1.at_ i ≠ 0 ∧ str2.at_ i ≠ 0 :=
      ⟨fun zero => absurd (CString.at_eq_zero.mp zero) (by omega),
        fun zero => absurd (CString.at_eq_zero.mp zero) (by omega)⟩
    have equal : fold (str1.at_ i) = fold (str2.at_ i) := by
      have here := congrArg (fun chars => chars[i]?) same
      simp only [List.getElem?_map, List.getElem?_take_of_lt small,
        CString.chars_getElem? (Nat.lt_of_lt_of_le small long1),
        CString.chars_getElem? (Nat.lt_of_lt_of_le small long2), Option.map_some, Option.some.injEq] at here
      exact here
    have still : ¬ (fold (str2.at_ i)).toInt8 < (fold (str2.at_ i)).toInt8 := by
      rw [signed_lt]
      exact lt_irrefl _
    have notMore : ¬ (fold (str2.at_ i)).toInt8 > (fold (str2.at_ i)).toInt8 := still
    rw [compareFrom, if_pos both, equal, if_neg notMore, if_neg still]
    exact ih _ (dword_lt _)

def boundedSign (fold : UInt8 -> UInt8) (a b : List UInt8) (length : Nat) : Int :=
  if (a.take length).map fold = (b.take length).map fold ∧ a.length < length then -1
  else lexSign (key fold (a.take length)) (key fold (b.take length))

theorem boundedSign_cons (fold : UInt8 -> UInt8) (x y : UInt8) (a b : List UInt8) (length : Nat) :
    boundedSign fold (x :: a) (y :: b) (length + 1) =
      if (fold x).toInt8 > (fold y).toInt8 then 1
      else if (fold x).toInt8 < (fold y).toInt8 then -1
      else boundedSign fold a b length := by
  simp only [boundedSign, List.take_succ_cons, List.map_cons, List.length_cons, Nat.add_lt_add_iff_right, key, lexSign,
    List.cons.injEq, gt_iff_lt, signed_lt]
  rcases lt_trichotomy (fold x).toInt8.toInt (fold y).toInt8.toInt with less | same | more
  · have different : fold x ≠ fold y := fun equal => by
      rw [equal] at less
      exact lt_irrefl _ less
    simp [less, less.not_gt, different]
  · have equal := toInt8_toInt_injective same
    simp [equal]
  · have different : fold x ≠ fold y := fun equal => by
      rw [equal] at more
      exact lt_irrefl _ more
    simp [more, different]

attribute [local simp] compareUpTo in
theorem compareUpTo_eq (fold : UInt8 -> UInt8) (str1 str2 : CString) (i remaining : Nat) :
    compareUpTo fold str1 str2 i remaining =
      boundedSign fold (str1.chars.drop i) (str2.chars.drop i) remaining := by
  induction remaining generalizing i with
  | zero => simp [compareUpTo, boundedSign, key, lexSign]
  | succ remaining ih =>
    rw [compareUpTo]
    rcases Nat.lt_or_ge i str1.length with inside1 | over1 <;> rcases Nat.lt_or_ge i str2.length with inside2 | over2
    · obtain ⟨char1, rest1⟩ := drop_at inside1
      obtain ⟨char2, rest2⟩ := drop_at inside2
      rw [if_pos ⟨char1, char2⟩, rest1, rest2, boundedSign_cons, ih]
    · obtain ⟨char1, rest1⟩ := drop_at inside1
      obtain ⟨char2, rest2⟩ := drop_end over2
      rw [if_neg (fun both => both.2 char2), if_pos char1, rest1, rest2]
      simp [boundedSign, key, lexSign]
    · obtain ⟨char1, rest1⟩ := drop_end over1
      obtain ⟨char2, rest2⟩ := drop_at inside2
      rw [if_neg (fun both => both.1 char1), if_neg (not_not_intro char1), rest1, rest2]
      simp [boundedSign, key, lexSign]
    · obtain ⟨char1, rest1⟩ := drop_end over1
      obtain ⟨char2, rest2⟩ := drop_end over2
      rw [if_neg (fun both => both.1 char1), if_neg (not_not_intro char1), rest1, rest2]
      simp [boundedSign]

end Loops

section Orders

variable {fold letters : UInt8 -> UInt8} {str1 str2 : CString} {length : Nat}

def WholeReturns (fold : UInt8 -> UInt8) (str1 str2 : CString) (result : Int) : Prop :=
  ∃ fuel, compareWhole fold fuel (some str1) (some str2) = some result

def BoundedReturns (fold : UInt8 -> UInt8) (length : Nat) (str1 str2 : CString) (result : Int) : Prop :=
  compareBounded fold length (some str1) (some str2) = result

def sign (fold : UInt8 -> UInt8) (str1 str2 : CString) : Int := lexSign (key fold str1.chars) (key fold str2.chars)

attribute [local simp] compareWhole in
theorem wholeReturns_iff {result : Int} :
    WholeReturns fold str1 str2 result ↔ ¬ Endless fold str1 str2 ∧ result = sign fold str1 str2 := by
  constructor
  · rintro ⟨fuel, run⟩
    have ends : ¬ Endless fold str1 str2 := fun endless => by
      rw [compareWhole, compareFrom_endless endless fuel 0 (Nat.two_pow_pos 32)] at run
      cases run
    refine ⟨ends, ?_⟩
    rcases compareFrom_eq ends fuel 0 (Nat.two_pow_pos 32) rfl with found | ⟨none_, _⟩
    · exact Option.some.inj (run.symm.trans found)
    · cases run.symm.trans none_
  · rintro ⟨ends, rfl⟩
    refine ⟨2 ^ 32, ?_⟩
    rcases compareFrom_eq ends (2 ^ 32) 0 (Nat.two_pow_pos 32) rfl with found | ⟨_, short⟩
    · exact found
    · exact absurd short (Nat.lt_irrefl _)

attribute [local simp] compareBounded in
theorem boundedReturns_iff (positive : 0 < length) {result : Int} :
    BoundedReturns fold length str1 str2 result ↔ result = boundedSign fold str1.chars str2.chars length := by
  have run : compareBounded fold length (some str1) (some str2) = boundedSign fold str1.chars str2.chars length := by
    rw [compareBounded, if_neg (Nat.ne_of_lt positive), compareUpTo_eq]
    rfl
  rw [BoundedReturns, run, eq_comm]

theorem Endless.symm (endless : Endless fold str1 str2) : Endless fold str2 str1 :=
  ⟨endless.2.1, endless.1, endless.2.2.symm⟩

theorem sign_swap : sign fold str2 str1 = -sign fold str1 str2 := Lib.lexSign_swap _ _

theorem sign_eq_zero : sign fold str1 str2 = 0 ↔ str1.chars.map fold = str2.chars.map fold := by
  rw [sign, Lib.lexSign_eq_zero, key_eq]

theorem whole_ordered_iff {agree : CString -> CString -> Prop} :
    Ordered (WholeReturns fold) agree str1 str2 ↔
      ¬ Endless fold str1 str2 ∧ (str1.chars.map fold = str2.chars.map fold ↔ agree str1 str2) := by
  constructor
  · rintro ⟨result, swapped, returns, back, zero, _⟩
    obtain ⟨ends, rfl⟩ := wholeReturns_iff.mp returns
    exact ⟨ends, by rw [← zero, sign_eq_zero]⟩
  · rintro ⟨ends, same⟩
    refine ⟨_, _, wholeReturns_iff.mpr ⟨ends, rfl⟩, wholeReturns_iff.mpr ⟨mt Endless.symm ends, rfl⟩, ?_, ?_⟩
    · rw [sign_eq_zero, same]
    · rw [sign_swap, Int.sign_neg]

theorem whole_transitive : Transitive (WholeReturns fold) := by
  intro str1 str2 str3 first second third one two both
  obtain ⟨_, rfl⟩ := wholeReturns_iff.mp one
  obtain ⟨_, rfl⟩ := wholeReturns_iff.mp two
  obtain ⟨_, rfl⟩ := wholeReturns_iff.mp both
  simp only [sign, Lib.lexSign_nonpos, Lib.lexSign_nonneg]
  exact ⟨fun less more => less.trans more, fun more less => less.trans more⟩

def SameParts (fold : UInt8 -> UInt8) (length : Nat) (str1 str2 : CString) : Prop :=
  (str1.chars.take length).map fold = (str2.chars.take length).map fold

theorem SameParts.lengths (same : SameParts fold length str1 str2) : str1.length < length ↔ str2.length < length := by
  have lengths := congrArg List.length same
  rw [List.length_map, List.length_map, List.length_take, List.length_take] at lengths
  change min length str1.length = min length str2.length at lengths
  omega

theorem boundedSign_short (same : SameParts fold length str1 str2) (short : str1.length < length) :
    boundedSign fold str1.chars str2.chars length = -1 := if_pos ⟨same, short⟩

theorem boundedSign_else (fine : SameParts fold length str1 str2 -> length ≤ str1.length) :
    boundedSign fold str1.chars str2.chars length =
      lexSign (key fold (str1.chars.take length)) (key fold (str2.chars.take length)) := by
  refine if_neg (fun both => ?_)
  exact absurd (fine both.1) (Nat.not_le_of_lt both.2)

theorem bounded_ordered_iff (positive : 0 < length) {agree : CString -> CString -> Prop} :
    Ordered (BoundedReturns fold length) agree str1 str2 ↔
      (SameParts fold length str1 str2 -> length ≤ str1.length) ∧ (SameParts fold length str1 str2 ↔ agree str1 str2) := by
  have zero (fine : SameParts fold length str1 str2 -> length ≤ str1.length) :
      boundedSign fold str1.chars str2.chars length = 0 ↔ SameParts fold length str1 str2 := by
    rw [boundedSign_else fine, Lib.lexSign_eq_zero, key_eq]
    rfl
  constructor
  · rintro ⟨result, swapped, returns, back, agrees, negated⟩
    rw [boundedReturns_iff positive] at returns back
    have fine (same : SameParts fold length str1 str2) : length ≤ str1.length := by
      by_contra short
      have short1 : str1.length < length := Nat.lt_of_not_le short
      rw [returns, back, boundedSign_short same short1, boundedSign_short (Eq.symm same) (same.lengths.mp short1)] at negated
      exact absurd negated (by decide)
    refine ⟨fine, ?_⟩
    rw [← agrees, returns, zero fine]
  · rintro ⟨fine, agrees⟩
    have back (same : SameParts fold length str2 str1) : length ≤ str2.length := by
      have enough := fine (Eq.symm same)
      have lengths := same.lengths
      omega
    refine ⟨_, _, (boundedReturns_iff positive).mpr rfl, (boundedReturns_iff positive).mpr rfl, ?_, ?_⟩
    · rw [zero fine, agrees]
    · rw [boundedSign_else fine, boundedSign_else back, Lib.lexSign_swap, Int.sign_neg]

theorem bounded_transitive (positive : 0 < length) : Transitive (BoundedReturns fold length) := by
  intro str1 str2 str3 first second third one two both
  rw [boundedReturns_iff positive] at one two both
  have nonpos (a b : CString) : boundedSign fold a.chars b.chars length ≤ 0 ↔
      key fold (a.chars.take length) ≤ key fold (b.chars.take length) := by
    by_cases short : SameParts fold length a b ∧ a.length < length
    · rw [boundedSign_short short.1 short.2]
      exact iff_of_true (by decide) (le_of_eq (key_eq.mpr short.1))
    · rw [boundedSign_else (fun same => Nat.le_of_not_lt (fun less => short ⟨same, less⟩)), Lib.lexSign_nonpos]
  have nonneg (a b : CString) : 0 ≤ boundedSign fold a.chars b.chars length ↔
      key fold (b.chars.take length) ≤ key fold (a.chars.take length) ∧
        (SameParts fold length a b -> length ≤ a.length) := by
    by_cases short : SameParts fold length a b ∧ a.length < length
    · rw [boundedSign_short short.1 short.2]
      exact iff_of_false (by decide) (fun fine => Nat.not_le_of_lt short.2 (fine.2 short.1))
    · have fine (same : SameParts fold length a b) : length ≤ a.length :=
        Nat.le_of_not_lt (fun less => short ⟨same, less⟩)
      rw [boundedSign_else fine, Lib.lexSign_nonneg]
      exact ⟨fun more => ⟨more, fine⟩, And.left⟩
  rw [one, two, both, nonpos, nonpos, nonpos, nonneg, nonneg, nonneg]
  refine ⟨fun less more => less.trans more, fun more less => ⟨less.1.trans more.1, fun same => ?_⟩⟩
  have between : key fold (str1.chars.take length) = key fold (str2.chars.take length) :=
    le_antisymm ((le_of_eq (key_eq.mpr same)).trans less.1) more.1
  exact more.2 (key_eq.mp between)

end Orders

def Agree (letters : UInt8 -> UInt8) (length : Nat) (str1 str2 : CString) : Prop := SameParts letters length str1 str2

def AgreeWhole (letters : UInt8 -> UInt8) (str1 str2 : CString) : Prop :=
  str1.chars.map letters = str2.chars.map letters

theorem comparisons_ordered_iff (str1 str2 : CString) (length : Nat) (positive : 0 < length) :
    (Ordered (fun a b result => ∃ fuel, clStrcmp fuel (some a) (some b) = some result) (AgreeWhole id) str1 str2 ↔
      ¬ Endless id str1 str2) ∧
    (Ordered (fun a b result => ∃ fuel, clStricmp fuel (some a) (some b) = some result) (AgreeWhole caseless) str1 str2 ↔
      ¬ Endless tolower str1 str2 ∧ (AgreeWhole tolower str1 str2 -> AgreeWhole caseless str1 str2)) ∧
    (Ordered (fun a b result => clStrncmp (some a) (some b) length = result) (Agree id length) str1 str2 ↔
      (Agree id length str1 str2 -> length ≤ str1.length)) ∧
    (Ordered (fun a b result => clStrnicmp (some a) (some b) length = result) (Agree caseless length) str1 str2 ↔
      (Agree tolower length str1 str2 -> length ≤ str1.length ∧ Agree caseless length str1 str2)) ∧
    Transitive (fun a b result => ∃ fuel, clStrcmp fuel (some a) (some b) = some result) ∧
    Transitive (fun a b result => ∃ fuel, clStricmp fuel (some a) (some b) = some result) ∧
    Transitive (fun a b result => clStrncmp (some a) (some b) length = result) ∧
    Transitive (fun a b result => clStrnicmp (some a) (some b) length = result) := by
  have whole : AgreeWhole caseless str1 str2 -> AgreeWhole tolower str1 str2 := tolower_of_caseless
  have bounded : Agree caseless length str1 str2 -> Agree tolower length str1 str2 := tolower_of_caseless
  refine ⟨whole_ordered_iff.trans ?_, whole_ordered_iff.trans ?_, (bounded_ordered_iff positive).trans ?_,
    (bounded_ordered_iff positive).trans ?_, whole_transitive, whole_transitive, bounded_transitive positive,
    bounded_transitive positive⟩
  · exact and_iff_left Iff.rfl
  · exact and_congr_right' ⟨Iff.mp, fun fine => ⟨fine, whole⟩⟩
  · exact and_iff_left Iff.rfl
  · constructor
    · exact fun fine same => ⟨fine.1 same, fine.2.mp same⟩
    · exact fun fine => ⟨fun same => (fine same).1, fun same => (fine same).2, bounded⟩

theorem comparisons_ordered_sample :
    Ordered (fun a b result => clStrncmp (some a) (some b) 1 = result) (Agree id 1) (.of [0x41]) (.of [0x61]) ∧
    Ordered (fun a b result => clStrnicmp (some a) (some b) 1 = result) (Agree caseless 1) (.of [0x41])
      (.of [0x61]) := by
  have all := comparisons_ordered_iff (.of [0x41]) (.of [0x61]) 1 (by decide)
  refine ⟨all.2.2.1.mpr (fun _ => by decide), all.2.2.2.1.mpr (fun _ => ⟨by decide, ?_⟩)⟩
  change ([0x41].take 1).map caseless = ([0x61].take 1).map caseless
  decide

-- Two equal strings that end before the length count as different in either order, and '@' counts as a backquote.
theorem comparisons_unordered :
    clStrncmp (some (.of [0x61])) (some (.of [0x61])) 2 = -1 ∧
    ¬ Ordered (fun a b result => clStrncmp (some a) (some b) 2 = result) (Agree id 2) (.of [0x61])
      (.of [0x61]) ∧
    clStricmp 2 (some (.of [0x40])) (some (.of [0x60])) = some 0 ∧
    ¬ AgreeWhole caseless (.of [0x40]) (.of [0x60]) := by
  have less : clStrncmp (some (.of [0x61])) (some (.of [0x61])) 2 = -1 := by decide
  refine ⟨less, fun ordered => ?_, by decide, fun same => ?_⟩
  · obtain ⟨result, swapped, one, two, _, negated⟩ := ordered
    rw [← one, ← two, less] at negated
    exact absurd negated (by decide)
  · change [0x40].map caseless = [0x60].map caseless at same
    exact absurd same (by decide)

end Hal9000
