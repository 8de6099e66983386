import Hal9000.Storage.AtaDevice
import Mathlib.Data.List.Flatten

set_option autoImplicit false

namespace Hal9000.Storage

def MdlTranslationPair.bytes (pair : MdlTranslationPair) : List Nat := List.range' pair.address pair.numberOfBytes

def PrdEntry.bytes (entry : PrdEntry) : List Nat := List.range' entry.physicalAddress entry.byteCount

structure PrdEntry.Sound (entry : PrdEntry) : Prop where
  nonempty : 0 < entry.byteCount
  small : entry.byteCount < ataDmaPhysicalBoundary
  low : entry.physicalAddress + entry.byteCount ≤ 2 ^ 32
  boundary : entry.physicalAddress / ataDmaPhysicalBoundary =
    (entry.physicalAddress + entry.byteCount - 1) / ataDmaPhysicalBoundary

structure DescribesTransfer (pairs : List MdlTranslationPair) (total : Nat) (entries : List PrdEntry) : Prop where
  bytes : entries.flatMap PrdEntry.bytes = (pairs.flatMap MdlTranslationPair.bytes).take total
  sound : forall entry, entry ∈ entries -> entry.Sound
  last : entries.map PrdEntry.lastEntry = List.replicate (entries.length - 1) false ++ [true]
  length : entries.length ≤ 2 * pairs.length

def PreparesExactly (memory : DmaMemory) (sectorCount : Nat) : Prop :=
  ∃ outcome, ataPrepareDmaTransfer memory sectorCount = .ok outcome ∧
    forall prepared, outcome = (.success, some prepared) ->
      ∃ mdl, memory.mdl (sectorCount * sectorSize) = some mdl ∧
        DescribesTransfer mdl.translations (sectorCount * sectorSize) prepared.entries

def AllValid (pairs : List MdlTranslationPair) : Prop :=
  forall pair, pair ∈ pairs -> ataValidateTranslationPair pair = .success

-- Every run has a part in the transfer, and that part ends below 4 GB.
def Fits : List MdlTranslationPair -> (bytesRemaining : Nat) -> Prop
  | [], _ => True
  | pair :: rest, bytesRemaining =>
    0 < min pair.numberOfBytes bytesRemaining ∧ pair.address + min pair.numberOfBytes bytesRemaining ≤ 2 ^ 32 ∧
      Fits rest (bytesRemaining - min pair.numberOfBytes bytesRemaining)

def Preparable (memory : DmaMemory) (sectorCount : Nat) : Prop :=
  ¬ TooManyRuns memory (sectorCount * sectorSize) ∧
    forall mdl table, memory.mdl (sectorCount * sectorSize) = some mdl ->
      memory.continuousMemory (sizeofPrdEntry * mdl.translations.length * 2) = some table ->
      table.physicalAddress ≤ maxDword -> AllValid mdl.translations ->
      Fits mdl.translations (sectorCount * sectorSize)

section Entries

variable {pair : MdlTranslationPair} {pairs rest : List MdlTranslationPair} {used bytesRemaining : Nat}
variable {entries prdTable : List PrdEntry}

theorem isInSameBoundary_64k {address size : Nat} (positive : 0 < size) (inside : address + size ≤ 2 ^ 64) :
    isInSameBoundary address size ataDmaPhysicalBoundary =
      decide (address / 2 ^ 16 = (address + size - 1) / 2 ^ 16) := by
  have boundary : ataDmaPhysicalBoundary = 2 ^ 16 := rfl
  have last : qword (address + size + (2 ^ 64 - 1)) = address + size - 1 := by
    simp only [qword]
    omega
  rw [isInSameBoundary, last, boundary, alignAddressLower_two_pow _ _ (by omega) (by omega),
    alignAddressLower_two_pow _ _ (by omega) (by omega), Bool.eq_iff_iff, beq_iff_eq, decide_eq_true_iff]
  omega

theorem addressOffset_64k {address : Nat} (bound : address < 2 ^ 64) :
    addressOffset address ataDmaPhysicalBoundary = address % 2 ^ 16 := by
  have mask : ataDmaPhysicalBoundary - 1 = 2 ^ 16 - 1 := rfl
  rw [addressOffset, mask, qword_of_lt bound, Nat.and_two_pow_sub_one_eq_mod]

theorem prdEntries_used (positive : 0 < used) (short : used < 2 ^ 16) (low : pair.address + used ≤ 2 ^ 32) :
    (prdEntries pair used).flatMap PrdEntry.bytes = List.range' pair.address used ∧
      (forall entry, entry ∈ prdEntries pair used -> entry.Sound ∧ entry.lastEntry = false) := by
  have boundary : ataDmaPhysicalBoundary = 2 ^ 16 := rfl
  have address : dword pair.address = pair.address := dword_of_lt (by omega)
  by_cases same : pair.address / 2 ^ 16 = (pair.address + used - 1) / 2 ^ 16
  · have whole : prdEntries pair used =
        [{ physicalAddress := pair.address, byteCount := used, lastEntry := false }] := by
      rw [prdEntries, isInSameBoundary_64k positive (by omega), decide_eq_true same, address]
      rfl
    rw [whole]
    constructor
    next => simp [PrdEntry.bytes]
    next =>
      intro entry member
      obtain rfl := List.mem_singleton.mp member
      exact ⟨⟨positive, short, low, same⟩, rfl⟩
  · have room : 2 ^ 16 - pair.address % 2 ^ 16 < used := by omega
    have cut : word (2 ^ 16 - pair.address % 2 ^ 16) = 2 ^ 16 - pair.address % 2 ^ 16 := by
      simp only [word]
      omega
    have second : dword (pair.address + (2 ^ 16 - pair.address % 2 ^ 16)) =
        pair.address + (2 ^ 16 - pair.address % 2 ^ 16) :=
      dword_of_lt (by omega)
    have count : word (used + 2 ^ 16 - (2 ^ 16 - pair.address % 2 ^ 16)) =
        used - (2 ^ 16 - pair.address % 2 ^ 16) := by
      simp only [word]
      omega
    have split : prdEntries pair used =
        [{ physicalAddress := pair.address
           byteCount := 2 ^ 16 - pair.address % 2 ^ 16
           lastEntry := false },
          { physicalAddress := pair.address + (2 ^ 16 - pair.address % 2 ^ 16)
            byteCount := used - (2 ^ 16 - pair.address % 2 ^ 16)
            lastEntry := false }] := by
      rw [prdEntries, isInSameBoundary_64k positive (by omega), decide_eq_false same,
        addressOffset_64k (by omega), boundary, cut, address]
      simp only [Bool.not_false, if_true, second, count]
    rw [split]
    constructor
    next =>
      have parts : used = 2 ^ 16 - pair.address % 2 ^ 16 + (used - (2 ^ 16 - pair.address % 2 ^ 16)) := by omega
      rw [List.flatMap_cons, List.flatMap_singleton, PrdEntry.bytes, PrdEntry.bytes, List.range'_append_1, ← parts]
    next =>
      intro entry member
      rcases List.mem_cons.mp member with rfl | member
      next => exact ⟨⟨by simp only; omega, by simp only [boundary]; omega, by simp only; omega,
        by simp only [boundary]; omega⟩, rfl⟩
      next =>
        obtain rfl := List.mem_singleton.mp member
        exact ⟨⟨by simp only; omega, by simp only [boundary]; omega, by simp only; omega,
          by simp only [boundary]; omega⟩, rfl⟩

theorem length_prdEntries : (prdEntries pair used).length ≤ 2 := by
  unfold prdEntries
  split <;> simp

theorem prdEntries_ne_nil : prdEntries pair used ≠ [] := by
  unfold prdEntries
  split <;> exact List.cons_ne_nil _ _

theorem prdEntries_unused (bound : pair.address < 2 ^ 32) :
    ∃ entry, entry ∈ prdEntries pair 0 ∧ entry.byteCount = 0 := by
  by_cases same : isInSameBoundary pair.address 0 ataDmaPhysicalBoundary = true
  · rw [prdEntries, same]
    exact ⟨_, List.mem_singleton_self _, rfl⟩
  · rw [prdEntries, Bool.eq_false_iff.mpr same]
    refine ⟨_, List.mem_cons_self, ?_⟩
    have aligned : pair.address % 2 ^ 16 = 0 := by
      by_contra inner
      refine same ?_
      have last : qword (pair.address + 0 + (2 ^ 64 - 1)) = pair.address - 1 := by
        simp only [qword]
        omega
      have boundary : ataDmaPhysicalBoundary = 2 ^ 16 := rfl
      rw [isInSameBoundary, last, boundary, alignAddressLower_two_pow _ _ (by omega) (by omega),
        alignAddressLower_two_pow _ _ (by omega) (by omega), beq_iff_eq]
      omega
    simp only [addressOffset_64k (show pair.address < 2 ^ 64 by omega), aligned]
    rfl

def prdOf : List MdlTranslationPair -> (bytesRemaining : Nat) -> List PrdEntry
  | [], _ => []
  | pair :: rest, bytesRemaining =>
    prdEntries pair (min pair.numberOfBytes bytesRemaining) ++
      prdOf rest (bytesRemaining - min pair.numberOfBytes bytesRemaining)

theorem allValid_cons : AllValid (pair :: rest) ↔ ataValidateTranslationPair pair = .success ∧ AllValid rest := by
  simp [AllValid]

theorem fillPrdTable_valid (valid : AllValid pairs) :
    fillPrdTable pairs bytesRemaining prdTable =
      (.success, bytesRemaining - (pairs.map MdlTranslationPair.numberOfBytes).sum,
        prdTable ++ prdOf pairs bytesRemaining) := by
  induction pairs generalizing bytesRemaining prdTable with
  | nil => simp [fillPrdTable, prdOf]
  | cons pair rest ih =>
    obtain ⟨first, behind⟩ := allValid_cons.mp valid
    have small := ataValidateTranslationPair_len first
    have whole : word (min pair.numberOfBytes bytesRemaining) = min pair.numberOfBytes bytesRemaining :=
      Nat.mod_eq_of_lt (by omega)
    have remaining : bytesRemaining - min pair.numberOfBytes bytesRemaining -
        (rest.map MdlTranslationPair.numberOfBytes).sum =
          bytesRemaining - (pair.numberOfBytes + (rest.map MdlTranslationPair.numberOfBytes).sum) := by
      omega
    simp only [fillPrdTable, first, ne_eq, not_true_eq_false, if_false, whole, ih behind, prdOf, List.append_assoc,
      List.map_cons, List.sum_cons, remaining]

theorem fillPrdTable_success (filled : (fillPrdTable pairs bytesRemaining prdTable).1 = .success) :
    AllValid pairs := by
  induction pairs generalizing bytesRemaining prdTable with
  | nil => simp [AllValid]
  | cons pair rest ih =>
    by_cases valid : ataValidateTranslationPair pair = .success
    · simp only [fillPrdTable, valid, ne_eq, not_true_eq_false, if_false] at filled
      exact allValid_cons.mpr ⟨valid, ih filled⟩
    · simp only [fillPrdTable, ne_eq, valid, not_false_eq_true, if_true] at filled

theorem valid_address (valid : ataValidateTranslationPair pair = .success) : pair.address < 2 ^ 32 := by
  simp only [ataValidateTranslationPair] at valid
  split at valid
  next => cases valid
  next low =>
    simp only [maxDword] at low
    omega

theorem take_bytes_cons : ((pair :: rest).flatMap MdlTranslationPair.bytes).take bytesRemaining =
    List.range' pair.address (min pair.numberOfBytes bytesRemaining) ++
      (rest.flatMap MdlTranslationPair.bytes).take
        (bytesRemaining - min pair.numberOfBytes bytesRemaining) := by
  rw [List.flatMap_cons, List.take_append, MdlTranslationPair.bytes, List.length_range']
  rcases Nat.le_total pair.numberOfBytes bytesRemaining with short | long
  next => rw [Nat.min_eq_left short, List.take_of_length_le (by rwa [List.length_range'])]
  next =>
    rw [Nat.min_eq_right long, List.take_range'_of_length_ge long, Nat.sub_eq_zero_of_le long, Nat.sub_self]

theorem prdOf_bytes (valid : AllValid pairs) (fits : Fits pairs bytesRemaining) :
    (prdOf pairs bytesRemaining).flatMap PrdEntry.bytes =
        (pairs.flatMap MdlTranslationPair.bytes).take bytesRemaining ∧
      forall entry, entry ∈ prdOf pairs bytesRemaining -> entry.Sound ∧ entry.lastEntry = false := by
  induction pairs generalizing bytesRemaining with
  | nil => simp [prdOf]
  | cons pair rest ih =>
    obtain ⟨first, behind⟩ := allValid_cons.mp valid
    obtain ⟨positive, low, fits⟩ := fits
    have small := ataValidateTranslationPair_len first
    obtain ⟨bytes, sound⟩ := @prdEntries_used pair _ positive (by omega) low
    obtain ⟨later, sounder⟩ := ih behind fits
    rw [prdOf, List.flatMap_append, bytes, later, take_bytes_cons]
    refine ⟨rfl, ?_⟩
    intro entry member
    rcases List.mem_append.mp member with member | member
    next => exact sound entry member
    next => exact sounder entry member

theorem length_prdOf : (prdOf pairs bytesRemaining).length ≤ 2 * pairs.length := by
  induction pairs generalizing bytesRemaining with
  | nil => simp [prdOf]
  | cons pair rest ih =>
    have first := @length_prdEntries pair (min pair.numberOfBytes bytesRemaining)
    have later := @ih (bytesRemaining - min pair.numberOfBytes bytesRemaining)
    rw [prdOf, List.length_append, List.length_cons]
    omega

theorem fits_of_bytes (valid : AllValid pairs)
    (bytes : (pairs.flatMap MdlTranslationPair.bytes).take bytesRemaining ⊆ List.range (2 ^ 32))
    (nonempty : forall entry, entry ∈ prdOf pairs bytesRemaining -> entry.byteCount ≠ 0) :
    Fits pairs bytesRemaining := by
  induction pairs generalizing bytesRemaining with
  | nil => trivial
  | cons pair rest ih =>
    obtain ⟨first, behind⟩ := allValid_cons.mp valid
    rw [take_bytes_cons] at bytes
    have positive : 0 < min pair.numberOfBytes bytesRemaining := by
      by_contra none
      have zero : min pair.numberOfBytes bytesRemaining = 0 := by omega
      obtain ⟨entry, member, empty⟩ := @prdEntries_unused pair (valid_address first)
      refine nonempty entry ?_ empty
      rw [prdOf, zero]
      exact List.mem_append_left _ member
    refine ⟨positive, ?_, ih behind ?_ ?_⟩
    next =>
      have byte : pair.address + min pair.numberOfBytes bytesRemaining - 1 ∈
          List.range' pair.address (min pair.numberOfBytes bytesRemaining) :=
        List.mem_range'_1.mpr ⟨by omega, by omega⟩
      have low := List.mem_range.mp (bytes (List.mem_append_left _ byte))
      omega
    next => exact fun byte member => bytes (List.mem_append_right _ member)
    next =>
      intro entry member
      refine nonempty entry ?_
      rw [prdOf]
      exact List.mem_append_right _ member

end Entries

section Last

variable {entries : List PrdEntry}

theorem markLast_bytes : (markLast entries).flatMap PrdEntry.bytes = entries.flatMap PrdEntry.bytes := by
  induction entries with
  | nil => rfl
  | cons entry rest ih =>
    cases rest with
    | nil => rfl
    | cons next rest =>
      rw [markLast, List.flatMap_cons, ih]
      rfl

theorem length_markLast : (markLast entries).length = entries.length := by
  induction entries with
  | nil => rfl
  | cons entry rest ih =>
    cases rest with
    | nil => rfl
    | cons next rest =>
      rw [markLast, List.length_cons, ih]
      rfl

theorem mem_markLast {entry : PrdEntry} (member : entry ∈ markLast entries) :
    ∃ original, original ∈ entries ∧ entry.physicalAddress = original.physicalAddress ∧
      entry.byteCount = original.byteCount := by
  induction entries with
  | nil => cases member
  | cons head rest ih =>
    cases rest with
    | nil =>
      obtain rfl := List.mem_singleton.mp member
      exact ⟨head, List.mem_cons_self, rfl, rfl⟩
    | cons next rest =>
      rcases List.mem_cons.mp member with rfl | later
      next => exact ⟨entry, List.mem_cons_self, rfl, rfl⟩
      next =>
        obtain ⟨original, here, same⟩ := ih later
        exact ⟨original, List.mem_cons_of_mem _ here, same⟩

theorem markLast_mem {entry : PrdEntry} (member : entry ∈ entries) :
    ∃ marked, marked ∈ markLast entries ∧ marked.byteCount = entry.byteCount := by
  induction entries with
  | nil => cases member
  | cons head rest ih =>
    cases rest with
    | nil =>
      obtain rfl := List.mem_singleton.mp member
      exact ⟨_, List.mem_cons_self, rfl⟩
    | cons next rest =>
      rcases List.mem_cons.mp member with rfl | later
      next => exact ⟨entry, List.mem_cons_self, rfl⟩
      next =>
        obtain ⟨marked, here, same⟩ := ih later
        exact ⟨marked, List.mem_cons_of_mem _ here, same⟩

theorem markLast_lastEntry (some_entry : entries ≠ [])
    (unmarked : forall entry, entry ∈ entries -> entry.lastEntry = false) :
    (markLast entries).map PrdEntry.lastEntry = List.replicate (entries.length - 1) false ++ [true] := by
  induction entries with
  | nil => exact absurd rfl some_entry
  | cons entry rest ih =>
    cases rest with
    | nil => rfl
    | cons next rest =>
      have later := ih (List.cons_ne_nil _ _) fun entry member => unmarked entry (List.mem_cons_of_mem _ member)
      rw [markLast, List.map_cons, later, unmarked entry List.mem_cons_self]
      rfl

end Last

section Prepare

variable {memory : DmaMemory} {sectorCount : Nat} {mdl : Mdl (sectorCount * sectorSize)} {table : ContinuousMemory}

theorem ataPrepareDmaTransfer_valid (small : sectorCount < 2 ^ 16)
    (few : ¬ TooManyRuns memory (sectorCount * sectorSize)) (found : memory.mdl (sectorCount * sectorSize) = some mdl)
    (allocated : memory.continuousMemory (sizeofPrdEntry * mdl.translations.length * 2) = some table)
    (low : table.physicalAddress ≤ maxDword) (valid : AllValid mdl.translations) :
    ataPrepareDmaTransfer memory sectorCount = .ok (.success, some
      { prdt := table.address, prdtPa := table.physicalAddress
        entries := markLast (prdOf mdl.translations (sectorCount * sectorSize)) }) := by
  have inside := memory.inside _ _ allocated
  have positive : 0 < mdl.translations.length := List.length_pos_iff.mpr mdl.nonempty
  have counted : (0 != mdl.translations.length) = true := bne_iff_ne.mpr (by omega)
  have runs : mdl.translations.length ≤ 256 := by
    by_contra more
    exact few ⟨mdl, found, by omega, by rw [allocated]; rfl⟩
  have boundary : isInSameBoundary table.address (sizeofPrdEntry * mdl.translations.length * 2) pageSize = true := by
    rw [isInSameBoundary_page table.aligned (by simp only [sizeofPrdEntry]; omega) inside,
      decide_eq_true_iff]
    simp only [sizeofPrdEntry, pageSize]
    omega
  have covered := mdl.covered
  have none : (0 == sectorCount * sectorSize - (mdl.translations.map MdlTranslationPair.numberOfBytes).sum) = true :=
    beq_iff_eq.mpr (by omega)
  have mapped : (0 != table.physicalAddress) = true := bne_iff_ne.mpr table.mapped.symm
  simp only [ataPrepareDmaTransfer, found, allocationSize_eq mdl small, allocated, counted, assert_true,
    Kernel.ok_bind, boundary, fillPrdTable_valid valid, ne_eq, not_true_eq_false, if_false, none, mapped,
    List.nil_append]
  rw [if_neg (by omega)]
  rfl

theorem ataPrepareDmaTransfer_success (small : sectorCount < 2 ^ 16) {prepared : PreparedTransfer}
    (result : ataPrepareDmaTransfer memory sectorCount = .ok (.success, some prepared)) :
    ∃ mdl table, memory.mdl (sectorCount * sectorSize) = some mdl ∧
      memory.continuousMemory (sizeofPrdEntry * mdl.translations.length * 2) = some table ∧
        table.physicalAddress ≤ maxDword ∧ AllValid mdl.translations := by
  cases found : memory.mdl (sectorCount * sectorSize) with
  | none =>
    simp only [ataPrepareDmaTransfer, found] at result
    cases result
  | some mdl =>
    cases allocated : memory.continuousMemory (sizeofPrdEntry * mdl.translations.length * 2) with
    | none =>
      simp only [ataPrepareDmaTransfer, found, allocationSize_eq mdl small, allocated,
        Kernel.assert_bind_eq_ok] at result
      cases result.2
    | some table =>
      refine ⟨mdl, table, rfl, allocated, ?_⟩
      simp only [ataPrepareDmaTransfer, found, allocationSize_eq mdl small, allocated,
        Kernel.assert_bind_eq_ok] at result
      obtain ⟨-, -, result⟩ := result
      by_cases filled : (fillPrdTable mdl.translations (sectorCount * sectorSize) []).1 = .success
      · refine ⟨?_, fillPrdTable_success filled⟩
        simp only [filled, ne_eq, not_true_eq_false, if_false, Kernel.assert_bind_eq_ok] at result
        obtain ⟨-, -, result⟩ := result
        by_contra high
        rw [if_pos (by omega)] at result
        have transfer := congrArg Prod.snd (Except.ok.inj result)
        cases transfer
      · simp only [ne_eq, filled, not_false_eq_true, if_true] at result
        have transfer := congrArg Prod.snd (Except.ok.inj result)
        cases transfer

end Prepare

theorem DescribesTransfer.low {pairs : List MdlTranslationPair} {total : Nat} {entries : List PrdEntry}
    (described : DescribesTransfer pairs total entries) :
    (pairs.flatMap MdlTranslationPair.bytes).take total ⊆ List.range (2 ^ 32) := by
  intro byte member
  rw [← described.bytes] at member
  obtain ⟨entry, here, inside⟩ := List.mem_flatMap.mp member
  have low := (described.sound entry here).low
  have bounds := List.mem_range'_1.mp inside
  rw [List.mem_range]
  omega

theorem describes_iff {pairs : List MdlTranslationPair} {total : Nat} (some_pair : pairs ≠ [])
    (valid : AllValid pairs) : DescribesTransfer pairs total (markLast (prdOf pairs total)) ↔ Fits pairs total := by
  constructor
  next =>
    intro described
    refine fits_of_bytes valid described.low ?_
    intro entry member
    obtain ⟨marked, here, same⟩ := markLast_mem member
    have nonempty := (described.sound marked here).nonempty
    omega
  next =>
    intro fits
    obtain ⟨bytes, sound⟩ := prdOf_bytes valid fits
    have some_entry : prdOf pairs total ≠ [] := by
      cases pairs with
      | nil => exact absurd rfl some_pair
      | cons pair rest =>
        rw [prdOf]
        exact List.append_ne_nil_of_left_ne_nil prdEntries_ne_nil _
    refine ⟨markLast_bytes.trans bytes, ?_, ?_, ?_⟩
    next =>
      intro entry member
      obtain ⟨original, here, address, count⟩ := mem_markLast member
      obtain ⟨nonempty, small, low, boundary⟩ := (sound original here).1
      exact ⟨by omega, by omega, by omega, by rw [address, count]; exact boundary⟩
    next =>
      rw [length_markLast]
      exact markLast_lastEntry some_entry fun entry member => (sound entry member).2
    next =>
      rw [length_markLast]
      exact length_prdOf

theorem prepares_exactly_iff (memory : DmaMemory) (sectorCount : Nat) (small : sectorCount < 2 ^ 16) :
    PreparesExactly memory sectorCount ↔ Preparable memory sectorCount := by
  constructor
  next =>
    rintro ⟨outcome, returned, described⟩
    have few : ¬ TooManyRuns memory (sectorCount * sectorSize) := by
      intro many
      obtain ⟨text, stopped⟩ := ataPrepareDmaTransfer_stops small many
      rw [stopped] at returned
      cases returned
    refine ⟨few, ?_⟩
    intro mdl table found allocated low valid
    have prepared := ataPrepareDmaTransfer_valid small few found allocated low valid
    rw [prepared] at returned
    obtain ⟨mdl', found', described⟩ := described _ (Except.ok.inj returned).symm
    obtain rfl := Option.some.inj (found.symm.trans found')
    exact (describes_iff mdl.nonempty valid).mp described
  next =>
    rintro ⟨few, fits⟩
    obtain ⟨outcome, returned⟩ := ataPrepareDmaTransfer_returns small few
    refine ⟨outcome, returned, ?_⟩
    intro prepared success
    rw [success] at returned
    obtain ⟨mdl, table, found, allocated, low, valid⟩ := ataPrepareDmaTransfer_success small returned
    have same := ataPrepareDmaTransfer_valid small few found allocated low valid
    rw [same] at returned
    obtain rfl := Option.some.inj (congrArg Prod.snd (Except.ok.inj returned))
    exact ⟨mdl, found, (describes_iff mdl.nonempty valid).mpr (fits mdl table found allocated low valid)⟩

def runAt (address : Nat) : DmaMemory where
  mdl byteCount := some
    { translations := [{ address := address, numberOfBytes := byteCount }]
      covered := by simp
      nonempty := List.cons_ne_nil _ _
      bounded := Nat.le_add_left 1 _ }
  continuousMemory allocationSize :=
    if allocationSize ≤ 2 * pageSize then
      some { address := 0x20000, physicalAddress := 0x20000, aligned := rfl, mapped := by decide }
    else none
  inside _ _ found := inside_of_limit (by decide) found

theorem prepares_exactly_run : PreparesExactly (runAt 0xFF00) 2 := by
  refine (prepares_exactly_iff (runAt 0xFF00) 2 (by decide)).mpr ⟨?_, ?_⟩
  next =>
    rintro ⟨mdl, found, many, -⟩
    obtain rfl := Option.some.inj found
    exact absurd many (by decide)
  next =>
    intro mdl table found _ _ _
    obtain rfl := Option.some.inj found
    exact ⟨by decide, by decide, trivial⟩

theorem replicate_covers (byteCount : Nat) :
    byteCount ≤ ((List.replicate (byteCount / pageSize + 1)
      ({ address := 0x10000, numberOfBytes := pageSize } : MdlTranslationPair)).map MdlTranslationPair.numberOfBytes).sum := by
  simp only [List.map_replicate, List.sum_replicate_nat, pageSize]
  omega

def scatteredPages : DmaMemory where
  mdl byteCount := some
    { translations := List.replicate (byteCount / pageSize + 1) { address := 0x10000, numberOfBytes := pageSize }
      covered := replicate_covers byteCount
      nonempty := by simp
      bounded := by simp }
  continuousMemory := (runAt 0).continuousMemory
  inside := (runAt 0).inside

theorem scatteredPages_many {byteCount : Nat} (many : 256 ≤ byteCount / pageSize) (few : byteCount / pageSize < 512) :
    TooManyRuns scatteredPages byteCount := by
  have runs : (List.replicate (byteCount / pageSize + 1)
      ({ address := 0x10000, numberOfBytes := pageSize } : MdlTranslationPair)).length = byteCount / pageSize + 1 :=
    List.length_replicate
  have size : sizeofPrdEntry * (List.replicate (byteCount / pageSize + 1)
      ({ address := 0x10000, numberOfBytes := pageSize } : MdlTranslationPair)).length * 2 ≤ 2 * pageSize := by
    rw [runs]
    simp only [sizeofPrdEntry, pageSize] at few ⊢
    omega
  exact ⟨_, rfl, lt_of_lt_of_eq (Nat.lt_succ_of_le many) runs.symm,
    Option.isSome_iff_exists.mpr ⟨_, if_pos size⟩⟩

-- A run over the end of the first 4 GB goes on at address 0; a buffer in 258 runs fails an ASSERT.
theorem prepares_wrongly : ¬ PreparesExactly (runAt 0xFFFFFE00) 2 ∧ ¬ PreparesExactly scatteredPages 2056 := by
  constructor
  next =>
    rintro ⟨outcome, returned, described⟩
    have few : ¬ TooManyRuns (runAt 0xFFFFFE00) (2 * sectorSize) := by
      rintro ⟨mdl, found, many, -⟩
      obtain rfl := Option.some.inj found
      exact absurd many (by decide)
    have valid : AllValid [{ address := 0xFFFFFE00, numberOfBytes := 2 * sectorSize }] := by
      intro pair member
      obtain rfl := List.mem_singleton.mp member
      decide
    rw [ataPrepareDmaTransfer_valid (by decide) few rfl rfl (by decide) valid] at returned
    obtain ⟨mdl, found, described⟩ := described _ (Except.ok.inj returned).symm
    obtain rfl := Option.some.inj found
    have fits := (describes_iff (List.cons_ne_nil _ _) valid).mp described
    exact absurd fits.2.1 (by decide)
  next =>
    rintro ⟨outcome, returned, -⟩
    have many : TooManyRuns scatteredPages (2056 * sectorSize) := scatteredPages_many (by decide) (by decide)
    obtain ⟨text, stopped⟩ := ataPrepareDmaTransfer_stops (by decide) many
    rw [stopped] at returned
    cases returned

end Hal9000.Storage
