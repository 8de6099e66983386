import Hal9000.CommonLib.Base

set_option autoImplicit false

namespace Hal9000.Storage

inductive Status where
  | success
  | unsuccessful
  | invalidParameter3
  | invalidParameter4
  | heapInsufficientResources
  | deviceNotInitialized
  | deviceSectorOffsetExceeded
  | deviceSectorCountExceeded
  | deviceInvalidOperation
  | deviceDataAlignmentError
  | deviceAlignmentNoSatisfied
  | deviceDmaPhysicalAddressTooHigh
  | deviceDmaPhysicalSpanTooLarge
  deriving DecidableEq, Repr

def sectorSize : Nat := 512

def maxWord : Nat := 0xFFFF

def word (value : Nat) : Nat := value % 2 ^ 16

def wordHigh (value : Nat) : Nat := word value / 2 ^ 8

def wordLow (value : Nat) : Nat := word value % 2 ^ 8

def byteAt (value i : Nat) : Nat := value / 256 ^ i % 256

def isInSameBoundary (addr size alig : Nat) : Bool :=
  alignAddressLower addr alig == alignAddressLower (qword (addr + size + (2 ^ 64 - 1))) alig

def addressOffset (addr alig : Nat) : Nat := qword addr &&& (alig - 1)

namespace AtaRegister

def sectorCount : Nat := 0x2
def lbaLow : Nat := 0x3
def lbaMid : Nat := 0x4
def lbaHigh : Nat := 0x5
def device : Nat := 0x6
def sectorCountHigh : Nat := 0x8
def lbaLowHigh : Nat := 0x9
def lbaMidHigh : Nat := 0xA
def lbaHighHigh : Nat := 0xB
def alternateStatus : Nat := 0xC

end AtaRegister

-- The registers at BaseRegister as the drive keeps them: two bytes deep, the last byte written and
-- the one before it.
structure TaskFile where
  recent : Nat -> Nat
  previous : Nat -> Nat

def TaskFile.write (registers : TaskFile) (port data : Nat) : TaskFile where
  recent i := if i = port then data else registers.recent i
  previous i := if i = port then registers.recent i else registers.previous i

def TaskFile.lba (registers : TaskFile) : Nat :=
  registers.recent 3 + registers.recent 4 * 2 ^ 8 + registers.recent 5 * 2 ^ 16 +
    registers.previous 3 * 2 ^ 24 + registers.previous 4 * 2 ^ 32 + registers.previous 5 * 2 ^ 40

def TaskFile.sectors (registers : TaskFile) : Nat :=
  let count := registers.recent 2 + registers.previous 2 * 2 ^ 8
  if count = 0 then 2 ^ 16 else count

-- The registers from DeviceControl on are at other base addresses; the HOB bit that is set there
-- around a write to one of the high registers only matters to reads.
def ataWriteRegister (registers : TaskFile) (registerOffset data : Nat) : TaskFile :=
  if registerOffset < AtaRegister.sectorCountHigh then registers.write registerOffset data
  else if registerOffset < AtaRegister.alternateStatus then
    registers.write (registerOffset - (AtaRegister.sectorCountHigh - AtaRegister.sectorCount)) data
  else registers

def ataSelectDevice (registers : TaskFile) (slave : Bool) : TaskFile :=
  ataWriteRegister registers AtaRegister.device (2 ^ 6 ||| 2 ^ 4 * slave.toNat)

def ataWriteIoParameters (registers : TaskFile) (lbaAddress sectorCount : Nat) : TaskFile :=
  let registers := ataWriteRegister registers AtaRegister.sectorCountHigh (wordHigh sectorCount)
  let registers := ataWriteRegister registers AtaRegister.lbaHighHigh (byteAt lbaAddress 5)
  let registers := ataWriteRegister registers AtaRegister.lbaMidHigh (byteAt lbaAddress 4)
  let registers := ataWriteRegister registers AtaRegister.lbaLowHigh (byteAt lbaAddress 3)
  let registers := ataWriteRegister registers AtaRegister.sectorCount (wordLow sectorCount)
  let registers := ataWriteRegister registers AtaRegister.lbaHigh (byteAt lbaAddress 2)
  let registers := ataWriteRegister registers AtaRegister.lbaMid (byteAt lbaAddress 1)
  ataWriteRegister registers AtaRegister.lbaLow (byteAt lbaAddress 0)

inductive AtaTransferState where
  | free
  | inProgress
  | finished
  deriving DecidableEq, Repr

structure AtaDevice where
  registers : TaskFile
  totalSectors : Nat
  slave : Bool
  initialized : Bool
  transferState : AtaTransferState
  prdt : Option Nat

structure MdlTranslationPair where
  address : Nat
  numberOfBytes : Nat
  deriving DecidableEq, Repr

structure Mdl (byteCount : Nat) where
  translations : List MdlTranslationPair
  covered : byteCount ≤ (translations.map MdlTranslationPair.numberOfBytes).sum
  nonempty : translations ≠ []
  bounded : translations.length ≤ byteCount / pageSize + 2

structure ContinuousMemory where
  address : Nat
  physicalAddress : Nat
  aligned : address % pageSize = 0
  mapped : physicalAddress ≠ 0

structure DmaMemory where
  mdl : (byteCount : Nat) -> Option (Mdl byteCount)
  continuousMemory : Nat -> Option ContinuousMemory
  inside : forall allocationSize table, continuousMemory allocationSize = some table ->
    table.address + allocationSize ≤ 2 ^ 64

theorem inside_of_limit {table found : ContinuousMemory} {limit allocationSize : Nat} (fits : table.address + limit ≤ 2 ^ 64)
    (allocated : (if allocationSize ≤ limit then some table else none) = some found) :
    found.address + allocationSize ≤ 2 ^ 64 := by
  split at allocated
  next small =>
    obtain rfl := Option.some.inj allocated
    omega
  next => cases allocated

structure PrdEntry where
  physicalAddress : Nat
  byteCount : Nat
  lastEntry : Bool
  deriving DecidableEq, Repr

def sizeofPrdEntry : Nat := 8

def ataDmaMaxPhysicalLen : Nat := 64 * 1024 - 1

def ataDmaPhysicalBoundary : Nat := 64 * 1024

def ataDmaAlignment : Nat := 4

def ataValidateTranslationPair (translationPair : MdlTranslationPair) : Status :=
  if translationPair.address > maxDword then .deviceDmaPhysicalAddressTooHigh
  else if !isAddressAligned translationPair.address ataDmaAlignment then .deviceDataAlignmentError
  else if translationPair.numberOfBytes > ataDmaMaxPhysicalLen then .deviceDmaPhysicalSpanTooLarge
  else if !isAddressAligned translationPair.numberOfBytes ataDmaAlignment then .deviceDataAlignmentError
  else .success

def prdEntries (pair : MdlTranslationPair) (byteCountForPrd : Nat) : List PrdEntry :=
  if !isInSameBoundary pair.address byteCountForPrd ataDmaPhysicalBoundary then
    let byteCountForAlignment :=
      word (ataDmaPhysicalBoundary - addressOffset pair.address ataDmaPhysicalBoundary)
    [{ physicalAddress := dword pair.address, byteCount := byteCountForAlignment, lastEntry := false },
      { physicalAddress := dword (dword pair.address + byteCountForAlignment)
        byteCount := word (byteCountForPrd + 2 ^ 16 - byteCountForAlignment), lastEntry := false }]
  else
    [{ physicalAddress := dword pair.address, byteCount := byteCountForPrd, lastEntry := false }]

def fillPrdTable : List MdlTranslationPair -> (bytesRemaining : Nat) -> List PrdEntry ->
    Status × Nat × List PrdEntry
  | [], bytesRemaining, prdTable => (.success, bytesRemaining, prdTable)
  | pair :: rest, bytesRemaining, prdTable =>
    let status := ataValidateTranslationPair pair
    if status ≠ .success then (status, bytesRemaining, prdTable)
    else
      let byteCountForPrd := word (min pair.numberOfBytes bytesRemaining)
      fillPrdTable rest (bytesRemaining - byteCountForPrd) (prdTable ++ prdEntries pair byteCountForPrd)

def markLast : List PrdEntry -> List PrdEntry
  | [] => []
  | [entry] => [{ entry with lastEntry := true }]
  | entry :: next :: rest => entry :: markLast (next :: rest)

structure PreparedTransfer where
  prdt : Nat
  prdtPa : Nat
  entries : List PrdEntry
  deriving DecidableEq, Repr

def ataPrepareDmaTransfer (memory : DmaMemory) (sectorCount : Nat) :
    Kernel (Status × Option PreparedTransfer) := do
  let byteCount := sectorCount * sectorSize
  match memory.mdl byteCount with
  | none => pure (.unsuccessful, none)
  | some mdl =>
    let noOfMdlTranslationEntries := mdl.translations.length
    assert (0 != noOfMdlTranslationEntries) "0 != noOfMdlTranslationEntries"
    let allocationSize := dword (sizeofPrdEntry * noOfMdlTranslationEntries * 2)
    match memory.continuousMemory allocationSize with
    | none => pure (.heapInsufficientResources, none)
    | some table =>
      assert (isInSameBoundary table.address allocationSize pageSize)
        "IsInSameBoundary(prdTable, allocationSize, PAGE_SIZE)"
      let (status, bytesRemaining, entries) := fillPrdTable mdl.translations byteCount []
      if status ≠ .success then pure (status, none)
      else do
        assert (0 == bytesRemaining) "0 == bytesRemaining"
        assert (0 != table.physicalAddress) "NULL != prdtPa"
        if table.physicalAddress > maxDword then pure (.deviceDmaPhysicalAddressTooHigh, none)
        else pure (.success, some
          { prdt := table.address, prdtPa := table.physicalAddress, entries := markLast entries })

theorem ataWriteIoParameters_lba (registers : TaskFile) {lbaAddress : Nat} (sectorCount : Nat)
    (small : lbaAddress < 2 ^ 48) : (ataWriteIoParameters registers lbaAddress sectorCount).lba = lbaAddress := by
  have bytes : (ataWriteIoParameters registers lbaAddress sectorCount).lba =
      byteAt lbaAddress 0 + byteAt lbaAddress 1 * 2 ^ 8 + byteAt lbaAddress 2 * 2 ^ 16 +
        byteAt lbaAddress 3 * 2 ^ 24 + byteAt lbaAddress 4 * 2 ^ 32 + byteAt lbaAddress 5 * 2 ^ 40 := rfl
  rw [bytes]
  simp only [byteAt]
  omega

theorem ataWriteIoParameters_sectors (registers : TaskFile) (lbaAddress : Nat) {sectorCount : Nat}
    (positive : 0 < sectorCount) (small : sectorCount < 2 ^ 16) :
    (ataWriteIoParameters registers lbaAddress sectorCount).sectors = sectorCount := by
  have count : wordLow sectorCount + wordHigh sectorCount * 2 ^ 8 = sectorCount := by
    simp only [wordLow, wordHigh, word]
    omega
  have written : (ataWriteIoParameters registers lbaAddress sectorCount).sectors =
      if wordLow sectorCount + wordHigh sectorCount * 2 ^ 8 = 0 then 2 ^ 16
      else wordLow sectorCount + wordHigh sectorCount * 2 ^ 8 := rfl
  rw [written, count, if_neg (by omega)]

theorem ataValidateTranslationPair_len {pair : MdlTranslationPair}
    (valid : ataValidateTranslationPair pair = .success) : pair.numberOfBytes < 2 ^ 16 := by
  simp only [ataValidateTranslationPair] at valid
  split at valid
  · cases valid
  split at valid
  · cases valid
  split at valid
  · cases valid
  · rename_i short
    simp only [ataDmaMaxPhysicalLen] at short
    omega

theorem fillPrdTable_remaining {pairs : List MdlTranslationPair} {bytesRemaining : Nat} {prdTable : List PrdEntry}
    (filled : (fillPrdTable pairs bytesRemaining prdTable).1 = .success) :
    (fillPrdTable pairs bytesRemaining prdTable).2.1 =
      bytesRemaining - (pairs.map MdlTranslationPair.numberOfBytes).sum := by
  induction pairs generalizing bytesRemaining prdTable with
  | nil => simp [fillPrdTable]
  | cons pair rest ih =>
    by_cases valid : ataValidateTranslationPair pair = .success
    · have small := ataValidateTranslationPair_len valid
      have whole : word (min pair.numberOfBytes bytesRemaining) = min pair.numberOfBytes bytesRemaining :=
        Nat.mod_eq_of_lt (by omega)
      simp only [fillPrdTable, valid, ne_eq, not_true_eq_false, if_false, whole] at filled ⊢
      rw [ih filled, List.map_cons, List.sum_cons]
      omega
    · simp only [fillPrdTable, ne_eq, valid, not_false_eq_true, if_true] at filled

-- Memory for the table starts on a page, so what is larger than a page crosses a boundary.
theorem isInSameBoundary_page {address size : Nat} (aligned : address % pageSize = 0) (positive : 0 < size)
    (inside : address + size ≤ 2 ^ 64) : isInSameBoundary address size pageSize = decide (size ≤ pageSize) := by
  have page : pageSize = 2 ^ 12 := rfl
  have last : qword (address + size + (2 ^ 64 - 1)) = address + size - 1 := by
    simp only [qword]
    omega
  rw [isInSameBoundary, last, page, alignAddressLower_two_pow _ _ (by omega) (by omega),
    alignAddressLower_two_pow _ _ (by omega) (by omega)]
  rw [page] at aligned
  rw [Bool.eq_iff_iff, beq_iff_eq, decide_eq_true_iff]
  omega

def TooManyRuns (memory : DmaMemory) (byteCount : Nat) : Prop :=
  ∃ mdl, memory.mdl byteCount = some mdl ∧ 256 < mdl.translations.length ∧
    (memory.continuousMemory (sizeofPrdEntry * mdl.translations.length * 2)).isSome = true

theorem allocationSize_eq {sectorCount : Nat} (mdl : Mdl (sectorCount * sectorSize)) (small : sectorCount < 2 ^ 16) :
    dword (sizeofPrdEntry * mdl.translations.length * 2) = sizeofPrdEntry * mdl.translations.length * 2 := by
  have bounded := mdl.bounded
  simp only [sectorSize, pageSize] at bounded
  simp only [sizeofPrdEntry]
  exact dword_of_lt (by omega)

theorem ataPrepareDmaTransfer_stops {memory : DmaMemory} {sectorCount : Nat} (small : sectorCount < 2 ^ 16)
    (many : TooManyRuns memory (sectorCount * sectorSize)) :
    ∃ text, ataPrepareDmaTransfer memory sectorCount = .error text := by
  obtain ⟨mdl, described, runs, allocated⟩ := many
  obtain ⟨table, allocated⟩ := Option.isSome_iff_exists.mp allocated
  have inside := memory.inside _ _ allocated
  have counted : (0 != mdl.translations.length) = true := bne_iff_ne.mpr (by omega)
  have boundary : isInSameBoundary table.address (sizeofPrdEntry * mdl.translations.length * 2) pageSize = false := by
    rw [isInSameBoundary_page table.aligned (by simp only [sizeofPrdEntry]; omega) inside,
      decide_eq_false_iff_not]
    simp only [sizeofPrdEntry, pageSize]
    omega
  simp only [ataPrepareDmaTransfer, described, allocationSize_eq mdl small, allocated, counted, assert_true,
    Kernel.ok_bind, boundary, assert_false, Kernel.error_bind]
  exact ⟨_, rfl⟩

theorem ataPrepareDmaTransfer_returns {memory : DmaMemory} {sectorCount : Nat} (small : sectorCount < 2 ^ 16)
    (few : ¬ TooManyRuns memory (sectorCount * sectorSize)) :
    ∃ outcome, ataPrepareDmaTransfer memory sectorCount = .ok outcome := by
  cases described : memory.mdl (sectorCount * sectorSize) with
  | none =>
    refine ⟨(.unsuccessful, none), ?_⟩
    simp only [ataPrepareDmaTransfer, described]
    rfl
  | some mdl =>
  have counted : (0 != mdl.translations.length) = true :=
    bne_iff_ne.mpr (Ne.symm (mt List.length_eq_zero_iff.mp mdl.nonempty))
  have positive : 0 < mdl.translations.length := List.length_pos_iff.mpr mdl.nonempty
  cases allocated : memory.continuousMemory (sizeofPrdEntry * mdl.translations.length * 2) with
  | none =>
    refine ⟨(.heapInsufficientResources, none), ?_⟩
    simp only [ataPrepareDmaTransfer, described, allocationSize_eq mdl small, allocated, counted, assert_true,
      Kernel.ok_bind]
    rfl
  | some table =>
  have inside := memory.inside _ _ allocated
  have runs : mdl.translations.length ≤ 256 := by
    by_contra more
    exact few ⟨mdl, described, by omega, by rw [allocated]; rfl⟩
  have boundary : isInSameBoundary table.address (sizeofPrdEntry * mdl.translations.length * 2) pageSize = true := by
    rw [isInSameBoundary_page table.aligned (by simp only [sizeofPrdEntry]; omega) inside,
      decide_eq_true_iff]
    simp only [sizeofPrdEntry, pageSize]
    omega
  simp only [ataPrepareDmaTransfer, described, allocationSize_eq mdl small, allocated, counted, assert_true,
    Kernel.ok_bind, boundary]
  by_cases filled : (fillPrdTable mdl.translations (sectorCount * sectorSize) []).1 = .success
  · have remaining := fillPrdTable_remaining filled
    have covered := mdl.covered
    have none : (0 == (fillPrdTable mdl.translations (sectorCount * sectorSize) []).2.1) = true :=
      beq_iff_eq.mpr (by omega)
    have mapped : (0 != table.physicalAddress) = true := bne_iff_ne.mpr table.mapped.symm
    simp only [filled, ne_eq, not_true_eq_false, if_false, none, mapped, assert_true, Kernel.ok_bind]
    split
    · exact ⟨_, rfl⟩
    · exact ⟨_, rfl⟩
  · simp only [ne_eq, filled, not_false_eq_true, if_true]
    exact ⟨_, rfl⟩

end Hal9000.Storage
