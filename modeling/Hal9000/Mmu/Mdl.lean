import Hal9000.Lib.Extents
import Hal9000.Mmu.PagingTables

set_option autoImplicit false

namespace Hal9000.Mmu

open Lib

structure MdlTranslationPair where
  address : Nat
  numberOfBytes : Nat
  deriving DecidableEq, Repr

structure Mdl where
  startVa : Nat
  byteCount : Nat
  byteOffset : Nat
  numberOfTranslationPairs : Nat
  translations : List MdlTranslationPair
  mdlSize : Nat
  deriving DecidableEq, Repr

def sizeofMdl : Nat := 24
def sizeofMdlTranslationPair : Nat := 16

-- Of `Cr3` and `PagingData` exactly one is given; the second says whether it is the kernel's.
inductive AddressSpace where
  | cr3
  | pagingData (kernelSpace : Bool)
  deriving DecidableEq, Repr

def AddressSpace.kernelMemory : AddressSpace -> Bool
  | .cr3 => true
  | .pagingData kernelSpace => kernelSpace

-- AlignAddressUpper(Length + alignmentDifferences, PAGE_SIZE), a sum and a result of DWORDs.
def mdlAlignedSize (virtualAddress length : Nat) : Nat :=
  dword (alignAddressUpper (dword (length + dword (addressOffset virtualAddress pageSize))) pageSize)

-- The loop of MmuProbeMemory; a page that cannot be read in the active address space is a page fault.
def probePages (readable : Nat -> Bool) (buffer : Nat) : List Nat -> Kernel Unit
  | [] => pure ()
  | offset :: rest =>
    if readable (ptrOffset buffer offset) then probePages readable buffer rest else throw "page fault"

def mmuProbeMemory (readable : Nat -> Bool) (buffer numberOfBytes : Nat) : Kernel Unit := do
  assert (0 != buffer) "NULL != Buffer"
  assert (0 != numberOfBytes) "0 != NumberOfBytes"
  probePages readable (alignAddressLower buffer pageSize) (pageOffsets (mdlAlignedSize buffer numberOfBytes))

-- The first pass, over the offsets from PAGE_SIZE on.
def countPairs (tables : PagingTables) (alignedAddress : Nat) (current : MdlTranslationPair) (noOfPairs : Nat) :
    List Nat -> Kernel Nat
  | [] => pure noOfPairs
  | offset :: rest => do
    let pa <- mmuGetPhysicalAddressEx tables (ptrOffset alignedAddress offset)
    assert (0 != pa) "NULL != pa"
    if ptrOffset current.address current.numberOfBytes = pa then
      countPairs tables alignedAddress
        { current with numberOfBytes := dword (current.numberOfBytes + pageSize) } noOfPairs rest
    else
      countPairs tables alignedAddress { address := pa, numberOfBytes := pageSize } (dword (noOfPairs + 1)) rest

def fillPairs (tables : PagingTables) (alignedAddress : Nat) (current : MdlTranslationPair) :
    List Nat -> Kernel (List MdlTranslationPair)
  | [] => pure [current]
  | offset :: rest => do
    let pa <- mmuGetPhysicalAddressEx tables (ptrOffset alignedAddress offset)
    assert (0 != pa) "NULL != pa"
    if ptrOffset current.address current.numberOfBytes = pa then
      fillPairs tables alignedAddress
        { current with numberOfBytes := dword (current.numberOfBytes + pageSize) } rest
    else do
      let later <- fillPairs tables alignedAddress { address := pa, numberOfBytes := pageSize } rest
      pure (current :: later)

-- MdlAllocateEx from the allocation on; `allocated` is whether the pool has room for the list.
def mdlFill (tables : PagingTables) (allocated : Bool) (virtualAddress length noOfPairs : Nat) :
    Kernel (Option Mdl) := do
  let alignedAddress := alignAddressLower virtualAddress pageSize
  let alignmentDifferences := dword (addressOffset virtualAddress pageSize)
  let mdlSize := dword (sizeofMdl + sizeofMdlTranslationPair * noOfPairs)
  if !allocated then pure none
  else do
    let address <- mmuGetPhysicalAddressEx tables virtualAddress
    assert (address != 0) "mdlCurPair.Address != NULL"
    let first := { address := address, numberOfBytes := dword (pageSize - alignmentDifferences) }
    let translations <- fillPairs tables alignedAddress first (pageOffsets (mdlAlignedSize virtualAddress length)).tail
    let indexInMdlArray := dword translations.length
    assert (indexInMdlArray == noOfPairs) "indexInMdlArray == noOfPairs"
    pure (some
      { startVa := alignedAddress
        byteCount := length
        byteOffset := alignmentDifferences
        numberOfTranslationPairs := indexInMdlArray
        translations := translations
        mdlSize := mdlSize })

-- MdlAllocateEx behind the probe.
def mdlDescribe (tables : PagingTables) (space : AddressSpace) (allocated : Bool) (virtualAddress length : Nat) :
    Kernel (Option Mdl) := do
  let alignedAddress := alignAddressLower virtualAddress pageSize
  let alignmentDifferences := dword (addressOffset virtualAddress pageSize)
  let address <- mmuGetPhysicalAddressEx tables virtualAddress
  if address = 0 then do
    assert (!space.kernelMemory) "!bKernelMemory"
    pure none
  else do
    let first := { address := address, numberOfBytes := dword (pageSize - alignmentDifferences) }
    let noOfPairs <- countPairs tables alignedAddress first 1
      (pageOffsets (mdlAlignedSize virtualAddress length)).tail
    mdlFill tables allocated virtualAddress length noOfPairs

def mdlAllocateEx (tables : PagingTables) (space : AddressSpace) (readable : Nat -> Bool) (allocated : Bool)
    (virtualAddress length : Nat) : Kernel (Option Mdl) := do
  assert (0 != virtualAddress) "NULL != VirtualAddress"
  assert (0 != length) "0 != Length"
  if space.kernelMemory then mmuProbeMemory readable virtualAddress length
  mdlDescribe tables space allocated virtualAddress length

def bufferPages (virtualAddress length : Nat) : Nat :=
  (virtualAddress % pageSize + length + (pageSize - 1)) / pageSize

def bufferPage (virtualAddress page : Nat) : Nat :=
  qword (virtualAddress / pageSize * pageSize + page * pageSize)

def MdlTranslationPair.extent (pair : MdlTranslationPair) : Extent :=
  { start := pair.address, length := pair.numberOfBytes }

structure Mdl.Describes (mdl : Mdl) (tables : PagingTables) (virtualAddress length : Nat) : Prop where
  bytes : ((mdl.translations.map MdlTranslationPair.extent).flatMap Extent.units).map some =
    (List.range (bufferPages virtualAddress length * pageSize - virtualAddress % pageSize)).map
      (fun i => tables.translate (qword (virtualAddress + i)))
  apart : (mdl.translations.map MdlTranslationPair.extent).IsChain (fun first second => ¬ first.Joins second)
  counted : mdl.numberOfTranslationPairs = mdl.translations.length
  room : mdl.mdlSize = sizeofMdl + sizeofMdlTranslationPair * mdl.translations.length

def AllMapped (tables : PagingTables) (virtualAddress length : Nat) : Prop :=
  forall page, page < bufferPages virtualAddress length ->
    (tables.translate (bufferPage virtualAddress page)).isSome = true

structure MdlSound (tables : PagingTables) (space : AddressSpace) (virtualAddress length : Nat) : Prop where
  describes : forall readable allocated mdl,
    mdlAllocateEx tables space readable allocated virtualAddress length = .ok (some mdl) ->
    mdl.Describes tables virtualAddress length
  refuses : space.kernelMemory = false -> ¬ AllMapped tables virtualAddress length ->
    forall readable allocated, mdlAllocateEx tables space readable allocated virtualAddress length = .ok none

-- The kernel's look-up accepts the address, and whether its answer is NULL.
def PagingTables.Accepts (tables : PagingTables) (virtualAddress : Nat) : Prop :=
  pageSize ≤ virtualAddress ∧ ¬ tables.Refused virtualAddress

def PagingTables.LooksNull (tables : PagingTables) (virtualAddress : Nat) : Prop :=
  (tables.translate virtualAddress).getD (virtualAddress % pageSize) = 0

instance (tables : PagingTables) (virtualAddress : Nat) : Decidable (tables.LooksNull virtualAddress) :=
  inferInstanceAs (Decidable (_ = _))

-- No look-up after the first one stops the call; beyond 2^32 - PAGE_SIZE bytes only the first is made.
def WalksThrough (tables : PagingTables) (virtualAddress length : Nat) : Prop :=
  virtualAddress % pageSize + length ≤ 2 ^ 32 - pageSize ->
    forall page, 0 < page -> page < bufferPages virtualAddress length ->
      tables.Accepts (bufferPage virtualAddress page) ∧ ¬ tables.LooksNull (bufferPage virtualAddress page)

-- Either the first look-up answers NULL and that is the result, or a user buffer is mapped as a whole, and a call
-- that makes a list has the first page mapped and no size that wraps around a DWORD.
def Describable (tables : PagingTables) (space : AddressSpace) (virtualAddress length : Nat) : Prop :=
  tables.Accepts virtualAddress ∧ tables.LooksNull virtualAddress ∨
    (space.kernelMemory = false -> AllMapped tables virtualAddress length) ∧
      (tables.Accepts virtualAddress -> ¬ tables.LooksNull virtualAddress ->
        WalksThrough tables virtualAddress length ->
        virtualAddress % pageSize + length ≤ 2 ^ 32 - pageSize ∧
          (tables.translate virtualAddress).isSome = true)

section LookUp

variable {tables : PagingTables} {virtualAddress : Nat}

theorem lookUp_accepted (bound : virtualAddress < 2 ^ 64) (accepts : tables.Accepts virtualAddress) :
    mmuGetPhysicalAddressEx tables virtualAddress =
      .ok ((tables.translate virtualAddress).getD (virtualAddress % pageSize)) := by
  have high : ¬ virtualAddress < pageSize := Nat.not_lt.mpr accepts.1
  have nonNull : virtualAddress ≠ 0 := by
    have least := accepts.1
    unfold pageSize at least
    omega
  rw [mmuGetPhysicalAddressEx_eq bound, if_neg nonNull, if_neg high, if_neg accepts.2]

theorem lookUp_refused (bound : virtualAddress < 2 ^ 64) (refused : ¬ tables.Accepts virtualAddress) :
    mmuGetPhysicalAddressEx tables virtualAddress = .ok 0 ∧ virtualAddress = 0 ∨
      ∃ text, mmuGetPhysicalAddressEx tables virtualAddress = .error text := by
  rw [mmuGetPhysicalAddressEx_eq bound]
  by_cases null : virtualAddress = 0
  · exact .inl ⟨if_pos null, null⟩
  rw [if_neg null]
  by_cases low : virtualAddress < pageSize
  · exact .inr ⟨_, if_pos low⟩
  rw [if_neg low]
  have rejected : tables.Refused virtualAddress := by
    by_contra accepted
    exact refused ⟨Nat.le_of_not_lt low, accepted⟩
  exact .inr ⟨_, if_pos rejected⟩

theorem resolved_lt : (tables.translate virtualAddress).getD (virtualAddress % pageSize) < 2 ^ 54 := by
  cases mapped : tables.translate virtualAddress with
  | none =>
    have small : virtualAddress % pageSize < pageSize := Nat.mod_lt _ (by decide)
    simp only [Option.getD_none, pageSize] at small ⊢
    omega
  | some pa =>
    have small := translate_lt mapped
    simp only [Option.getD_some]
    omega

end LookUp

section Passes

variable {tables : PagingTables} {alignedAddress : Nat} {offsets : List Nat}

def Resolves (tables : PagingTables) (alignedAddress : Nat) (offsets : List Nat) : Prop :=
  forall offset, offset ∈ offsets -> tables.Accepts (ptrOffset alignedAddress offset) ∧
    ¬ tables.LooksNull (ptrOffset alignedAddress offset)

def pageExtent (tables : PagingTables) (alignedAddress offset : Nat) : Extent :=
  { start := (tables.translate (ptrOffset alignedAddress offset)).getD (ptrOffset alignedAddress offset % pageSize)
    length := pageSize }

def pairOf (extent : Extent) : MdlTranslationPair :=
  { address := extent.start, numberOfBytes := extent.length }

theorem passes_eq (resolves : Resolves tables alignedAddress offsets) (current : MdlTranslationPair)
    (noOfPairs : Nat) (low : current.address < 2 ^ 54)
    (short : current.numberOfBytes + pageSize * offsets.length < 2 ^ 32)
    (few : noOfPairs + offsets.length < 2 ^ 32) :
    fillPairs tables alignedAddress current offsets =
        .ok ((current.extent.coalesce (offsets.map (pageExtent tables alignedAddress))).map pairOf) ∧
      countPairs tables alignedAddress current noOfPairs offsets =
        .ok (noOfPairs + (current.extent.coalesce (offsets.map (pageExtent tables alignedAddress))).length - 1) := by
  induction offsets generalizing current noOfPairs with
  | nil => exact ⟨rfl, rfl⟩
  | cons offset rest ih =>
    obtain ⟨accepts, found⟩ := resolves offset (List.mem_cons_self)
    have later : Resolves tables alignedAddress rest := fun other member => resolves other (List.mem_cons_of_mem _ member)
    have size : pageSize = 4096 := rfl
    rw [List.length_cons, size] at short
    rw [size] at ih
    rw [List.length_cons] at few
    have page : (pageExtent tables alignedAddress offset).start < 2 ^ 54 := resolved_lt
    have nonNull : (0 != (pageExtent tables alignedAddress offset).start) = true := bne_iff_ne.mpr (Ne.symm found)
    have sum : ptrOffset current.address current.numberOfBytes = current.address + current.numberOfBytes :=
      qword_of_lt (by omega)
    have look : mmuGetPhysicalAddressEx tables (ptrOffset alignedAddress offset) =
        .ok (pageExtent tables alignedAddress offset).start := lookUp_accepted (qword_lt _) accepts
    simp only [fillPairs, countPairs, look, nonNull, assert_true, Kernel.ok_bind, sum, List.map_cons, Extent.coalesce]
    by_cases joins : current.extent.Joins (pageExtent tables alignedAddress offset)
    · have grown : dword (current.numberOfBytes + pageSize) = current.numberOfBytes + pageSize :=
        dword_of_lt (by omega)
      have equal : current.address + current.numberOfBytes = (pageExtent tables alignedAddress offset).start := joins
      have extent : MdlTranslationPair.extent { current with numberOfBytes := current.numberOfBytes + pageSize } =
          current.extent.join (pageExtent tables alignedAddress offset) := rfl
      have next := ih later { current with numberOfBytes := current.numberOfBytes + pageSize } noOfPairs low
        (by dsimp only; omega) (by omega)
      rw [extent] at next
      rw [if_pos equal, if_pos equal, if_pos joins, grown]
      exact next
    · have different : ¬ current.address + current.numberOfBytes = (pageExtent tables alignedAddress offset).start := joins
      have next := ih later { address := (pageExtent tables alignedAddress offset).start, numberOfBytes := pageSize }
        (noOfPairs + 1) page (by dsimp only; omega) (by omega)
      have extent : MdlTranslationPair.extent
          { address := (pageExtent tables alignedAddress offset).start, numberOfBytes := pageSize } =
            pageExtent tables alignedAddress offset := rfl
      rw [extent] at next
      obtain ⟨fills, counts⟩ := next
      rw [if_neg different, if_neg different, if_neg joins, dword_of_lt (by omega), fills, counts]
      refine ⟨rfl, ?_⟩
      rw [List.length_cons]
      congr 1
      omega

theorem passes_stop (unresolved : ¬ Resolves tables alignedAddress offsets) (current : MdlTranslationPair)
    (noOfPairs : Nat) : ∃ text, countPairs tables alignedAddress current noOfPairs offsets = .error text := by
  induction offsets generalizing current noOfPairs with
  | nil => exact absurd (fun offset member => absurd member (List.not_mem_nil)) unresolved
  | cons offset rest ih =>
    by_cases accepts : tables.Accepts (ptrOffset alignedAddress offset)
    · have look : mmuGetPhysicalAddressEx tables (ptrOffset alignedAddress offset) =
          .ok ((tables.translate (ptrOffset alignedAddress offset)).getD
            (ptrOffset alignedAddress offset % pageSize)) := lookUp_accepted (qword_lt _) accepts
      by_cases null : tables.LooksNull (ptrOffset alignedAddress offset)
      · refine ⟨"NULL != pa", ?_⟩
        unfold PagingTables.LooksNull at null
        rw [countPairs, look, null]
        rfl
      · have nonNull : (0 != (tables.translate (ptrOffset alignedAddress offset)).getD
            (ptrOffset alignedAddress offset % pageSize)) = true := bne_iff_ne.mpr (Ne.symm null)
        have later : ¬ Resolves tables alignedAddress rest := by
          intro resolves
          refine unresolved (fun other member => ?_)
          rcases List.mem_cons.mp member with rfl | member
          · exact ⟨accepts, null⟩
          · exact resolves other member
        simp only [countPairs, look, nonNull, assert_true, Kernel.ok_bind]
        split
        · exact ih later _ _
        · exact ih later _ _
    · have bound : ptrOffset alignedAddress offset < 2 ^ 64 := qword_lt _
      rcases lookUp_refused bound accepts with ⟨look, _⟩ | ⟨text, look⟩
      · exact ⟨"NULL != pa", by rw [countPairs, look]; rfl⟩
      · exact ⟨text, by rw [countPairs, look]; rfl⟩

end Passes

section Buffer

variable {tables : PagingTables} {virtualAddress length : Nat}

def loopOffsets (virtualAddress length : Nat) : List Nat :=
  (pageOffsets (mdlAlignedSize virtualAddress length)).tail

theorem pageOffsets_tail (pages : Nat) :
    (pageOffsets (pages * pageSize)).tail = (List.range (pages - 1)).map (fun page => (page + 1) * pageSize) := by
  have count : (pages * pageSize + (pageSize - 1)) / pageSize = pages := by
    simp only [pageSize]
    omega
  rw [pageOffsets, count]
  cases pages with
  | zero => rfl
  | succ pages =>
    rw [List.range_succ_eq_map, List.map_cons, List.tail_cons, List.map_map]
    rfl

theorem loopOffsets_eq (bound : virtualAddress < 2 ^ 64) (small : length < 2 ^ 32) :
    loopOffsets virtualAddress length =
      if virtualAddress % pageSize + length ≤ 2 ^ 32 - pageSize then
        (List.range (bufferPages virtualAddress length - 1)).map (fun page => (page + 1) * pageSize)
      else [] := by
  have size : pageSize = 4096 := rfl
  have below : virtualAddress % pageSize < 4096 := Nat.mod_lt _ (by decide)
  have offset : dword (addressOffset virtualAddress pageSize) = virtualAddress % pageSize := by
    rw [show addressOffset virtualAddress pageSize = virtualAddress % pageSize from addressOffset_two_pow 12 bound]
    exact dword_of_lt (by omega)
  have upper := alignAddressUpper_page (dword (length + virtualAddress % pageSize)) (by unfold dword; omega)
  have shape : dword ((dword (length + virtualAddress % pageSize) + (pageSize - 1)) / pageSize * pageSize) =
      (if virtualAddress % pageSize + length ≤ 2 ^ 32 - pageSize then bufferPages virtualAddress length
        else (dword (length + virtualAddress % pageSize) + (pageSize - 1)) / pageSize % 2 ^ 20) * pageSize := by
    unfold bufferPages dword
    rw [size] at below ⊢
    split <;> omega
  rw [loopOffsets, mdlAlignedSize, offset, upper, shape, pageOffsets_tail]
  split
  · rfl
  · rename_i wraps
    have one : (dword (length + virtualAddress % pageSize) + (pageSize - 1)) / pageSize % 2 ^ 20 - 1 = 0 := by
      unfold dword
      rw [size] at below wraps ⊢
      omega
    rw [one]
    rfl

theorem units_translate {pa : Nat} (mapped : tables.translate virtualAddress = some pa) (count : Nat)
    (within : virtualAddress % pageSize + count ≤ pageSize) :
    (List.range' pa count).map some = (List.range count).map (fun i => tables.translate (virtualAddress + i)) := by
  rw [List.range'_eq_map_range, List.map_map]
  refine List.map_congr_left (fun i member => ?_)
  have inside := List.mem_range.mp member
  rw [translate_offset (show virtualAddress % 2 ^ 12 + i < 2 ^ 12 by simp only [pageSize] at within; omega), mapped]
  rfl

def bufferExtents (tables : PagingTables) (virtualAddress pa pages : Nat) : List Extent :=
  { start := pa, length := pageSize - virtualAddress % pageSize } ::
    ((List.range pages).map (fun page => (page + 1) * pageSize)).map
      (pageExtent tables (virtualAddress / pageSize * pageSize))

theorem bufferExtents_units {pa : Nat} (bound : virtualAddress < 2 ^ 64)
    (first : tables.translate virtualAddress = some pa) (pages : Nat)
    (mapped : forall page, page < pages -> (tables.translate (bufferPage virtualAddress (page + 1))).isSome = true) :
    ((bufferExtents tables virtualAddress pa pages).flatMap Extent.units).map some =
      (List.range ((pages + 1) * pageSize - virtualAddress % pageSize)).map
        (fun i => tables.translate (qword (virtualAddress + i))) := by
  have size : pageSize = 4096 := rfl
  have below : virtualAddress % pageSize < 4096 := Nat.mod_lt _ (by decide)
  induction pages with
  | zero =>
    have only := units_translate first (pageSize - virtualAddress % pageSize) (by omega)
    simp only [bufferExtents, List.range_zero, List.map_nil, List.flatMap_cons, List.flatMap_nil, List.append_nil,
      Extent.units, Nat.zero_add, Nat.one_mul, only]
    refine List.map_congr_left (fun i member => ?_)
    have inside := List.mem_range.mp member
    rw [qword_of_lt (by rw [size] at inside below; omega)]
  | succ pages ih =>
    have before := ih (fun page inside => mapped page (by omega))
    obtain ⟨base, found⟩ := Option.isSome_iff_exists.mp (mapped pages (Nat.lt_succ_self pages))
    have aligned : bufferPage virtualAddress (pages + 1) % pageSize = 0 := by
      simp only [bufferPage, qword, pageSize]
      omega
    have last : (pageExtent tables (virtualAddress / pageSize * pageSize) ((pages + 1) * pageSize)).units =
        List.range' base pageSize := by
      have start : (tables.translate (bufferPage virtualAddress (pages + 1))).getD
          (bufferPage virtualAddress (pages + 1) % pageSize) = base := by
        rw [found]
        rfl
      exact congrArg (fun start => List.range' start pageSize) start
    have page := units_translate found pageSize (by omega)
    have split : (pages + 1 + 1) * pageSize - virtualAddress % pageSize =
        (pages + 1) * pageSize - virtualAddress % pageSize + pageSize := by
      rw [size] at below ⊢
      omega
    have grown : bufferExtents tables virtualAddress pa (pages + 1) =
        bufferExtents tables virtualAddress pa pages ++
          [pageExtent tables (virtualAddress / pageSize * pageSize) ((pages + 1) * pageSize)] := by
      simp only [bufferExtents, List.range_succ, List.map_append, List.map_cons, List.map_nil, List.cons_append]
    rw [grown, split, List.range_add, List.map_append, ← before, List.flatMap_append, List.map_append,
      List.flatMap_singleton, last, page, List.map_map]
    refine congrArg _ (List.map_congr_left (fun i member => ?_))
    have inside := List.mem_range.mp member
    refine congrArg tables.translate ?_
    simp only [bufferPage, qword, size] at below inside ⊢
    omega

end Buffer

section Outcome

variable {tables : PagingTables} {virtualAddress length : Nat}

theorem loopOffsets_length (bound : virtualAddress < 2 ^ 64) (small : length < 2 ^ 32) :
    (loopOffsets virtualAddress length).length ≤ 2 ^ 20 - 2 := by
  rw [loopOffsets_eq bound small]
  split
  · rw [List.length_map, List.length_range, bufferPages]
    simp only [pageSize] at *
    omega
  · exact Nat.zero_le _

theorem pageOffset_eq (bound : virtualAddress < 2 ^ 64) :
    dword (addressOffset virtualAddress pageSize) = virtualAddress % pageSize := by
  have below : virtualAddress % pageSize < 4096 := Nat.mod_lt _ (by decide)
  rw [show addressOffset virtualAddress pageSize = virtualAddress % pageSize from addressOffset_two_pow 12 bound]
  exact dword_of_lt (by omega)

def firstExtent (tables : PagingTables) (virtualAddress : Nat) : Extent :=
  { start := (tables.translate virtualAddress).getD (virtualAddress % pageSize)
    length := pageSize - virtualAddress % pageSize }

def listMade (tables : PagingTables) (virtualAddress length : Nat) : Mdl :=
  let pairs := ((firstExtent tables virtualAddress).coalesce ((loopOffsets virtualAddress length).map
    (pageExtent tables (virtualAddress / pageSize * pageSize)))).map pairOf
  { startVa := virtualAddress / pageSize * pageSize
    byteCount := length
    byteOffset := virtualAddress % pageSize
    numberOfTranslationPairs := pairs.length
    translations := pairs
    mdlSize := sizeofMdl + sizeofMdlTranslationPair * pairs.length }

theorem mdlDescribe_null (space : AddressSpace) (allocated : Bool) (bound : virtualAddress < 2 ^ 64)
    (accepts : tables.Accepts virtualAddress) (null : tables.LooksNull virtualAddress) :
    mdlDescribe tables space allocated virtualAddress length =
      if space.kernelMemory then .error "!bKernelMemory" else .ok none := by
  unfold PagingTables.LooksNull at null
  simp only [mdlDescribe, lookUp_accepted bound accepts, null, Kernel.ok_bind, if_true]
  cases space.kernelMemory <;> rfl

theorem mdlDescribe_refused (space : AddressSpace) (allocated : Bool) (bound : virtualAddress < 2 ^ 64)
    (nonNull : virtualAddress ≠ 0) (refused : ¬ tables.Accepts virtualAddress) :
    ∃ text, mdlDescribe tables space allocated virtualAddress length = .error text := by
  rcases lookUp_refused bound refused with ⟨_, null⟩ | ⟨text, look⟩
  · exact absurd null nonNull
  · refine ⟨text, ?_⟩
    simp only [mdlDescribe, look, Kernel.error_bind]

section Found

variable (bound : virtualAddress < 2 ^ 64) (accepts : tables.Accepts virtualAddress)
  (found : ¬ tables.LooksNull virtualAddress)

include bound accepts found

theorem mdlDescribe_stops (space : AddressSpace) (allocated : Bool)
    (unresolved : ¬ Resolves tables (virtualAddress / pageSize * pageSize) (loopOffsets virtualAddress length)) :
    ∃ text, mdlDescribe tables space allocated virtualAddress length = .error text := by
  have base : alignAddressLower virtualAddress pageSize = virtualAddress / pageSize * pageSize :=
    alignAddressLower_two_pow virtualAddress 12 (by decide) bound
  rw [← base] at unresolved
  obtain ⟨text, counts⟩ := passes_stop unresolved
    { address := (tables.translate virtualAddress).getD (virtualAddress % pageSize)
      numberOfBytes := dword (pageSize - dword (addressOffset virtualAddress pageSize)) } 1
  refine ⟨text, ?_⟩
  rw [loopOffsets] at counts
  unfold PagingTables.LooksNull at found
  simp only [mdlDescribe, lookUp_accepted bound accepts, if_neg found, Kernel.ok_bind, counts, Kernel.error_bind]

theorem mdlFill_eq (allocated : Bool) {pairs : List MdlTranslationPair} {noOfPairs : Nat}
    (fills : fillPairs tables (virtualAddress / pageSize * pageSize) (pairOf (firstExtent tables virtualAddress))
      (loopOffsets virtualAddress length) = .ok pairs)
    (counted : noOfPairs = pairs.length) (few : pairs.length < 2 ^ 21) :
    mdlFill tables allocated virtualAddress length noOfPairs =
      .ok (if allocated then some
        { startVa := virtualAddress / pageSize * pageSize
          byteCount := length
          byteOffset := virtualAddress % pageSize
          numberOfTranslationPairs := pairs.length
          translations := pairs
          mdlSize := sizeofMdl + sizeofMdlTranslationPair * pairs.length } else none) := by
  have base : alignAddressLower virtualAddress pageSize = virtualAddress / pageSize * pageSize :=
    alignAddressLower_two_pow virtualAddress 12 (by decide) bound
  have offset := pageOffset_eq bound
  have rest : dword (pageSize - virtualAddress % pageSize) = pageSize - virtualAddress % pageSize :=
    dword_of_lt (lt_of_le_of_lt (Nat.sub_le _ _) (by decide))
  have count : dword pairs.length = pairs.length := dword_of_lt (by omega)
  have size : dword (sizeofMdl + sizeofMdlTranslationPair * pairs.length) =
      sizeofMdl + sizeofMdlTranslationPair * pairs.length :=
    dword_of_lt (by unfold sizeofMdl sizeofMdlTranslationPair; omega)
  unfold PagingTables.LooksNull at found
  have nonNull : ((tables.translate virtualAddress).getD (virtualAddress % pageSize) != 0) = true :=
    bne_iff_ne.mpr found
  have fill : fillPairs tables (virtualAddress / pageSize * pageSize)
      { address := (tables.translate virtualAddress).getD (virtualAddress % pageSize)
        numberOfBytes := pageSize - virtualAddress % pageSize }
      (pageOffsets (mdlAlignedSize virtualAddress length)).tail = .ok pairs := fills
  cases allocated with
  | false => rfl
  | true =>
    rw [mdlFill, lookUp_accepted bound accepts, Kernel.ok_bind, nonNull, assert_true, Kernel.ok_bind, base, offset,
      rest]
    dsimp only
    rw [fill, Kernel.ok_bind, count, counted, beq_self_eq_true, assert_true, Kernel.ok_bind, size]
    rfl

theorem mdlDescribe_resolves (space : AddressSpace) (allocated : Bool) (small : length < 2 ^ 32)
    (resolves : Resolves tables (virtualAddress / pageSize * pageSize) (loopOffsets virtualAddress length)) :
    mdlDescribe tables space allocated virtualAddress length =
      .ok (if allocated then some (listMade tables virtualAddress length) else none) := by
  have size : pageSize = 4096 := rfl
  have base : alignAddressLower virtualAddress pageSize = virtualAddress / pageSize * pageSize :=
    alignAddressLower_two_pow virtualAddress 12 (by decide) bound
  have rest : dword (pageSize - virtualAddress % pageSize) = pageSize - virtualAddress % pageSize :=
    dword_of_lt (lt_of_le_of_lt (Nat.sub_le _ _) (by decide))
  have few := loopOffsets_length bound small
  have pairs := Extent.coalesce_length_le (firstExtent tables virtualAddress)
    ((loopOffsets virtualAddress length).map (pageExtent tables (virtualAddress / pageSize * pageSize)))
  rw [List.length_map] at pairs
  have short : (pairOf (firstExtent tables virtualAddress)).numberOfBytes ≤ pageSize := Nat.sub_le _ _
  obtain ⟨fills, counts⟩ := passes_eq resolves (pairOf (firstExtent tables virtualAddress)) 1 resolved_lt
    (by rw [size] at short ⊢; omega) (by omega)
  rw [show (pairOf (firstExtent tables virtualAddress)).extent = firstExtent tables virtualAddress from rfl]
    at fills counts
  have count : countPairs tables (virtualAddress / pageSize * pageSize)
      { address := (tables.translate virtualAddress).getD (virtualAddress % pageSize)
        numberOfBytes := pageSize - virtualAddress % pageSize } 1
      (pageOffsets (mdlAlignedSize virtualAddress length)).tail = .ok _ := counts
  have counted (pairs : Nat) : 1 + pairs - 1 = pairs := by omega
  have filled := mdlFill_eq bound accepts found allocated fills rfl (by rw [List.length_map]; omega)
  unfold PagingTables.LooksNull at found
  rw [mdlDescribe, lookUp_accepted bound accepts, Kernel.ok_bind, if_neg found, base, pageOffset_eq bound, rest]
  dsimp only
  rw [count, Kernel.ok_bind, counted, ← List.length_map pairOf, filled]
  rfl

end Found

theorem resolves_iff (bound : virtualAddress < 2 ^ 64) (small : length < 2 ^ 32) :
    Resolves tables (virtualAddress / pageSize * pageSize) (loopOffsets virtualAddress length) ↔
      WalksThrough tables virtualAddress length := by
  rw [loopOffsets_eq bound small]
  unfold WalksThrough Resolves
  split
  · rename_i fits
    constructor
    · intro resolves _ page positive inside
      have found := resolves ((page - 1 + 1) * pageSize) (List.mem_map.mpr ⟨page - 1, List.mem_range.mpr (by omega), rfl⟩)
      rw [Nat.sub_add_cancel positive] at found
      exact found
    · intro walks offset member
      obtain ⟨page, inside, rfl⟩ := List.mem_map.mp member
      exact walks fits (page + 1) (Nat.succ_pos page) (by have := List.mem_range.mp inside; omega)
  · rename_i wraps
    exact ⟨fun _ fits => absurd fits wraps, fun _ offset member => absurd member List.not_mem_nil⟩

theorem listMade_extents :
    (listMade tables virtualAddress length).translations.map MdlTranslationPair.extent =
      (firstExtent tables virtualAddress).coalesce ((loopOffsets virtualAddress length).map
        (pageExtent tables (virtualAddress / pageSize * pageSize))) := by
  rw [listMade, List.map_map]
  exact List.map_id _

theorem listMade_describes (bound : virtualAddress < 2 ^ 64) (positive : 0 < length) (small : length < 2 ^ 32)
    (fits : virtualAddress % pageSize + length ≤ 2 ^ 32 - pageSize)
    (first : (tables.translate virtualAddress).isSome = true) (walks : WalksThrough tables virtualAddress length) :
    (listMade tables virtualAddress length).Describes tables virtualAddress length := by
  refine ⟨?_, ?_, rfl, rfl⟩
  · obtain ⟨pa, found⟩ := Option.isSome_iff_exists.mp first
    have mapped (page : Nat) (inside : page < bufferPages virtualAddress length - 1) :
        (tables.translate (bufferPage virtualAddress (page + 1))).isSome = true := by
      obtain ⟨_, nonNull⟩ := walks fits (page + 1) (Nat.succ_pos page) (by omega)
      have aligned : bufferPage virtualAddress (page + 1) % pageSize = 0 := by
        simp only [bufferPage, qword, pageSize]
        omega
      cases found : tables.translate (bufferPage virtualAddress (page + 1)) with
      | some base => rfl
      | none =>
        refine absurd ?_ nonNull
        rw [PagingTables.LooksNull, found, Option.getD_none, aligned]
    have units := bufferExtents_units bound found _ mapped
    have pages : bufferPages virtualAddress length - 1 + 1 = bufferPages virtualAddress length := by
      unfold bufferPages pageSize
      omega
    have start : firstExtent tables virtualAddress =
        { start := pa, length := pageSize - virtualAddress % pageSize } := by
      rw [firstExtent, found, Option.getD_some]
    rw [pages] at units
    rw [listMade_extents, Extent.coalesce_units, loopOffsets_eq bound small, if_pos fits, start]
    exact units
  · rw [listMade_extents]
    exact Extent.coalesce_apart _ _

theorem listMade_describes_only (bound : virtualAddress < 2 ^ 64) (positive : 0 < length) (small : length < 2 ^ 32)
    (describes : (listMade tables virtualAddress length).Describes tables virtualAddress length) :
    virtualAddress % pageSize + length ≤ 2 ^ 32 - pageSize ∧ (tables.translate virtualAddress).isSome = true := by
  have bytes := describes.bytes
  rw [listMade_extents, Extent.coalesce_units] at bytes
  have below : virtualAddress % pageSize < pageSize := Nat.mod_lt _ (by decide)
  constructor
  · by_contra wraps
    have count := congrArg List.length bytes
    rw [loopOffsets_eq bound small, if_neg wraps] at count
    simp only [List.map_nil, List.flatMap_cons, List.flatMap_nil, List.append_nil, List.length_map, List.length_range,
      Extent.units, List.length_range', firstExtent, bufferPages] at count
    simp only [pageSize] at *
    omega
  · cases found : tables.translate virtualAddress with
    | some pa => rfl
    | none =>
      have hole : (none : Option Nat) ∈ (List.range (bufferPages virtualAddress length * pageSize -
          virtualAddress % pageSize)).map (fun i => tables.translate (qword (virtualAddress + i))) := by
        refine List.mem_map.mpr ⟨0, List.mem_range.mpr ?_, ?_⟩
        · unfold bufferPages
          simp only [pageSize] at *
          omega
        · rw [Nat.add_zero, qword_of_lt bound, found]
      rw [← bytes] at hole
      obtain ⟨unit, _, impossible⟩ := List.mem_map.mp hole
      cases impossible

end Outcome

section Call

variable {tables : PagingTables} {virtualAddress length : Nat}

theorem mdlAllocateEx_made {space : AddressSpace} {readable : Nat -> Bool} {allocated : Bool} {mdl : Mdl}
    (result : mdlAllocateEx tables space readable allocated virtualAddress length = .ok (some mdl)) :
    virtualAddress ≠ 0 ∧ mdlDescribe tables space allocated virtualAddress length = .ok (some mdl) := by
  simp only [mdlAllocateEx, Kernel.assert_bind_eq_ok, bne_iff_ne] at result
  obtain ⟨nonNull, _, result⟩ := result
  refine ⟨nonNull.symm, ?_⟩
  split at result
  · obtain ⟨_, _, result⟩ := Kernel.bind_eq_ok.mp result
    exact result
  · exact result

theorem probePages_readable (buffer : Nat) (offsets : List Nat) :
    probePages (fun _ => true) buffer offsets = .ok () := by
  induction offsets with
  | nil => rfl
  | cons offset rest ih =>
    rw [probePages, if_pos rfl]
    exact ih

theorem mdlAllocateEx_eq (space : AddressSpace) {readable : Nat -> Bool} (allocated : Bool)
    (nonNull : virtualAddress ≠ 0) (positive : 0 < length)
    (probed : space.kernelMemory = false ∨ readable = fun _ => true) :
    mdlAllocateEx tables space readable allocated virtualAddress length =
      mdlDescribe tables space allocated virtualAddress length := by
  have pointer : (0 != virtualAddress) = true := bne_iff_ne.mpr (Ne.symm nonNull)
  have some : (0 != length) = true := bne_iff_ne.mpr (by omega)
  cases kind : space.kernelMemory with
  | false =>
    simp only [mdlAllocateEx, pointer, some, assert_true, Kernel.ok_bind, kind, Bool.false_eq_true, if_false]
  | true =>
    obtain rfl := probed.resolve_left (by rw [kind]; decide)
    simp only [mdlAllocateEx, mmuProbeMemory, probePages_readable, pointer, some, assert_true, Kernel.ok_bind, kind,
      if_true]

theorem accepts_ne_zero (accepts : tables.Accepts virtualAddress) : virtualAddress ≠ 0 := by
  have least := accepts.1
  unfold pageSize at least
  omega

theorem mdlAllocateEx_some {space : AddressSpace} {readable : Nat -> Bool} {allocated : Bool} {mdl : Mdl}
    (bound : virtualAddress < 2 ^ 64) (small : length < 2 ^ 32)
    (result : mdlAllocateEx tables space readable allocated virtualAddress length = .ok (some mdl)) :
    tables.Accepts virtualAddress ∧ ¬ tables.LooksNull virtualAddress ∧ WalksThrough tables virtualAddress length ∧
      mdl = listMade tables virtualAddress length := by
  obtain ⟨nonNull, made⟩ := mdlAllocateEx_made result
  by_cases accepts : tables.Accepts virtualAddress
  · by_cases null : tables.LooksNull virtualAddress
    · rw [mdlDescribe_null space allocated bound accepts null] at made
      split at made <;> cases made
    · by_cases resolves : Resolves tables (virtualAddress / pageSize * pageSize) (loopOffsets virtualAddress length)
      · rw [mdlDescribe_resolves bound accepts null space allocated small resolves] at made
        cases allocated with
        | false => cases made
        | true =>
          have same := Option.some.inj (Except.ok.inj made)
          exact ⟨accepts, null, (resolves_iff bound small).mp resolves, same.symm⟩
      · obtain ⟨text, stopped⟩ := mdlDescribe_stops bound accepts null space allocated resolves
        rw [stopped] at made
        cases made
  · obtain ⟨text, stopped⟩ := @mdlDescribe_refused tables virtualAddress length space allocated bound nonNull accepts
    rw [stopped] at made
    cases made

theorem mdlAllocateEx_makes (space : AddressSpace) (bound : virtualAddress < 2 ^ 64) (positive : 0 < length)
    (small : length < 2 ^ 32) (accepts : tables.Accepts virtualAddress) (found : ¬ tables.LooksNull virtualAddress)
    (walks : WalksThrough tables virtualAddress length) :
    mdlAllocateEx tables space (fun _ => true) true virtualAddress length =
      .ok (some (listMade tables virtualAddress length)) := by
  rw [mdlAllocateEx_eq space true (accepts_ne_zero accepts) positive (.inr rfl),
    mdlDescribe_resolves bound accepts found space true small ((resolves_iff bound small).mpr walks)]
  rfl

theorem mdl_sound_iff (space : AddressSpace) (bound : virtualAddress < 2 ^ 64) (positive : 0 < length)
    (small : length < 2 ^ 32) :
    MdlSound tables space virtualAddress length ↔ Describable tables space virtualAddress length := by
  constructor
  · intro sound
    by_cases null : tables.Accepts virtualAddress ∧ tables.LooksNull virtualAddress
    · exact .inl null
    refine .inr ⟨?_, ?_⟩
    · intro user
      by_contra hole
      have refused := sound.refuses user hole (fun _ => true) true
      by_cases zero : virtualAddress = 0
      · rw [zero] at refused
        cases refused
      rw [mdlAllocateEx_eq space true zero positive (.inl user)] at refused
      by_cases accepts : tables.Accepts virtualAddress
      · have found : ¬ tables.LooksNull virtualAddress := fun looks => null ⟨accepts, looks⟩
        by_cases resolves : Resolves tables (virtualAddress / pageSize * pageSize) (loopOffsets virtualAddress length)
        · rw [mdlDescribe_resolves bound accepts found space true small resolves] at refused
          cases refused
        · obtain ⟨text, stopped⟩ := mdlDescribe_stops bound accepts found space true resolves
          rw [stopped] at refused
          cases refused
      · obtain ⟨text, stopped⟩ := @mdlDescribe_refused tables virtualAddress length space true bound zero accepts
        rw [stopped] at refused
        cases refused
    · intro accepts found walks
      exact listMade_describes_only bound positive small (sound.describes (fun _ => true) true _
        (mdlAllocateEx_makes space bound positive small accepts found walks))
  · intro describable
    constructor
    · intro readable allocated mdl result
      obtain ⟨accepts, found, walks, rfl⟩ := mdlAllocateEx_some bound small result
      obtain ⟨fits, first⟩ := (describable.resolve_left (fun looks => found looks.2)).2 accepts found walks
      exact listMade_describes bound positive small fits first walks
    · intro user hole readable allocated
      obtain ⟨accepts, null⟩ := describable.resolve_right (fun rest => hole (rest.1 user))
      rw [mdlAllocateEx_eq space allocated (accepts_ne_zero accepts) positive (.inl user),
        mdlDescribe_null space allocated bound accepts null, if_neg (by rw [user]; decide)]

end Call

def sampleTables : PagingTables where
  entry level index :=
    if level < 4 then { present := index == 0, physicalAddress := 0 }
    else { present := index == 1 || index == 2, physicalAddress := if index = 1 then 5 else 6 }

theorem mdl_sound_sample : MdlSound sampleTables (.pagingData false) 0x1800 0x1000 := by
  refine (mdl_sound_iff (.pagingData false) (by decide) (by decide) (by decide)).mpr (.inr ⟨?_, ?_⟩)
  · intro _ page inside
    have pages : page < 2 := inside
    interval_cases page <;> rfl
  · intro _ _ _
    exact ⟨by decide, rfl⟩

-- The first page is not mapped and its offset in the page passes for its address.
theorem mdl_unsound_sample :
    ¬ forall tables virtualAddress length, virtualAddress < 2 ^ 64 -> 0 < length -> length < 2 ^ 32 ->
      MdlSound tables (.pagingData false) virtualAddress length := by
  intro claim
  have sound := claim sampleTables 0x3800 0x10 (by decide) (by decide) (by decide)
  have refused := sound.refuses rfl (fun mapped => absurd (mapped 0 (by decide)) (by decide)) (fun _ => true) true
  have made : (mdlAllocateEx sampleTables (.pagingData false) (fun _ => true) true 0x3800 0x10).toOption.join.isSome =
      true := by decide +kernel
  rw [refused] at made
  cases made

end Hal9000.Mmu
