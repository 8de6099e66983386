import Hal9000.Mmu.Mdl
import Hal9000.Mmu.Regions
import Hal9000.Vm.Allocation
import Hal9000.Vm.Overlap

set_option autoImplicit false

namespace Hal9000.Mmu

open Lib

def allocTypeNotLazy : Nat := 0x4

inductive AliasStatus where
  | success
  | invalidParameter1
  | invalidParameter2
  | unsuccessful
  | memoryCannotBeCommited
  deriving DecidableEq, Repr

structure KernelState where
  space : Vm.ReservationSpace
  tables : PagingTables
  pagingData : PagingData

-- The loop of _VmmMapDescribedRegion; the PAT index is that of write-back memory.
def mapPairs (patIndex baseAddress rights : Nat) (tables : PagingTables) (pagingData : PagingData) (currentOffset : Nat) :
    List MdlTranslationPair -> Kernel (PagingTables × PagingData)
  | [] => pure (tables, pagingData)
  | pair :: rest => do
    let alignedPa := alignAddressLower pair.address pageSize
    let alignedPaSize := alignAddressUpper (qword (pair.numberOfBytes + addressOffset pair.address pageSize)) pageSize
    let (tables, pagingData) <- mmuMapMemoryInternal tables pagingData alignedPa alignedPaSize rights
      (ptrOffset baseAddress currentOffset) false patIndex
    mapPairs patIndex baseAddress rights tables pagingData (qword (currentOffset + alignedPaSize)) rest

def vmmMapDescribedRegion (tables : PagingTables) (pagingData : PagingData) (patIndex baseAddress : Nat) (mdl : Mdl)
    (rights : Nat) : Kernel (PagingTables × PagingData) := do
  assert (baseAddress != 0) "BaseAddress != NULL"
  assert (isAddressAligned baseAddress pageSize) "IsAddressAligned(BaseAddress, PAGE_SIZE)"
  mapPairs patIndex baseAddress rights tables pagingData 0 mdl.translations

def vmmAllocRegionEx (kernel : KernelState) (patIndex size allocType rights : Nat) (mdl : Mdl) :
    Kernel (KernelState × Option Nat) := do
  assert (size != 0) "Size != 0"
  assert (isFlagOn allocType (Vm.allocTypeCommit ||| Vm.allocTypeReserve))
    "IsFlagOn(AllocType, VMM_ALLOC_TYPE_COMMIT | VMM_ALLOC_TYPE_RESERVE)"
  assert (isBooleanFlagOn allocType allocTypeNotLazy)
    "Mdl == NULL || IsBooleanFlagOn(AllocType, VMM_ALLOC_TYPE_NOT_LAZY)"
  let (space, _, mapping) <- Vm.vmReservationSpaceAllocRegion kernel.space 0 size allocType rights false 0
  match mapping with
  | none => pure ({ kernel with space := space }, none)
  | some mapping =>
    assert (0 != mapping.mappedAddress) "NULL != pBaseAddress"
    assert (isBooleanFlagOn allocType Vm.allocTypeCommit) "IsBooleanFlagOn(AllocType, VMM_ALLOC_TYPE_COMMIT)"
    assert (decide (mdl.byteCount ≤ mapping.mappedSize)) "Mdl->ByteCount <= alignedSize"
    let (tables, pagingData) <- vmmMapDescribedRegion kernel.tables kernel.pagingData patIndex mapping.mappedAddress
      mdl rights
    pure ({ space := space, tables := tables, pagingData := pagingData }, some mapping.mappedAddress)

def aliasAllocType : Nat := Vm.allocTypeReserve ||| Vm.allocTypeCommit ||| allocTypeNotLazy

-- `process` is the part of the process's tables that maps user addresses.
def mmuGetSystemVirtualAddressForUserBuffer (kernel : KernelState) (patIndex : Nat) (process : PagingTables)
    (allocated : Bool) (userAddress size pageRights : Nat) : Kernel (KernelState × AliasStatus × Option Nat) :=
  if userAddress = 0 then pure (kernel, .invalidParameter1, none)
  else if size = 0 then pure (kernel, .invalidParameter2, none)
  else do
    assert (decide (size ≤ maxDword)) "Size <= MAX_DWORD"
    let mdl <- mdlAllocateEx process (.pagingData false) (fun _ => true) allocated userAddress (dword size)
    match mdl with
    | none => pure (kernel, .unsuccessful, none)
    | some mdl =>
      let (kernel, address) <- vmmAllocRegionEx kernel patIndex size aliasAllocType pageRights mdl
      match address with
      | none => pure (kernel, .memoryCannotBeCommited, none)
      | some address => pure (kernel, .success, some (ptrOffset address (addressOffset userAddress pageSize)))

def reservedPages (size : Nat) : Nat := (size + (pageSize - 1)) / pageSize

structure FaithfulAlias (before after : KernelState) (process : PagingTables) (userAddress size kernelAddress : Nat) :
    Prop where
  same : forall i, i < size ->
    after.tables.translate (qword (kernelAddress + i)) = process.translate (qword (userAddress + i))
  reserved : ∃ index, Vm.Added before.space after.space (qword before.space.freeVirtualAddressPointer)
    (reservedPages size * pageSize) index
  inside : forall i, i < size ->
    Vm.InRange (qword before.space.freeVirtualAddressPointer) (reservedPages size * pageSize) (qword (kernelAddress + i))
  others : forall other, (forall i, i < reservedPages size * pageSize ->
      tableIndex 4 other ≠ tableIndex 4 (qword (qword before.space.freeVirtualAddressPointer + i))) ->
    after.tables.mapping other = before.tables.mapping other

def AliasSound (space : Vm.ReservationSpace) (tables process : PagingTables) (userAddress size : Nat) : Prop :=
  forall pagingData patIndex allocated pageRights after kernelAddress,
    mmuGetSystemVirtualAddressForUserBuffer { space := space, tables := tables, pagingData := pagingData } patIndex
      process allocated userAddress size pageRights = .ok (after, .success, some kernelAddress) ->
    FaithfulAlias { space := space, tables := tables, pagingData := pagingData } after process userAddress size
      kernelAddress

def kernelPage (space : Vm.ReservationSpace) (page : Nat) : Nat :=
  ptrOffset (qword space.freeVirtualAddressPointer) (page * pageSize)

-- The pages that the list describes: one when the DWORD sum of the size and the offset wraps around.
def describedPages (userAddress size : Nat) : Nat :=
  if userAddress % pageSize + size ≤ 2 ^ 32 - pageSize then bufferPages userAddress size else 1

-- No ASSERT and no failure stops the call, given enough frames for paging structures.
structure Completes (space : Vm.ReservationSpace) (tables process : PagingTables) (userAddress size : Nat) : Prop where
  accepts : process.Accepts userAddress
  found : ¬ process.LooksNull userAddress
  walks : WalksThrough process userAddress size
  region : Vm.RoomFor space (qword space.freeVirtualAddressPointer) (reservedPages size)
  pages : forall page, page < describedPages userAddress size ->
    kernelPage space page ≠ 0 ∧ ¬ tables.Blocked (kernelPage space page)

-- The user range has no more pages than the reservation, and each kernel page of it is mapped by the call, or was
-- mapped to the user's page before.
def AliasFits (space : Vm.ReservationSpace) (tables process : PagingTables) (userAddress size : Nat) : Prop :=
  Completes space tables process userAddress size ->
    bufferPages userAddress size ≤ reservedPages size ∧
      forall page, page < bufferPages userAddress size ->
        page < describedPages userAddress size ∧ tables.mapping (kernelPage space page) = none ∨
          tables.translate (kernelPage space page) = process.translate (bufferPage userAddress page)

section Frames

def framesOf (extent : Extent) : List Nat :=
  (List.range ((extent.start % pageSize + extent.length) / pageSize)).map
    (fun i => extent.start / pageSize * pageSize + i * pageSize)

def EndsOnPage (extent : Extent) : Prop := (extent.start + extent.length) % pageSize = 0

theorem endsOnPage_join {first second : Extent} (later : EndsOnPage second) (joins : first.Joins second) :
    EndsOnPage (first.join second) := by
  unfold EndsOnPage Extent.Joins at *
  simp only [Extent.join]
  rw [← Nat.add_assoc, joins]
  exact later

theorem framesOf_join {first second : Extent} (earlier : EndsOnPage first) (joins : first.Joins second) :
    framesOf (first.join second) = framesOf first ++ framesOf second := by
  unfold EndsOnPage Extent.Joins at *
  simp only [pageSize] at earlier
  have count : (first.start % pageSize + (first.length + second.length)) / pageSize =
      (first.start % pageSize + first.length) / pageSize + (second.start % pageSize + second.length) / pageSize := by
    simp only [pageSize]
    omega
  simp only [framesOf, Extent.join]
  rw [count, List.range_add, List.map_append, List.map_map]
  refine congrArg _ (List.map_congr_left (fun i _ => ?_))
  simp only [Function.comp_apply, pageSize]
  omega

end Frames

section Region

variable {tables : PagingTables} {pagingData : PagingData} {patIndex baseAddress rights : Nat}

theorem pair_aligned {pair : MdlTranslationPair} (low : pair.address < 2 ^ 54) (short : pair.numberOfBytes < 2 ^ 33)
    (ends : EndsOnPage pair.extent) :
    alignAddressLower pair.address pageSize = pair.address / pageSize * pageSize ∧
      alignAddressUpper (qword (pair.numberOfBytes + addressOffset pair.address pageSize)) pageSize =
        (pair.address % pageSize + pair.numberOfBytes) / pageSize * pageSize := by
  have offset : addressOffset pair.address pageSize = pair.address % pageSize :=
    addressOffset_two_pow 12 (low.trans (by decide))
  have below : pair.address % pageSize < 4096 := Nat.mod_lt _ (by decide)
  have sum : qword (pair.numberOfBytes + pair.address % pageSize) = pair.numberOfBytes + pair.address % pageSize :=
    qword_of_lt (by omega)
  refine ⟨alignAddressLower_two_pow pair.address 12 (by decide) (low.trans (by decide)), ?_⟩
  rw [offset, sum, alignAddressUpper_page _ (by omega)]
  have total : (pair.address + pair.numberOfBytes) % pageSize = 0 := ends
  simp only [pageSize] at total ⊢
  omega

theorem pair_frames (pair : MdlTranslationPair) :
    framesOf pair.extent = (List.range ((pair.address % pageSize + pair.numberOfBytes) / pageSize)).map
      (fun i => pair.address / pageSize * pageSize + i * pageSize) := rfl

structure SmallPair (pair : MdlTranslationPair) : Prop where
  low : pair.address < 2 ^ 54
  short : pair.numberOfBytes < 2 ^ 33
  ends : EndsOnPage pair.extent

theorem framesOf_length (extent : Extent) :
    (framesOf extent).length = (extent.start % pageSize + extent.length) / pageSize := by
  rw [framesOf, List.length_map, List.length_range]

@[simp] theorem extent_start (pair : MdlTranslationPair) : pair.extent.start = pair.address := rfl
@[simp] theorem extent_length (pair : MdlTranslationPair) : pair.extent.length = pair.numberOfBytes := rfl

theorem mapPairs_spec {pairs : List MdlTranslationPair} {first : Nat} {after : PagingTables} {afterData : PagingData}
    (small : forall pair, pair ∈ pairs -> SmallPair pair)
    (short : (first + ((pairs.map MdlTranslationPair.extent).flatMap framesOf).length) * pageSize < 2 ^ 44)
    (distinct : DistinctPages (regionPages baseAddress (regionEntry rights patIndex pagingData.kernelSpace) first
      ((pairs.map MdlTranslationPair.extent).flatMap framesOf)))
    (mapped : mapPairs patIndex baseAddress rights tables pagingData (first * pageSize) pairs =
      .ok (after, afterData)) :
    Reachable tables (regionPages baseAddress (regionEntry rights patIndex pagingData.kernelSpace) first
        ((pairs.map MdlTranslationPair.extent).flatMap framesOf)) ∧
      MapsPages tables after false (regionPages baseAddress (regionEntry rights patIndex pagingData.kernelSpace) first
        ((pairs.map MdlTranslationPair.extent).flatMap framesOf)) := by
  induction pairs generalizing tables pagingData first with
  | nil =>
    obtain ⟨rfl, rfl⟩ := Prod.mk.inj (Except.ok.inj mapped)
    exact ⟨fun _ member => absurd member List.not_mem_nil, MapsPages.nil tables⟩
  | cons pair rest ih =>
    obtain ⟨low, length, ends⟩ := small pair List.mem_cons_self
    obtain ⟨lower, upper⟩ := pair_aligned low length ends
    rw [List.map_cons, List.flatMap_cons] at short distinct ⊢
    rw [List.length_append, framesOf_length] at short
    rw [regionPages_append] at distinct ⊢
    obtain ⟨firstDistinct, laterDistinct, apart⟩ := List.pairwise_append.mp distinct
    obtain ⟨⟨between, betweenData⟩, one, later⟩ := Kernel.bind_eq_ok.mp mapped
    dsimp only at later
    rw [lower, upper] at one
    rw [upper] at later
    have start : pair.address / pageSize * pageSize < 2 ^ 54 := (Nat.div_mul_le_self _ _).trans_lt low
    have here : (first + (pair.address % pageSize + pair.numberOfBytes) / pageSize) * pageSize < 2 ^ 44 :=
      (Nat.mul_le_mul_right pageSize (Nat.add_le_add_left (Nat.le_add_right _ _) first)).trans_lt short
    have next : qword (first * pageSize + (pair.address % pageSize + pair.numberOfBytes) / pageSize * pageSize) =
        (first + (pair.address % pageSize + pair.numberOfBytes) / pageSize) * pageSize := by
      rw [← Nat.add_mul]
      exact qword_of_lt (here.trans (by decide))
    rw [next] at later
    rw [pair_frames] at firstDistinct
    obtain ⟨reached, maps, kernelSpace⟩ := mapExtent_spec start here firstDistinct one
    rw [framesOf_length] at laterDistinct
    rw [← kernelSpace] at laterDistinct
    have rest := ih (fun other member => small other (List.mem_cons_of_mem _ member))
      (by rw [Nat.add_assoc]; exact short) laterDistinct later
    rw [kernelSpace] at rest
    obtain ⟨otherReached, otherMaps⟩ := rest
    rw [← pair_frames] at maps reached
    rw [framesOf_length] at distinct ⊢
    refine ⟨fun page member => ?_, maps.append otherMaps distinct⟩
    rcases List.mem_append.mp member with early | late
    · exact reached page early
    · obtain ⟨nonNull, open_⟩ := otherReached page late
      exact ⟨nonNull, mt (maps.blocked _).mpr open_⟩

theorem mapPairs_succeeds {pairs : List MdlTranslationPair} {first : Nat}
    (small : forall pair, pair ∈ pairs -> SmallPair pair)
    (nonempty : forall pair, pair ∈ pairs -> 0 < (framesOf pair.extent).length)
    (short : (first + ((pairs.map MdlTranslationPair.extent).flatMap framesOf).length) * pageSize < 2 ^ 44)
    (distinct : DistinctPages (regionPages baseAddress (regionEntry rights patIndex pagingData.kernelSpace) first
      ((pairs.map MdlTranslationPair.extent).flatMap framesOf)))
    (base : baseAddress % pageSize = 0)
    (reachable : Reachable tables (regionPages baseAddress (regionEntry rights patIndex pagingData.kernelSpace) first
      ((pairs.map MdlTranslationPair.extent).flatMap framesOf)))
    (room : pagingData.currentIndex + 3 * ((pairs.map MdlTranslationPair.extent).flatMap framesOf).length ≤
      pagingData.numberOfFrames) :
    ∃ result, mapPairs patIndex baseAddress rights tables pagingData (first * pageSize) pairs = .ok result := by
  induction pairs generalizing tables pagingData first with
  | nil => exact ⟨_, rfl⟩
  | cons pair rest ih =>
    obtain ⟨low, length, ends⟩ := small pair List.mem_cons_self
    have some := nonempty pair List.mem_cons_self
    obtain ⟨lower, upper⟩ := pair_aligned low length ends
    rw [List.map_cons, List.flatMap_cons] at short distinct reachable room
    rw [List.length_append, framesOf_length] at short room
    rw [regionPages_append] at distinct reachable
    rw [framesOf_length] at some
    simp only [extent_start, extent_length] at short room some
    obtain ⟨firstDistinct, laterDistinct, _⟩ := List.pairwise_append.mp distinct
    have start : pair.address / pageSize * pageSize < 2 ^ 54 := (Nat.div_mul_le_self _ _).trans_lt low
    have here : (first + (pair.address % pageSize + pair.numberOfBytes) / pageSize) * pageSize < 2 ^ 44 :=
      (Nat.mul_le_mul_right pageSize (Nat.add_le_add_left (Nat.le_add_right _ _) first)).trans_lt short
    have next : qword (first * pageSize + (pair.address % pageSize + pair.numberOfBytes) / pageSize * pageSize) =
        (first + (pair.address % pageSize + pair.numberOfBytes) / pageSize) * pageSize := by
      rw [← Nat.add_mul]
      exact qword_of_lt (here.trans (by decide))
    rw [pair_frames] at firstDistinct reachable
    obtain ⟨between, betweenData, one, frames, used⟩ := mapExtent_succeeds start (Nat.mul_mod_left _ _) some here base
      (fun page member => reachable page (List.mem_append_left _ member)) (by omega)
    obtain ⟨_, maps, kernelSpace⟩ := mapExtent_spec start here firstDistinct one
    rw [framesOf_length, ← kernelSpace] at laterDistinct
    have later : Reachable between (regionPages baseAddress (regionEntry rights patIndex betweenData.kernelSpace)
        (first + (pair.extent.start % pageSize + pair.extent.length) / pageSize)
        ((rest.map MdlTranslationPair.extent).flatMap framesOf)) := by
      intro page member
      rw [kernelSpace] at member
      obtain ⟨nonNull, open_⟩ := reachable page (List.mem_append_right _ (by
        rw [← pair_frames, framesOf_length]
        exact member))
      exact ⟨nonNull, mt (maps.blocked _).mp open_⟩
    obtain ⟨result, mapped⟩ := ih (fun other member => small other (List.mem_cons_of_mem _ member))
      (fun other member => nonempty other (List.mem_cons_of_mem _ member))
      (by rw [Nat.add_assoc]; exact short) laterDistinct later (by omega)
    refine ⟨result, Kernel.bind_eq_ok.mpr ⟨(between, betweenData), ?_, ?_⟩⟩
    · rw [lower, upper]
      exact one
    · dsimp only
      rw [upper, next]
      exact mapped

end Region

section List

variable {process : PagingTables} {userAddress size : Nat}

def userFrames (process : PagingTables) (userAddress count : Nat) : List Nat :=
  (List.range count).map (fun page => (process.translate (bufferPage userAddress page)).getD 0)

theorem bufferPage_aligned (page : Nat) : bufferPage userAddress page % pageSize = 0 := by
  simp only [bufferPage, qword, pageSize]
  omega

theorem framesOf_page {start length : Nat} (within : start % pageSize + length = pageSize) :
    framesOf { start := start, length := length } = [start / pageSize * pageSize] := by
  have one : (start % pageSize + length) / pageSize = 1 := by
    rw [within]
    exact Nat.div_self (by decide)
  rw [framesOf, one]
  simp

theorem describedPages_le (positive : 0 < size) :
    describedPages userAddress size ≤ bufferPages userAddress size ∧ 0 < describedPages userAddress size ∧
      describedPages userAddress size < 2 ^ 20 := by
  unfold describedPages
  by_cases fits : userAddress % pageSize + size ≤ 2 ^ 32 - pageSize
  · simp only [if_pos fits, bufferPages]
    simp only [pageSize] at *
    omega
  · simp only [if_neg fits, bufferPages]
    simp only [pageSize] at *
    omega

theorem loopOffsets_described (bound : userAddress < 2 ^ 64) (small : size < 2 ^ 32) :
    loopOffsets userAddress size =
      (List.range (describedPages userAddress size - 1)).map (fun page => (page + 1) * pageSize) := by
  rw [loopOffsets_eq bound small, describedPages]
  split <;> rfl

variable (bound : userAddress < 2 ^ 64) (positive : 0 < size) (small : size < 2 ^ 32)
  (mapped : AllMapped process userAddress size)

include positive mapped in
theorem page_mapped {page : Nat} (inside : page < describedPages userAddress size) :
    ∃ pa, process.translate (bufferPage userAddress page) = some pa ∧ pa % pageSize = 0 := by
  have pages := @describedPages_le userAddress size positive
  obtain ⟨pa, found⟩ := Option.isSome_iff_exists.mp (mapped page (by omega))
  exact ⟨pa, found, (translate_mod found).trans (bufferPage_aligned page)⟩

include bound positive mapped in
theorem first_mapped : ∃ pa, process.translate userAddress = some pa ∧ pa % pageSize = userAddress % pageSize ∧
    process.translate (bufferPage userAddress 0) = some (pa / pageSize * pageSize) := by
  have pages := @describedPages_le userAddress size positive
  obtain ⟨base, found, aligned⟩ := page_mapped positive mapped pages.2.1
  have start : bufferPage userAddress 0 = userAddress / pageSize * pageSize := by
    simp only [bufferPage, qword, pageSize]
    omega
  have below : userAddress % pageSize < pageSize := Nat.mod_lt _ (by decide)
  have here := @translate_offset process (userAddress / pageSize * pageSize) (userAddress % pageSize) (by
    simp only [pageSize] at below ⊢
    omega)
  rw [Nat.div_add_mod', ← start, found] at here
  refine ⟨_, here, ?_, ?_⟩
  · simp only [pageSize] at aligned below ⊢
    omega
  · rw [found]
    simp only [pageSize, Option.some.injEq] at aligned below ⊢
    omega

include bound positive small mapped in
theorem listMade_whole : forall extent, extent ∈ firstExtent process userAddress ::
      (loopOffsets userAddress size).map (pageExtent process (userAddress / pageSize * pageSize)) ->
    EndsOnPage extent := by
  have below : userAddress % pageSize < pageSize := Nat.mod_lt _ (by decide)
  intro extent member
  rcases List.mem_cons.mp member with rfl | later
  · obtain ⟨pa, found, offset, _⟩ := first_mapped bound positive mapped
    unfold EndsOnPage
    rw [firstExtent, found, Option.getD_some]
    simp only [pageSize] at *
    omega
  · obtain ⟨offset, inside, rfl⟩ := List.mem_map.mp later
    rw [loopOffsets_described bound small] at inside
    obtain ⟨page, within, rfl⟩ := List.mem_map.mp inside
    have inside := List.mem_range.mp within
    obtain ⟨frame, here, aligned⟩ := page_mapped positive mapped (show page + 1 < describedPages userAddress size by omega)
    have start : (process.translate (bufferPage userAddress (page + 1))).getD
        (bufferPage userAddress (page + 1) % pageSize) = frame := by
      rw [here, Option.getD_some]
    have whole : (frame + pageSize) % pageSize = 0 := by
      rw [Nat.add_mod_right, aligned]
    rw [← start] at whole
    exact whole

include bound positive small mapped in
theorem listMade_frames :
    ((listMade process userAddress size).translations.map MdlTranslationPair.extent).flatMap framesOf =
      userFrames process userAddress (describedPages userAddress size) := by
  obtain ⟨pa, found, offset, base⟩ := first_mapped bound positive mapped
  have below : userAddress % pageSize < pageSize := Nat.mod_lt _ (by decide)
  have first : firstExtent process userAddress = { start := pa, length := pageSize - userAddress % pageSize } := by
    rw [firstExtent, found, Option.getD_some]
  have others : ((loopOffsets userAddress size).map
      (pageExtent process (userAddress / pageSize * pageSize))).flatMap framesOf =
        (List.range (describedPages userAddress size - 1)).map
          (fun page => (process.translate (bufferPage userAddress (page + 1))).getD 0) := by
    rw [loopOffsets_described bound small, List.map_map, List.flatMap_map, ← List.flatMap_pure_eq_map]
    refine List.flatMap_congr (fun page member => ?_)
    have inside := List.mem_range.mp member
    obtain ⟨frame, here, aligned⟩ := page_mapped positive mapped (show page + 1 < describedPages userAddress size by omega)
    have extent : pageExtent process (userAddress / pageSize * pageSize) ((page + 1) * pageSize) =
        { start := frame, length := pageSize } := by
      have start : (process.translate (bufferPage userAddress (page + 1))).getD
          (bufferPage userAddress (page + 1) % pageSize) = frame := by
        rw [here, Option.getD_some]
      exact congrArg (fun start => ({ start := start, length := pageSize } : Extent)) start
    have whole : frame / pageSize * pageSize = frame := Nat.div_mul_cancel (Nat.dvd_of_mod_eq_zero aligned)
    rw [Function.comp_apply, extent, framesOf_page (by rw [aligned, Nat.zero_add]), whole]
    simp only [Function.comp_apply, here, Option.getD_some, List.pure_def]
  rw [listMade_extents, @Extent.coalesce_flatMap Nat framesOf EndsOnPage (fun _ _ _ later joins => endsOnPage_join later joins)
    (fun _ _ earlier _ joins => framesOf_join earlier joins) _ _ (listMade_whole bound positive small mapped),
    List.flatMap_cons, first, framesOf_page (by rw [offset]; omega), others, userFrames]
  have count : describedPages userAddress size = describedPages userAddress size - 1 + 1 := by
    have pages := @describedPages_le userAddress size positive
    omega
  rw [count, List.range_succ_eq_map, List.map_cons, base, List.map_map, Option.getD_some]
  rfl

include bound positive small mapped in
theorem listMade_small : forall pair, pair ∈ (listMade process userAddress size).translations ->
    SmallPair pair ∧ 0 < (framesOf pair.extent).length := by
  have below : userAddress % pageSize < pageSize := Nat.mod_lt _ (by decide)
  have pages := @describedPages_le userAddress size positive
  have wholes := listMade_whole bound positive small mapped
  have parts : forall extent, extent ∈ firstExtent process userAddress ::
      (loopOffsets userAddress size).map (pageExtent process (userAddress / pageSize * pageSize)) ->
        extent.start < 2 ^ 54 ∧ 0 < extent.length ∧ extent.length ≤ pageSize := by
    intro extent member
    rcases List.mem_cons.mp member with rfl | later
    · exact ⟨resolved_lt, Nat.sub_pos_of_lt below, Nat.sub_le _ _⟩
    · obtain ⟨offset, _, rfl⟩ := List.mem_map.mp later
      exact ⟨resolved_lt, show 0 < pageSize by decide, le_refl _⟩
  have total := Extent.units_length_le (fun extent member => (parts extent member).2.2)
  rw [← Extent.coalesce_units, List.length_cons, List.length_map, loopOffsets_described bound small, List.length_map,
    List.length_range] at total
  have joined := @Extent.coalesce_forall (fun extent => EndsOnPage extent ∧ extent.start < 2 ^ 54 ∧ 0 < extent.length)
    (fun first second earlier later joins => ⟨endsOnPage_join later.1 joins, earlier.2.1, Nat.add_pos_left earlier.2.2 _⟩)
    _ _ (fun extent member => ⟨wholes extent member, (parts extent member).1, (parts extent member).2.1⟩)
  intro pair member
  have inside : pair.extent ∈ (listMade process userAddress size).translations.map MdlTranslationPair.extent :=
    List.mem_map.mpr ⟨pair, member, rfl⟩
  rw [listMade_extents] at inside
  obtain ⟨ends, low, some⟩ := joined _ inside
  have short := Extent.length_le_units inside
  rw [loopOffsets_described bound small] at short
  refine ⟨⟨low, ?_, ends⟩, ?_⟩
  · have bytes : pair.numberOfBytes ≤ pageSize * (describedPages userAddress size - 1 + 1) := short.trans total
    simp only [pageSize] at bytes
    omega
  · rw [framesOf_length]
    unfold EndsOnPage at ends
    simp only [pageSize] at ends ⊢
    omega

end List

section Call

variable {space : Vm.ReservationSpace} {tables process : PagingTables} {userAddress size : Nat}

theorem mem_regionPages {base : Nat} {entry : Nat -> PtEntry} {count : Nat} {page : Nat × PtEntry} :
    page ∈ regionPages base entry 0 (userFrames process userAddress count) ↔
      ∃ k, k < count ∧ page = (ptrOffset base (k * pageSize),
        entry ((process.translate (bufferPage userAddress k)).getD 0)) := by
  simp only [regionPages, userFrames, List.mem_mapIdx, List.length_map, List.length_range, List.getElem_map,
    List.getElem_range, Nat.zero_add]
  constructor
  · rintro ⟨k, inside, rfl⟩
    exact ⟨k, inside, rfl⟩
  · rintro ⟨k, inside, rfl⟩
    exact ⟨k, inside, rfl⟩

theorem regionPages_distinct {base : Nat} (aligned : base % pageSize = 0) (entry : Nat -> PtEntry) {count : Nat}
    (few : count < 2 ^ 20) : DistinctPages (regionPages base entry 0 (userFrames process userAddress count)) := by
  refine List.pairwise_iff_getElem.mpr (fun i j left right order same => ?_)
  simp only [regionPages, userFrames, List.length_mapIdx, List.length_map, List.length_range] at left right
  simp only [regionPages, List.getElem_mapIdx, Nat.zero_add] at same
  have equal := tableIndex_page aligned (show i < 2 ^ 21 by omega) (show j < 2 ^ 21 by omega) same
  omega

theorem alignRequest_automatic (space : Vm.ReservationSpace) (small : size < 2 ^ 32) :
    (Vm.alignRequest space 0 size).2 = (qword space.freeVirtualAddressPointer, reservedPages size * pageSize) := by
  rw [Vm.alignRequest, if_pos rfl, alignAddressUpper_page size (by omega)]
  rfl

theorem region_spec {rights : Nat} {after : Vm.ReservationSpace} {status : Vm.Status} {mapping : Vm.Mapping}
    (small : size < 2 ^ 32)
    (result : Vm.vmReservationSpaceAllocRegion space 0 size aliasAllocType rights false 0 =
      .ok (after, status, some mapping)) :
    status = .success ∧
      mapping = { mappedAddress := qword space.freeVirtualAddressPointer, mappedSize := reservedPages size * pageSize } ∧
      qword space.freeVirtualAddressPointer % pageSize = 0 ∧
      ∃ index, Vm.Added space after (qword space.freeVirtualAddressPointer) (reservedPages size * pageSize) index := by
  obtain ⟨success, address, length⟩ := Vm.vmReservationSpaceAllocRegion_mapped result
  rw [alignRequest_automatic space small] at address length
  rcases Vm.vmReservationSpaceAllocRegion_spec result with ⟨_, refused⟩ | ⟨_, index, added⟩
  · exact absurd (refused (by decide)) (by simp)
  · rw [alignRequest_automatic space small] at added
    have aligned := added.wellFormed.startVa_aligned
    rw [added.startVa_eq, isAddressAligned_page (qword_lt _), decide_eq_true_eq] at aligned
    refine ⟨success, ?_, aligned, index, added⟩
    cases mapping
    simp only [Vm.Mapping.mk.injEq]
    exact ⟨address, length⟩

theorem region_succeeds_iff {rights : Nat} (positive : 0 < size) (small : size < 2 ^ 32) :
    (∃ after mapping, Vm.vmReservationSpaceAllocRegion space 0 size aliasAllocType rights false 0 =
      .ok (after, .success, some mapping)) ↔
      Vm.RoomFor space (qword space.freeVirtualAddressPointer) (reservedPages size) :=
  Vm.allocRegion_succeeds_iff positive small (by decide) (by decide) (by decide)

theorem alias_call_spec {pagingData : PagingData} {patIndex pageRights kernelAddress : Nat} {allocated : Bool}
    {after : KernelState} (bound : userAddress < 2 ^ 64) (positive : 0 < size) (small : size < 2 ^ 32)
    (mapped : AllMapped process userAddress size)
    (result : mmuGetSystemVirtualAddressForUserBuffer { space := space, tables := tables, pagingData := pagingData }
      patIndex process allocated userAddress size pageRights = .ok (after, .success, some kernelAddress)) :
    Completes space tables process userAddress size ∧
      qword space.freeVirtualAddressPointer % pageSize = 0 ∧
      kernelAddress = ptrOffset (qword space.freeVirtualAddressPointer) (userAddress % pageSize) ∧
      (∃ index, Vm.Added space after.space (qword space.freeVirtualAddressPointer) (reservedPages size * pageSize)
        index) ∧
      MapsPages tables after.tables false (regionPages (qword space.freeVirtualAddressPointer)
        (regionEntry pageRights patIndex pagingData.kernelSpace) 0
        (userFrames process userAddress (describedPages userAddress size))) := by
  have offset : addressOffset userAddress pageSize = userAddress % pageSize := addressOffset_two_pow 12 bound
  unfold mmuGetSystemVirtualAddressForUserBuffer at result
  split at result
  · cases result
  split at result
  · cases result
  rw [Kernel.assert_bind_eq_ok] at result
  obtain ⟨_, result⟩ := result
  obtain ⟨made, list, result⟩ := Kernel.bind_eq_ok.mp result
  rw [dword_of_lt small] at list
  cases made with
  | none => cases result
  | some mdl =>
    obtain ⟨accepts, found, walks, rfl⟩ := mdlAllocateEx_some bound small list
    dsimp only at result
    obtain ⟨⟨kernel, address⟩, region, result⟩ := Kernel.bind_eq_ok.mp result
    dsimp only at result
    cases address with
    | none => cases result
    | some address =>
      dsimp only at result
      obtain ⟨rfl, _, given⟩ := by simpa only [Prod.mk.injEq] using Except.ok.inj result
      rw [offset] at given
      simp only [vmmAllocRegionEx, Kernel.assert_bind_eq_ok] at region
      obtain ⟨_, _, _, region⟩ := region
      obtain ⟨⟨reserved, status, mapping⟩, alloc, region⟩ := Kernel.bind_eq_ok.mp region
      dsimp only at region
      cases mapping with
      | none => cases region
      | some mapping =>
        obtain ⟨rfl, rfl, aligned, index, added⟩ := region_spec small alloc
        simp only [Kernel.assert_bind_eq_ok] at region
        obtain ⟨_, _, _, region⟩ := region
        obtain ⟨⟨mappedTables, mappedData⟩, described, region⟩ := Kernel.bind_eq_ok.mp region
        obtain ⟨rfl, rfl⟩ := by simpa only [Prod.mk.injEq, Option.some.injEq] using Except.ok.inj region
        simp only [vmmMapDescribedRegion, Kernel.assert_bind_eq_ok] at described
        obtain ⟨_, _, described⟩ := described
        have pages := @describedPages_le userAddress size positive
        have frames := listMade_frames bound positive small mapped
        have count : (userFrames process userAddress (describedPages userAddress size)).length =
            describedPages userAddress size := by
          rw [userFrames, List.length_map, List.length_range]
        rw [← Nat.zero_mul pageSize] at described
        have run := mapPairs_spec (fun pair member => (listMade_small bound positive small mapped pair member).1)
          (by
            rw [frames, count]
            simp only [pageSize]
            omega)
          (by
            rw [frames]
            exact regionPages_distinct aligned _ pages.2.2) described
        rw [frames] at run
        obtain ⟨reachable, maps⟩ := run
        have room := (region_succeeds_iff positive small).mp ⟨_, _, alloc⟩
        refine ⟨⟨accepts, found, walks, room, fun page inside => ?_⟩, aligned, (Option.some.inj given).symm,
          ⟨index, added⟩, maps⟩
        exact reachable _ (mem_regionPages.mpr ⟨page, inside, rfl⟩)

theorem alias_call_succeeds (bound : userAddress < 2 ^ 64) (positive : 0 < size) (small : size < 2 ^ 32)
    (mapped : AllMapped process userAddress size) (completes : Completes space tables process userAddress size) :
    ∃ pagingData patIndex pageRights after kernelAddress,
      mmuGetSystemVirtualAddressForUserBuffer { space := space, tables := tables, pagingData := pagingData } patIndex
        process true userAddress size pageRights = .ok (after, .success, some kernelAddress) := by
  obtain ⟨accepts, found, walks, room, pages⟩ := completes
  obtain ⟨after, mapping, alloc⟩ := (@region_succeeds_iff space size 0 positive small).mpr room
  obtain ⟨_, rfl, aligned, index, added⟩ := region_spec small alloc
  have few := @describedPages_le userAddress size positive
  have frames := listMade_frames bound positive small mapped
  have count : (userFrames process userAddress (describedPages userAddress size)).length =
      describedPages userAddress size := by
    rw [userFrames, List.length_map, List.length_range]
  let pagingData : PagingData :=
    { basePhysicalAddress := 0, numberOfFrames := 3 * 2 ^ 20, currentIndex := 0, kernelSpace := true }
  obtain ⟨⟨mappedTables, mappedData⟩, described⟩ : ∃ result, mapPairs 0 (qword space.freeVirtualAddressPointer) 0
      tables pagingData (0 * pageSize) (listMade process userAddress size).translations = .ok result := by
    refine mapPairs_succeeds (fun pair member => (listMade_small bound positive small mapped pair member).1)
      (fun pair member => (listMade_small bound positive small mapped pair member).2) ?_ ?_ aligned ?_ ?_
    · rw [frames, count]
      simp only [pageSize]
      omega
    · rw [frames]
      exact regionPages_distinct aligned _ few.2.2
    · rw [frames]
      intro page member
      obtain ⟨k, inside, rfl⟩ := mem_regionPages.mp member
      exact pages k inside
    · rw [frames, count]
      dsimp only [pagingData]
      omega
  have nonNull : userAddress ≠ 0 := accepts_ne_zero accepts
  have nonempty : size ≠ 0 := by omega
  have sizeOk : decide (size ≤ maxDword) = true := decide_eq_true (by unfold maxDword; omega)
  have sizeSet : (size != 0) = true := bne_iff_ne.mpr nonempty
  have start := (pages 0 few.2.1).1
  have base : ptrOffset (qword space.freeVirtualAddressPointer) (0 * pageSize) =
      qword space.freeVirtualAddressPointer := by
    rw [Nat.zero_mul]
    exact qword_of_lt (qword_lt _)
  rw [kernelPage, base] at start
  have baseSet : (0 != qword space.freeVirtualAddressPointer) = true := bne_iff_ne.mpr start.symm
  have baseSet' : (qword space.freeVirtualAddressPointer != 0) = true := bne_iff_ne.mpr start
  have baseAligned : isAddressAligned (qword space.freeVirtualAddressPointer) pageSize = true := by
    rw [isAddressAligned_page (qword_lt _), aligned]
    rfl
  have covered : decide (size ≤ reservedPages size * pageSize) = true := by
    refine decide_eq_true ?_
    simp only [reservedPages, pageSize]
    omega
  have region : vmmAllocRegionEx { space := space, tables := tables, pagingData := pagingData } 0 size aliasAllocType
      0 (listMade process userAddress size) =
        .ok ({ space := after, tables := mappedTables, pagingData := mappedData },
          some (qword space.freeVirtualAddressPointer)) := by
    rw [Nat.zero_mul] at described
    have flags : isFlagOn aliasAllocType (Vm.allocTypeCommit ||| Vm.allocTypeReserve) = true := by decide
    have notLazy : isBooleanFlagOn aliasAllocType allocTypeNotLazy = true := by decide
    have commit : isBooleanFlagOn aliasAllocType Vm.allocTypeCommit = true := by decide
    have bytes : (listMade process userAddress size).byteCount = size := rfl
    simp only [vmmAllocRegionEx, vmmMapDescribedRegion, sizeSet, flags, notLazy, commit, alloc, baseSet, baseSet',
      baseAligned, bytes, covered, described, assert_true, Kernel.ok_bind, Kernel.pure_eq]
  refine ⟨pagingData, 0, 0, { space := after, tables := mappedTables, pagingData := mappedData },
    ptrOffset (qword space.freeVirtualAddressPointer) (addressOffset userAddress pageSize), ?_⟩
  rw [mmuGetSystemVirtualAddressForUserBuffer, if_neg nonNull, if_neg nonempty, sizeOk, assert_true, Kernel.ok_bind,
    dword_of_lt small, mdlAllocateEx_makes (.pagingData false) bound positive small accepts found walks, Kernel.ok_bind]
  dsimp only
  rw [region]
  rfl

theorem bufferPages_le (small : size < 2 ^ 32) : bufferPages userAddress size < 2 ^ 21 := by
  unfold bufferPages
  simp only [pageSize]
  omega

section Effect

variable {after : PagingTables} {rights patIndex : Nat} {kernelSpace : Bool}
  (aligned : qword space.freeVirtualAddressPointer % pageSize = 0) (positive : 0 < size) (small : size < 2 ^ 32)
  (mapped : AllMapped process userAddress size)
  (maps : MapsPages tables after false (regionPages (qword space.freeVirtualAddressPointer)
    (regionEntry rights patIndex kernelSpace) 0 (userFrames process userAddress (describedPages userAddress size))))

include aligned in
theorem kernelPage_aligned (page : Nat) : kernelPage space page % pageSize = 0 := by
  simp only [kernelPage, ptrOffset, qword, pageSize] at *
  omega

include aligned positive small mapped maps in
theorem kernelPage_after {page : Nat} (inside : page < bufferPages userAddress size) :
    after.translate (kernelPage space page) =
      if page < describedPages userAddress size ∧ tables.mapping (kernelPage space page) = none then
        process.translate (bufferPage userAddress page)
      else tables.translate (kernelPage space page) := by
  have few := @bufferPages_le userAddress size small
  have described := @describedPages_le userAddress size positive
  rw [translate_eq after, translate_eq tables]
  by_cases listed : page < describedPages userAddress size
  · have here := maps.here _ (mem_regionPages.mpr ⟨page, listed, rfl⟩)
    obtain ⟨frame, found, frameAligned⟩ := page_mapped positive mapped listed
    rw [found, Option.getD_some] at here
    cases before : tables.mapping (kernelPage space page) with
    | some entry =>
      rw [kernelPage] at before
      rw [before] at here
      rw [if_neg (by simp), kernelPage, here]
      rfl
    | none =>
      have there := before
      rw [kernelPage] at before
      rw [before] at here
      rw [if_pos ⟨listed, rfl⟩, found, kernelPage, here]
      have zero := kernelPage_aligned aligned page
      have entry : pteGetPhysicalAddress (regionEntry rights patIndex kernelSpace frame) = frame :=
        pteGetPhysicalAddress_pteMap _ frameAligned (translate_lt found)
      simp only [Option.isSome_none, Bool.false_and, Bool.false_eq_true, if_false, Option.map_some, entryTranslate]
      rw [entry, show ptrOffset (qword space.freeVirtualAddressPointer) (page * pageSize) % 2 ^ 12 = 0 from zero,
        Nat.add_zero]
  · rw [if_neg (fun both => listed both.1), maps.elsewhere]
    intro other member same
    obtain ⟨k, within, rfl⟩ := mem_regionPages.mp member
    have equal := tableIndex_page aligned (show page < 2 ^ 21 by omega) (show k < 2 ^ 21 by omega) same
    omega

include aligned in
theorem alias_byte {i : Nat} (inside : i < size) :
    (userAddress % pageSize + i) / pageSize < bufferPages userAddress size ∧
      qword (ptrOffset (qword space.freeVirtualAddressPointer) (userAddress % pageSize) + i) =
        kernelPage space ((userAddress % pageSize + i) / pageSize) + (userAddress % pageSize + i) % pageSize ∧
      qword (userAddress + i) =
        bufferPage userAddress ((userAddress % pageSize + i) / pageSize) + (userAddress % pageSize + i) % pageSize := by
  simp only [bufferPages, kernelPage, bufferPage, ptrOffset, qword, pageSize] at *
  omega

include aligned positive small in
theorem same_iff :
    (forall i, i < size ->
      after.translate (qword (ptrOffset (qword space.freeVirtualAddressPointer) (userAddress % pageSize) + i)) =
        process.translate (qword (userAddress + i))) ↔
      forall page, page < bufferPages userAddress size ->
        after.translate (kernelPage space page) = process.translate (bufferPage userAddress page) := by
  have byte (page offset : Nat) (below : offset < pageSize) :
      after.translate (kernelPage space page + offset) = (after.translate (kernelPage space page)).map (· + offset) ∧
        process.translate (bufferPage userAddress page + offset) =
          (process.translate (bufferPage userAddress page)).map (· + offset) := by
    have kernel := kernelPage_aligned aligned page
    have user := @bufferPage_aligned userAddress page
    simp only [pageSize] at kernel user below
    exact ⟨translate_offset (by omega), translate_offset (by omega)⟩
  constructor
  · intro same page inside
    have below : userAddress % pageSize < pageSize := Nat.mod_lt _ (by decide)
    have first : page * pageSize - userAddress % pageSize < size := by
      simp only [bufferPages, pageSize] at inside below ⊢
      omega
    have number : (userAddress % pageSize + (page * pageSize - userAddress % pageSize)) / pageSize = page := by
      simp only [pageSize] at below ⊢
      omega
    obtain ⟨_, kernel, user⟩ := @alias_byte space userAddress size aligned _ first
    have equal := same _ first
    obtain ⟨kernelByte, userByte⟩ := byte page
      ((userAddress % pageSize + (page * pageSize - userAddress % pageSize)) % pageSize) (Nat.mod_lt _ (by decide))
    rw [number] at kernel user
    rw [kernel, user, kernelByte, userByte] at equal
    exact Option.map_injective (fun _ _ sum => Nat.add_right_cancel sum) equal
  · intro pages i inside
    obtain ⟨within, kernel, user⟩ := @alias_byte space userAddress size aligned _ inside
    obtain ⟨kernelByte, userByte⟩ := byte ((userAddress % pageSize + i) / pageSize)
      ((userAddress % pageSize + i) % pageSize) (Nat.mod_lt _ (by decide))
    rw [kernel, user, kernelByte, userByte, pages _ within]

include positive small in
theorem inside_iff :
    (forall i, i < size -> Vm.InRange (qword space.freeVirtualAddressPointer) (reservedPages size * pageSize)
      (qword (ptrOffset (qword space.freeVirtualAddressPointer) (userAddress % pageSize) + i))) ↔
      bufferPages userAddress size ≤ reservedPages size := by
  have below : userAddress % pageSize < pageSize := Nat.mod_lt _ (by decide)
  have distance (i : Nat) (inside : i < size) : ptrDiff
      (qword (ptrOffset (qword space.freeVirtualAddressPointer) (userAddress % pageSize) + i))
      (qword space.freeVirtualAddressPointer) = userAddress % pageSize + i := by
    simp only [ptrDiff, ptrOffset, qword, pageSize] at below ⊢
    omega
  unfold Vm.InRange
  constructor
  · intro within
    have last := within (size - 1) (by omega)
    rw [distance (size - 1) (by omega)] at last
    simp only [bufferPages, reservedPages, pageSize] at last below ⊢
    omega
  · intro fits i inside
    rw [distance i inside]
    simp only [bufferPages, reservedPages, pageSize] at fits below ⊢
    omega

include positive maps in
theorem others_kept (fits : bufferPages userAddress size ≤ reservedPages size) {other : Nat}
    (outside : forall i, i < reservedPages size * pageSize ->
      tableIndex 4 other ≠ tableIndex 4 (qword (qword space.freeVirtualAddressPointer + i))) :
    after.mapping other = tables.mapping other := by
  have described := @describedPages_le userAddress size positive
  refine maps.elsewhere other (fun page member => ?_)
  obtain ⟨k, within, rfl⟩ := mem_regionPages.mp member
  refine outside (k * pageSize) ?_
  simp only [pageSize]
  omega

end Effect

theorem alias_sound_iff (space : Vm.ReservationSpace) (tables : PagingTables) (bound : userAddress < 2 ^ 64)
    (positive : 0 < size) (small : size < 2 ^ 32) (mapped : AllMapped process userAddress size) :
    AliasSound space tables process userAddress size ↔ AliasFits space tables process userAddress size := by
  constructor
  · intro sound completes
    obtain ⟨pagingData, patIndex, rights, after, kernelAddress, call⟩ :=
      alias_call_succeeds bound positive small mapped completes
    obtain ⟨_, aligned, rfl, _, maps⟩ := alias_call_spec bound positive small mapped call
    have faithful := sound pagingData patIndex true rights after _ call
    refine ⟨(inside_iff positive small).mp faithful.inside, fun page inside => ?_⟩
    have same := (same_iff aligned positive small).mp faithful.same page inside
    rw [kernelPage_after aligned positive small mapped maps inside] at same
    by_cases fresh : page < describedPages userAddress size ∧ tables.mapping (kernelPage space page) = none
    · exact .inl fresh
    · rw [if_neg fresh] at same
      exact .inr same
  · intro fits pagingData patIndex allocated rights after kernelAddress call
    obtain ⟨completes, aligned, rfl, added, maps⟩ := alias_call_spec bound positive small mapped call
    obtain ⟨enough, pages⟩ := fits completes
    refine ⟨(same_iff aligned positive small).mpr (fun page inside => ?_), added,
      (inside_iff positive small).mpr enough, fun other outside => others_kept positive maps enough outside⟩
    rw [kernelPage_after aligned positive small mapped maps inside]
    split
    · rfl
    · rename_i stale
      exact (pages page inside).resolve_left stale

end Call

def emptyTables : PagingTables := { entry := fun _ _ => {} }

theorem sampleTables_accepts {address : Nat} (low : pageSize ≤ address)
    (first : tableIndex 1 address = 0) (second : tableIndex 2 address = 0) :
    sampleTables.Accepts address := by
  refine ⟨low, ?_⟩
  unfold PagingTables.Refused PagingTables.lookUp
  simp [sampleTables, first, second]

theorem sample_completes {userAddress : Nat} (accepts : sampleTables.Accepts userAddress)
    (found : ¬ sampleTables.LooksNull userAddress) (walks : WalksThrough sampleTables userAddress 0x1000)
    (few : describedPages userAddress 0x1000 ≤ 2) :
    Completes Vm.sampleSpace emptyTables sampleTables userAddress 0x1000 := by
  have room := (@region_succeeds_iff Vm.sampleSpace 0x1000 0 (by decide) (by decide)).mp ⟨_, _, rfl⟩
  refine ⟨accepts, found, walks, room, fun page inside => ?_⟩
  have pages : page < 2 := by omega
  interval_cases page <;> exact ⟨by decide, by unfold PagingTables.Blocked; decide⟩

theorem alias_sound_sample :
    Completes Vm.sampleSpace emptyTables sampleTables 0x1000 0x1000 ∧
      AliasSound Vm.sampleSpace emptyTables sampleTables 0x1000 0x1000 := by
  have mapped : AllMapped sampleTables 0x1000 0x1000 := by
    intro page inside
    have pages : page < 1 := inside
    interval_cases page
    rfl
  refine ⟨sample_completes (sampleTables_accepts (by decide) (by decide) (by decide)) (by decide) ?_ (by decide),
    (alias_sound_iff Vm.sampleSpace emptyTables (by decide) (by decide) (by decide) mapped).mpr
      (fun _ => ⟨by decide, fun page inside => ?_⟩)⟩
  · intro _ page later inside
    have pages : page < 1 := inside
    omega
  · have pages : page < 1 := inside
    interval_cases page
    exact .inl ⟨by decide, rfl⟩

-- 0x1000 bytes from the middle of a page on lie in two pages, and one page is reserved for them.
theorem alias_unsound_sample :
    ¬ forall space tables process userAddress size, Vm.reservationSystem.Reachable space -> userAddress < 2 ^ 64 ->
      0 < size -> size < 2 ^ 32 -> AllMapped process userAddress size ->
      AliasSound space tables process userAddress size := by
  intro claim
  have mapped : AllMapped sampleTables 0x1800 0x1000 := by
    intro page inside
    have pages : page < 2 := inside
    interval_cases page <;> rfl
  have sound := claim Vm.sampleSpace emptyTables sampleTables 0x1800 0x1000 (.start Vm.sampleSpace_initialized)
    (by decide) (by decide) (by decide) mapped
  have completes := @sample_completes 0x1800
    (sampleTables_accepts (by decide) (by decide) (by decide)) (by decide) (by
      intro _ page later inside
      have pages : page < 2 := inside
      interval_cases page
      exact ⟨sampleTables_accepts (by decide) (by decide) (by decide), by decide⟩) (by decide)
  obtain ⟨pagingData, patIndex, rights, after, kernelAddress, call⟩ :=
    alias_call_succeeds (by decide) (by decide) (by decide) mapped completes
  have inside := (sound pagingData patIndex true rights after kernelAddress call).inside
  obtain ⟨_, _, rfl, _⟩ := alias_call_spec (by decide) (by decide) (by decide) mapped call
  exact absurd ((inside_iff (by decide) (by decide)).mp inside) (by decide)

end Hal9000.Mmu
