import Hal9000.Lib.Memory
import Hal9000.Mmu.Regions
import Hal9000.Pmm.FreeFrames
import Hal9000.Vm.BufferValid

set_option autoImplicit false

namespace Hal9000.Mmu

def pageRightsReadWrite : Nat := 0 ||| pageRightsWrite

structure Pcpu where
  vmmMemoryAccess : Bool
  pageFaults : Nat

-- The CPU that takes the fault; `GetCurrentPcpu` may still answer NULL.
structure Cpu where
  interruptsOff : Bool
  pcpu : Option Pcpu

-- The output parameters of VmReservationCanAddressBeAccessed; a file object is its pointer.
structure AccessDescription where
  memoryRights : Nat
  uncacheable : Bool := false
  backingFile : Nat := 0
  fileOffset : Nat := 0
  deriving DecidableEq, Repr

def vmReservationCanAddressBeAccessed (cpu : Cpu) (space : Vm.ReservationSpace) (faultingAddress rightsRequested : Nat) :
    Kernel (Option AccessDescription) := do
  assert cpu.interruptsOff "INTR_OFF == CpuIntrGetState()"
  if faultingAddress = 0 then pure none
  else if checkBounds faultingAddress 1 space.reservationList space.reservedAreaSize then
    if cpu.pcpu.all (fun pcpu => pcpu.vmmMemoryAccess) then
      pure (if isBooleanFlagOn rightsRequested pageRightsExecute then none
        else some { memoryRights := pageRightsReadWrite })
    else pure none
  else do
    let found <- Vm.vmFindReservation space faultingAddress 1
    match found with
    | none => pure none
    | some index =>
      let reservation := space.slots index
      let isVaCommited <- Vm.vmIsVaCommited space reservation faultingAddress
      let fileOffset :=
        if reservation.backingFile != 0 then alignAddressLower (ptrDiff faultingAddress reservation.startVa) pageSize
        else 0
      pure (if isVaCommited && isBooleanFlagOn reservation.pageRights rightsRequested then
          some
            { memoryRights := reservation.pageRights
              uncacheable := reservation.uncacheable
              backingFile := reservation.backingFile
              fileOffset := fileOffset }
        else none)

-- What a fault finds and leaves alone: the reservation spaces, the place of the frame bitmap, the PAT indices for
-- uncacheable and for other memory, and the files with the reads that fail.
structure FaultContext where
  kernelSpace : Vm.ReservationSpace
  processSpace : Vm.ReservationSpace
  pmmData : Pmm.PmmData
  patIndex : Bool -> Nat
  contents : Nat -> List UInt8
  readFails : Nat -> Nat -> Bool

structure FaultState where
  cpu : Cpu
  tables : PagingTables
  pagingData : PagingData
  frames : Memory
  physical : Lib.Memory

def vmmRetrieveReservationSpaceForAddress (context : FaultContext) (virtualAddress : Nat) : Vm.ReservationSpace :=
  if Vm.vmIsKernelAddress virtualAddress then context.kernelSpace else context.processSpace

def ioReadFile (context : FaultContext) (file size offset : Nat) : Option (List UInt8) :=
  if context.readFails file offset then none else some (((context.contents file).drop offset).take size)

def writeBytes (tables : PagingTables) (address : Nat) : List UInt8 -> Lib.Memory -> Kernel Lib.Memory
  | [], physical => pure physical
  | byte :: rest, physical =>
    match tables.translate (qword address) with
    | none => .error "#PF"
    | some place => writeBytes tables (address + 1) rest (physical.put place byte)

def zeroRest (state : FaultState) (alignedAddress bytesReadFromFile : Nat) : Kernel FaultState :=
  if bytesReadFromFile ≠ pageSize then do
    let physical <- writeBytes state.tables (ptrOffset alignedAddress bytesReadFromFile)
      (List.replicate (pageSize - dword bytesReadFromFile) 0) state.physical
    pure { state with physical := physical }
  else pure state

def countPageFault (cpu : Cpu) : Cpu :=
  { cpu with pcpu := cpu.pcpu.map (fun pcpu => { pcpu with pageFaults := qword (pcpu.pageFaults + 1) }) }

-- The block of VmmSolvePageFault for an access that is valid.
def solveAccess (context : FaultContext) (state : FaultState) (faultingAddress : Nat) (access : AccessDescription) :
    Kernel (FaultState × Bool) := do
  let (pa, frames) <- Pmm.pmmReserveMemoryEx state.frames context.pmmData 1 0
  assert (0 != pa) "NULL != pa"
  let alignedAddress := alignAddressLower faultingAddress pageSize
  let (tables, pagingData) <- mmuMapMemoryInternal state.tables state.pagingData pa pageSize access.memoryRights
    alignedAddress true (context.patIndex access.uncacheable)
  let mapped : FaultState := { state with tables := tables, pagingData := pagingData, frames := frames }
  if access.backingFile = 0 then
    let zeroed <- zeroRest mapped alignedAddress 0
    pure ({ zeroed with cpu := countPageFault zeroed.cpu }, true)
  else
    match ioReadFile context access.backingFile pageSize access.fileOffset with
    | none => pure (mapped, false)
    | some bytes =>
      let physical <- writeBytes tables alignedAddress bytes mapped.physical
      assert (decide (bytes.length ≤ pageSize)) "bytesReadFromFile <= PAGE_SIZE"
      let zeroed <- zeroRest { mapped with physical := physical } alignedAddress bytes.length
      pure ({ zeroed with cpu := countPageFault zeroed.cpu }, true)

def vmmSolvePageFault (context : FaultContext) (state : FaultState) (faultingAddress rightsRequested : Nat) :
    Kernel (FaultState × Bool) := do
  assert state.cpu.interruptsOff "INTR_OFF == CpuIntrGetState()"
  if alignAddressLower faultingAddress pageSize = 0 then pure (state, false)
  else if Vm.vmIsKernelAddress faultingAddress && !state.pagingData.kernelSpace then pure (state, false)
  else if !Vm.vmIsKernelAddress faultingAddress && state.pagingData.kernelSpace then pure (state, false)
  else do
    let access <- vmReservationCanAddressBeAccessed state.cpu
      (vmmRetrieveReservationSpaceForAddress context faultingAddress) faultingAddress rightsRequested
    match access with
    | none => pure (state, false)
    | some access => solveAccess context state faultingAddress access

structure Untouched (context : FaultContext) (before after : FaultState) : Prop where
  mapping : forall virtualAddress, after.tables.mapping virtualAddress = before.tables.mapping virtualAddress
  frames : forall frame, Pmm.isFree after.frames context.pmmData frame = Pmm.isFree before.frames context.pmmData frame

structure Resolved (context : FaultContext) (before after : FaultState) (page rights : Nat) (uncacheable : Bool)
    (bytes : List UInt8) (frame : Nat) : Prop where
  free : Pmm.isFree before.frames context.pmmData frame = true
  taken : forall other, Pmm.isFree after.frames context.pmmData other =
    (Pmm.isFree before.frames context.pmmData other && other != frame)
  here : after.tables.mapping page =
    some (4, regionEntry rights (context.patIndex uncacheable) before.pagingData.kernelSpace (frame * pageSize))
  elsewhere : forall other, tableIndex 4 other ≠ tableIndex 4 page ->
    after.tables.mapping other = before.tables.mapping other
  contents : forall i, i < pageSize -> after.tables.translate (page + i) = some (frame * pageSize + i) ∧
    after.physical (frame * pageSize + i) = bytes.getD i 0

structure Accessible (space : Vm.ReservationSpace) (address rightsRequested index : Nat) : Prop where
  covers : (space.slots index).Covers address
  commited : (space.slots index).pageCommited space ((address - (space.slots index).startVa) / pageSize) = true
  rights : isBooleanFlagOn (space.slots index).pageRights rightsRequested = true

def pageOffsetInFile (reservation : Vm.Reservation) (address : Nat) : Nat :=
  address / pageSize * pageSize - reservation.startVa

def fileBytes (context : FaultContext) (reservation : Vm.Reservation) (address : Nat) : List UInt8 :=
  if reservation.backingFile = 0 then []
  else ((context.contents reservation.backingFile).drop (pageOffsetInFile reservation address)).take pageSize

def ResolvedInReservation (context : FaultContext) (before after : FaultState) (address rightsRequested : Nat) : Prop :=
  ∃ index frame, Accessible (vmmRetrieveReservationSpaceForAddress context address) address rightsRequested index ∧
    Resolved context before after (address / pageSize * pageSize)
      ((vmmRetrieveReservationSpaceForAddress context address).slots index).pageRights
      ((vmmRetrieveReservationSpaceForAddress context address).slots index).uncacheable
      (fileBytes context ((vmmRetrieveReservationSpaceForAddress context address).slots index) address) frame

structure MetadataAccess (cpu : Cpu) (space : Vm.ReservationSpace) (address rightsRequested : Nat) : Prop where
  area : checkBounds address 1 space.reservationList space.reservedAreaSize = true
  expected : forall pcpu, cpu.pcpu = some pcpu -> pcpu.vmmMemoryAccess = true
  data : isBooleanFlagOn rightsRequested pageRightsExecute = false

def FileReadFails (context : FaultContext) (address rightsRequested : Nat) : Prop :=
  ∃ index, Accessible (vmmRetrieveReservationSpaceForAddress context address) address rightsRequested index ∧
    ((vmmRetrieveReservationSpaceForAddress context address).slots index).backingFile ≠ 0 ∧
    context.readFails ((vmmRetrieveReservationSpaceForAddress context address).slots index).backingFile
      (pageOffsetInFile ((vmmRetrieveReservationSpaceForAddress context address).slots index) address) = true

-- What the two answers mean: FALSE, if it is not for a file that could not be read, that nothing happened; TRUE
-- that the page has been mapped and filled, in a reservation or in the metadata of one.
structure FaultAnswered (context : FaultContext) (before : FaultState) (address rightsRequested : Nat) : Prop where
  refused : forall after, vmmSolvePageFault context before address rightsRequested = .ok (after, false) ->
    ¬ FileReadFails context address rightsRequested -> Untouched context before after
  solved : forall after, vmmSolvePageFault context before address rightsRequested = .ok (after, true) ->
    ResolvedInReservation context before after address rightsRequested ∨
      MetadataAccess before.cpu (vmmRetrieveReservationSpaceForAddress context address) address rightsRequested ∧
        ∃ frame, Resolved context before after (address / pageSize * pageSize) pageRightsReadWrite false [] frame

section Frame

variable {memory after : Memory} {data : Pmm.PmmData}

theorem scanLoop_spec {buffer count i tries found : Nat} {set : Bool}
    (result : Bitmap.scanLoop memory buffer count set i tries = found) (hit : found ≠ maxDword) :
    i ≤ found ∧ found < i + tries ∧ Bitmap.bitsAre memory buffer found set count = true := by
  induction tries generalizing i with
  | zero => exact absurd result.symm hit
  | succ tries ih =>
    rw [Bitmap.scanLoop] at result
    split at result
    next here =>
      subst result
      exact ⟨Nat.le_refl _, by omega, here⟩
    next =>
      obtain ⟨lower, upper, bits⟩ := ih result
      exact ⟨by omega, by omega, bits⟩

theorem pmmReserveMemoryEx_one {pa : Nat} (bits : data.allocationBitmap.bitCount < 2 ^ 32) (nonNull : pa ≠ 0)
    (result : Pmm.pmmReserveMemoryEx memory data 1 0 = .ok (pa, after)) :
    ∃ frame, frame < 2 ^ 32 ∧ pa = frame * pageSize ∧ Pmm.isFree memory data frame = true ∧
      forall other, Pmm.isFree after data other = (Pmm.isFree memory data other && other != frame) := by
  have null : forall frames, (.ok (0, frames) : Kernel (Nat × Memory)) ≠ .ok (pa, after) := by
    intro frames equal
    exact nonNull (Prod.mk.inj (Except.ok.inj equal)).1.symm
  have start : dword (0 / pageSize) = 0 := rfl
  rw [Pmm.pmmReserveMemoryEx, if_neg (by decide), if_neg (by decide), if_neg (by decide), start] at result
  obtain ⟨⟨index, flipped⟩, scan, result⟩ := Kernel.bind_eq_ok.mp result
  dsimp only at result
  split at result
  next => exact absurd result (null _)
  next hit =>
    obtain ⟨rfl, rfl⟩ := Prod.mk.inj (Except.ok.inj result)
    rw [Bitmap.scanFromAndFlip, Bitmap.scanFromToAndFlip, if_neg (by decide)] at scan
    split at scan
    next => exact absurd (Prod.mk.inj (Except.ok.inj scan)).1.symm hit
    next =>
      obtain ⟨found, scanned, scan⟩ := Kernel.bind_eq_ok.mp scan
      split at scan
      next => exact absurd (Prod.mk.inj (Except.ok.inj scan)).1.symm hit
      next =>
        obtain ⟨rfl, rfl⟩ := Prod.mk.inj (Except.ok.inj scan)
        simp only [Bitmap.scanInternal, Kernel.assert_bind_eq_ok] at scanned
        obtain ⟨_, _, _, scanned⟩ := scanned
        split at scanned
        next => exact absurd (Except.ok.inj scanned).symm hit
        next room =>
          obtain ⟨_, upper, clear⟩ := scanLoop_spec (Except.ok.inj scanned) hit
          rw [Bitmap.bitsAre_iff _ _ _ _ _ (by omega)] at clear
          have bit := clear found (Nat.le_refl _) (Nat.lt_succ_self _)
          refine ⟨found, by omega, ?_, ?_, fun other => ?_⟩
          · rw [qword, Nat.mod_eq_of_lt]
            simp only [pageSize]
            omega
          · rw [Pmm.isFree, bit, decide_eq_true (by omega)]
            rfl
          · rw [Pmm.isFree, Pmm.isFree, Bitmap.getBit_changeBits _ _ _ _ _ _ (by omega)]
            by_cases same : other = found
            · rw [if_pos (by omega), same]
              simp
            · rw [if_neg (by omega)]
              simp [same]

end Frame

section Page

variable {tables after : PagingTables} {pagingData afterData : PagingData} {page frame rights patIndex : Nat}

theorem mapPage_replaces (bound : page < 2 ^ 64) (low : frame < 2 ^ 32)
    (mapped : mmuMapMemoryInternal tables pagingData (frame * pageSize) pageSize rights page true patIndex =
      .ok (after, afterData)) :
    after.mapping page = some (4, regionEntry rights patIndex pagingData.kernelSpace (frame * pageSize)) ∧
      forall other, tableIndex 4 other ≠ tableIndex 4 page -> after.mapping other = tables.mapping other := by
  simp only [mmuMapMemoryInternal, vmmMapMemoryInternal, vmWalkPagingTables, Kernel.assert_bind_eq_ok] at mapped
  obtain ⟨_, _, _, _, _, _, walked⟩ := mapped
  have here : ptrOffset page 0 = page := qword_of_lt bound
  have offsets : pageOffsets pageSize = [0] := rfl
  rw [offsets] at walked
  obtain ⟨_, maps, _⟩ := walkPages_spec (by exact List.pairwise_singleton _ _) walked
  rw [List.map_singleton, here, pageMapped] at maps
  have entry : pteMap (mapAddress
      { physicalAddressBase := frame * pageSize
        virtualAddressBase := page
        pageRights := rights
        invalidate := true
        patIndex := patIndex } page) (mapFlags
      { physicalAddressBase := frame * pageSize
        virtualAddressBase := page
        pageRights := rights
        invalidate := true
        patIndex := patIndex } pagingData.kernelSpace) =
      regionEntry rights patIndex pagingData.kernelSpace (frame * pageSize) := by
    have address : ptrOffset (frame * pageSize) (ptrDiff page page) = frame * pageSize := by
      simp only [ptrOffset, ptrDiff, qword, pageSize]
      omega
    rw [mapAddress, address]
    rfl
  constructor
  · have there := maps.here _ (List.mem_singleton_self _)
    rw [entry] at there
    simpa using there
  · intro other different
    exact maps.elsewhere other (fun listed member => by rwa [List.mem_singleton.mp member])

theorem translate_mapped (aligned : page % pageSize = 0) (low : frame < 2 ^ 32)
    (mapped : tables.mapping page = some (4, regionEntry rights patIndex pagingData.kernelSpace (frame * pageSize)))
    {i : Nat} (inside : i < pageSize) : tables.translate (page + i) = some (frame * pageSize + i) := by
  have zero : page % 2 ^ 12 = 0 := aligned
  have start : tables.translate page = some (frame * pageSize) := by
    have address : pteGetPhysicalAddress (regionEntry rights patIndex pagingData.kernelSpace (frame * pageSize)) =
        frame * pageSize := by
      refine pteGetPhysicalAddress_pteMap _ (Nat.mul_mod_left _ _) ?_
      simp only [pageSize]
      omega
    have last (entry : PtEntry) : entryTranslate page (4, entry) = pteGetPhysicalAddress entry + page % 2 ^ 12 := rfl
    rw [translate_eq, mapped, Option.map_some, last, address, zero, Nat.add_zero]
  have within : page % 2 ^ 12 + i < 2 ^ 12 := by
    simp only [pageSize] at inside
    omega
  rw [translate_offset within, start]
  rfl

end Page

section Bytes

variable {tables : PagingTables} {page frame : Nat}

theorem writeBytes_page (bound : page + pageSize ≤ 2 ^ 64)
    (mapped : forall i, i < pageSize -> tables.translate (page + i) = some (frame + i)) {start : Nat}
    {bytes : List UInt8} (room : start + bytes.length ≤ pageSize) (physical : Lib.Memory) :
    writeBytes tables (page + start) bytes physical =
      .ok (physical.copy (frame + start) bytes.length (.text bytes)) := by
  induction bytes generalizing start physical with
  | nil =>
    rw [List.length_nil, Lib.Memory.copy_zero]
    rfl
  | cons byte rest ih =>
    rw [List.length_cons] at room
    have here : qword (page + start) = page + start := qword_of_lt (by omega)
    rw [writeBytes, here, mapped start (by omega)]
    dsimp only
    rw [Nat.add_assoc, ih (by omega), ← Nat.add_assoc, Lib.Memory.put_copy_text, List.length_cons]

end Bytes

section Access

variable {cpu : Cpu} {space : Vm.ReservationSpace} {address rightsRequested index : Nat} {access : AccessDescription}

theorem page_offset (wellFormed : Vm.SlotWellFormed (space.slots index)) (bound : address < 2 ^ 64)
    (lower : (space.slots index).startVa ≤ address) :
    alignAddressLower (ptrDiff address (space.slots index).startVa) pageSize =
      pageOffsetInFile (space.slots index) address := by
  have start := wellFormed.arithmetic.1
  rw [Vm.ptrDiff_of_le lower bound, pageOffsetInFile, show pageSize = 2 ^ 12 from rfl,
    alignAddressLower_two_pow _ 12 (by decide) (by omega)]
  omega

theorem canAddressBeAccessed_spec (wellFormed : Vm.SlotsWellFormed space) (bound : address < 2 ^ 64)
    (result : vmReservationCanAddressBeAccessed cpu space address rightsRequested = .ok (some access)) :
    MetadataAccess cpu space address rightsRequested ∧ access = { memoryRights := pageRightsReadWrite } ∨
      ∃ index, Accessible space address rightsRequested index ∧
        access.memoryRights = (space.slots index).pageRights ∧
        access.uncacheable = (space.slots index).uncacheable ∧
        access.backingFile = (space.slots index).backingFile ∧
        (access.backingFile ≠ 0 -> access.fileOffset = pageOffsetInFile (space.slots index) address) := by
  rw [vmReservationCanAddressBeAccessed, Kernel.assert_bind_eq_ok] at result
  obtain ⟨_, result⟩ := result
  split at result
  next => cases result
  split at result
  next area =>
    split at result
    next expected =>
      split at result
      next => cases result
      next data =>
        obtain rfl := Option.some.inj (Except.ok.inj result)
        refine .inl ⟨⟨area, fun pcpu there => ?_, Bool.eq_false_of_not_eq_true data⟩, rfl⟩
        rw [there] at expected
        exact expected
    next => cases result
  next =>
    obtain ⟨found, look, result⟩ := Kernel.bind_eq_ok.mp result
    obtain ⟨nonNull, _, rfl⟩ := Vm.vmFindReservation_eq_ok look
    cases found : Vm.findReservationFrom space address 1 space.slotCount 0 with
    | none =>
      rw [found] at result
      cases result
    | some index =>
      rw [found] at result
      dsimp only at result
      obtain ⟨used, bounds⟩ := Vm.findReservationFrom_spec _ _ found
      have slot := wellFormed index used
      obtain ⟨isVaCommited, probe, result⟩ := Kernel.bind_eq_ok.mp result
      have lower : (space.slots index).startVa ≤ address := by
        rw [checkBounds, Bool.and_eq_true, decide_eq_true_eq, qword_of_lt slot.startVa_lt, qword_of_lt bound] at bounds
        exact bounds.1
      -- An address that only passes CHECK_BOUNDS because the end of its byte wraps around fails an ASSERT.
      have upper : address < (space.slots index).startVa + (space.slots index).size := by
        by_contra beyond
        obtain ⟨text, fails⟩ := @Vm.vmIsVaCommited_outside space _ slot address (by omega) bound
        rw [fails] at probe
        cases probe
      rw [Vm.vmIsVaCommited_inside slot lower upper bound] at probe
      obtain rfl := Except.ok.inj probe
      split at result
      next allowed =>
        rw [Bool.and_eq_true] at allowed
        obtain rfl := Option.some.inj (Except.ok.inj result)
        refine .inr ⟨index, ⟨⟨used, ?_⟩, allowed.1, allowed.2⟩, rfl, rfl, rfl, fun backed => ?_⟩
        · rw [Vm.InRange, Vm.ptrDiff_of_le lower bound]
          omega
        · dsimp only at backed ⊢
          rw [if_pos (bne_iff_ne.mpr backed), page_offset slot bound lower]
      next => cases result

end Access

section Solve

variable {context : FaultContext} {before after : FaultState} {address rightsRequested : Nat}

theorem zeroRest_eq {state : FaultState} {page frame count : Nat} (bound : page + pageSize ≤ 2 ^ 64)
    (mapped : forall i, i < pageSize -> state.tables.translate (page + i) = some (frame + i)) (few : count ≤ pageSize) :
    zeroRest state page count = .ok { state with
      physical := state.physical.copy (frame + count) (pageSize - count) (.text (List.replicate (pageSize - count) 0)) } := by
  have size : pageSize = 4096 := rfl
  unfold zeroRest
  split
  next partial_ =>
    have start : ptrOffset page count = page + count := qword_of_lt (by omega)
    have written := writeBytes_page bound mapped (show count + (List.replicate (pageSize - count) 0).length ≤ pageSize by
      rw [List.length_replicate]
      omega) state.physical
    rw [List.length_replicate] at written
    rw [start, dword_of_lt (by omega), written]
    rfl
  next whole =>
    obtain rfl : count = pageSize := Classical.not_not.mp whole
    rw [Nat.sub_self, Lib.Memory.copy_zero]
    rfl

theorem zeroRest_spec {state : FaultState} {page frame count : Nat} (bound : page + pageSize ≤ 2 ^ 64)
    (mapped : forall i, i < pageSize -> state.tables.translate (page + i) = some (frame + i))
    (few : count ≤ pageSize) (result : zeroRest state page count = .ok after) :
    after.tables = state.tables ∧ after.frames = state.frames ∧ after.pagingData = state.pagingData ∧
      (forall i, i < count -> after.physical (frame + i) = state.physical (frame + i)) ∧
      forall i, count ≤ i -> i < pageSize -> after.physical (frame + i) = 0 := by
  rw [zeroRest_eq bound mapped few] at result
  obtain rfl := Except.ok.inj result
  refine ⟨rfl, rfl, rfl, fun i inside => Lib.Memory.copy_elsewhere (by omega), fun i lower upper => ?_⟩
  dsimp only
  rw [Lib.Memory.copy_inside (by omega) (by omega), Lib.Memory.text_apply]
  simp

-- What IoReadFile delivers of the backing file, nothing where there is none.
def delivered (context : FaultContext) (access : AccessDescription) : List UInt8 :=
  if access.backingFile = 0 then []
  else ((context.contents access.backingFile).drop access.fileOffset).take pageSize

theorem zeroRest_resolves {mapped : FaultState} {page frame rights : Nat} {uncacheable : Bool} {bytes : List UInt8}
    (room : page + pageSize ≤ 2 ^ 64) (aligned : page % pageSize = 0) (low : frame < 2 ^ 32)
    (free : Pmm.isFree before.frames context.pmmData frame = true)
    (taken : forall other, Pmm.isFree mapped.frames context.pmmData other =
      (Pmm.isFree before.frames context.pmmData other && other != frame))
    (here : mapped.tables.mapping page =
      some (4, regionEntry rights (context.patIndex uncacheable) before.pagingData.kernelSpace (frame * pageSize)))
    (elsewhere : forall other, tableIndex 4 other ≠ tableIndex 4 page ->
      mapped.tables.mapping other = before.tables.mapping other)
    (few : bytes.length ≤ pageSize)
    (read : forall i, i < bytes.length -> mapped.physical (frame * pageSize + i) = bytes.getD i 0) {cpu : Cpu}
    (result : zeroRest mapped page bytes.length = .ok after) :
    Resolved context before { after with cpu := cpu } page rights uncacheable bytes frame := by
  have translated (i : Nat) (inside : i < pageSize) := translate_mapped aligned low here inside
  obtain ⟨sameTables, sameFrames, _, kept, zeros⟩ := zeroRest_spec room translated few result
  rw [← sameFrames] at taken
  rw [← sameTables] at here elsewhere translated
  refine ⟨free, taken, here, elsewhere, fun i inside => ⟨translated i inside, ?_⟩⟩
  dsimp only
  by_cases written : i < bytes.length
  · rw [kept i written]
    exact read i written
  · rw [zeros i (by omega) inside, List.getD_eq_default _ _ (by omega)]

theorem page_of_address (bound : address < 2 ^ 64) :
    alignAddressLower address pageSize = address / pageSize * pageSize ∧ address / pageSize * pageSize % pageSize = 0 ∧
      address / pageSize * pageSize + pageSize ≤ 2 ^ 64 := by
  refine ⟨alignAddressLower_two_pow address 12 (by decide) bound, Nat.mul_mod_left _ _, ?_⟩
  simp only [pageSize]
  omega

theorem solveAccess_spec {access : AccessDescription} {answer : Bool}
    (bits : context.pmmData.allocationBitmap.bitCount < 2 ^ 32) (bound : address < 2 ^ 64)
    (result : solveAccess context before address access = .ok (after, answer)) :
    answer = false ∧ access.backingFile ≠ 0 ∧ context.readFails access.backingFile access.fileOffset = true ∨
      answer = true ∧ ∃ frame, Resolved context before after (address / pageSize * pageSize) access.memoryRights
        access.uncacheable (delivered context access) frame := by
  obtain ⟨page, aligned, room⟩ := page_of_address bound
  have page_lt : address / pageSize * pageSize < 2 ^ 64 :=
    Nat.lt_of_lt_of_le (Nat.lt_add_of_pos_right (Nat.two_pow_pos 12)) room
  obtain ⟨⟨pa, frames⟩, reserve, result⟩ := Kernel.bind_eq_ok.mp result
  dsimp only at result
  rw [Kernel.assert_bind_eq_ok, bne_iff_ne] at result
  obtain ⟨nonNull, result⟩ := result
  obtain ⟨frame, low, rfl, free, taken⟩ := pmmReserveMemoryEx_one bits nonNull.symm reserve
  rw [page] at result
  obtain ⟨⟨tables, pagingData⟩, map, result⟩ := Kernel.bind_eq_ok.mp result
  obtain ⟨here, elsewhere⟩ := mapPage_replaces page_lt low map
  dsimp only at result
  split at result
  next noFile =>
    obtain ⟨zeroed, zero, result⟩ := Kernel.bind_eq_ok.mp result
    obtain ⟨rfl, rfl⟩ := Prod.mk.inj (Except.ok.inj result)
    refine .inr ⟨rfl, frame, ?_⟩
    rw [delivered, if_pos noFile]
    exact zeroRest_resolves room aligned low free taken here elsewhere (Nat.zero_le _)
      (fun i inside => by cases inside) zero
  next file =>
    have content : ioReadFile context access.backingFile pageSize access.fileOffset =
        if context.readFails access.backingFile access.fileOffset then none else some (delivered context access) := by
      rw [ioReadFile, delivered, if_neg file]
    rw [content] at result
    by_cases fails : context.readFails access.backingFile access.fileOffset = true
    · rw [if_pos fails] at result
      obtain ⟨_, rfl⟩ := Prod.mk.inj (Except.ok.inj result)
      exact .inl ⟨rfl, file, fails⟩
    · rw [if_neg fails] at result
      dsimp only at result
      obtain ⟨physical, write, result⟩ := Kernel.bind_eq_ok.mp result
      rw [Kernel.assert_bind_eq_ok, decide_eq_true_eq] at result
      obtain ⟨few, result⟩ := result
      have written := writeBytes_page room (fun i inside => translate_mapped aligned low here inside)
        (show 0 + (delivered context access).length ≤ pageSize by rwa [Nat.zero_add]) before.physical
      rw [Nat.add_zero] at written
      rw [written] at write
      obtain rfl := Except.ok.inj write
      obtain ⟨zeroed, zero, result⟩ := Kernel.bind_eq_ok.mp result
      obtain ⟨rfl, rfl⟩ := Prod.mk.inj (Except.ok.inj result)
      refine .inr ⟨rfl, frame, zeroRest_resolves room aligned low free taken here elsewhere few (fun i inside => ?_) zero⟩
      dsimp only
      rw [Nat.add_zero, Lib.Memory.copy_inside (Nat.le_add_right _ _) (by omega), Lib.Memory.text_apply,
        Nat.add_sub_cancel_left]

theorem solveAccess_ends {access : AccessDescription} {pa : Nat} {frames : Memory} {tables : PagingTables}
    {pagingData : PagingData} (bits : context.pmmData.allocationBitmap.bitCount < 2 ^ 32) (bound : address < 2 ^ 64)
    (reserve : Pmm.pmmReserveMemoryEx before.frames context.pmmData 1 0 = .ok (pa, frames)) (nonNull : pa ≠ 0)
    (map : mmuMapMemoryInternal before.tables before.pagingData pa pageSize access.memoryRights
      (alignAddressLower address pageSize) true (context.patIndex access.uncacheable) = .ok (tables, pagingData)) :
    ∃ after, after.frames = frames ∧ solveAccess context before address access =
      .ok (after, access.backingFile == 0 || !context.readFails access.backingFile access.fileOffset) := by
  obtain ⟨page, aligned, room⟩ := page_of_address bound
  obtain ⟨frame, low, rfl, _, _⟩ := pmmReserveMemoryEx_one bits nonNull reserve
  rw [page] at map
  have page_lt : address / pageSize * pageSize < 2 ^ 64 :=
    Nat.lt_of_lt_of_le (Nat.lt_add_of_pos_right (Nat.two_pow_pos 12)) room
  have translated (i : Nat) (inside : i < pageSize) :=
    translate_mapped aligned low (mapPage_replaces page_lt low map).1 inside
  rw [solveAccess, reserve, Kernel.ok_bind]
  dsimp only
  rw [bne_iff_ne.mpr nonNull.symm, assert_true, Kernel.ok_bind, page, map, Kernel.ok_bind]
  dsimp only
  by_cases noFile : access.backingFile = 0
  next =>
    rw [if_pos noFile, zeroRest_eq room translated (Nat.zero_le _), noFile]
    exact ⟨_, rfl, rfl⟩
  next =>
    rw [if_neg noFile, beq_false_of_ne noFile, Bool.false_or, ioReadFile]
    cases context.readFails access.backingFile access.fileOffset with
    | true => exact ⟨_, rfl, rfl⟩
    | false =>
      let bytes := ((context.contents access.backingFile).drop access.fileOffset).take pageSize
      have few : bytes.length ≤ pageSize := List.length_take_le _ _
      have written := writeBytes_page room translated (show 0 + bytes.length ≤ pageSize by rwa [Nat.zero_add])
        before.physical
      rw [Nat.add_zero] at written
      rw [if_neg Bool.false_ne_true]
      dsimp only
      rw [written, Kernel.ok_bind, decide_eq_true few, assert_true, Kernel.ok_bind, zeroRest_eq room translated few]
      exact ⟨_, rfl, rfl⟩

theorem page_fault_answered (context : FaultContext) (before : FaultState)
    (kernel : Vm.reservationSystem.Reachable context.kernelSpace)
    (process : Vm.reservationSystem.Reachable context.processSpace)
    (bits : context.pmmData.allocationBitmap.bitCount < 2 ^ 32) (bound : address < 2 ^ 64) :
    FaultAnswered context before address rightsRequested := by
  have slots : Vm.SlotsWellFormed (vmmRetrieveReservationSpaceForAddress context address) := by
    unfold vmmRetrieveReservationSpaceForAddress
    split
    next => exact Vm.reachable_slotsWellFormed kernel
    next => exact Vm.reachable_slotsWellFormed process
  have untouched : Untouched context before before := ⟨fun _ => rfl, fun _ => rfl⟩
  have cases_ {after : FaultState} {answer : Bool}
      (result : vmmSolvePageFault context before address rightsRequested = .ok (after, answer)) :
      answer = false ∧ after = before ∨ ∃ access,
        vmReservationCanAddressBeAccessed before.cpu (vmmRetrieveReservationSpaceForAddress context address) address
          rightsRequested = .ok (some access) ∧
        solveAccess context before address access = .ok (after, answer) := by
    rw [vmmSolvePageFault, Kernel.assert_bind_eq_ok] at result
    obtain ⟨_, result⟩ := result
    split at result
    next =>
      obtain ⟨rfl, rfl⟩ := Prod.mk.inj (Except.ok.inj result)
      exact .inl ⟨rfl, rfl⟩
    split at result
    next =>
      obtain ⟨rfl, rfl⟩ := Prod.mk.inj (Except.ok.inj result)
      exact .inl ⟨rfl, rfl⟩
    split at result
    next =>
      obtain ⟨rfl, rfl⟩ := Prod.mk.inj (Except.ok.inj result)
      exact .inl ⟨rfl, rfl⟩
    next =>
      obtain ⟨answered, probe, result⟩ := Kernel.bind_eq_ok.mp result
      cases answered with
      | none =>
        obtain ⟨rfl, rfl⟩ := Prod.mk.inj (Except.ok.inj result)
        exact .inl ⟨rfl, rfl⟩
      | some access => exact .inr ⟨access, probe, result⟩
  constructor
  · intro after result readable
    rcases cases_ result with ⟨_, rfl⟩ | ⟨access, probe, solve⟩
    · exact untouched
    · rcases solveAccess_spec bits bound solve with ⟨_, file, fails⟩ | ⟨impossible, _⟩
      · rcases canAddressBeAccessed_spec slots bound probe with ⟨_, rfl⟩ | ⟨index, accessible, _, _, same, offset⟩
        · exact absurd rfl file
        · rw [offset file, same] at fails
          rw [same] at file
          exact absurd ⟨index, accessible, file, fails⟩ readable
      · cases impossible
  · intro after result
    rcases cases_ result with ⟨impossible, _⟩ | ⟨access, probe, solve⟩
    · cases impossible
    · rcases solveAccess_spec bits bound solve with ⟨impossible, _⟩ | ⟨_, frame, resolved⟩
      · cases impossible
      · rcases canAddressBeAccessed_spec slots bound probe with
          ⟨metadata, rfl⟩ | ⟨index, accessible, rights, uncacheable, file, offset⟩
        · exact .inr ⟨metadata, frame, resolved⟩
        · refine .inl ⟨index, frame, accessible, ?_⟩
          have bytes : delivered context access =
              fileBytes context ((vmmRetrieveReservationSpaceForAddress context address).slots index) address := by
            rw [delivered, fileBytes, ← file]
            split
            next => rfl
            next backed => rw [offset backed]
          rw [← rights, ← uncacheable, ← bytes]
          exact resolved

end Solve

def backedSpace : Vm.ReservationSpace :=
  match Vm.vmReservationSpaceAllocRegion Vm.sampleSpace 0x10000000 0x1000 (Vm.allocTypeReserve ||| Vm.allocTypeCommit)
      pageRightsReadWrite false 7 with
  | .ok (space, _) => space
  | .error _ => Vm.sampleSpace

def kernelSampleSpace : Vm.ReservationSpace :=
  Vm.vmReservationSpaceFinishInit
    { freeVirtualAddressPointer := 0xFFFF810000000000
      startOfVirtualAddressSpace := 0xFFFF810000000000
      bitmapAddressStart := 0xFFFF800000104000
      reservedAreaSize := 0x14000
      freeBitmapAddress := 0xFFFF800000104000
      reservationList := 0xFFFF800000100000
      slots := fun _ => {}
      memory := fun _ => 0 }

theorem kernelSampleSpace_initialized : Vm.Initialized kernelSampleSpace :=
  ⟨0xFFFF800000100000, 0xFFFF810000000000, 0x14000, _, by decide, by decide, by decide, rfl, rfl⟩

theorem kernelSampleSpace_reachable : Vm.reservationSystem.Reachable kernelSampleSpace :=
  .start kernelSampleSpace_initialized

theorem backedSpace_reachable : Vm.reservationSystem.Reachable backedSpace := by
  have start : Vm.reservationSystem.Reachable Vm.sampleSpace := .start Vm.sampleSpace_initialized
  exact start.next (.alloc 0x10000000 0x1000 (Vm.allocTypeReserve ||| Vm.allocTypeCommit) pageRightsReadWrite false 7)
    ⟨by decide, by decide, _, _, rfl⟩

def sampleFaultContext (readFails : Bool) : FaultContext where
  kernelSpace := kernelSampleSpace
  processSpace := backedSpace
  pmmData :=
    { memoryRegionList := []
      allocationBitmap := { bitmapBuffer := 0, bufferSize := 2, bitCount := 16 } }
  patIndex uncacheable := if uncacheable then 3 else 0
  contents _ := [1, 2, 3]
  readFails _ _ := readFails

def sampleFaultState (kernelSpace : Bool) : FaultState where
  cpu := { interruptsOff := true, pcpu := none }
  tables := { entry := fun _ _ => {} }
  pagingData :=
    { basePhysicalAddress := 0x800000, numberOfFrames := 8, currentIndex := 1, kernelSpace := kernelSpace }
  frames address := if address = 0 then 1 else 0
  physical := .text []

theorem ends_of_any {α : Type} {result : Kernel α} {holds : α -> Bool} (found : result.toOption.any holds = true) :
    ∃ value, result = .ok value ∧ holds value = true := by
  cases result with
  | error text => cases found
  | ok value => exact ⟨value, rfl, found⟩

theorem solveAccess_sample (readFails kernelSpace : Bool) (address : Nat) (access : AccessDescription)
    (bound : address < 2 ^ 64)
    (maps : (mmuMapMemoryInternal (sampleFaultState kernelSpace).tables (sampleFaultState kernelSpace).pagingData 0x1000
      pageSize access.memoryRights (alignAddressLower address pageSize) true
      ((sampleFaultContext readFails).patIndex access.uncacheable)).toOption.any (fun _ => true) = true) :
    ∃ after : FaultState, Pmm.isFree after.frames (sampleFaultContext readFails).pmmData 1 = false ∧
      solveAccess (sampleFaultContext readFails) (sampleFaultState kernelSpace) address access =
        .ok (after, access.backingFile == 0 || !readFails) := by
  have taken : (Pmm.pmmReserveMemoryEx (sampleFaultState kernelSpace).frames (sampleFaultContext readFails).pmmData 1
      0).toOption.any (fun result => result.1 == 0x1000 &&
        !Pmm.isFree result.2 (sampleFaultContext readFails).pmmData 1) = true := by
    cases readFails <;> cases kernelSpace <;> decide
  obtain ⟨⟨pa, frames⟩, reserve, taken⟩ := ends_of_any taken
  obtain ⟨here, used⟩ := (Bool.and_eq_true _ _).mp taken
  obtain rfl := eq_of_beq here
  obtain ⟨⟨tables, pagingData⟩, map, _⟩ := ends_of_any maps
  have bits : (sampleFaultContext readFails).pmmData.allocationBitmap.bitCount < 2 ^ 32 := show 16 < 2 ^ 32 by decide
  obtain ⟨after, same, ends⟩ := solveAccess_ends bits bound reserve (by decide) map
  refine ⟨after, ?_, ends⟩
  rw [same]
  simpa using used

theorem sampleFault_ends (readFails : Bool) (rights : Nat)
    (allowed : vmReservationCanAddressBeAccessed (sampleFaultState false).cpu backedSpace 0x10000123 rights =
      .ok (some { memoryRights := pageRightsReadWrite, backingFile := 7 })) :
    ∃ after : FaultState, Pmm.isFree after.frames (sampleFaultContext readFails).pmmData 1 = false ∧
      vmmSolvePageFault (sampleFaultContext readFails) (sampleFaultState false) 0x10000123 rights =
        .ok (after, !readFails) := by
  obtain ⟨after, taken, ends⟩ := solveAccess_sample readFails false 0x10000123
    { memoryRights := pageRightsReadWrite, backingFile := 7 } (by decide) (by cases readFails <;> decide)
  refine ⟨after, taken, ?_⟩
  have space : vmmRetrieveReservationSpaceForAddress (sampleFaultContext readFails) 0x10000123 = backedSpace := rfl
  rw [vmmSolvePageFault, space, allowed, if_neg (by decide), if_neg (by decide),
    if_neg (by decide)]
  exact ends

theorem sampleMetadata_ends : ∃ after,
    vmmSolvePageFault (sampleFaultContext true) (sampleFaultState true) 0xFFFF800000100123 0 = .ok (after, true) := by
  obtain ⟨after, taken, ends⟩ := solveAccess_sample true true 0xFFFF800000100123
    { memoryRights := pageRightsReadWrite } (by decide) (by decide)
  have allowed : vmReservationCanAddressBeAccessed (sampleFaultState true).cpu kernelSampleSpace 0xFFFF800000100123 0 =
      .ok (some { memoryRights := pageRightsReadWrite }) := by
    decide
  have space : vmmRetrieveReservationSpaceForAddress (sampleFaultContext true) 0xFFFF800000100123 = kernelSampleSpace :=
    rfl
  have off : (sampleFaultState true).cpu.interruptsOff = true := rfl
  refine ⟨after, ?_⟩
  rw [vmmSolvePageFault, off, assert_true, Kernel.ok_bind, if_neg (by decide), if_neg (by decide),
    if_neg (by decide), space, allowed, Kernel.ok_bind]
  exact ends

theorem page_fault_answered_sample :
    FaultAnswered (sampleFaultContext false) (sampleFaultState false) 0x10000123 pageRightsWrite ∧
      (vmmSolvePageFault (sampleFaultContext false) (sampleFaultState false) 0x10000123 pageRightsWrite).toOption.map
        (fun result => result.2) = some true := by
  refine ⟨page_fault_answered _ _ kernelSampleSpace_reachable backedSpace_reachable (by decide) (by decide), ?_⟩
  obtain ⟨after, _, ends⟩ := sampleFault_ends false pageRightsWrite (by decide +kernel)
  rw [ends]
  rfl

-- A file that cannot be read leaves the page mapped and the frame reserved behind FALSE, and a page of the
-- metadata, which is in no reservation, is resolved with TRUE.
theorem page_fault_inexact :
    (¬ forall context before address rightsRequested after,
      Vm.reservationSystem.Reachable context.kernelSpace -> Vm.reservationSystem.Reachable context.processSpace ->
      context.pmmData.allocationBitmap.bitCount < 2 ^ 32 -> address < 2 ^ 64 ->
      vmmSolvePageFault context before address rightsRequested = .ok (after, false) ->
      Untouched context before after) ∧
    ¬ forall context before address rightsRequested after,
      Vm.reservationSystem.Reachable context.kernelSpace -> Vm.reservationSystem.Reachable context.processSpace ->
      context.pmmData.allocationBitmap.bitCount < 2 ^ 32 -> address < 2 ^ 64 ->
      vmmSolvePageFault context before address rightsRequested = .ok (after, true) ->
      ResolvedInReservation context before after address rightsRequested := by
  constructor
  next =>
    intro claim
    obtain ⟨after, frames, call⟩ := sampleFault_ends true 0 (by decide +kernel)
    have same := (claim _ _ _ _ _ kernelSampleSpace_reachable backedSpace_reachable (by decide) (by decide)
      call).frames 1
    rw [frames] at same
    exact absurd same (by decide)
  next =>
    intro claim
    obtain ⟨after, call⟩ := sampleMetadata_ends
    obtain ⟨index, _, accessible, _⟩ := claim _ _ _ _ _ kernelSampleSpace_reachable backedSpace_reachable
      (by decide) (by decide) call
    exact Vm.initialized_unused kernelSampleSpace_initialized index accessible.covers.1

end Hal9000.Mmu
