import Hal9000.Mmu.PagingTables

set_option autoImplicit false

namespace Hal9000.Mmu

def pageRightsWrite : Nat := 1
def pageRightsExecute : Nat := 2

structure PagingData where
  basePhysicalAddress : Nat
  numberOfFrames : Nat
  currentIndex : Nat
  kernelSpace : Bool
  deriving DecidableEq, Repr

structure PteMapFlags where
  patIndex : Nat := 0
  writable : Bool := false
  executable : Bool := false
  pagingStructure : Bool := false
  userAccess : Bool := false
  globalPage : Bool := false
  deriving DecidableEq, Repr

def pteMap (physicalAddress : Nat) (flags : PteMapFlags) : PtEntry :=
  { present := true
    readWrite := flags.writable
    userSupervisor := flags.userAccess
    pwt := !flags.pagingStructure && flags.patIndex.testBit 0
    pcd := !flags.pagingStructure && flags.patIndex.testBit 1
    pat := !flags.pagingStructure && flags.patIndex.testBit 2
    global := !flags.pagingStructure && flags.globalPage
    physicalAddress := Fin.ofNat (2 ^ 40) (physicalAddress / 2 ^ 12)
    xd := !flags.executable }

theorem pteGetPhysicalAddress_pteMap {physicalAddress : Nat} (flags : PteMapFlags)
    (aligned : physicalAddress % pageSize = 0) (bound : physicalAddress < 2 ^ 52) :
    pteGetPhysicalAddress (pteMap physicalAddress flags) = physicalAddress := by
  have field : (pteMap physicalAddress flags).physicalAddress.val = physicalAddress / 2 ^ 12 % 2 ^ 40 := rfl
  rw [pteGetPhysicalAddress, field]
  simp only [pageSize] at aligned
  omega

-- `VMM_MAP_UNMAP_PAGE_WALK_CONTEXT` with the PAT index that `Uncacheable` selects.
structure MapContext where
  physicalAddressBase : Nat
  virtualAddressBase : Nat
  pageRights : Nat
  invalidate : Bool
  patIndex : Nat
  deriving DecidableEq, Repr

def PagingTables.setEntry (tables : PagingTables) (level index : Nat) (entry : PtEntry) : PagingTables where
  entry atLevel atIndex := if atLevel = level ∧ atIndex = index then entry else tables.entry atLevel atIndex

def PagingTables.zeroStructure (tables : PagingTables) (level index : Nat) : PagingTables where
  entry atLevel atIndex :=
    if atLevel = level + 1 ∧ atIndex / 2 ^ 9 = index then {} else tables.entry atLevel atIndex

def vmRetrieveNextPhysicalAddressForPagingStructure (pagingData : PagingData) : Kernel (Nat × PagingData) := do
  assert (decide (pagingData.currentIndex < pagingData.numberOfFrames)) "currentIndex < PagingData->NumberOfFrames"
  pure (ptrOffset pagingData.basePhysicalAddress (dword (pagingData.currentIndex * pageSize)),
    { pagingData with currentIndex := dword (pagingData.currentIndex + 1) })

def vmSetupPagingStructure (level virtualAddress : Nat) (tables : PagingTables) (pagingData : PagingData) :
    Kernel (PagingTables × PagingData) := do
  let (physicalAddr, pagingData) <- vmRetrieveNextPhysicalAddressForPagingStructure pagingData
  let flags : PteMapFlags :=
    { writable := true, executable := true, pagingStructure := true, userAccess := !pagingData.kernelSpace }
  let index := tableIndex level virtualAddress
  pure ((tables.setEntry level index (pteMap physicalAddr flags)).zeroStructure level index, pagingData)

def mapFlags (context : MapContext) (kernelSpace : Bool) : PteMapFlags :=
  { executable := isBooleanFlagOn context.pageRights pageRightsExecute
    writable := isBooleanFlagOn context.pageRights pageRightsWrite
    patIndex := context.patIndex
    globalPage := kernelSpace
    userAccess := !kernelSpace }

def mapAddress (context : MapContext) (virtualAddress : Nat) : Nat :=
  ptrOffset context.physicalAddressBase (ptrDiff virtualAddress context.virtualAddressBase)

def vmMapPage (context : MapContext) : PageWalkCallback PagingData := fun pageLevel virtualAddress tables pagingData => do
  assert (virtualAddress != 0) "VirtualAddress != NULL"
  if (tables.lookUp pageLevel virtualAddress).present &&
      !(pageLevel == pagingTablesLastLevel && context.invalidate) then
    pure (true, tables, pagingData)
  else if pageLevel = pagingTablesLastLevel then
    pure (true, tables.setEntry pageLevel (tableIndex pageLevel virtualAddress)
      (pteMap (mapAddress context virtualAddress) (mapFlags context pagingData.kernelSpace)), pagingData)
  else do
    let (tables, pagingData) <- vmSetupPagingStructure pageLevel virtualAddress tables pagingData
    pure (true, tables, pagingData)

def vmmMapMemoryInternal (tables : PagingTables) (pagingData : PagingData) (physicalAddress size baseAddress
    pageRights : Nat) (invalidate : Bool) (patIndex : Nat) : Kernel (PagingTables × PagingData) := do
  assert (isAddressAligned physicalAddress pageSize) "IsAddressAligned(PhysicalAddress, PAGE_SIZE)"
  assert (0 != size && isAddressAligned size pageSize) "0 != Size && IsAddressAligned(Size, PAGE_SIZE)"
  vmWalkPagingTables tables baseAddress size
    (vmMapPage
      { physicalAddressBase := physicalAddress
        virtualAddressBase := baseAddress
        pageRights := pageRights
        invalidate := invalidate
        patIndex := patIndex }) pagingData

def mmuMapMemoryInternal (tables : PagingTables) (pagingData : PagingData) (physicalAddress size pageRights
    virtualAddress : Nat) (invalidate : Bool) (patIndex : Nat) : Kernel (PagingTables × PagingData) := do
  assert (0 != size) "0 != Size"
  assert (isAddressAligned size pageSize) "IsAddressAligned(Size, PAGE_SIZE)"
  assert (0 != virtualAddress) "NULL != VirtualAddress"
  assert (isAddressAligned virtualAddress pageSize) "IsAddressAligned(VirtualAddress, PAGE_SIZE)"
  vmmMapMemoryInternal tables pagingData physicalAddress size virtualAddress pageRights invalidate patIndex

def PagingTables.mapping (tables : PagingTables) (virtualAddress : Nat) : Option (Nat × PtEntry) :=
  if !(tables.lookUp 1 virtualAddress).present || (tables.lookUp 1 virtualAddress).pat then none
  else if !(tables.lookUp 2 virtualAddress).present then none
  else if (tables.lookUp 2 virtualAddress).pat then some (2, tables.lookUp 2 virtualAddress)
  else if !(tables.lookUp 3 virtualAddress).present then none
  else if (tables.lookUp 3 virtualAddress).pat then some (3, tables.lookUp 3 virtualAddress)
  else if !(tables.lookUp 4 virtualAddress).present then none
  else some (4, tables.lookUp 4 virtualAddress)

-- An entry that stops the mapping walk: present and with bit 7 set above the last level.
def PagingTables.Blocked (tables : PagingTables) (virtualAddress : Nat) : Prop :=
  (tables.lookUp 1 virtualAddress).present = true ∧ ((tables.lookUp 1 virtualAddress).pat = true ∨
    (tables.lookUp 2 virtualAddress).present = true ∧ ((tables.lookUp 2 virtualAddress).pat = true ∨
      (tables.lookUp 3 virtualAddress).present = true ∧ (tables.lookUp 3 virtualAddress).pat = true))

def entryTranslate (virtualAddress : Nat) : Nat × PtEntry -> Nat
  | (2, entry) => entry.physicalAddress.val / 2 ^ 18 * 2 ^ 30 + virtualAddress % 2 ^ 30
  | (3, entry) => pteLargePageGetPhysicalAddress entry + virtualAddress % 2 ^ 21
  | (_, entry) => pteGetPhysicalAddress entry + virtualAddress % 2 ^ 12

theorem translate_eq (tables : PagingTables) (virtualAddress : Nat) :
    tables.translate virtualAddress = (tables.mapping virtualAddress).map (entryTranslate virtualAddress) := by
  unfold PagingTables.translate PagingTables.mapping
  split_ifs <;> rfl

structure SameMappings (before after : PagingTables) : Prop where
  mapping : forall virtualAddress, after.mapping virtualAddress = before.mapping virtualAddress
  blocked : forall virtualAddress, after.Blocked virtualAddress ↔ before.Blocked virtualAddress

theorem SameMappings.refl (tables : PagingTables) : SameMappings tables tables :=
  ⟨fun _ => rfl, fun _ => Iff.rfl⟩

theorem SameMappings.trans {first second third : PagingTables} (earlier : SameMappings first second)
    (later : SameMappings second third) : SameMappings first third :=
  ⟨fun address => (later.mapping address).trans (earlier.mapping address),
    fun address => (later.blocked address).trans (earlier.blocked address)⟩

section Setup

variable {tables : PagingTables} {level index : Nat} {entry : PtEntry} {virtualAddress : Nat}

theorem tableIndex_succ (below : level < 4) :
    tableIndex (level + 1) virtualAddress / 2 ^ 9 = tableIndex level virtualAddress := by
  unfold tableIndex
  rw [Nat.div_div_eq_div_mul, ← pow_add]
  congr 2
  omega

theorem lookUp_setup {atLevel : Nat} (below : level < 4) :
    ((tables.setEntry level index entry).zeroStructure level index).lookUp atLevel virtualAddress =
      if tableIndex level virtualAddress = index then
        if atLevel = level then entry
        else if atLevel = level + 1 then {}
        else tables.lookUp atLevel virtualAddress
      else tables.lookUp atLevel virtualAddress := by
  simp only [PagingTables.lookUp, PagingTables.zeroStructure, PagingTables.setEntry]
  by_cases here : atLevel = level
  · subst here
    by_cases same : tableIndex atLevel virtualAddress = index <;> simp [same]
  · by_cases next : atLevel = level + 1
    · subst next
      rw [tableIndex_succ below]
      by_cases same : tableIndex level virtualAddress = index <;> simp [same]
    · simp [here, next]

theorem setup_same (low : 1 ≤ level) (below : level < 4)
    (absent : forall address, tableIndex level address = index -> (tables.lookUp level address).present = false)
    (upper : entry.pat = false) :
    SameMappings tables ((tables.setEntry level index entry).zeroStructure level index) := by
  have found (atLevel address : Nat) := @lookUp_setup tables level index entry address atLevel below
  constructor
  · intro address
    by_cases same : tableIndex level address = index
    · have before := absent address same
      unfold PagingTables.mapping
      simp only [found, if_pos same]
      interval_cases level <;> simp [before, upper]
    · unfold PagingTables.mapping
      simp only [found, if_neg same]
  · intro address
    by_cases same : tableIndex level address = index
    · have before := absent address same
      unfold PagingTables.Blocked
      simp only [found, if_pos same]
      interval_cases level <;> simp [before, upper]
    · unfold PagingTables.Blocked
      simp only [found, if_neg same]

end Setup

section Page

variable {context : MapContext} {tables : PagingTables} {pagingData : PagingData} {virtualAddress level : Nat}

def structureEntry (pagingData : PagingData) : PtEntry :=
  pteMap (ptrOffset pagingData.basePhysicalAddress (dword (pagingData.currentIndex * pageSize)))
    { writable := true, executable := true, pagingStructure := true, userAccess := !pagingData.kernelSpace }

def PagingTables.setUp (tables : PagingTables) (pagingData : PagingData) (level virtualAddress : Nat) : PagingTables :=
  (tables.setEntry level (tableIndex level virtualAddress) (structureEntry pagingData)).zeroStructure level
    (tableIndex level virtualAddress)

def PagingData.next (pagingData : PagingData) : PagingData :=
  { pagingData with currentIndex := dword (pagingData.currentIndex + 1) }

theorem vmSetupPagingStructure_eq :
    vmSetupPagingStructure level virtualAddress tables pagingData =
      if pagingData.currentIndex < pagingData.numberOfFrames then
        .ok (tables.setUp pagingData level virtualAddress, pagingData.next)
      else .error "currentIndex < PagingData->NumberOfFrames" := by
  unfold vmSetupPagingStructure vmRetrieveNextPhysicalAddressForPagingStructure
  by_cases room : pagingData.currentIndex < pagingData.numberOfFrames
  · rw [if_pos room, decide_eq_true room]
    rfl
  · rw [if_neg room, decide_eq_false room]
    rfl

theorem map_upper (rest : List Nat) (nonNull : virtualAddress ≠ 0) (upper : level < 4) :
    walkLevels (vmMapPage context) virtualAddress (level :: rest) tables pagingData =
      if (tables.lookUp level virtualAddress).present then
        if (tables.lookUp level virtualAddress).pat then .error "((PD_ENTRY_PT*)pCurrentEntry)->PageSize == 0"
        else walkLevels (vmMapPage context) virtualAddress rest tables pagingData
      else if pagingData.currentIndex < pagingData.numberOfFrames then
        walkLevels (vmMapPage context) virtualAddress rest (tables.setUp pagingData level virtualAddress) pagingData.next
      else .error "currentIndex < PagingData->NumberOfFrames" := by
  have pointer : (virtualAddress != 0) = true := bne_iff_ne.mpr nonNull
  have notLast : (level == pagingTablesLastLevel) = false := by
    rw [beq_eq_false_iff_ne]
    unfold pagingTablesLastLevel
    omega
  have different : ¬ level = pagingTablesLastLevel := by
    unfold pagingTablesLastLevel
    omega
  have fresh : ((tables.setUp pagingData level virtualAddress).lookUp level virtualAddress).pat = false := by
    rw [PagingTables.setUp, lookUp_setup upper, if_pos rfl, if_pos rfl]
    rfl
  simp only [walkLevels, vmMapPage, pointer, assert_true, Kernel.ok_bind, notLast, if_neg different,
    vmSetupPagingStructure_eq]
  cases present : (tables.lookUp level virtualAddress).present with
  | true =>
    cases pat : (tables.lookUp level virtualAddress).pat <;>
      simp [Kernel.pure_eq, Kernel.ok_bind, Kernel.error_bind, pat]
  | false =>
    by_cases room : pagingData.currentIndex < pagingData.numberOfFrames <;>
      simp [Kernel.pure_eq, Kernel.ok_bind, Kernel.error_bind, room, fresh]

theorem map_last (nonNull : virtualAddress ≠ 0) :
    walkLevels (vmMapPage context) virtualAddress [4] tables pagingData =
      .ok (if (tables.lookUp 4 virtualAddress).present && !context.invalidate then tables
        else tables.setEntry 4 (tableIndex 4 virtualAddress)
          (pteMap (mapAddress context virtualAddress) (mapFlags context pagingData.kernelSpace)), pagingData) := by
  have pointer : (virtualAddress != 0) = true := bne_iff_ne.mpr nonNull
  have last : 4 = pagingTablesLastLevel := rfl
  simp only [walkLevels, vmMapPage, pointer, assert_true, Kernel.ok_bind, ← last, beq_self_eq_true, Bool.true_and]
  cases (tables.lookUp 4 virtualAddress).present && !context.invalidate <;> rfl

theorem setUp_same (low : 1 ≤ level) (upper : level < 4)
    (absent : (tables.lookUp level virtualAddress).present = false) :
    SameMappings tables (tables.setUp pagingData level virtualAddress) := by
  refine setup_same low upper (fun address same => ?_) rfl
  rw [PagingTables.lookUp, same]
  exact absent

inductive Descends (tables : PagingTables) (pagingData : PagingData) (level virtualAddress : Nat) :
    PagingTables -> PagingData -> Prop where
  | through (present : (tables.lookUp level virtualAddress).present = true)
      (structure_ : (tables.lookUp level virtualAddress).pat = false) :
      Descends tables pagingData level virtualAddress tables pagingData
  | setUp (absent : (tables.lookUp level virtualAddress).present = false)
      (room : pagingData.currentIndex < pagingData.numberOfFrames) :
      Descends tables pagingData level virtualAddress (tables.setUp pagingData level virtualAddress) pagingData.next

theorem map_upper_eq_ok {rest : List Nat} {result : PagingTables × PagingData} (nonNull : virtualAddress ≠ 0)
    (upper : level < 4) :
    walkLevels (vmMapPage context) virtualAddress (level :: rest) tables pagingData = .ok result ↔
      ∃ below belowData, Descends tables pagingData level virtualAddress below belowData ∧
        walkLevels (vmMapPage context) virtualAddress rest below belowData = .ok result := by
  rw [map_upper rest nonNull upper]
  constructor
  · intro walked
    split at walked
    next present =>
      split at walked
      next => cases walked
      next pat => exact ⟨_, _, .through present (Bool.eq_false_of_not_eq_true pat), walked⟩
    next absent =>
      split at walked
      next room => exact ⟨_, _, .setUp (Bool.eq_false_of_not_eq_true absent) room, walked⟩
      next => cases walked
  · rintro ⟨below, belowData, descends, walked⟩
    cases descends with
    | through present pat =>
      rw [if_pos present, if_neg (by rw [pat]; decide)]
      exact walked
    | setUp absent room =>
      rw [if_neg (by rw [absent]; decide), if_pos room]
      exact walked

section Descent

variable {below : PagingTables} {belowData : PagingData}

theorem Descends.same (descends : Descends tables pagingData level virtualAddress below belowData) (low : 1 ≤ level)
    (upper : level < 4) : SameMappings tables below := by
  cases descends with
  | through => exact .refl tables
  | setUp absent => exact setUp_same low upper absent

theorem Descends.data (descends : Descends tables pagingData level virtualAddress below belowData) :
    belowData.numberOfFrames = pagingData.numberOfFrames ∧ belowData.kernelSpace = pagingData.kernelSpace ∧
      belowData.currentIndex ≤ pagingData.currentIndex + 1 := by
  cases descends with
  | through => exact ⟨rfl, rfl, Nat.le_succ _⟩
  | setUp => exact ⟨rfl, rfl, Nat.mod_le _ _⟩

theorem Descends.entries (descends : Descends tables pagingData level virtualAddress below belowData)
    (upper : level < 4) :
    (below.lookUp level virtualAddress).present = true ∧ (below.lookUp level virtualAddress).pat = false ∧
      forall earlier, earlier < level -> below.lookUp earlier virtualAddress = tables.lookUp earlier virtualAddress := by
  cases descends with
  | through present pat => exact ⟨present, pat, fun _ _ => rfl⟩
  | setUp =>
    simp only [PagingTables.setUp, lookUp_setup upper, if_true]
    refine ⟨rfl, rfl, fun earlier sooner => ?_⟩
    rw [if_neg (by omega), if_neg (by omega)]

theorem Descends.exists_of (accepted : (tables.lookUp level virtualAddress).present = true ->
      (tables.lookUp level virtualAddress).pat = false)
    (room : pagingData.currentIndex < pagingData.numberOfFrames) :
    ∃ below belowData, Descends tables pagingData level virtualAddress below belowData := by
  cases present : (tables.lookUp level virtualAddress).present with
  | true => exact ⟨_, _, .through present (accepted present)⟩
  | false => exact ⟨_, _, .setUp present room⟩

end Descent

structure Ready (tables : PagingTables) (virtualAddress : Nat) : Prop where
  present : forall level, 1 ≤ level -> level < 4 -> (tables.lookUp level virtualAddress).present = true
  structures : forall level, 1 ≤ level -> level < 4 -> (tables.lookUp level virtualAddress).pat = false

theorem Ready.mapping (ready : Ready tables virtualAddress) :
    tables.mapping virtualAddress =
      if (tables.lookUp 4 virtualAddress).present then some (4, tables.lookUp 4 virtualAddress) else none := by
  unfold PagingTables.mapping
  rw [ready.present 1 (by decide) (by decide), ready.structures 1 (by decide) (by decide),
    ready.present 2 (by decide) (by decide), ready.structures 2 (by decide) (by decide),
    ready.present 3 (by decide) (by decide), ready.structures 3 (by decide) (by decide)]
  cases (tables.lookUp 4 virtualAddress).present <;> rfl

theorem Ready.not_blocked (ready : Ready tables virtualAddress) : ¬ tables.Blocked virtualAddress := by
  unfold PagingTables.Blocked
  rw [ready.structures 1 (by decide) (by decide), ready.structures 2 (by decide) (by decide),
    ready.structures 3 (by decide) (by decide)]
  simp

theorem walk_prepares {after : PagingTables} {afterData : PagingData} (nonNull : virtualAddress ≠ 0)
    (walked : walkLevels (vmMapPage context) virtualAddress [1, 2, 3, 4] tables pagingData = .ok (after, afterData)) :
    ∃ prepared preparedData, SameMappings tables prepared ∧ Ready prepared virtualAddress ∧
      preparedData.numberOfFrames = pagingData.numberOfFrames ∧ preparedData.kernelSpace = pagingData.kernelSpace ∧
      preparedData.currentIndex ≤ pagingData.currentIndex + 3 ∧
      walkLevels (vmMapPage context) virtualAddress [4] prepared preparedData = .ok (after, afterData) := by
  obtain ⟨first, firstData, step1, walked⟩ := (map_upper_eq_ok nonNull (by decide)).mp walked
  obtain ⟨second, secondData, step2, walked⟩ := (map_upper_eq_ok nonNull (by decide)).mp walked
  obtain ⟨third, thirdData, step3, walked⟩ := (map_upper_eq_ok nonNull (by decide)).mp walked
  obtain ⟨present1, pat1, _⟩ := step1.entries (by decide)
  obtain ⟨present2, pat2, kept2⟩ := step2.entries (by decide)
  obtain ⟨present3, pat3, kept3⟩ := step3.entries (by decide)
  have entry1 : third.lookUp 1 virtualAddress = first.lookUp 1 virtualAddress :=
    (kept3 1 (by decide)).trans (kept2 1 (by decide))
  have entry2 : third.lookUp 2 virtualAddress = second.lookUp 2 virtualAddress := kept3 2 (by decide)
  have same := ((step1.same (by decide) (by decide)).trans (step2.same (by decide) (by decide))).trans
    (step3.same (by decide) (by decide))
  have data1 := step1.data
  have data2 := step2.data
  have data3 := step3.data
  refine ⟨third, thirdData, same, ⟨?_, ?_⟩, by omega, ?_, by omega, walked⟩
  · intro level low upper
    interval_cases level
    next => rw [entry1, present1]
    next => rw [entry2, present2]
    next => exact present3
  · intro level low upper
    interval_cases level
    next => rw [entry1, pat1]
    next => rw [entry2, pat2]
    next => exact pat3
  · rw [data3.2.1, data2.2.1, data1.2.1]

theorem walk_succeeds (context : MapContext) (nonNull : virtualAddress ≠ 0) (open_ : ¬ tables.Blocked virtualAddress)
    (room : pagingData.currentIndex + 3 ≤ pagingData.numberOfFrames) :
    ∃ result, walkLevels (vmMapPage context) virtualAddress [1, 2, 3, 4] tables pagingData = .ok result := by
  have accepted1 (present : (tables.lookUp 1 virtualAddress).present = true) :
      (tables.lookUp 1 virtualAddress).pat = false := by
    by_contra pat
    exact open_ ⟨present, .inl (Bool.eq_true_of_not_eq_false pat)⟩
  have room1 : pagingData.currentIndex < pagingData.numberOfFrames := by omega
  obtain ⟨first, firstData, step1⟩ := Descends.exists_of accepted1 room1
  obtain ⟨present1, _, _⟩ := step1.entries (by decide)
  have open1 := mt ((step1.same (by decide) (by decide)).blocked virtualAddress).mp open_
  have accepted2 (present : (first.lookUp 2 virtualAddress).present = true) :
      (first.lookUp 2 virtualAddress).pat = false := by
    by_contra pat
    exact open1 ⟨present1, .inr ⟨present, .inl (Bool.eq_true_of_not_eq_false pat)⟩⟩
  have data1 := step1.data
  have room2 : firstData.currentIndex < firstData.numberOfFrames := by omega
  obtain ⟨second, secondData, step2⟩ := Descends.exists_of accepted2 room2
  obtain ⟨present2, _, kept2⟩ := step2.entries (by decide)
  have open2 := mt ((step2.same (by decide) (by decide)).blocked virtualAddress).mp open1
  have entry1 : second.lookUp 1 virtualAddress = first.lookUp 1 virtualAddress := kept2 1 (by decide)
  have accepted3 (present : (second.lookUp 3 virtualAddress).present = true) :
      (second.lookUp 3 virtualAddress).pat = false := by
    by_contra pat
    exact open2 ⟨by rw [entry1, present1], .inr ⟨present2, .inr ⟨present, Bool.eq_true_of_not_eq_false pat⟩⟩⟩
  have data2 := step2.data
  have room3 : secondData.currentIndex < secondData.numberOfFrames := by omega
  obtain ⟨third, thirdData, step3⟩ := Descends.exists_of accepted3 room3
  exact ⟨_, (map_upper_eq_ok nonNull (by decide)).mpr ⟨first, firstData, step1,
    (map_upper_eq_ok nonNull (by decide)).mpr ⟨second, secondData, step2,
      (map_upper_eq_ok nonNull (by decide)).mpr ⟨third, thirdData, step3, map_last nonNull⟩⟩⟩⟩

theorem lookUp_last {entry : PtEntry} {other : Nat} :
    (tables.setEntry 4 (tableIndex 4 virtualAddress) entry).lookUp level other =
      if level = 4 ∧ tableIndex 4 other = tableIndex 4 virtualAddress then entry else tables.lookUp level other := by
  simp only [PagingTables.lookUp, PagingTables.setEntry]
  by_cases last : level = 4
  · subst last
    simp
  · simp [last]

structure MapsPage (before after : PagingTables) (invalidate : Bool) (virtualAddress : Nat) (entry : PtEntry) :
    Prop where
  here : after.mapping virtualAddress =
    if (before.mapping virtualAddress).isSome && !invalidate then before.mapping virtualAddress else some (4, entry)
  elsewhere : forall other, tableIndex 4 other ≠ tableIndex 4 virtualAddress ->
    after.mapping other = before.mapping other
  blocked : forall other, after.Blocked other ↔ before.Blocked other

theorem mapPage_spec {after : PagingTables} {afterData : PagingData} (nonNull : virtualAddress ≠ 0)
    (walked : walkLevels (vmMapPage context) virtualAddress [1, 2, 3, 4] tables pagingData = .ok (after, afterData)) :
    ¬ tables.Blocked virtualAddress ∧
      MapsPage tables after context.invalidate virtualAddress
        (pteMap (mapAddress context virtualAddress) (mapFlags context pagingData.kernelSpace)) ∧
      afterData.numberOfFrames = pagingData.numberOfFrames ∧ afterData.kernelSpace = pagingData.kernelSpace ∧
      afterData.currentIndex ≤ pagingData.currentIndex + 3 := by
  obtain ⟨prepared, preparedData, same, ready, frames, kernelSpace, used, last⟩ := walk_prepares nonNull walked
  refine ⟨mt (same.blocked virtualAddress).mpr ready.not_blocked, ?_⟩
  have mapping := (same.mapping virtualAddress).symm.trans ready.mapping
  rw [map_last nonNull] at last
  obtain ⟨tables_eq, rfl⟩ := Prod.mk.inj (Except.ok.inj last)
  refine ⟨?_, frames, kernelSpace, used⟩
  cases present : (prepared.lookUp 4 virtualAddress).present && !context.invalidate with
  | true =>
    rw [present, if_pos rfl] at tables_eq
    rw [Bool.and_eq_true] at present
    subst tables_eq
    refine ⟨?_, fun other _ => same.mapping other, same.blocked⟩
    rw [same.mapping, mapping, present.1, present.2]
    rfl
  | false =>
    rw [present, if_neg (by decide), kernelSpace] at tables_eq
    subst tables_eq
    have entries (level other : Nat) := @lookUp_last prepared virtualAddress level
      (pteMap (mapAddress context virtualAddress) (mapFlags context pagingData.kernelSpace)) other
    refine ⟨?_, fun other different => ?_, fun other => ?_⟩
    · have now : Ready (prepared.setEntry 4 (tableIndex 4 virtualAddress)
          (pteMap (mapAddress context virtualAddress) (mapFlags context pagingData.kernelSpace))) virtualAddress := by
        constructor
        · intro level low upper
          rw [entries, if_neg (by omega)]
          exact ready.present level low upper
        · intro level low upper
          rw [entries, if_neg (by omega)]
          exact ready.structures level low upper
      have last : (prepared.setEntry 4 (tableIndex 4 virtualAddress) (pteMap (mapAddress context virtualAddress)
          (mapFlags context pagingData.kernelSpace))).lookUp 4 virtualAddress =
            pteMap (mapAddress context virtualAddress) (mapFlags context pagingData.kernelSpace) := by
        rw [entries]
        exact if_pos ⟨rfl, rfl⟩
      rw [now.mapping, last, mapping]
      cases there : (prepared.lookUp 4 virtualAddress).present with
      | false => rfl
      | true =>
        rw [there, Bool.true_and] at present
        rw [present]
        rfl
    · rw [← same.mapping other]
      unfold PagingTables.mapping
      simp only [entries, different, and_false, if_false]
    · rw [← same.blocked other]
      unfold PagingTables.Blocked
      simp [entries]

end Page

structure MapsPages (before after : PagingTables) (invalidate : Bool) (pages : List (Nat × PtEntry)) : Prop where
  here : forall page, page ∈ pages -> after.mapping page.1 =
    if (before.mapping page.1).isSome && !invalidate then before.mapping page.1 else some (4, page.2)
  elsewhere : forall other, (forall page, page ∈ pages -> tableIndex 4 other ≠ tableIndex 4 page.1) ->
    after.mapping other = before.mapping other
  blocked : forall other, after.Blocked other ↔ before.Blocked other

def DistinctPages (pages : List (Nat × PtEntry)) : Prop :=
  pages.Pairwise (fun first second => tableIndex 4 first.1 ≠ tableIndex 4 second.1)

namespace MapsPages

variable {before between after : PagingTables} {invalidate : Bool} {first second : List (Nat × PtEntry)}

theorem nil (tables : PagingTables) : MapsPages tables tables invalidate [] :=
  ⟨fun _ member => absurd member List.not_mem_nil, fun _ _ => rfl, fun _ => Iff.rfl⟩

theorem single {virtualAddress : Nat} {entry : PtEntry}
    (maps : MapsPage before after invalidate virtualAddress entry) :
    MapsPages before after invalidate [(virtualAddress, entry)] := by
  refine ⟨fun page member => ?_, fun other different => ?_, maps.blocked⟩
  · obtain rfl := List.mem_singleton.mp member
    exact maps.here
  · exact maps.elsewhere other (different _ (List.mem_singleton_self _))

theorem append (earlier : MapsPages before between invalidate first)
    (later : MapsPages between after invalidate second) (distinct : DistinctPages (first ++ second)) :
    MapsPages before after invalidate (first ++ second) := by
  obtain ⟨_, _, apart⟩ := List.pairwise_append.mp distinct
  refine ⟨fun page member => ?_, fun other different => ?_, fun other => ?_⟩
  · rcases List.mem_append.mp member with early | late
    · rw [later.elsewhere page.1 (fun other inside => apart page early other inside)]
      exact earlier.here page early
    · have kept := earlier.elsewhere page.1 (fun other inside => Ne.symm (apart other inside page late))
      rw [later.here page late, kept]
  · rw [later.elsewhere other (fun page inside => different page (List.mem_append_right _ inside))]
    exact earlier.elsewhere other (fun page inside => different page (List.mem_append_left _ inside))
  · exact (later.blocked other).trans (earlier.blocked other)

end MapsPages

section Pages

variable {context : MapContext} {tables : PagingTables} {pagingData : PagingData} {baseAddress : Nat}

def pageMapped (context : MapContext) (kernelSpace : Bool) (virtualAddress : Nat) : Nat × PtEntry :=
  (virtualAddress, pteMap (mapAddress context virtualAddress) (mapFlags context kernelSpace))

theorem map_null (level : Nat) (rest : List Nat) :
    walkLevels (vmMapPage context) 0 (level :: rest) tables pagingData = .error "VirtualAddress != NULL" := rfl

theorem walkPages_spec {offsets : List Nat} {after : PagingTables} {afterData : PagingData}
    (distinct : DistinctPages (offsets.map (fun offset =>
      pageMapped context pagingData.kernelSpace (ptrOffset baseAddress offset))))
    (walked : walkPages (vmMapPage context) baseAddress offsets tables pagingData = .ok (after, afterData)) :
    (forall offset, offset ∈ offsets ->
        ptrOffset baseAddress offset ≠ 0 ∧ ¬ tables.Blocked (ptrOffset baseAddress offset)) ∧
      MapsPages tables after context.invalidate (offsets.map (fun offset =>
        pageMapped context pagingData.kernelSpace (ptrOffset baseAddress offset))) ∧
      afterData.kernelSpace = pagingData.kernelSpace := by
  induction offsets generalizing tables pagingData with
  | nil =>
    obtain ⟨rfl, rfl⟩ := Prod.mk.inj (Except.ok.inj walked)
    exact ⟨fun _ member => absurd member List.not_mem_nil, MapsPages.nil tables, rfl⟩
  | cons offset rest ih =>
    obtain ⟨⟨between, betweenData⟩, page, later⟩ := Kernel.bind_eq_ok.mp walked
    have nonNull : ptrOffset baseAddress offset ≠ 0 := by
      intro null
      rw [null, map_null] at page
      cases page
    obtain ⟨accepted, maps, _, kernelSpace, _⟩ := mapPage_spec nonNull page
    rw [List.map_cons] at distinct
    have apart := (List.pairwise_cons.mp distinct).2
    rw [← kernelSpace] at apart
    obtain ⟨others, mapped, space⟩ := ih apart later
    rw [kernelSpace] at mapped space
    refine ⟨fun other member => ?_, ?_, space⟩
    · rcases List.mem_cons.mp member with rfl | inside
      · exact ⟨nonNull, accepted⟩
      · obtain ⟨otherNonNull, otherAccepted⟩ := others other inside
        exact ⟨otherNonNull, mt (maps.blocked _).mpr otherAccepted⟩
    · exact (MapsPages.single maps).append mapped distinct

theorem walkPages_succeeds {offsets : List Nat} (context : MapContext)
    (accepted : forall offset, offset ∈ offsets ->
      ptrOffset baseAddress offset ≠ 0 ∧ ¬ tables.Blocked (ptrOffset baseAddress offset))
    (room : pagingData.currentIndex + 3 * offsets.length ≤ pagingData.numberOfFrames) :
    ∃ after afterData, walkPages (vmMapPage context) baseAddress offsets tables pagingData = .ok (after, afterData) ∧
      afterData.numberOfFrames = pagingData.numberOfFrames ∧
      afterData.currentIndex ≤ pagingData.currentIndex + 3 * offsets.length := by
  induction offsets generalizing tables pagingData with
  | nil => exact ⟨tables, pagingData, rfl, rfl, Nat.le_add_right _ _⟩
  | cons offset rest ih =>
    rw [List.length_cons] at room
    obtain ⟨nonNull, open_⟩ := accepted offset List.mem_cons_self
    obtain ⟨⟨between, betweenData⟩, page⟩ := walk_succeeds context nonNull open_
      (show pagingData.currentIndex + 3 ≤ pagingData.numberOfFrames by omega)
    obtain ⟨_, maps, frames, _, used⟩ := mapPage_spec nonNull page
    have later (other : Nat) (member : other ∈ rest) :
        ptrOffset baseAddress other ≠ 0 ∧ ¬ between.Blocked (ptrOffset baseAddress other) := by
      obtain ⟨otherNonNull, otherOpen⟩ := accepted other (List.mem_cons_of_mem _ member)
      exact ⟨otherNonNull, mt (maps.blocked _).mp otherOpen⟩
    have enough : betweenData.currentIndex + 3 * rest.length ≤ betweenData.numberOfFrames := by omega
    obtain ⟨after, afterData, walked, sameFrames, total⟩ := ih later enough
    refine ⟨after, afterData, Kernel.bind_eq_ok.mpr ⟨_, page, walked⟩, by omega, ?_⟩
    rw [List.length_cons]
    omega

end Pages

end Hal9000.Mmu
