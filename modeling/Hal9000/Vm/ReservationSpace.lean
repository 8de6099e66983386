import Hal9000.CommonLib.Bitmap

set_option autoImplicit false

namespace Hal9000.Vm

inductive Status where
  | success
  | elementNotFound
  | memoryCannotBeReserved
  | memoryIsNotReserved
  | memoryAlreadyReserved
  | memoryConflictingAccessRights
  | memoryConflictingCacheability
  | memoryIsNotCommited
  | memoryPreventsUsermodeAccess
  | memoryInsufficientAccessRights
  | unsupported
  deriving DecidableEq, Repr

inductive ReservationState where
  | free
  | used
  | last
  deriving DecidableEq, Repr

-- `VMM_RESERVATION`; a file object is its pointer, 0 for NULL.
structure Reservation where
  startVa : Nat := 0
  size : Nat := 0
  pageRights : Nat := 0
  state : ReservationState := .free
  uncacheable : Bool := false
  backingFile : Nat := 0
  commitBitmap : Bitmap := {}
  deriving DecidableEq, Repr

def sizeofReservation : Nat := 0x38

-- `VMM_RESERVATION_SPACE` with the metadata it points to: the array at `ReservationList` and the memory that holds
-- the commit bitmaps.
structure ReservationSpace where
  freeVirtualAddressPointer : Nat
  startOfVirtualAddressSpace : Nat
  bitmapAddressStart : Nat
  reservedAreaSize : Nat
  freeBitmapAddress : Nat
  reservationList : Nat
  slots : Nat -> Reservation
  memory : Memory

namespace ReservationSpace

def setSlot (space : ReservationSpace) (index : Nat) (reservation : Reservation) : ReservationSpace :=
  { space with slots := Function.update space.slots index reservation }

@[simp] theorem setSlot_slots (space : ReservationSpace) (index : Nat) (reservation : Reservation) :
    (space.setSlot index reservation).slots = Function.update space.slots index reservation := rfl

-- Number of array elements whose address is below `BitmapAddressStart`, where both scans stop.
def slotCount (space : ReservationSpace) : Nat :=
  (space.bitmapAddressStart - space.reservationList + (sizeofReservation - 1)) / sizeofReservation

end ReservationSpace

def allocTypeReserve : Nat := 0x1
def allocTypeCommit : Nat := 0x2
def freeTypeDecommit : Nat := 0x1
def freeTypeRelease : Nat := 0x2

def reservationListPercentageInHundreds : Nat := 20 * 100

def calculatePercentage (wholeValue hundredsOfPercentage : Nat) : Kernel Nat := do
  assert (decide (hundredsOfPercentage ≤ 10000)) "HundredsOfPercentage <= 10000"
  assert (decide ((2 ^ 64 - 1) / hundredsOfPercentage ≥ wholeValue))
    "(MAX_QWORD / HundredsOfPercentage) >= WholeValue"
  pure (qword (wholeValue * hundredsOfPercentage) / 10000)

-- The metadata pages are zero when they are first touched: the page fault handler clears them.
def vmReservationSpaceInit (metadataBaseAddress baseAddress metadataSize : Nat) :
    Kernel ReservationSpace := do
  assert (0 != metadataBaseAddress) "NULL != ReservationMetadataBaseAddress"
  assert (isAddressAligned metadataBaseAddress pageSize)
    "IsAddressAligned(ReservationMetadataBaseAddress, PAGE_SIZE)"
  assert (metadataSize != 0) "ReservationMetadataSize != 0"
  let sizeForReservationList <- calculatePercentage metadataSize reservationListPercentageInHundreds
  let bitmapAddressStart := ptrOffset metadataBaseAddress sizeForReservationList
  let start := if baseAddress = 0 then ptrOffset metadataBaseAddress metadataSize else baseAddress
  pure
    { freeVirtualAddressPointer := start
      startOfVirtualAddressSpace := start
      bitmapAddressStart := bitmapAddressStart
      reservedAreaSize := metadataSize
      freeBitmapAddress := bitmapAddressStart
      reservationList := metadataBaseAddress
      slots := fun _ => {}
      memory := fun _ => 0 }

def vmReservationSpaceFinishInit (space : ReservationSpace) : ReservationSpace :=
  space.setSlot 0 { space.slots 0 with state := .last }

-- The scan of `_VmFindReservation` from slot `index` on, with `remaining` slots below the bitmaps.
def findReservationFrom (space : ReservationSpace) (address size : Nat) : Nat -> Nat -> Option Nat
  | 0, _ => none
  | remaining + 1, index =>
    match (space.slots index).state with
    | .last => none
    | .free => findReservationFrom space address size remaining (index + 1)
    | .used =>
      if checkBounds address size (space.slots index).startVa (space.slots index).size then some index
      else findReservationFrom space address size remaining (index + 1)

def vmFindReservation (space : ReservationSpace) (address size : Nat) : Kernel (Option Nat) := do
  assert (0 != address) "NULL != Address"
  assert (0 != size) "0 != Size"
  pure (findReservationFrom space address size space.slotCount 0)

def findFirstFreeReservationFrom (space : ReservationSpace) :
    Nat -> Nat -> Option (ReservationSpace × Nat)
  | 0, _ => none
  | remaining + 1, index =>
    match (space.slots index).state with
    | .free => some (space, index)
    | .last =>
      let released := space.setSlot index { space.slots index with state := .free }
      some (released.setSlot (index + 1) { released.slots (index + 1) with state := .last }, index)
    | .used => findFirstFreeReservationFrom space remaining (index + 1)

def vmFindFirstFreeReservation (space : ReservationSpace) : Option (ReservationSpace × Nat) :=
  findFirstFreeReservationFrom space space.slotCount 0

def vmInitializeReservation (space : ReservationSpace) (address size pageRights : Nat)
    (uncacheable : Bool) (fileObject : Nat) (index : Nat) : Kernel ReservationSpace := do
  assert (0 != address) "NULL != Address"
  assert (0 != size) "0 != Size"
  assert (isAddressAligned address pageSize) "IsAddressAligned(Address, PAGE_SIZE)"
  assert (isAddressAligned size pageSize) "IsAddressAligned(Size, PAGE_SIZE)"
  let noOfPages := size / pageSize
  assert (decide (noOfPages ≤ maxDword)) "noOfPages <= MAX_DWORD"
  let bitmap <- Bitmap.preinit (dword noOfPages)
  assert (0 != bitmap.bufferSize) "0 != bitmapSize"
  assert (isAddressAligned space.freeBitmapAddress pageSize)
    "IsAddressAligned(ReservationSpace->FreeBitmapAddress, PAGE_SIZE)"
  let (memory, commitBitmap) <- bitmap.initEx space.memory space.freeBitmapAddress false
  assert (checkBounds space.freeBitmapAddress (alignAddressUpper bitmap.bufferSize pageSize)
      space.reservationList space.reservedAreaSize)
    "CHECK_BOUNDS(FreeBitmapAddress, AlignAddressUpper(bitmapSize, PAGE_SIZE), ReservationList, ReservedAreaSize)"
  let initialized := space.setSlot index
    { startVa := address
      size := size
      pageRights := pageRights
      state := .used
      uncacheable := uncacheable
      backingFile := fileObject
      commitBitmap := commitBitmap }
  pure
    { initialized with
      memory := memory
      freeBitmapAddress :=
        ptrOffset space.freeBitmapAddress (alignAddressUpper bitmap.bufferSize pageSize) }

-- The body `_VmCommitReservation` and `_VmDecommitReservation` share.
def changeCommitState (memory : Memory) (address size : Nat) (reservation : Reservation)
    (set : Bool) : Kernel Memory := do
  assert (0 != address) "NULL != Address"
  assert (0 != size) "0 != Size"
  assert (isAddressAligned address pageSize) "IsAddressAligned(Address, PAGE_SIZE)"
  assert (isAddressAligned size pageSize) "IsAddressAligned(Size, PAGE_SIZE)"
  let noOfPages := size / pageSize
  let startIndex := signedQuotient (ptrDiff address reservation.startVa) pageSize
  assert (decide (noOfPages ≤ maxDword)) "noOfPages <= MAX_DWORD"
  assert (decide (startIndex ≤ maxDword)) "startIndex <= MAX_DWORD"
  reservation.commitBitmap.setBitsValue memory (dword startIndex) (dword noOfPages) set

def vmCommitReservation (memory : Memory) (address size : Nat) (reservation : Reservation) :
    Kernel Memory :=
  changeCommitState memory address size reservation true

def vmDecommitReservation (memory : Memory) (address size : Nat) (reservation : Reservation) :
    Kernel Memory :=
  changeCommitState memory address size reservation false

def vmIsVaCommited (space : ReservationSpace) (reservation : Reservation) (address : Nat) :
    Kernel Bool := do
  assert (0 != address) "NULL != Address"
  let pageNo := signedQuotient (ptrDiff address reservation.startVa) pageSize
  assert (decide (pageNo ≤ maxDword)) "pageNo <= MAX_DWORD"
  reservation.commitBitmap.getBitValue space.memory (dword pageNo)

def vmChangeVaReservationState (space : ReservationSpace) (address size allocationType pageRights : Nat)
    (uncacheable : Bool) (fileObject : Nat) : Kernel (ReservationSpace × Status) := do
  assert (0 != address) "NULL != Address"
  assert (0 != size) "0 != Size"
  assert ((allocationType == allocTypeReserve) ^^ (allocationType == allocTypeCommit))
    "(AllocationType == VMM_ALLOC_TYPE_RESERVE) ^ (AllocationType == VMM_ALLOC_TYPE_COMMIT)"
  assert (isAddressAligned address pageSize) "IsAddressAligned(Address, PAGE_SIZE)"
  assert (isAddressAligned size pageSize) "IsAddressAligned(Size, PAGE_SIZE)"
  let found <- vmFindReservation space address size
  if allocationType = allocTypeReserve then
    match found with
    | some _ => pure (space, .memoryAlreadyReserved)
    | none =>
      match vmFindFirstFreeReservation space with
      | none => throw "NULL != pReservation"
      | some (extended, index) =>
        let initialized <- vmInitializeReservation extended address size pageRights uncacheable
          fileObject index
        pure (initialized, .success)
  else
    match found with
    | none => pure (space, .memoryIsNotReserved)
    | some index =>
      let reservation := space.slots index
      if reservation.pageRights != pageRights then
        pure (space, .memoryConflictingAccessRights)
      else if reservation.uncacheable != uncacheable then
        pure (space, .memoryConflictingCacheability)
      else
        let memory <- vmCommitReservation space.memory address size reservation
        pure ({ space with memory := memory }, .success)

-- `*MappedAddress` and `*MappedSize`, which are written on success only.
structure Mapping where
  mappedAddress : Nat
  mappedSize : Nat
  deriving DecidableEq, Repr

-- The page range an allocation request asks for and the space after the address was chosen.
def alignRequest (space : ReservationSpace) (baseAddress size : Nat) :
    ReservationSpace × Nat × Nat :=
  if baseAddress = 0 then
    let alignedSize := alignAddressUpper size pageSize
    ({ space with
        freeVirtualAddressPointer := ptrOffset space.freeVirtualAddressPointer alignedSize },
      qword space.freeVirtualAddressPointer, alignedSize)
  else
    let base := alignAddressLower baseAddress pageSize
    (space, base, alignAddressUpper (qword (size + ptrDiff baseAddress base)) pageSize)

-- `if (IsBooleanFlagOn(AllocType, ...))` around each of the two calls of _VmChangeVaReservationState.
def changeIfRequested (requested : Bool) (space : ReservationSpace)
    (address size allocationType pageRights : Nat) (uncacheable : Bool) (fileObject : Nat) :
    Kernel (ReservationSpace × Status) :=
  if requested then
    vmChangeVaReservationState space address size allocationType pageRights uncacheable fileObject
  else pure (space, .success)

def vmReservationSpaceAllocRegion (space : ReservationSpace) (baseAddress size allocType rights : Nat)
    (uncacheable : Bool) (fileObject : Nat) :
    Kernel (ReservationSpace × Status × Option Mapping) := do
  assert (size != 0) "Size != 0"
  assert (isFlagOn allocType (allocTypeCommit ||| allocTypeReserve))
    "IsFlagOn(AllocType, VMM_ALLOC_TYPE_COMMIT | VMM_ALLOC_TYPE_RESERVE)"
  let (chosen, base, alignedSize) := alignRequest space baseAddress size
  if baseAddress ≠ 0 ∧ base < space.startOfVirtualAddressSpace then
    pure (space, .memoryCannotBeReserved, none)
  else
    let (reserved, reserveStatus) <- changeIfRequested (isBooleanFlagOn allocType allocTypeReserve)
      chosen base alignedSize allocTypeReserve rights uncacheable fileObject
    if reserveStatus ≠ .success then
      pure (reserved, reserveStatus, none)
    else
      let (committed, commitStatus) <- changeIfRequested (isBooleanFlagOn allocType allocTypeCommit)
        reserved base alignedSize allocTypeCommit rights uncacheable fileObject
      if commitStatus ≠ .success then
        pure (committed, commitStatus, none)
      else
        pure (committed, .success, some { mappedAddress := base, mappedSize := alignedSize })

def vmReservationSpaceFreeRegion (space : ReservationSpace) (address size freeType : Nat) :
    Kernel (ReservationSpace × Nat × Nat) := do
  assert (0 != address) "Address != NULL"
  assert ((isBooleanFlagOn freeType freeTypeRelease && size == 0) ||
      (isBooleanFlagOn freeType freeTypeDecommit && size != 0))
    "(RELEASE && Size == 0) || (DECOMMIT && Size != 0)"
  assert (isBooleanFlagOn freeType freeTypeRelease ^^ isBooleanFlagOn freeType freeTypeDecommit)
    "IsBooleanFlagOn(FreeType, VMM_FREE_TYPE_RELEASE) ^ IsBooleanFlagOn(FreeType, VMM_FREE_TYPE_DECOMMIT)"
  let found <- vmFindReservation space address 1
  match found with
  | none => throw "SUCCEEDED(status)"
  | some index =>
    let reservation := space.slots index
    if isBooleanFlagOn freeType freeTypeRelease then
      assert (isAddressAligned reservation.commitBitmap.bitmapBuffer pageSize)
        "IsAddressAligned(pBitmapBuffer, PAGE_SIZE)"
      pure (space.setSlot index {}, reservation.startVa, reservation.size)
    else
      let alignedAddress := alignAddressLower address pageSize
      let alignedSize := alignAddressUpper (qword (size + ptrDiff address alignedAddress)) pageSize
      let memory <- vmDecommitReservation space.memory alignedAddress alignedSize reservation
      pure ({ space with memory := memory }, alignedAddress, alignedSize)

theorem findFirstFreeReservationFrom_spec (space : ReservationSpace) (remaining index : Nat)
    {extended : ReservationSpace} {found : Nat}
    (result : findFirstFreeReservationFrom space remaining index = some (extended, found)) :
    (extended.slots found).state = .free ∧
      (forall i, (extended.slots i).state = .used -> extended.slots i = space.slots i) ∧
      extended.memory = space.memory := by
  induction remaining generalizing index with
  | zero => simp [findFirstFreeReservationFrom] at result
  | succ remaining ih =>
    cases kind : (space.slots index).state with
    | used => exact ih (index + 1) (by simpa [findFirstFreeReservationFrom, kind] using result)
    | free =>
      simp only [findFirstFreeReservationFrom, kind, Option.some.injEq, Prod.mk.injEq] at result
      obtain ⟨rfl, rfl⟩ := result
      exact ⟨kind, fun _ _ => rfl, rfl⟩
    | last =>
      simp only [findFirstFreeReservationFrom, kind, Option.some.injEq, Prod.mk.injEq] at result
      obtain ⟨rfl, rfl⟩ := result
      refine ⟨by simp [Function.update], ?_, rfl⟩
      intro i used
      by_cases next : i = index + 1
      · simp [next] at used
      · by_cases same : i = index
        · simp [same] at used
        · simp [next, same]

theorem findReservationFrom_spec {space : ReservationSpace} {address size : Nat}
    (remaining index : Nat) {found : Nat}
    (result : findReservationFrom space address size remaining index = some found) :
    (space.slots found).state = .used ∧
      checkBounds address size (space.slots found).startVa (space.slots found).size = true := by
  induction remaining generalizing index with
  | zero => simp [findReservationFrom] at result
  | succ remaining ih =>
    cases kind : (space.slots index).state with
    | last => simp [findReservationFrom, kind] at result
    | free => exact ih (index + 1) (by simpa [findReservationFrom, kind] using result)
    | used =>
      simp only [findReservationFrom, kind] at result
      split at result
      · obtain rfl := Option.some.inj result
        exact ⟨kind, by assumption⟩
      · exact ih (index + 1) result

theorem vmFindReservation_eq_ok {space : ReservationSpace} {address size : Nat} {found : Option Nat}
    (result : vmFindReservation space address size = .ok found) :
    address ≠ 0 ∧ size ≠ 0 ∧ found = findReservationFrom space address size space.slotCount 0 := by
  simp only [vmFindReservation, Kernel.assert_bind_eq_ok, bne_iff_ne] at result
  obtain ⟨address0, size0, found⟩ := result
  exact ⟨address0.symm, size0.symm, (Except.ok.inj found).symm⟩

-- What the ASSERTs of _VmInitializeReservation and BitmapPreinit leave behind in a used slot.
structure Reservation.WellFormed (reservation : Reservation) : Prop where
  startVa_ne_zero : reservation.startVa ≠ 0
  size_ne_zero : reservation.size ≠ 0
  startVa_aligned : isAddressAligned reservation.startVa pageSize = true
  size_aligned : isAddressAligned reservation.size pageSize = true
  pages_bound : reservation.size / pageSize ≤ maxDword
  bitCount_eq : reservation.commitBitmap.bitCount = reservation.size / pageSize

theorem vmInitializeReservation_spec {space after : ReservationSpace} {address size pageRights : Nat}
    {uncacheable : Bool} {fileObject index : Nat}
    (result : vmInitializeReservation space address size pageRights uncacheable fileObject index =
      .ok after) :
    ∃ reservation : Reservation, reservation.startVa = address ∧ reservation.size = size ∧
      reservation.state = .used ∧ reservation.WellFormed ∧
      after.slots = Function.update space.slots index reservation := by
  simp only [vmInitializeReservation, Kernel.assert_bind_eq_ok] at result
  obtain ⟨address0, size0, addressAligned, sizeAligned, pages, result⟩ := result
  have pages : size / pageSize ≤ maxDword := of_decide_eq_true pages
  obtain ⟨bitmap, preinit, result⟩ := Kernel.bind_eq_ok.mp result
  simp only [Kernel.assert_bind_eq_ok] at result
  obtain ⟨_, _, result⟩ := result
  obtain ⟨⟨memory, commitBitmap⟩, initEx, result⟩ := Kernel.bind_eq_ok.mp result
  simp only [Kernel.assert_bind_eq_ok] at result
  obtain ⟨_, result⟩ := result
  have final := Except.ok.inj result
  have count : commitBitmap.bitCount = size / pageSize := by
    simp only [Bitmap.preinit, Kernel.assert_bind_eq_ok] at preinit
    simp only [Bitmap.initEx, Kernel.assert_bind_eq_ok] at initEx
    have bitmapEq := Except.ok.inj preinit.2
    have commitEq := congrArg Prod.snd (Except.ok.inj initEx.2)
    dsimp only at commitEq
    rw [← commitEq, ← bitmapEq]
    exact dword_of_lt (Nat.lt_succ_of_le pages)
  simp only [bne_iff_ne] at address0 size0
  exact ⟨_, rfl, rfl, rfl, ⟨address0.symm, size0.symm, addressAligned, sizeAligned, pages, count⟩,
    by rw [← final]; rfl⟩

def Kept (before after : ReservationSpace) : Prop :=
  forall i, (after.slots i).state = .used -> after.slots i = before.slots i

structure Added (before after : ReservationSpace) (base size index : Nat) : Prop where
  unreserved : findReservationFrom before base size before.slotCount 0 = none
  startVa_eq : (after.slots index).startVa = base
  size_eq : (after.slots index).size = size
  wellFormed : (after.slots index).WellFormed
  others : forall i, i ≠ index -> (after.slots i).state = .used -> after.slots i = before.slots i

theorem vmChangeVaReservationState_reserve {space after : ReservationSpace}
    {address size pageRights : Nat} {uncacheable : Bool} {fileObject : Nat} {status : Status}
    (result : vmChangeVaReservationState space address size allocTypeReserve pageRights uncacheable
      fileObject = .ok (after, status)) :
    (status = .memoryAlreadyReserved ∧ after = space) ∨
      (status = .success ∧ ∃ index, Added space after address size index) := by
  simp only [vmChangeVaReservationState, Kernel.assert_bind_eq_ok] at result
  obtain ⟨_, _, _, _, _, result⟩ := result
  obtain ⟨found, search, result⟩ := Kernel.bind_eq_ok.mp result
  obtain ⟨_, _, found_eq⟩ := vmFindReservation_eq_ok search
  simp only [if_true] at result
  cases found with
  | some index =>
    obtain ⟨rfl, rfl⟩ := Prod.mk.inj (Except.ok.inj result)
    exact .inl ⟨rfl, rfl⟩
  | none =>
    cases slot : vmFindFirstFreeReservation space with
    | none => simp [slot, throw, throwThe, MonadExceptOf.throw] at result
    | some extension =>
      obtain ⟨extended, index⟩ := extension
      simp only [slot] at result
      obtain ⟨initialized, init, result⟩ := Kernel.bind_eq_ok.mp result
      obtain ⟨rfl, rfl⟩ := Prod.mk.inj (Except.ok.inj result)
      obtain ⟨_, kept, _⟩ := findFirstFreeReservationFrom_spec space _ _ slot
      obtain ⟨reservation, start, length, _, wellFormed, slots⟩ := vmInitializeReservation_spec init
      refine .inr ⟨rfl, index, found_eq.symm, ?_, ?_, ?_, ?_⟩
      · rw [slots, Function.update_self, start]
      · rw [slots, Function.update_self, length]
      · rw [slots, Function.update_self]
        exact wellFormed
      · intro i other used
        rw [slots, Function.update_of_ne other] at used ⊢
        exact kept i used

theorem vmChangeVaReservationState_commit {space after : ReservationSpace}
    {address size pageRights : Nat} {uncacheable : Bool} {fileObject : Nat} {status : Status}
    (result : vmChangeVaReservationState space address size allocTypeCommit pageRights uncacheable
      fileObject = .ok (after, status)) :
    after.slots = space.slots := by
  simp only [vmChangeVaReservationState, Kernel.assert_bind_eq_ok] at result
  obtain ⟨_, _, _, _, _, result⟩ := result
  obtain ⟨found, _, result⟩ := Kernel.bind_eq_ok.mp result
  simp only [show allocTypeCommit ≠ allocTypeReserve by decide, if_false] at result
  cases found with
  | none => rw [← (Prod.mk.inj (Except.ok.inj result)).1]
  | some index =>
    dsimp only at result
    split at result
    · rw [← (Prod.mk.inj (Except.ok.inj result)).1]
    · split at result
      · rw [← (Prod.mk.inj (Except.ok.inj result)).1]
      · obtain ⟨memory, _, result⟩ := Kernel.bind_eq_ok.mp result
        rw [← (Prod.mk.inj (Except.ok.inj result)).1]

theorem alignRequest_slots (space : ReservationSpace) (baseAddress size : Nat) :
    (alignRequest space baseAddress size).1.slots = space.slots ∧
      (alignRequest space baseAddress size).1.slotCount = space.slotCount := by
  by_cases automatic : baseAddress = 0
  · simp only [alignRequest, automatic, if_true, ReservationSpace.slotCount, and_self]
  · simp only [alignRequest, automatic, if_false, and_self]

theorem findReservationFrom_congr {first second : ReservationSpace} (same : first.slots = second.slots)
    (address size remaining index : Nat) :
    findReservationFrom first address size remaining index =
      findReservationFrom second address size remaining index := by
  induction remaining generalizing index with
  | zero => rfl
  | succ remaining ih => simp only [findReservationFrom, same, ih]

theorem vmReservationSpaceAllocRegion_spec {space after : ReservationSpace}
    {baseAddress size allocType rights : Nat} {uncacheable : Bool} {fileObject : Nat}
    {status : Status} {mapping : Option Mapping}
    (result : vmReservationSpaceAllocRegion space baseAddress size allocType rights uncacheable
      fileObject = .ok (after, status, mapping)) :
    (Kept space after ∧ (isBooleanFlagOn allocType allocTypeReserve = true -> mapping = none)) ∨
      (isBooleanFlagOn allocType allocTypeReserve = true ∧
        ∃ index, Added space after (alignRequest space baseAddress size).2.1
          (alignRequest space baseAddress size).2.2 index) := by
  have aligned := alignRequest_slots space baseAddress size
  simp only [vmReservationSpaceAllocRegion, Kernel.assert_bind_eq_ok] at result
  obtain ⟨_, _, result⟩ := result
  generalize request : alignRequest space baseAddress size = chosen at result aligned
  obtain ⟨chosen, base, alignedSize⟩ := chosen
  dsimp only at result aligned ⊢
  split at result
  · obtain ⟨rfl, rfl, rfl⟩ := by simpa using Except.ok.inj result
    exact .inl ⟨fun _ _ => rfl, fun _ => rfl⟩
  obtain ⟨⟨reserved, reserveStatus⟩, reserve, result⟩ := Kernel.bind_eq_ok.mp result
  -- The COMMIT half changes no slot, so the slots after the call are those of `reserved`.
  have commits : after.slots = reserved.slots ∧ (reserveStatus ≠ .success -> mapping = none) := by
    dsimp only at result
    split at result
    · obtain ⟨rfl, _, rfl⟩ := by simpa using Except.ok.inj result
      exact ⟨rfl, fun _ => rfl⟩
    · obtain ⟨⟨committed, commitStatus⟩, commit, result⟩ := Kernel.bind_eq_ok.mp result
      have slots : committed.slots = reserved.slots := by
        unfold changeIfRequested at commit
        split at commit
        · exact vmChangeVaReservationState_commit commit
        · rw [← (Prod.mk.inj (Except.ok.inj commit)).1]
      dsimp only at result
      split at result
      all_goals
        have final := (Prod.mk.inj (Except.ok.inj result)).1
        exact ⟨by rw [← final]; exact slots, fun failed => absurd failed (by assumption)⟩
  unfold changeIfRequested at reserve
  split at reserve
  · rcases vmChangeVaReservationState_reserve reserve with ⟨failed, same⟩ | ⟨_, index, added⟩
    · refine .inl ⟨?_, fun _ => commits.2 (by simp [failed])⟩
      intro i _
      rw [commits.1, same, aligned.1]
    · refine .inr ⟨by assumption, index, ?_, ?_, ?_, ?_, ?_⟩
      · rw [← aligned.2, ← findReservationFrom_congr aligned.1]
        exact added.unreserved
      · rw [commits.1, added.startVa_eq]
      · rw [commits.1, added.size_eq]
      · rw [commits.1]
        exact added.wellFormed
      · intro i other used
        rw [commits.1] at used ⊢
        rw [added.others i other used, aligned.1]
  · rename_i unreserved
    refine .inl ⟨?_, fun reserve => absurd reserve unreserved⟩
    intro i _
    rw [commits.1, ← (Prod.mk.inj (Except.ok.inj reserve)).1, aligned.1]

theorem vmReservationSpaceAllocRegion_mapped {space after : ReservationSpace}
    {baseAddress size allocType rights : Nat} {uncacheable : Bool} {fileObject : Nat}
    {status : Status} {mapping : Mapping}
    (result : vmReservationSpaceAllocRegion space baseAddress size allocType rights uncacheable
      fileObject = .ok (after, status, some mapping)) :
    status = .success ∧ mapping.mappedAddress = (alignRequest space baseAddress size).2.1 ∧
      mapping.mappedSize = (alignRequest space baseAddress size).2.2 := by
  simp only [vmReservationSpaceAllocRegion, Kernel.assert_bind_eq_ok] at result
  obtain ⟨_, _, result⟩ := result
  generalize alignRequest space baseAddress size = chosen at result ⊢
  obtain ⟨chosen, base, alignedSize⟩ := chosen
  dsimp only at result ⊢
  split at result
  · exact absurd (Except.ok.inj result) (by simp)
  obtain ⟨⟨reserved, reserveStatus⟩, _, result⟩ := Kernel.bind_eq_ok.mp result
  dsimp only at result
  split at result
  · exact absurd (Except.ok.inj result) (by simp)
  obtain ⟨⟨committed, commitStatus⟩, _, result⟩ := Kernel.bind_eq_ok.mp result
  dsimp only at result
  split at result
  · exact absurd (Except.ok.inj result) (by simp)
  · have mapped := Except.ok.inj result
    simp only [Prod.mk.injEq, Option.some.injEq] at mapped
    rw [← mapped.2.2]
    exact ⟨mapped.2.1.symm, rfl, rfl⟩

theorem vmReservationSpaceAllocRegion_mapping {space after : ReservationSpace}
    {baseAddress size allocType rights : Nat} {uncacheable : Bool} {fileObject : Nat}
    {status : Status} {mapping : Mapping}
    (result : vmReservationSpaceAllocRegion space baseAddress size allocType rights uncacheable
      fileObject = .ok (after, status, some mapping)) :
    mapping.mappedAddress = (alignRequest space baseAddress size).2.1 :=
  (vmReservationSpaceAllocRegion_mapped result).2.1

theorem vmReservationSpaceFreeRegion_spec {space after : ReservationSpace}
    {address size freeType alignedAddress alignedSize : Nat}
    (result : vmReservationSpaceFreeRegion space address size freeType =
      .ok (after, alignedAddress, alignedSize)) :
    Kept space after := by
  simp only [vmReservationSpaceFreeRegion, Kernel.assert_bind_eq_ok] at result
  obtain ⟨_, _, _, result⟩ := result
  obtain ⟨found, _, result⟩ := Kernel.bind_eq_ok.mp result
  cases found with
  | none => simp [throw, throwThe, MonadExceptOf.throw] at result
  | some index =>
    dsimp only at result
    split at result
    · rw [Kernel.assert_bind_eq_ok] at result
      intro i used
      rw [← (Prod.mk.inj (Except.ok.inj result.2)).1] at used ⊢
      by_cases same : i = index
      · simp [same] at used
      · simp [same]
    · obtain ⟨memory, _, result⟩ := Kernel.bind_eq_ok.mp result
      intro i _
      rw [← (Prod.mk.inj (Except.ok.inj result)).1]

end Hal9000.Vm
