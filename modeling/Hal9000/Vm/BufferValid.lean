import Hal9000.Vm.Overlap

set_option autoImplicit false

namespace Hal9000.Vm

open Lib

def vaHighestValidBit : Nat := 47

def vmIsKernelAddress (address : Nat) : Bool :=
  isBooleanFlagOn address (2 ^ vaHighestValidBit)

def vmIsKernelRange (address rangeSize : Nat) : Kernel Bool := do
  assert (rangeSize != 0) "RangeSize != 0"
  pure (vmIsKernelAddress address || vmIsKernelAddress (ptrOffset address (rangeSize - 1)))

-- for (QWORD i = 0; i < Size; i += PAGE_SIZE): `none` when the loop still runs after `fuel` rounds.
def fullyCommitedFrom (space : ReservationSpace) (reservation : Reservation) (address size : Nat) :
    Nat -> Nat -> Kernel (Option Bool)
  | 0, _ => .ok none
  | fuel + 1, i =>
    if i < size then do
      let commited <- vmIsVaCommited space reservation (ptrOffset address i)
      if commited then fullyCommitedFrom space reservation address size fuel (qword (i + pageSize))
      else pure (some false)
    else pure (some true)

def commitLoopFuel : Nat := 2 ^ 32 + 1

-- The status, with *Rights when a reservation was found.
def vmReservationReturnRightsForAddress (space : ReservationSpace) (address size : Nat) :
    Kernel (Option (Status × Nat)) := do
  assert (0 != address) "Address != NULL"
  assert (size != 0) "Size != 0"
  let found <- vmFindReservation space address size
  match found with
  | none => pure (some (.memoryIsNotCommited, 0))
  | some index =>
    let reservation := space.slots index
    let fullyCommited <- fullyCommitedFrom space reservation address size commitLoopFuel 0
    pure (fullyCommited.map fun all =>
      (if all then .success else .memoryIsNotCommited, reservation.pageRights))

def vmmIsBufferValid (space : ReservationSpace) (buffer bufferSize rightsRequested : Nat)
    (kernelAccess : Bool) : Kernel (Option Status) := do
  assert (0 != buffer) "Buffer != NULL"
  assert (bufferSize != 0) "BufferSize != 0"
  let kernelRange <- vmIsKernelRange buffer bufferSize
  if !kernelAccess && kernelRange then
    pure (some .memoryPreventsUsermodeAccess)
  else do
    let granted <- vmReservationReturnRightsForAddress space buffer bufferSize
    match granted with
    | none => pure none
    | some (status, rightsGranted) =>
      if status ≠ .success then pure (some status)
      else if !isBooleanFlagOn rightsGranted rightsRequested then
        pure (some .memoryInsufficientAccessRights)
      else pure (some .success)

def Reservation.pageCommited (space : ReservationSpace) (reservation : Reservation) (page : Nat) : Bool :=
  Bitmap.getBit space.memory reservation.commitBitmap.bitmapBuffer page

-- What a successful validation has to mean for the caller; the reservation is the one the look-up of
-- the range yields, whose bitmap decides what is committed.
structure BufferAccessible (space : ReservationSpace) (buffer bufferSize rightsRequested : Nat) : Prop where
  no_wrap : buffer + bufferSize < 2 ^ 64
  no_kernel : forall address, buffer ≤ address -> address < buffer + bufferSize ->
    vmIsKernelAddress address = false
  one_reservation : ∃ i, findReservationFrom space buffer bufferSize space.slotCount 0 = some i ∧
    isBooleanFlagOn (space.slots i).pageRights rightsRequested = true ∧
    forall address, buffer ≤ address -> address < buffer + bufferSize ->
      (space.slots i).Covers address ∧
        (space.slots i).pageCommited space (ptrDiff address (space.slots i).startVa / pageSize) = true

def ValidationSound (space : ReservationSpace) (buffer bufferSize rightsRequested : Nat) : Prop :=
  ∃ status, vmmIsBufferValid space buffer bufferSize rightsRequested false = .ok (some status) ∧
    (status = .success -> BufferAccessible space buffer bufferSize rightsRequested)

def firstPage (reservation : Reservation) (buffer : Nat) : Nat :=
  (buffer - reservation.startVa) / pageSize

def lastPage (reservation : Reservation) (buffer bufferSize : Nat) : Nat :=
  (buffer - reservation.startVa + bufferSize - 1) / pageSize

def EndChecked (space : ReservationSpace) (buffer bufferSize rightsRequested : Nat) : Prop :=
  vmIsKernelAddress buffer = true ∨ vmIsKernelAddress (ptrOffset buffer (bufferSize - 1)) = true ∨
    forall index, findReservationFrom space buffer bufferSize space.slotCount 0 = some index ->
      if 2 ^ 64 ≤ buffer + bufferSize then
        ∃ page, firstPage (space.slots index) buffer ≤ page ∧
          page < (space.slots index).commitBitmap.bitCount ∧
          (space.slots index).pageCommited space page = false
      else
        isBooleanFlagOn (space.slots index).pageRights rightsRequested = false ∨
        (∃ k, k * pageSize < bufferSize ∧ (space.slots index).pageCommited space
          (firstPage (space.slots index) buffer + k) = false) ∨
        (space.slots index).pageCommited space (lastPage (space.slots index) buffer bufferSize) = true

structure SlotWellFormed (reservation : Reservation) : Prop extends reservation.WellFormed where
  startVa_lt : reservation.startVa < 2 ^ 64

def SlotsWellFormed (space : ReservationSpace) : Prop :=
  forall i, (space.slots i).state = .used -> SlotWellFormed (space.slots i)

theorem alignRequest_base_lt (space : ReservationSpace) (baseAddress size : Nat) :
    (alignRequest space baseAddress size).2.1 < 2 ^ 64 := by
  by_cases automatic : baseAddress = 0
  · simp only [alignRequest, automatic, if_true]
    exact Nat.mod_lt _ (by decide)
  · simp only [alignRequest, automatic, if_false]
    exact lt_of_le_of_lt Nat.and_le_left (Nat.mod_lt _ (by decide))

theorem Kept.slotsWellFormed {before after : ReservationSpace} (kept : Kept before after)
    (wellFormed : SlotsWellFormed before) : SlotsWellFormed after := by
  intro i used
  have same := kept i used
  rw [same] at used ⊢
  exact wellFormed i used

theorem reachable_slotsWellFormed {space : ReservationSpace}
    (reached : reservationSystem.Reachable space) : SlotsWellFormed space := by
  refine reached.invariant ?_ ?_
  · intro space initial i used
    exact absurd used (initialized_unused initial i)
  · intro space call after wellFormed taken
    cases call with
    | alloc baseAddress size allocType rights uncacheable fileObject =>
      obtain ⟨_, _, status, mapping, result⟩ := taken
      rcases vmReservationSpaceAllocRegion_spec result with ⟨kept, _⟩ | ⟨_, index, added⟩
      · exact kept.slotsWellFormed wellFormed
      · intro i used
        by_cases new : i = index
        · subst new
          refine ⟨added.wellFormed, ?_⟩
          rw [added.startVa_eq]
          exact alignRequest_base_lt space baseAddress size
        · have same := added.others i new used
          rw [same] at used ⊢
          exact wellFormed i used
    | free address size freeType =>
      obtain ⟨_, _, alignedAddress, alignedSize, result⟩ := taken
      exact (vmReservationSpaceFreeRegion_spec result).slotsWellFormed wellFormed

theorem vmIsKernelAddress_eq (address : Nat) :
    vmIsKernelAddress address = decide (address / 2 ^ 47 % 2 = 1) := by
  have bit : address.testBit 47 = decide (address / 2 ^ 47 % 2 = 1) :=
    Nat.testBit_eq_decide_div_mod_eq
  rw [vmIsKernelAddress, isBooleanFlagOn, vaHighestValidBit, Nat.and_two_pow, bit]
  by_cases set : address / 2 ^ 47 % 2 = 1
  · rw [decide_eq_true set]
    rfl
  · rw [decide_eq_false set]
    rfl

section Probe

variable {space : ReservationSpace} {reservation : Reservation}

theorem SlotWellFormed.arithmetic (wellFormed : SlotWellFormed reservation) :
    reservation.startVa % 4096 = 0 ∧ reservation.size % 4096 = 0 ∧ 0 < reservation.startVa ∧
      0 < reservation.size ∧ reservation.startVa < 2 ^ 64 ∧ reservation.size < 2 ^ 44 ∧
      reservation.commitBitmap.bitCount * 4096 = reservation.size := by
  have pages := wellFormed.pages_bound
  have count := wellFormed.bitCount_eq
  have nonzero := wellFormed.startVa_ne_zero
  have nonempty := wellFormed.size_ne_zero
  have bound := wellFormed.startVa_lt
  simp only [pageSize, maxDword] at pages count
  have small : reservation.size < 2 ^ 44 := by omega
  have start := wellFormed.startVa_aligned
  have size := wellFormed.size_aligned
  rw [show pageSize = 2 ^ 12 by rfl] at start size
  rw [isAddressAligned_two_pow _ 12 (by omega) bound] at start
  rw [isAddressAligned_two_pow _ 12 (by omega) (by omega)] at size
  simp only [decide_eq_true_eq] at start size
  omega

theorem ptrDiff_of_le {x y : Nat} (ordered : y ≤ x) (bound : x < 2 ^ 64) : ptrDiff x y = x - y := by
  unfold ptrDiff qword
  omega

theorem vmIsVaCommited_inside (wellFormed : SlotWellFormed reservation) {address : Nat}
    (lower : reservation.startVa ≤ address)
    (upper : address < reservation.startVa + reservation.size) (bound : address < 2 ^ 64) :
    vmIsVaCommited space reservation address =
      .ok (reservation.pageCommited space ((address - reservation.startVa) / pageSize)) := by
  obtain ⟨_, _, _, _, _, _, count⟩ := wellFormed.arithmetic
  have distance : signedQuotient (ptrDiff address reservation.startVa) pageSize =
      (address - reservation.startVa) / pageSize := by
    rw [ptrDiff_of_le lower bound, signedQuotient, if_pos (by omega)]
  have page : (address - reservation.startVa) / pageSize < reservation.commitBitmap.bitCount := by
    simp only [pageSize]
    omega
  have small : (address - reservation.startVa) / pageSize ≤ maxDword := by
    simp only [pageSize, maxDword] at *
    omega
  have positive : (0 != address) = true := by
    rw [bne_iff_ne]
    omega
  simp only [vmIsVaCommited, distance, Bitmap.getBitValue, positive, decide_eq_true small,
    dword_of_lt (Nat.lt_succ_of_le small), decide_eq_true page, assert_true]
  rfl

theorem vmIsVaCommited_outside (wellFormed : SlotWellFormed reservation) {address : Nat}
    (beyond : reservation.startVa + reservation.size ≤ address) (bound : address < 2 ^ 64) :
    ∃ text, vmIsVaCommited space reservation address = .error text := by
  obtain ⟨aligned, _, positive, _, _, _, count⟩ := wellFormed.arithmetic
  have lower : reservation.startVa ≤ address := by omega
  cases outcome : vmIsVaCommited space reservation address with
  | error text => exact ⟨text, rfl⟩
  | ok bit =>
    simp only [vmIsVaCommited, ptrDiff_of_le lower bound, Bitmap.getBitValue,
      Kernel.assert_bind_eq_ok] at outcome
    obtain ⟨_, small, inside, _⟩ := outcome
    have small := of_decide_eq_true small
    have inside := of_decide_eq_true inside
    rw [dword_of_lt (Nat.lt_succ_of_le small)] at inside
    -- A distance of 2^63 and more is a negative difference, and its page number never fits a DWORD.
    unfold signedQuotient at small inside
    split at inside
    · simp only [pageSize] at inside
      omega
    · rename_i negative
      rw [if_neg negative] at small
      simp only [pageSize, qword, maxDword] at small
      omega

variable {address size : Nat}

theorem probe_page (wellFormed : SlotWellFormed reservation) (lower : reservation.startVa ≤ address)
    (low : reservation.startVa + reservation.size < 2 ^ 64) {k : Nat}
    (page : firstPage reservation address + k < reservation.commitBitmap.bitCount) :
    vmIsVaCommited space reservation (ptrOffset address (k * pageSize)) =
      .ok (reservation.pageCommited space (firstPage reservation address + k)) := by
  obtain ⟨_, _, _, _, _, _, count⟩ := wellFormed.arithmetic
  simp only [firstPage, pageSize] at page ⊢
  have upper : address + k * 4096 < reservation.startVa + reservation.size := by omega
  have offset : ptrOffset address (k * 4096) = address + k * 4096 := qword_of_lt (by omega)
  rw [offset, vmIsVaCommited_inside wellFormed (by omega) upper (by omega)]
  congr 2
  simp only [pageSize]
  omega

theorem fullyCommitedFrom_step (wellFormed : SlotWellFormed reservation)
    (lower : reservation.startVa ≤ address) (low : reservation.startVa + reservation.size < 2 ^ 64)
    {fuel k : Nat} (page : firstPage reservation address + k < reservation.commitBitmap.bitCount)
    (within : k * pageSize < size) :
    fullyCommitedFrom space reservation address size (fuel + 1) (k * pageSize) =
      if reservation.pageCommited space (firstPage reservation address + k) = true then
        fullyCommitedFrom space reservation address size fuel ((k + 1) * pageSize)
      else .ok (some false) := by
  obtain ⟨_, _, _, _, _, _, count⟩ := wellFormed.arithmetic
  have next : qword (k * pageSize + pageSize) = (k + 1) * pageSize := by
    rw [Nat.succ_mul]
    refine qword_of_lt ?_
    simp only [firstPage, pageSize] at page ⊢
    omega
  simp only [fullyCommitedFrom, if_pos within, probe_page wellFormed lower low page, next]
  rfl

theorem fullyCommitedFrom_uncommited (wellFormed : SlotWellFormed reservation)
    (lower : reservation.startVa ≤ address) (low : reservation.startVa + reservation.size < 2 ^ 64)
    {j : Nat} (page : firstPage reservation address + j < reservation.commitBitmap.bitCount)
    (within : j * pageSize < size)
    (hole : reservation.pageCommited space (firstPage reservation address + j) = false)
    (fuel k : Nat) (before : k ≤ j) (enough : j - k < fuel) :
    fullyCommitedFrom space reservation address size fuel (k * pageSize) = .ok (some false) := by
  induction fuel generalizing k with
  | zero => omega
  | succ fuel ih =>
    have sooner : k * pageSize ≤ j * pageSize := Nat.mul_le_mul_right _ before
    rw [fullyCommitedFrom_step wellFormed lower low (by omega) (by omega)]
    split
    · rename_i commited
      have distinct : k ≠ j := by
        intro same
        rw [same, hole] at commited
        exact Bool.false_ne_true commited
      exact ih (k + 1) (by omega) (by omega)
    · rfl

theorem fullyCommitedFrom_commited (wellFormed : SlotWellFormed reservation)
    (lower : reservation.startVa ≤ address) (low : reservation.startVa + reservation.size < 2 ^ 64)
    (fuel k : Nat) (enough : reservation.commitBitmap.bitCount - (firstPage reservation address + k) < fuel)
    (all : forall j, k ≤ j -> j * pageSize < size ->
      firstPage reservation address + j < reservation.commitBitmap.bitCount ∧
        reservation.pageCommited space (firstPage reservation address + j) = true) :
    fullyCommitedFrom space reservation address size fuel (k * pageSize) = .ok (some true) := by
  induction fuel generalizing k with
  | zero => omega
  | succ fuel ih =>
    by_cases within : k * pageSize < size
    · obtain ⟨page, commited⟩ := all k (le_refl k) within
      rw [fullyCommitedFrom_step wellFormed lower low page within, if_pos commited]
      exact ih (k + 1) (by omega) (fun j after => all j (by omega))
    · simp only [fullyCommitedFrom, if_neg within]
      rfl

-- All pages up to the end of the bitmap are committed and the size reaches past it: the next probe
-- indexes the bitmap out of its bounds.
theorem fullyCommitedFrom_overrun (wellFormed : SlotWellFormed reservation)
    (lower : reservation.startVa ≤ address) (low : reservation.startVa + reservation.size < 2 ^ 64)
    (bound : address < 2 ^ 64) (wraps : 2 ^ 64 ≤ address + size)
    (all : forall page, firstPage reservation address ≤ page ->
      page < reservation.commitBitmap.bitCount -> reservation.pageCommited space page = true)
    (fuel k : Nat) (enough : reservation.commitBitmap.bitCount - (firstPage reservation address + k) < fuel)
    (start : k = 0 ∨ firstPage reservation address + k ≤ reservation.commitBitmap.bitCount) :
    ∃ text, fullyCommitedFrom space reservation address size fuel (k * pageSize) = .error text := by
  obtain ⟨aligned, multiple, _, _, _, _, count⟩ := wellFormed.arithmetic
  induction fuel generalizing k with
  | zero => omega
  | succ fuel ih =>
    have reach : address + k * 4096 < 2 ^ 64 := by
      simp only [firstPage, pageSize] at start
      omega
    have within : k * pageSize < size := by
      simp only [pageSize]
      omega
    by_cases page : firstPage reservation address + k < reservation.commitBitmap.bitCount
    · rw [fullyCommitedFrom_step wellFormed lower low page within,
        if_pos (all _ (Nat.le_add_right _ _) page)]
      exact ih (k + 1) (by omega) (.inr (by omega))
    · have beyond : reservation.startVa + reservation.size ≤ address + k * 4096 := by
        simp only [firstPage, pageSize] at page
        omega
      have offset : ptrOffset address (k * pageSize) = address + k * 4096 := qword_of_lt reach
      obtain ⟨text, failed⟩ : ∃ text, vmIsVaCommited space reservation (address + k * 4096) =
          .error text := vmIsVaCommited_outside wellFormed beyond reach
      refine ⟨text, ?_⟩
      simp only [fullyCommitedFrom, if_pos within, offset, failed]
      rfl

end Probe

def validationOutcome (rights rightsRequested : Nat) : Option Bool -> Option Status
  | none => none
  | some false => some .memoryIsNotCommited
  | some true =>
    if isBooleanFlagOn rights rightsRequested then some .success else some .memoryInsufficientAccessRights

theorem vmmIsBufferValid_eq (space : ReservationSpace) {buffer bufferSize : Nat} (rightsRequested : Nat)
    (nonNull : buffer ≠ 0) (nonempty : bufferSize ≠ 0) :
    vmmIsBufferValid space buffer bufferSize rightsRequested false =
      if vmIsKernelAddress buffer || vmIsKernelAddress (ptrOffset buffer (bufferSize - 1)) then
        .ok (some .memoryPreventsUsermodeAccess)
      else
        match findReservationFrom space buffer bufferSize space.slotCount 0 with
        | none => .ok (some .memoryIsNotCommited)
        | some index =>
          (fullyCommitedFrom space (space.slots index) buffer bufferSize commitLoopFuel 0).map
            (validationOutcome (space.slots index).pageRights rightsRequested) := by
  have pointer : (0 != buffer) = true := bne_iff_ne.mpr (Ne.symm nonNull)
  have length : (bufferSize != 0) = true := bne_iff_ne.mpr nonempty
  have length' : (0 != bufferSize) = true := bne_iff_ne.mpr (Ne.symm nonempty)
  simp only [vmmIsBufferValid, vmIsKernelRange, vmReservationReturnRightsForAddress, vmFindReservation,
    pointer, length, length', assert_true, Except.bind, bind, pure, Except.pure, Bool.not_false,
    Bool.true_and]
  split
  · rfl
  · cases findReservationFrom space buffer bufferSize space.slotCount 0 with
    | none => rfl
    | some index =>
      dsimp only
      cases fullyCommitedFrom space (space.slots index) buffer bufferSize commitLoopFuel 0 with
      | error text => rfl
      | ok all =>
        cases all with
        | none => rfl
        | some all =>
          cases all
          · rfl
          · cases granted : isBooleanFlagOn (space.slots index).pageRights rightsRequested <;>
              simp [validationOutcome, granted, Except.map]

structure UserRange (reservation : Reservation) (buffer bufferSize : Nat) : Prop where
  used : reservation.state = .used
  wellFormed : SlotWellFormed reservation
  lower : reservation.startVa ≤ buffer
  low : reservation.startVa + reservation.size < 2 ^ 64
  upper : buffer + bufferSize < 2 ^ 64 -> buffer + bufferSize ≤ reservation.startVa + reservation.size

theorem userRange_of_found {space : ReservationSpace} (slots : SlotsWellFormed space)
    {buffer bufferSize index : Nat} (bound : buffer < 2 ^ 64) (user : vmIsKernelAddress buffer = false)
    (found : findReservationFrom space buffer bufferSize space.slotCount 0 = some index) :
    UserRange (space.slots index) buffer bufferSize := by
  obtain ⟨used, bounds⟩ := findReservationFrom_spec _ _ found
  have wellFormed := slots index used
  obtain ⟨_, _, _, _, startBound, small, _⟩ := wellFormed.arithmetic
  rw [checkBounds, Bool.and_eq_true, decide_eq_true_eq, decide_eq_true_eq, qword_of_lt startBound,
    qword_of_lt bound] at bounds
  rw [vmIsKernelAddress_eq, decide_eq_false_iff_not] at user
  -- A reservation that reached the end of the address space would start at a kernel address.
  have low : (space.slots index).startVa + (space.slots index).size < 2 ^ 64 := by omega
  refine ⟨used, wellFormed, bounds.1, low, ?_⟩
  intro noWrap
  rw [qword_of_lt low, qword_of_lt noWrap] at bounds
  exact bounds.2

theorem UserRange.accessible {space : ReservationSpace} {buffer bufferSize rightsRequested index : Nat}
    (range : UserRange (space.slots index) buffer bufferSize)
    (found : findReservationFrom space buffer bufferSize space.slotCount 0 = some index)
    (noWrap : buffer + bufferSize < 2 ^ 64) (first : vmIsKernelAddress buffer = false)
    (last : vmIsKernelAddress (ptrOffset buffer (bufferSize - 1)) = false)
    (rights : isBooleanFlagOn (space.slots index).pageRights rightsRequested = true)
    (commited : forall page, firstPage (space.slots index) buffer ≤ page ->
      page ≤ lastPage (space.slots index) buffer bufferSize ->
      (space.slots index).pageCommited space page = true) :
    BufferAccessible space buffer bufferSize rightsRequested := by
  have upper := range.upper noWrap
  have lower := range.lower
  obtain ⟨_, _, _, _, _, small, _⟩ := range.wellFormed.arithmetic
  refine ⟨noWrap, ?_, index, found, rights, ?_⟩
  · intro address after before
    rw [ptrOffset, qword_of_lt (by omega)] at last
    rw [vmIsKernelAddress_eq, decide_eq_false_iff_not] at first last ⊢
    omega
  · intro address after before
    have distance := ptrDiff_of_le (le_trans lower after) (show address < 2 ^ 64 by omega)
    refine ⟨⟨range.used, ?_⟩, ?_⟩
    · rw [InRange, distance]
      omega
    · rw [distance]
      apply commited
      · exact Nat.div_le_div_right (by omega)
      · exact Nat.div_le_div_right (by omega)

theorem UserRange.wrapping_sound_iff {space : ReservationSpace}
    {buffer bufferSize index : Nat} (rightsRequested : Nat)
    (range : UserRange (space.slots index) buffer bufferSize) (bound : buffer < 2 ^ 64)
    (wraps : 2 ^ 64 ≤ buffer + bufferSize) :
    (∃ status, (fullyCommitedFrom space (space.slots index) buffer bufferSize commitLoopFuel 0).map
        (validationOutcome (space.slots index).pageRights rightsRequested) = .ok (some status) ∧
      (status = .success -> BufferAccessible space buffer bufferSize rightsRequested)) ↔
      ∃ page, firstPage (space.slots index) buffer ≤ page ∧
        page < (space.slots index).commitBitmap.bitCount ∧
        (space.slots index).pageCommited space page = false := by
  have lower := range.lower
  have low := range.low
  obtain ⟨_, _, _, _, _, _, count⟩ := range.wellFormed.arithmetic
  have start : 0 = 0 * pageSize := by simp
  rw [start]
  constructor
  · rintro ⟨status, result, _⟩
    by_contra full
    push Not at full
    have commited (page : Nat) (after : firstPage (space.slots index) buffer ≤ page)
        (before : page < (space.slots index).commitBitmap.bitCount) :
        (space.slots index).pageCommited space page = true := by
      simpa using full page after before
    obtain ⟨text, failed⟩ := fullyCommitedFrom_overrun range.wellFormed lower low bound wraps commited
      commitLoopFuel 0 (by unfold commitLoopFuel; omega) (.inl rfl)
    rw [failed] at result
    simp [Except.map] at result
  · rintro ⟨page, after, before, hole⟩
    have offset : firstPage (space.slots index) buffer + (page - firstPage (space.slots index) buffer) = page := by
      omega
    have within : (page - firstPage (space.slots index) buffer) * pageSize < bufferSize := by
      simp only [firstPage, pageSize] at after ⊢
      omega
    rw [fullyCommitedFrom_uncommited range.wellFormed lower low (by rw [offset]; exact before) within
      (by rw [offset]; exact hole) commitLoopFuel 0 (by omega) (by unfold commitLoopFuel; omega)]
    exact ⟨.memoryIsNotCommited, rfl, by simp⟩

theorem UserRange.probes_inside {reservation : Reservation} {buffer bufferSize : Nat}
    (range : UserRange reservation buffer bufferSize) (noWrap : buffer + bufferSize < 2 ^ 64) {k : Nat}
    (within : k * pageSize < bufferSize) :
    firstPage reservation buffer + k < reservation.commitBitmap.bitCount := by
  have upper := range.upper noWrap
  have lower := range.lower
  obtain ⟨_, _, _, _, _, _, count⟩ := range.wellFormed.arithmetic
  simp only [firstPage, pageSize] at within ⊢
  omega

theorem UserRange.pages {space : ReservationSpace} {reservation : Reservation} {buffer bufferSize : Nat}
    (probed : forall k, k * pageSize < bufferSize ->
      reservation.pageCommited space (firstPage reservation buffer + k) = true)
    (last : reservation.pageCommited space (lastPage reservation buffer bufferSize) = true) (page : Nat)
    (after : firstPage reservation buffer ≤ page) (before : page ≤ lastPage reservation buffer bufferSize) :
    reservation.pageCommited space page = true := by
  by_cases final : page = lastPage reservation buffer bufferSize
  · rw [final]
    exact last
  · have within : (page - firstPage reservation buffer) * pageSize < bufferSize := by
      simp only [firstPage, lastPage, pageSize] at *
      omega
    have commited := probed _ within
    rwa [Nat.add_sub_cancel' after] at commited

theorem UserRange.bounded_sound_iff {space : ReservationSpace}
    {buffer bufferSize index : Nat} (rightsRequested : Nat)
    (range : UserRange (space.slots index) buffer bufferSize)
    (found : findReservationFrom space buffer bufferSize space.slotCount 0 = some index)
    (nonempty : bufferSize ≠ 0) (noWrap : buffer + bufferSize < 2 ^ 64)
    (first : vmIsKernelAddress buffer = false)
    (last : vmIsKernelAddress (ptrOffset buffer (bufferSize - 1)) = false) :
    (∃ status, (fullyCommitedFrom space (space.slots index) buffer bufferSize commitLoopFuel 0).map
        (validationOutcome (space.slots index).pageRights rightsRequested) = .ok (some status) ∧
      (status = .success -> BufferAccessible space buffer bufferSize rightsRequested)) ↔
      isBooleanFlagOn (space.slots index).pageRights rightsRequested = false ∨
        (∃ k, k * pageSize < bufferSize ∧ (space.slots index).pageCommited space
          (firstPage (space.slots index) buffer + k) = false) ∨
        (space.slots index).pageCommited space (lastPage (space.slots index) buffer bufferSize) = true := by
  have lower := range.lower
  have upper := range.upper noWrap
  have low := range.low
  have pages := range.wellFormed.pages_bound
  have count := range.wellFormed.bitCount_eq
  simp only [maxDword] at pages
  have start : 0 = 0 * pageSize := by simp
  rw [start]
  by_cases hole : ∃ k, k * pageSize < bufferSize ∧ (space.slots index).pageCommited space
      (firstPage (space.slots index) buffer + k) = false
  · obtain ⟨k, within, clear⟩ := hole
    have inside := range.probes_inside noWrap within
    rw [fullyCommitedFrom_uncommited range.wellFormed lower low inside within clear commitLoopFuel 0
      (by omega) (by unfold commitLoopFuel; omega)]
    exact ⟨fun _ => .inr (.inl ⟨k, within, clear⟩), fun _ => ⟨.memoryIsNotCommited, rfl, by simp⟩⟩
  · have probed (k : Nat) (within : k * pageSize < bufferSize) : (space.slots index).pageCommited space
        (firstPage (space.slots index) buffer + k) = true := by
      by_contra clear
      exact hole ⟨k, within, by simpa using clear⟩
    rw [fullyCommitedFrom_commited range.wellFormed lower low commitLoopFuel 0
      (by unfold commitLoopFuel; omega)
      (fun k _ within => ⟨range.probes_inside noWrap within, probed k within⟩)]
    cases granted : isBooleanFlagOn (space.slots index).pageRights rightsRequested with
    | false =>
      refine ⟨fun _ => .inl rfl, fun _ => ⟨.memoryInsufficientAccessRights, ?_, by simp⟩⟩
      simp [Except.map, validationOutcome, granted]
    | true =>
      constructor
      · rintro ⟨status, result, sound⟩
        have success : status = .success := by
          simpa [Except.map, validationOutcome, granted] using result.symm
        obtain ⟨i, same, _, all⟩ := (sound success).one_reservation
        obtain rfl : index = i := Option.some.inj (found.symm.trans same)
        have final := (all (buffer + bufferSize - 1) (by omega) (by omega)).2
        rw [ptrDiff_of_le (by omega) (by omega)] at final
        refine .inr (.inr ?_)
        rw [lastPage, show buffer - (space.slots index).startVa + bufferSize - 1 =
          buffer + bufferSize - 1 - (space.slots index).startVa by omega]
        exact final
      · rintro (denied | clear | final)
        · exact absurd denied (by simp)
        · exact absurd clear hole
        · refine ⟨.success, by simp [Except.map, validationOutcome, granted], fun _ => ?_⟩
          exact range.accessible found noWrap first last granted
            (UserRange.pages probed final)

theorem vmmIsBufferValid_sound_iff {space : ReservationSpace}
    (reached : reservationSystem.Reachable space) {buffer bufferSize : Nat} (rightsRequested : Nat)
    (nonNull : buffer ≠ 0) (bound : buffer < 2 ^ 64) (nonempty : bufferSize ≠ 0) :
    ValidationSound space buffer bufferSize rightsRequested ↔
      EndChecked space buffer bufferSize rightsRequested := by
  have slots := reachable_slotsWellFormed reached
  unfold ValidationSound EndChecked
  rw [vmmIsBufferValid_eq space rightsRequested nonNull nonempty]
  cases first : vmIsKernelAddress buffer with
  | true => simp
  | false =>
    cases last : vmIsKernelAddress (ptrOffset buffer (bufferSize - 1)) with
    | true => simp
    | false =>
      simp only [Bool.or_self, Bool.false_eq_true, if_false, false_or]
      cases found : findReservationFrom space buffer bufferSize space.slotCount 0 with
      | none => simp
      | some index =>
        have range := userRange_of_found slots bound first found
        simp only [Option.some.injEq, forall_eq']
        by_cases wraps : 2 ^ 64 ≤ buffer + bufferSize
        · rw [if_pos wraps]
          exact range.wrapping_sound_iff rightsRequested bound wraps
        · rw [if_neg wraps]
          exact range.bounded_sound_iff rightsRequested found nonempty (by omega) first last

theorem vmmIsBufferValid_sound_sample :
    ∃ space, reservationSystem.Reachable space ∧
      vmmIsBufferValid space 0x10000FFF 1 1 false = .ok (some .success) ∧
      ValidationSound space 0x10000FFF 1 1 := by
  have start : reservationSystem.Reachable sampleSpace := .start sampleSpace_initialized
  have reached := start.next (.alloc 0x10000000 0x1000 (allocTypeReserve ||| allocTypeCommit) 1 false 0)
    ⟨by decide, by decide, _, _, rfl⟩
  refine ⟨_, reached, by rfl, (vmmIsBufferValid_sound_iff reached 1 (by decide) (by decide) (by decide)).mpr ?_⟩
  refine .inr (.inr (fun index found => ?_))
  obtain rfl : 0 = index := Option.some.inj found
  exact .inr (.inr rfl)

-- Of two reserved pages only the first is committed: a two byte buffer across their border passes.
theorem vmmIsBufferValid_unsound_sample :
    ¬ forall space, reservationSystem.Reachable space -> forall buffer bufferSize rightsRequested,
      buffer ≠ 0 -> buffer < 2 ^ 64 -> bufferSize ≠ 0 -> bufferSize < 2 ^ 64 ->
      vmmIsBufferValid space buffer bufferSize rightsRequested false = .ok (some .success) ->
      forall address, buffer ≤ address -> address < buffer + bufferSize ->
        ∃ i, (space.slots i).Covers address ∧
          (space.slots i).pageCommited space (ptrDiff address (space.slots i).startVa / pageSize) = true := by
  intro claim
  have start : reservationSystem.Reachable sampleSpace := .start sampleSpace_initialized
  have first := start.next (.alloc 0x10010000 0x2000 allocTypeReserve 1 false 0)
    ⟨by decide, by decide, _, _, rfl⟩
  have second := first.next (.alloc 0x10010000 0x1000 allocTypeCommit 1 false 0)
    ⟨by decide, by decide, _, _, rfl⟩
  obtain ⟨i, covers, commited⟩ := claim _ second 0x10010FFF 2 1 (by decide) (by decide) (by decide)
    (by decide) (by rfl) 0x10011000 (by decide) (by decide)
  match i with
  | 0 => exact Bool.false_ne_true commited
  | 1 => cases covers.1
  | _ + 2 => cases covers.1

end Hal9000.Vm
