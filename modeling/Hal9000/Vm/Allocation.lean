import Hal9000.Vm.ReservationSpace

set_option autoImplicit false

namespace Hal9000.Vm

def FirstUnused (space : ReservationSpace) (index : Nat) : Prop :=
  (space.slots index).state ≠ .used ∧ forall i, i < index -> (space.slots i).state = .used

def bitmapBytes (pages : Nat) : Nat := (pages + (Bitmap.entryBits - 1)) / Bitmap.entryBits

structure BitmapRoom (space : ReservationSpace) (pages : Nat) : Prop where
  nonNull : space.freeBitmapAddress ≠ 0
  aligned : isAddressAligned space.freeBitmapAddress pageSize = true
  inside : checkBounds space.freeBitmapAddress ((bitmapBytes pages + (pageSize - 1)) / pageSize * pageSize)
    space.reservationList space.reservedAreaSize = true

structure RoomFor (space : ReservationSpace) (base pages : Nat) : Prop where
  nonNull : base ≠ 0
  aligned : base % pageSize = 0
  unreserved : forall i, i < space.slotCount -> (forall j, j ≤ i -> (space.slots j).state ≠ .last) ->
    (space.slots i).state = .used ->
      checkBounds base (pages * pageSize) (space.slots i).startVa (space.slots i).size = false
  slot : ∃ index, index < space.slotCount ∧ FirstUnused space index
  bitmap : BitmapRoom space pages

def reservationOf (space : ReservationSpace) (base pages rights : Nat) : Reservation where
  startVa := base
  size := pages * pageSize
  pageRights := rights
  state := .used
  commitBitmap :=
    { bitmapBuffer := space.freeBitmapAddress, bufferSize := bitmapBytes pages, bitCount := pages }

section Search

variable {space : ReservationSpace}

theorem findReservationFrom_eq_none (address size remaining index : Nat) :
    findReservationFrom space address size remaining index = none ↔
      forall i, index ≤ i -> i < index + remaining ->
        (forall j, index ≤ j -> j ≤ i -> (space.slots j).state ≠ .last) -> (space.slots i).state = .used ->
          checkBounds address size (space.slots i).startVa (space.slots i).size = false := by
  induction remaining generalizing index with
  | zero =>
    constructor
    · intro _ i least below
      omega
    · intro _
      rfl
  | succ remaining ih =>
    -- Behind a slot that does not stop the scan, the rest of it decides.
    have behind (kind : (space.slots index).state ≠ .last)
        (here : (space.slots index).state = .used ->
          checkBounds address size (space.slots index).startVa (space.slots index).size = false) :
        (forall i, index + 1 ≤ i -> i < index + 1 + remaining ->
          (forall j, index + 1 ≤ j -> j ≤ i -> (space.slots j).state ≠ .last) -> (space.slots i).state = .used ->
            checkBounds address size (space.slots i).startVa (space.slots i).size = false) ↔
        forall i, index ≤ i -> i < index + (remaining + 1) ->
          (forall j, index ≤ j -> j ≤ i -> (space.slots j).state ≠ .last) -> (space.slots i).state = .used ->
            checkBounds address size (space.slots i).startVa (space.slots i).size = false := by
      constructor
      · intro later i least below passed used
        by_cases first : i = index
        · subst first
          exact here used
        · exact later i (by omega) (by omega) (fun j after upto => passed j (by omega) upto) used
      · intro all i least below passed used
        refine all i (by omega) (by omega) (fun j after upto => ?_) used
        by_cases first : j = index
        · subst first
          exact kind
        · exact passed j (by omega) upto
    cases kind : (space.slots index).state with
    | last =>
      simp only [findReservationFrom, kind, true_iff]
      intro i least _ passed
      exact absurd kind (passed index (Nat.le_refl _) least)
    | free =>
      simp only [findReservationFrom, kind]
      rw [ih, behind (by simp [kind]) (by simp [kind])]
    | used =>
      simp only [findReservationFrom, kind]
      by_cases hit : checkBounds address size (space.slots index).startVa (space.slots index).size = true
      · rw [if_pos hit]
        simp only [reduceCtorEq, false_iff]
        intro all
        have missed := all index (Nat.le_refl _) (by omega) (fun j after upto => by
          rw [Nat.le_antisymm upto after, kind]
          decide) kind
        rw [hit] at missed
        cases missed
      · rw [if_neg hit, ih, behind (by simp [kind]) (fun _ => by simpa using hit)]

theorem findReservationFrom_reaches {address size : Nat} {index : Nat} (kind : (space.slots index).state = .used)
    (hit : checkBounds address size (space.slots index).startVa (space.slots index).size = true)
    (before : forall i, i < index -> (space.slots i).state = .used ∧
      checkBounds address size (space.slots i).startVa (space.slots i).size = false)
    (remaining start : Nat) (least : start ≤ index) (inside : index < start + remaining) :
    findReservationFrom space address size remaining start = some index := by
  induction remaining generalizing start with
  | zero => omega
  | succ remaining ih =>
    by_cases here : start = index
    · subst here
      simp only [findReservationFrom, kind, hit, if_true]
    · obtain ⟨used, misses⟩ := before start (by omega)
      simp only [findReservationFrom, used, misses, Bool.false_eq_true, if_false]
      exact ih (start + 1) (by omega) (by omega)

theorem findFirstFreeReservationFrom_reaches {index : Nat} (first : FirstUnused space index) (remaining start : Nat)
    (least : start ≤ index) (inside : index < start + remaining) :
    ∃ slots, findFirstFreeReservationFrom space remaining start = some ({ space with slots := slots }, index) ∧
      forall i, i < index -> slots i = space.slots i := by
  induction remaining generalizing start with
  | zero => omega
  | succ remaining ih =>
    by_cases here : start = index
    · subst here
      cases kind : (space.slots start).state with
      | used => exact absurd kind first.1
      | free => exact ⟨space.slots, by simp only [findFirstFreeReservationFrom, kind], fun _ _ => rfl⟩
      | last =>
        refine ⟨_, by simp only [findFirstFreeReservationFrom, kind]; rfl, fun i below => ?_⟩
        simp only [ReservationSpace.setSlot_slots]
        rw [Function.update_of_ne (by omega), Function.update_of_ne (by omega)]
    · have used := first.2 start (by omega)
      simp only [findFirstFreeReservationFrom, used]
      exact ih (start + 1) (by omega) (by omega)

theorem findFirstFreeReservationFrom_first (remaining start : Nat) {extended : ReservationSpace} {found : Nat}
    (before : forall i, i < start -> (space.slots i).state = .used)
    (result : findFirstFreeReservationFrom space remaining start = some (extended, found)) :
    found < start + remaining ∧ FirstUnused space found := by
  induction remaining generalizing start with
  | zero => cases result
  | succ remaining ih =>
    cases kind : (space.slots start).state with
    | used =>
      simp only [findFirstFreeReservationFrom, kind] at result
      have next := ih (start + 1) (fun i below => by
        by_cases here : i = start
        · rw [here, kind]
        · exact before i (by omega)) result
      exact ⟨by omega, next.2⟩
    | free =>
      simp only [findFirstFreeReservationFrom, kind, Option.some.injEq, Prod.mk.injEq] at result
      obtain ⟨_, rfl⟩ := result
      exact ⟨by omega, by simp [kind], before⟩
    | last =>
      simp only [findFirstFreeReservationFrom, kind, Option.some.injEq, Prod.mk.injEq] at result
      obtain ⟨_, rfl⟩ := result
      exact ⟨by omega, by simp [kind], before⟩

end Search

section Call

variable {space : ReservationSpace} {base pages rights index : Nat} {slots : Nat -> Reservation}

theorem preinit_pages (some : 0 < pages) (few : pages ≤ 2 ^ 20) :
    Bitmap.preinit pages = .ok { bufferSize := bitmapBytes pages, bitCount := pages } := by
  have sum : qword (pages + Bitmap.entryBits + (2 ^ 64 - 1)) = pages + 7 := by
    simp only [qword, Bitmap.entryBits]
    omega
  have aligned : alignAddressUpper pages Bitmap.entryBits = (pages + 7) / 8 * 8 := by
    rw [alignAddressUpper, sum]
    exact alignAddressLower_two_pow _ 3 (by decide) (by omega)
  have bytes : dword (alignAddressUpper pages Bitmap.entryBits / Bitmap.entryBits) = bitmapBytes pages := by
    rw [aligned]
    simp only [bitmapBytes, Bitmap.entryBits, dword]
    omega
  have given : (0 != pages) = true := bne_iff_ne.mpr (by omega)
  rw [Bitmap.preinit, given, assert_true, Kernel.ok_bind, bytes]
  rfl

theorem bitmapBytes_small (some : 0 < pages) (few : pages ≤ 2 ^ 20) :
    bitmapBytes pages ≠ 0 ∧ alignAddressUpper (bitmapBytes pages) pageSize =
      (bitmapBytes pages + (pageSize - 1)) / pageSize * pageSize := by
  have bytes : 0 < bitmapBytes pages ∧ bitmapBytes pages ≤ 2 ^ 18 := by
    simp only [bitmapBytes, Bitmap.entryBits]
    omega
  exact ⟨by omega, alignAddressUpper_page _ (by omega)⟩

theorem pages_aligned (few : pages ≤ 2 ^ 20) : isAddressAligned (pages * pageSize) pageSize = true := by
  have aligned := isAddressAligned_two_pow (pages * pageSize) 12 (by decide) (by simp only [pageSize]; omega)
  have multiple : pages * pageSize % 2 ^ 12 = 0 := Nat.mul_mod_left pages (2 ^ 12)
  rw [multiple, decide_eq_true rfl] at aligned
  exact aligned

theorem pages_count (few : pages ≤ 2 ^ 20) :
    pages * pageSize / pageSize = pages ∧ decide (pages ≤ maxDword) = true ∧ dword pages = pages := by
  refine ⟨Nat.mul_div_cancel pages (by decide), decide_eq_true ?_, dword_of_lt (by omega)⟩
  simp only [maxDword]
  omega

theorem range_ne_zero (some : 0 < pages) : (0 != pages * pageSize) = true := by
  refine bne_iff_ne.mpr ?_
  simp only [pageSize]
  omega

theorem initialize_succeeds (some : 0 < pages) (few : pages ≤ 2 ^ 20) (nonNull : base ≠ 0)
    (aligned : isAddressAligned base pageSize = true) (room : BitmapRoom space pages) :
    ∃ after, vmInitializeReservation { space with slots := slots } base (pages * pageSize) rights false 0 index =
        .ok after ∧
      after.slots = Function.update slots index (reservationOf space base pages rights) ∧
      after.slotCount = space.slotCount := by
  obtain ⟨count, fits, small⟩ := pages_count few
  obtain ⟨bytes, upper⟩ := bitmapBytes_small some few
  have bytesSet : (0 != bitmapBytes pages) = true := bne_iff_ne.mpr bytes.symm
  have baseSet : (0 != base) = true := bne_iff_ne.mpr nonNull.symm
  have bitmapSet : (0 != space.freeBitmapAddress) = true := bne_iff_ne.mpr room.nonNull.symm
  simp only [vmInitializeReservation, Bitmap.initEx, baseSet, range_ne_zero some, aligned, pages_aligned few, count,
    fits, small, preinit_pages some few, bytesSet, upper, bitmapSet, room.aligned, room.inside, assert_true,
    Kernel.ok_bind, Kernel.pure_eq]
  exact ⟨_, rfl, rfl, rfl⟩

theorem initialize_room (some : 0 < pages) (few : pages ≤ 2 ^ 20) {after : ReservationSpace}
    (result : vmInitializeReservation { space with slots := slots } base (pages * pageSize) rights false 0 index =
      .ok after) : BitmapRoom space pages := by
  obtain ⟨count, _, small⟩ := pages_count few
  simp only [vmInitializeReservation, Kernel.assert_bind_eq_ok, count, small, preinit_pages some few, Kernel.ok_bind,
    (bitmapBytes_small some few).2] at result
  obtain ⟨_, _, _, _, _, _, aligned, result⟩ := result
  obtain ⟨⟨memory, commitBitmap⟩, initEx, result⟩ := Kernel.bind_eq_ok.mp result
  simp only [Bitmap.initEx, Kernel.assert_bind_eq_ok, bne_iff_ne] at initEx
  exact ⟨initEx.1.symm, aligned, (Kernel.assert_bind_eq_ok.mp result).1⟩

theorem reserve_succeeds (some : 0 < pages) (few : pages ≤ 2 ^ 20) (bound : base < 2 ^ 64)
    (room : RoomFor space base pages) :
    ∃ after index, vmChangeVaReservationState space base (pages * pageSize) allocTypeReserve rights false 0 =
        .ok (after, .success) ∧
      index < after.slotCount ∧ after.slots index = reservationOf space base pages rights ∧
      forall i, i < index -> (after.slots i).state = .used ∧
        checkBounds base (pages * pageSize) (after.slots i).startVa (after.slots i).size = false := by
  obtain ⟨index, below, first⟩ := room.slot
  obtain ⟨opened, free, same⟩ :=
    findFirstFreeReservationFrom_reaches first space.slotCount 0 (Nat.zero_le _) (by omega)
  have aligned : isAddressAligned base pageSize = true :=
    (isAddressAligned_two_pow base 12 (by decide) bound).trans (decide_eq_true room.aligned)
  obtain ⟨after, init, slots, count⟩ :=
    @initialize_succeeds space base pages rights index opened some few room.nonNull aligned room.bitmap
  have none : findReservationFrom space base (pages * pageSize) space.slotCount 0 = none :=
    (findReservationFrom_eq_none ..).mpr (fun i _ inside passed =>
      room.unreserved i (by omega) (fun j upto => passed j (Nat.zero_le _) upto))
  have baseSet : (0 != base) = true := bne_iff_ne.mpr room.nonNull.symm
  have type : ((allocTypeReserve == allocTypeReserve) ^^ (allocTypeReserve == allocTypeCommit)) = true := by decide
  refine ⟨after, index, ?_, by omega, by rw [slots, Function.update_self], fun i before => ?_⟩
  · simp only [vmChangeVaReservationState, vmFindReservation, vmFindFirstFreeReservation, baseSet, range_ne_zero some,
      type, aligned, pages_aligned few, none, free, init, assert_true, Kernel.ok_bind, Kernel.pure_eq, if_true]
  · have used := first.2 i before
    rw [slots, Function.update_of_ne (by omega), same i before]
    refine ⟨used, room.unreserved i (by omega) (fun j upto last => ?_) used⟩
    rw [first.2 j (by omega)] at last
    cases last

theorem reserve_room (some : 0 < pages) (few : pages ≤ 2 ^ 20) (bound : base < 2 ^ 64) {after : ReservationSpace}
    (result : vmChangeVaReservationState space base (pages * pageSize) allocTypeReserve rights false 0 =
      .ok (after, .success)) : RoomFor space base pages := by
  simp only [vmChangeVaReservationState, Kernel.assert_bind_eq_ok] at result
  obtain ⟨baseSet, _, _, aligned, _, result⟩ := result
  obtain ⟨found, search, result⟩ := Kernel.bind_eq_ok.mp result
  obtain ⟨nonNull, _, rfl⟩ := vmFindReservation_eq_ok search
  simp only [if_true] at result
  have multiple : base % pageSize = 0 :=
    of_decide_eq_true ((isAddressAligned_two_pow base 12 (by decide) bound).symm.trans aligned)
  cases unreserved : findReservationFrom space base (pages * pageSize) space.slotCount 0 with
  | some index =>
    rw [unreserved] at result
    cases result
  | none =>
    rw [unreserved] at result
    cases slot : vmFindFirstFreeReservation space with
    | none =>
      rw [slot] at result
      cases result
    | some extension =>
      obtain ⟨extended, index⟩ := extension
      obtain ⟨below, first⟩ := findFirstFreeReservationFrom_first space.slotCount 0 (by omega) slot
      obtain ⟨slots, opened, _⟩ :=
        findFirstFreeReservationFrom_reaches first space.slotCount 0 (Nat.zero_le _) below
      rw [vmFindFirstFreeReservation, opened] at slot
      obtain ⟨rfl, _⟩ := by simpa using slot
      simp only [vmFindFirstFreeReservation, opened] at result
      obtain ⟨initialized, init, _⟩ := Kernel.bind_eq_ok.mp result
      refine ⟨nonNull, multiple, fun i inside passed => ?_, ⟨index, by omega, first⟩,
        initialize_room some few init⟩
      exact (findReservationFrom_eq_none ..).mp unreserved i (Nat.zero_le _) (by omega)
        (fun j _ upto => passed j upto)

theorem commitReservation_succeeds (some : 0 < pages) (few : pages ≤ 2 ^ 20) (nonNull : base ≠ 0)
    (aligned : isAddressAligned base pageSize = true) (memory : Memory) :
    ∃ after, vmCommitReservation memory base (pages * pageSize) (reservationOf space base pages rights) =
      .ok after := by
  have baseSet : (0 != base) = true := bne_iff_ne.mpr nonNull.symm
  obtain ⟨count, fits, small⟩ := pages_count few
  have start : signedQuotient (ptrDiff base base) pageSize = 0 := by
    have zero : ptrDiff base base = 0 := by
      simp only [ptrDiff, qword]
      omega
    rw [zero, signedQuotient, if_pos (Nat.two_pow_pos 63), Nat.zero_div]
  simp only [vmCommitReservation, changeCommitState, reservationOf, Bitmap.setBitsValue, Kernel.assert_bind_eq_ok,
    decide_eq_true_eq, start, count, small]
  refine ⟨_, baseSet, range_ne_zero some, aligned, pages_aligned few, of_decide_eq_true fits, Nat.zero_le _, ?_,
    Nat.zero_le _, rfl⟩
  exact some

theorem commit_succeeds (some : 0 < pages) (few : pages ≤ 2 ^ 20) (bound : base < 2 ^ 64) (nonNull : base ≠ 0)
    (aligned : base % pageSize = 0) {reserved : ReservationSpace} (inside : index < reserved.slotCount)
    (here : reserved.slots index = reservationOf space base pages rights)
    (before : forall i, i < index -> (reserved.slots i).state = .used ∧
      checkBounds base (pages * pageSize) (reserved.slots i).startVa (reserved.slots i).size = false) :
    ∃ after, vmChangeVaReservationState reserved base (pages * pageSize) allocTypeCommit rights false 0 =
      .ok (after, .success) := by
  have baseSet : (0 != base) = true := bne_iff_ne.mpr nonNull.symm
  have alignedBase : isAddressAligned base pageSize = true :=
    (isAddressAligned_two_pow base 12 (by decide) bound).trans (decide_eq_true aligned)
  have type : ((allocTypeCommit == allocTypeReserve) ^^ (allocTypeCommit == allocTypeCommit)) = true := by decide
  have hit : checkBounds base (pages * pageSize) base (pages * pageSize) = true := by
    simp only [checkBounds, Nat.le_refl, decide_true, Bool.and_self]
  have found := findReservationFrom_reaches (by rw [here]; rfl) (by rw [here]; exact hit) before reserved.slotCount 0
    (Nat.zero_le _) (by omega)
  obtain ⟨memory, commits⟩ :=
    @commitReservation_succeeds space base pages rights some few nonNull alignedBase reserved.memory
  have sameRights : ((reservationOf space base pages rights).pageRights != rights) = false := bne_self_eq_false rights
  have cacheable : ((reservationOf space base pages rights).uncacheable != false) = false := rfl
  simp only [vmChangeVaReservationState, vmFindReservation, baseSet, range_ne_zero some, type, alignedBase,
    pages_aligned few, found, here, commits, sameRights, cacheable, assert_true, Kernel.ok_bind, Kernel.pure_eq,
    show allocTypeCommit ≠ allocTypeReserve by decide, if_false, Bool.false_eq_true]
  exact ⟨_, rfl⟩

theorem RoomFor.pointer (room : RoomFor space base pages) (pointer : Nat) :
    RoomFor { space with freeVirtualAddressPointer := pointer } base pages :=
  ⟨room.nonNull, room.aligned, room.unreserved, room.slot,
    ⟨room.bitmap.nonNull, room.bitmap.aligned, room.bitmap.inside⟩⟩

theorem allocRegion_succeeds_iff {size allocType : Nat} (positive : 0 < size) (small : size < 2 ^ 32)
    (reserve : isBooleanFlagOn allocType allocTypeReserve = true)
    (commit : isBooleanFlagOn allocType allocTypeCommit = true)
    (flags : isFlagOn allocType (allocTypeCommit ||| allocTypeReserve) = true) :
    (∃ after mapping, vmReservationSpaceAllocRegion space 0 size allocType rights false 0 =
      .ok (after, .success, some mapping)) ↔
      RoomFor space (qword space.freeVirtualAddressPointer) ((size + (pageSize - 1)) / pageSize) := by
  have some : 0 < (size + (pageSize - 1)) / pageSize := by
    simp only [pageSize]
    omega
  have few : (size + (pageSize - 1)) / pageSize ≤ 2 ^ 20 := by
    simp only [pageSize]
    omega
  have bound := qword_lt space.freeVirtualAddressPointer
  have request : alignRequest space 0 size =
      ({ space with
          freeVirtualAddressPointer :=
            ptrOffset space.freeVirtualAddressPointer ((size + (pageSize - 1)) / pageSize * pageSize) },
        qword space.freeVirtualAddressPointer, (size + (pageSize - 1)) / pageSize * pageSize) := by
    rw [alignRequest, if_pos rfl, alignAddressUpper_page size (by omega)]
  have sizeSet : (size != 0) = true := bne_iff_ne.mpr (by omega)
  have automatic : ¬ ((0 : Nat) ≠ 0 ∧ qword space.freeVirtualAddressPointer < space.startOfVirtualAddressSpace) :=
    fun both => both.1 rfl
  simp only [vmReservationSpaceAllocRegion, sizeSet, flags, request, automatic, if_false, changeIfRequested, reserve,
    commit, if_true, assert_true, Kernel.ok_bind]
  constructor
  · rintro ⟨after, mapping, result⟩
    obtain ⟨⟨reserved, status⟩, call, result⟩ := Kernel.bind_eq_ok.mp result
    by_cases success : status = .success
    · subst success
      exact (reserve_room some few bound call).pointer space.freeVirtualAddressPointer
    · dsimp only at result
      rw [if_pos success] at result
      cases result
  · intro room
    obtain ⟨reserved, index, reserves, inside, here, before⟩ :=
      @reserve_succeeds _ _ _ rights some few bound (room.pointer _)
    obtain ⟨after, commits⟩ := commit_succeeds some few bound room.nonNull room.aligned inside here before
    rw [reserves, Kernel.ok_bind]
    simp only [ne_eq, not_true_eq_false, if_false, commits, Kernel.ok_bind, Kernel.pure_eq]
    exact ⟨_, _, rfl⟩

end Call

end Hal9000.Vm
