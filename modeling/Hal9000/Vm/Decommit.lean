import Hal9000.Vm.BufferValid

set_option autoImplicit false

namespace Hal9000.Bitmap

theorem getBit_changeBits_touched (memory : Memory) (bitmapBuffer index count : Nat) (set : Bool) {i : Nat}
    (within : i < count) :
    getBit (changeBits memory bitmapBuffer index set count) bitmapBuffer (dword (index + i)) = set := by
  induction count with
  | zero => omega
  | succ count ih =>
    rw [changeBits, getBit_changeBit]
    by_cases last : dword (index + i) = dword (index + count)
    · rw [if_pos last]
    · have earlier : i ≠ count := fun same => last (by rw [same])
      rw [if_neg last]
      exact ih (by omega)

theorem changeBits_below (memory : Memory) (bitmapBuffer index count : Nat) (set : Bool) {place : Nat}
    (below : place < bitmapBuffer) : changeBits memory bitmapBuffer index set count place = memory place := by
  induction count with
  | zero => rfl
  | succ count ih =>
    have other : place ≠ bitmapBuffer + dword (index + count) / entryBits := by
      have := Nat.le_add_right bitmapBuffer (dword (index + count) / entryBits)
      omega
    rw [changeBits, changeBit, Function.update_of_ne other]
    exact ih

theorem testBit_eq_getBit (memory : Memory) {bitmapBuffer place bit : Nat} (behind : bitmapBuffer ≤ place)
    (small : bit < 8) :
    (memory place).toNat.testBit bit = getBit memory bitmapBuffer ((place - bitmapBuffer) * 8 + bit) := by
  have byte : bitmapBuffer + ((place - bitmapBuffer) * 8 + bit) / 8 = place := by omega
  have offset : ((place - bitmapBuffer) * 8 + bit) % 8 = bit := by omega
  rw [getBit, entryBits, byte, offset]

end Hal9000.Bitmap

namespace Hal9000.Vm

open Lib

def Reservation.Meets (reservation : Reservation) (address size page : Nat) : Prop :=
  reservation.startVa + page * pageSize < address + size ∧
    address < reservation.startVa + (page + 1) * pageSize

-- Every byte is read to be written back, so that an access outside the bitmap changes some contents.
def OnlyClears (reservation : Reservation) (address size : Nat) (before after : Memory) : Prop :=
  forall place bit, bit < 8 -> (after place).toNat.testBit bit ≠ (before place).toNat.testBit bit ->
    (after place).toNat.testBit bit = false ∧
      ∃ page, page < reservation.commitBitmap.bitCount ∧ reservation.Meets address size page ∧
        place = reservation.commitBitmap.bitmapBuffer + page / 8 ∧ bit = page % 8

-- Whatever the metadata memory holds, a DECOMMIT that returns cleared commit bits of the reservation the look-up
-- finds around the address and of the pages asked for, and did nothing else.
def DecommitsInside (space : ReservationSpace) (address size : Nat) : Prop :=
  forall memory after alignedAddress alignedSize,
    vmReservationSpaceFreeRegion { space with memory := memory } address size freeTypeDecommit =
      .ok (after, alignedAddress, alignedSize) ->
    ∃ index, findReservationFrom space address 1 space.slotCount 0 = some index ∧
      (space.slots index).Covers address ∧ after = { space with memory := after.memory } ∧
      OnlyClears (space.slots index) address size memory after.memory

-- `alignedSize / PAGE_SIZE`; the sum of the size and the offset in the page is a QWORD.
def decommitPages (address size : Nat) : Nat :=
  alignAddressUpper (qword (size + address % pageSize)) pageSize / pageSize

-- The pages are no more than the reservation has, or too many for a DWORD.
def PagesFit (space : ReservationSpace) (address size : Nat) : Prop :=
  forall index, findReservationFrom space address 1 space.slotCount 0 = some index ->
    (space.slots index).commitBitmap.bitCount ≤ firstPage (space.slots index) address ∨
      decommitPages address size ≤ (space.slots index).commitBitmap.bitCount ∨
      2 ^ 32 ≤ decommitPages address size

theorem decommitPages_within {address size page : Nat} (within : page < decommitPages address size) :
    page * pageSize < size + address % pageSize := by
  have aligned := alignAddressUpper_aligned (qword (size + address % pageSize)) 12 (by decide)
  obtain ⟨fits, wraps⟩ := alignAddressUpper_bounds (qword (size + address % pageSize)) 4096 (qword_lt _)
    (by decide) (by decide)
  have below : qword (size + address % pageSize) ≤ size + address % pageSize := Nat.mod_le _ _
  rw [show (2 : Nat) ^ 12 = 4096 by rfl] at aligned
  simp only [decommitPages, pageSize] at *
  omega

section Found

variable {reservation : Reservation} {address size : Nat} {memory after : Memory}

theorem alignedAddress_eq (bound : address < 2 ^ 64) :
    alignAddressLower address pageSize = address / pageSize * pageSize :=
  alignAddressLower_two_pow address 12 (by decide) bound

theorem alignedDistance_eq (bound : address < 2 ^ 64) :
    ptrDiff address (alignAddressLower address pageSize) = address % pageSize := by
  rw [alignedAddress_eq bound, ptrDiff_of_le (Nat.div_mul_le_self _ _) bound]
  have split := Nat.div_add_mod' address pageSize
  omega

-- A distance that no DWORD holds as a page number is no page of the bitmap either.
theorem startIndex_cases (wellFormed : SlotWellFormed reservation) (lower : reservation.startVa ≤ address)
    (bound : address < 2 ^ 64) :
    signedQuotient (ptrDiff (alignAddressLower address pageSize) reservation.startVa) pageSize =
        firstPage reservation address ∨
      maxDword < signedQuotient (ptrDiff (alignAddressLower address pageSize) reservation.startVa) pageSize ∧
        reservation.commitBitmap.bitCount ≤ firstPage reservation address := by
  obtain ⟨aligned, _, _, _, _, small, count⟩ := wellFormed.arithmetic
  rw [alignedAddress_eq bound]
  simp only [pageSize, firstPage]
  rw [ptrDiff_of_le (by omega) (by omega), signedQuotient]
  split
  next => exact .inl (by omega)
  next far =>
    refine .inr ⟨?_, by omega⟩
    simp only [maxDword, qword]
    omega

theorem vmDecommitReservation_eq_ok (wellFormed : SlotWellFormed reservation)
    (lower : reservation.startVa ≤ address) (bound : address < 2 ^ 64) :
    vmDecommitReservation memory (alignAddressLower address pageSize)
        (alignAddressUpper (qword (size + ptrDiff address (alignAddressLower address pageSize))) pageSize)
        reservation = .ok after ↔
      0 < decommitPages address size ∧ decommitPages address size < 2 ^ 32 ∧
        firstPage reservation address < reservation.commitBitmap.bitCount ∧
        firstPage reservation address ≤
          dword (reservation.commitBitmap.bitCount + 2 ^ 32 - decommitPages address size) ∧
        Bitmap.changeBits memory reservation.commitBitmap.bitmapBuffer (firstPage reservation address) false
          (decommitPages address size) = after := by
  obtain ⟨aligned, _, positive, _, _, small, count⟩ := wellFormed.arithmetic
  have index := startIndex_cases wellFormed lower bound
  have upper := alignAddressUpper_aligned (qword (size + address % pageSize)) 12 (by decide)
  have upperBound : alignAddressUpper (qword (size + address % pageSize)) pageSize < 2 ^ 64 :=
    lt_of_le_of_lt Nat.and_le_left (qword_lt _)
  have lowerAligned : isAddressAligned (alignAddressLower address pageSize) pageSize = true := by
    rw [alignedAddress_eq bound, show pageSize = 2 ^ 12 by rfl, isAddressAligned_two_pow _ 12 (by decide)
      (lt_of_le_of_lt (Nat.div_mul_le_self _ _) bound), decide_eq_true_eq]
    exact Nat.mul_mod_left _ _
  have upperAligned : isAddressAligned (alignAddressUpper (qword (size + address % pageSize)) pageSize) pageSize =
      true := by
    rw [show pageSize = 2 ^ 12 by rfl] at upperBound ⊢
    rw [isAddressAligned_two_pow _ 12 (by decide) upperBound, decide_eq_true_eq]
    exact upper
  have nonNull : (0 != alignAddressLower address pageSize) = true := by
    rw [alignedAddress_eq bound, bne_iff_ne]
    simp only [pageSize]
    omega
  simp only [vmDecommitReservation, changeCommitState, Bitmap.setBitsValue, alignedDistance_eq bound, nonNull,
    lowerAligned, upperAligned, Kernel.assert_bind_eq_ok, true_and, decide_eq_true_eq, bne_iff_ne,
    pure, Except.pure, Except.ok.injEq]
  have nonempty : 0 ≠ alignAddressUpper (qword (size + address % pageSize)) pageSize ↔
      0 < decommitPages address size := by
    rw [show (2 : Nat) ^ 12 = 4096 by rfl] at upper
    simp only [decommitPages, pageSize] at upper ⊢
    omega
  have pages : alignAddressUpper (qword (size + address % pageSize)) pageSize / pageSize =
      decommitPages address size := rfl
  rw [nonempty, pages]
  constructor
  · rintro ⟨positive, few, near, inside, room, rfl⟩
    have first := index.resolve_right (fun far => by omega)
    simp only [maxDword] at few near
    rw [first] at near inside room ⊢
    rw [@dword_of_lt (firstPage reservation address) (by omega)] at inside room ⊢
    rw [@dword_of_lt (decommitPages address size) (by omega)] at room ⊢
    exact ⟨positive, by omega, inside, room, rfl⟩
  · rintro ⟨positive, few, inside, room, rfl⟩
    have first := index.resolve_right (fun far => by omega)
    have near : firstPage reservation address < 2 ^ 32 := by omega
    rw [first, dword_of_lt near, dword_of_lt few]
    exact ⟨positive, by simp only [maxDword]; omega, by simp only [maxDword]; omega, inside, room, rfl⟩

end Found

theorem vmReservationSpaceFreeRegion_decommit (space : ReservationSpace) {address size : Nat} (nonNull : address ≠ 0)
    (positive : 0 < size) :
    vmReservationSpaceFreeRegion space address size freeTypeDecommit =
      match findReservationFrom space address 1 space.slotCount 0 with
      | none => .error "SUCCEEDED(status)"
      | some index =>
        vmDecommitReservation space.memory (alignAddressLower address pageSize)
          (alignAddressUpper (qword (size + ptrDiff address (alignAddressLower address pageSize))) pageSize)
          (space.slots index) >>= fun memory =>
            .ok ({ space with memory := memory }, alignAddressLower address pageSize,
              alignAddressUpper (qword (size + ptrDiff address (alignAddressLower address pageSize))) pageSize) := by
  have pointer : (0 != address) = true := bne_iff_ne.mpr (Ne.symm nonNull)
  have nonempty : (size != 0) = true := bne_iff_ne.mpr (by omega)
  have decommit : isBooleanFlagOn freeTypeDecommit freeTypeDecommit = true := by decide
  have release : isBooleanFlagOn freeTypeDecommit freeTypeRelease = false := by decide
  have one : ((0 : Nat) != 1) = true := by decide
  simp only [vmReservationSpaceFreeRegion, vmFindReservation, pointer, nonempty, decommit, release, one,
    Bool.false_and, Bool.false_or, Bool.true_and, Bool.false_bne, assert_true, Kernel.ok_bind, Kernel.pure_eq]
  cases findReservationFrom space address 1 space.slotCount 0 with
  | none => rfl
  | some index => rfl

theorem decommit_null (space : ReservationSpace) (size : Nat) :
    vmReservationSpaceFreeRegion space 0 size freeTypeDecommit = .error "Address != NULL" := rfl

theorem decommit_eq_ok {space after : ReservationSpace} {address size alignedAddress alignedSize : Nat}
    (slots : SlotsWellFormed space) (bound : address < 2 ^ 64) (positive : 0 < size)
    (result : vmReservationSpaceFreeRegion space address size freeTypeDecommit =
      .ok (after, alignedAddress, alignedSize)) :
    ∃ index, findReservationFrom space address 1 space.slotCount 0 = some index ∧
      (space.slots index).state = .used ∧ (space.slots index).startVa ≤ address ∧
      0 < decommitPages address size ∧ decommitPages address size < 2 ^ 32 ∧
      firstPage (space.slots index) address < (space.slots index).commitBitmap.bitCount ∧
      firstPage (space.slots index) address ≤
        dword ((space.slots index).commitBitmap.bitCount + 2 ^ 32 - decommitPages address size) ∧
      after = { space with
        memory := Bitmap.changeBits space.memory (space.slots index).commitBitmap.bitmapBuffer
          (firstPage (space.slots index) address) false (decommitPages address size) } := by
  by_cases null : address = 0
  · rw [null, decommit_null] at result
    cases result
  rw [vmReservationSpaceFreeRegion_decommit space null positive] at result
  cases found : findReservationFrom space address 1 space.slotCount 0 with
  | none =>
    rw [found] at result
    cases result
  | some index =>
    rw [found] at result
    obtain ⟨used, bounds⟩ := findReservationFrom_spec _ _ found
    have wellFormed := slots index used
    rw [checkBounds, Bool.and_eq_true, decide_eq_true_eq, qword_of_lt wellFormed.startVa_lt, qword_of_lt bound]
      at bounds
    obtain ⟨memory, outcome, final⟩ := Kernel.bind_eq_ok.mp result
    obtain ⟨some, few, inside, room, rfl⟩ := (vmDecommitReservation_eq_ok wellFormed bounds.1 bound).mp outcome
    refine ⟨index, rfl, used, bounds.1, some, few, inside, room, ?_⟩
    exact (Prod.mk.inj (Except.ok.inj final)).1.symm

section Bits

variable {reservation : Reservation} {address size : Nat} {memory : Memory}

theorem changeBits_onlyClears (wellFormed : SlotWellFormed reservation) (lower : reservation.startVa ≤ address)
    (some : 0 < decommitPages address size)
    (inside : firstPage reservation address + decommitPages address size ≤ reservation.commitBitmap.bitCount) :
    OnlyClears reservation address size memory
      (Bitmap.changeBits memory reservation.commitBitmap.bitmapBuffer (firstPage reservation address) false
        (decommitPages address size)) := by
  obtain ⟨aligned, _, _, _, _, small, count⟩ := wellFormed.arithmetic
  intro place bit bitSmall changed
  by_cases below : place < reservation.commitBitmap.bitmapBuffer
  · exact absurd (by rw [Bitmap.changeBits_below _ _ _ _ _ below]) changed
  have behind : reservation.commitBitmap.bitmapBuffer ≤ place := by omega
  rw [Bitmap.testBit_eq_getBit _ behind bitSmall, Bitmap.testBit_eq_getBit _ behind bitSmall,
    Bitmap.getBit_changeBits _ _ _ _ _ _ (by omega)] at changed
  rw [Bitmap.testBit_eq_getBit _ behind bitSmall, Bitmap.getBit_changeBits _ _ _ _ _ _ (by omega)]
  split at changed
  next touched =>
    have last := @decommitPages_within address size (decommitPages address size - 1) (by omega)
    refine ⟨if_pos touched, (place - reservation.commitBitmap.bitmapBuffer) * 8 + bit, by omega, ⟨?_, ?_⟩,
      by omega, by omega⟩
    all_goals
      simp only [firstPage, pageSize] at touched last ⊢
      omega
  next => exact absurd rfl changed

theorem changeBits_overrun (before : firstPage reservation address ≤ reservation.commitBitmap.bitCount)
    (small : reservation.commitBitmap.bitCount < 2 ^ 32)
    (beyond : reservation.commitBitmap.bitCount < firstPage reservation address + decommitPages address size) :
    ¬ OnlyClears reservation address size (fun _ => 0xFF)
      (Bitmap.changeBits (fun _ => 0xFF) reservation.commitBitmap.bitmapBuffer (firstPage reservation address) false
        (decommitPages address size)) := by
  intro clears
  have touched := Bitmap.getBit_changeBits_touched (fun _ => 0xFF) reservation.commitBitmap.bitmapBuffer
    (firstPage reservation address) (decommitPages address size) false
    (i := reservation.commitBitmap.bitCount - firstPage reservation address) (by omega)
  rw [Nat.add_sub_cancel' before, dword_of_lt small, Bitmap.getBit, Bitmap.entryBits] at touched
  have bitSmall : reservation.commitBitmap.bitCount % 8 < 8 := Nat.mod_lt _ (by decide)
  have full (bit : Nat) (bound : bit < 8) : (0xFF : UInt8).toNat.testBit bit = true := by
    interval_cases bit <;> rfl
  obtain ⟨_, page, within, _, byte, offset⟩ := clears _ _ bitSmall (by
    rw [touched, full _ bitSmall]
    decide)
  omega

end Bits

theorem lookUp_memory (space : ReservationSpace) (memory : Memory) (address size : Nat) :
    findReservationFrom { space with memory := memory } address size
        { space with memory := memory }.slotCount 0 =
      findReservationFrom space address size space.slotCount 0 :=
  @findReservationFrom_congr { space with memory := memory } space rfl address size space.slotCount 0

theorem decommits_inside_iff {space : ReservationSpace} (reached : reservationSystem.Reachable space)
    {address size : Nat} (bound : address < 2 ^ 64) (positive : 0 < size) :
    DecommitsInside space address size ↔ PagesFit space address size := by
  have slots := reachable_slotsWellFormed reached
  constructor
  · intro contained index found
    by_contra bad
    push Not at bad
    obtain ⟨inside, many, few⟩ := bad
    obtain ⟨used, bounds⟩ := findReservationFrom_spec _ _ found
    have wellFormed := slots index used
    obtain ⟨_, _, start, _, _, small, count⟩ := wellFormed.arithmetic
    rw [checkBounds, Bool.and_eq_true, decide_eq_true_eq, qword_of_lt wellFormed.startVa_lt, qword_of_lt bound]
      at bounds
    have result := (@vmDecommitReservation_eq_ok _ address size (fun _ => 0xFF) _ wellFormed bounds.1 bound).mpr
      ⟨by omega, few, inside, by unfold dword; omega, rfl⟩
    have call := vmReservationSpaceFreeRegion_decommit { space with memory := fun _ => 0xFF }
      (show address ≠ 0 by omega) positive
    rw [lookUp_memory, found] at call
    dsimp only at call
    rw [result, Kernel.ok_bind] at call
    obtain ⟨index', found', _, _, clears⟩ := contained _ _ _ _ call
    obtain rfl : index = index' := Option.some.inj (found.symm.trans found')
    exact changeBits_overrun (by omega) (by omega) (by omega) clears
  · intro fit memory after alignedAddress alignedSize result
    obtain ⟨index, found, used, lower, some, few, inside, room, rfl⟩ :=
      @decommit_eq_ok { space with memory := memory } _ _ _ _ _ slots bound positive result
    rw [lookUp_memory] at found
    dsimp only at used lower inside room
    have wellFormed := slots index used
    obtain ⟨_, _, start, _, _, small, count⟩ := wellFormed.arithmetic
    have fits : decommitPages address size ≤ (space.slots index).commitBitmap.bitCount :=
      ((fit index found).resolve_left (by omega)).resolve_right (by omega)
    refine ⟨index, found, ⟨used, ?_⟩, rfl, changeBits_onlyClears wellFormed lower some ?_⟩
    · rw [InRange, ptrDiff_of_le lower bound]
      simp only [firstPage, pageSize] at inside
      omega
    · unfold dword at room
      omega

theorem decommits_inside_sample :
    ∃ space, reservationSystem.Reachable space ∧ (space.slots 0).Covers 0x10000FFF ∧
      DecommitsInside space 0x10000FFF 2 := by
  have start : reservationSystem.Reachable sampleSpace := .start sampleSpace_initialized
  have reached := start.next (.alloc 0x10000000 0x2000 (allocTypeReserve ||| allocTypeCommit) 1 false 0)
    ⟨by decide, by decide, _, _, rfl⟩
  refine ⟨_, reached, ⟨rfl, by unfold InRange; decide⟩,
    (decommits_inside_iff reached (by decide) (by decide)).mpr (fun index found => ?_)⟩
  obtain rfl : 0 = index := Option.some.inj found
  exact .inr (.inl (by decide))

-- A byte more than the one page reserved: the second bit belongs to no page of the reservation.
theorem decommits_outside_sample :
    ¬ forall space, reservationSystem.Reachable space -> forall address size, address < 2 ^ 64 -> 0 < size ->
      size < 2 ^ 64 -> Live space address -> DecommitsInside space address size := by
  intro claim
  have start : reservationSystem.Reachable sampleSpace := .start sampleSpace_initialized
  have reached := start.next (.alloc 0x10000000 0x1000 (allocTypeReserve ||| allocTypeCommit) 1 false 0)
    ⟨by decide, by decide, _, _, rfl⟩
  have contained := claim _ reached 0x10000000 0x1001 (by decide) (by decide) (by decide)
    ⟨0, rfl, by unfold InRange; decide⟩
  obtain ⟨index, found, _, _, clears⟩ := contained (fun _ => 0xFF) _ _ _ rfl
  obtain rfl : 0 = index := Option.some.inj found
  obtain ⟨_, page, inside, _, _, offset⟩ := clears 0x104000 1 (by decide) (by decide)
  have inside : page < 1 := inside
  omega

end Hal9000.Vm
