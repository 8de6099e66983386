import Hal9000.Vm.Overlap

set_option autoImplicit false

namespace Hal9000.Vm

open Lib

-- The two scans once more, with the slots whose State they read or write. The loop of _VmFindReservation
-- reads a State before it compares the slot's address with BitmapAddressStart.
def findReservationTrace (space : ReservationSpace) (address size : Nat) : Nat -> Nat -> List Nat × Option Nat
  | 0, index => ([index], none)
  | remaining + 1, index =>
    match (space.slots index).state with
    | .last => ([index], none)
    | .free =>
      let (touched, found) := findReservationTrace space address size remaining (index + 1)
      (index :: touched, found)
    | .used =>
      if checkBounds address size (space.slots index).startVa (space.slots index).size then ([index], some index)
      else
        let (touched, found) := findReservationTrace space address size remaining (index + 1)
        (index :: touched, found)

def findFirstFreeReservationTrace (space : ReservationSpace) :
    Nat -> Nat -> List Nat × Option (ReservationSpace × Nat)
  | 0, _ => ([], none)
  | remaining + 1, index =>
    match (space.slots index).state with
    | .free => ([index], some (space, index))
    | .last =>
      let released := space.setSlot index { space.slots index with state := .free }
      ([index, index + 1],
        some (released.setSlot (index + 1) { released.slots (index + 1) with state := .last }, index))
    | .used =>
      let (touched, found) := findFirstFreeReservationTrace space remaining (index + 1)
      (index :: touched, found)

theorem findReservationTrace_found (space : ReservationSpace) (address size remaining index : Nat) :
    (findReservationTrace space address size remaining index).2 =
      findReservationFrom space address size remaining index := by
  induction remaining generalizing index with
  | zero => rfl
  | succ remaining ih =>
    unfold findReservationTrace findReservationFrom
    cases state : (space.slots index).state with
    | last => rfl
    | free => exact ih (index + 1)
    | used =>
      dsimp only
      split
      next => rfl
      next => exact ih (index + 1)

theorem findFirstFreeReservationTrace_found (space : ReservationSpace) (remaining index : Nat) :
    (findFirstFreeReservationTrace space remaining index).2 =
      findFirstFreeReservationFrom space remaining index := by
  induction remaining generalizing index with
  | zero => rfl
  | succ remaining ih =>
    unfold findFirstFreeReservationTrace findFirstFreeReservationFrom
    cases state : (space.slots index).state with
    | free => rfl
    | last => rfl
    | used => exact ih (index + 1)

def findTouches (space : ReservationSpace) (address size : Nat) : List Nat :=
  (findReservationTrace space address size space.slotCount 0).1

def firstFreeTouches (space : ReservationSpace) : List Nat :=
  (findFirstFreeReservationTrace space space.slotCount 0).1

def touches (space : ReservationSpace) : Call -> List Nat
  | .alloc baseAddress size allocType rights uncacheable fileObject =>
    let (chosen, base, alignedSize) := alignRequest space baseAddress size
    let reserve := isBooleanFlagOn allocType allocTypeReserve
    let commit := isBooleanFlagOn allocType allocTypeCommit
    (if reserve then findTouches chosen base alignedSize ++ firstFreeTouches chosen else []) ++
      match changeIfRequested reserve chosen base alignedSize allocTypeReserve rights uncacheable fileObject with
      | .ok (reserved, _) => if commit then findTouches reserved base alignedSize else []
      | .error _ => []
  | .free address _ _ => findTouches space address 1

-- The whole slot lies below BitmapAddressStart.
def Below (space : ReservationSpace) (index : Nat) : Prop :=
  space.reservationList + (index + 1) * sizeofReservation ≤ space.bitmapAddressStart

structure SlotsInArea (space : ReservationSpace) : Prop where
  sentinel : ∃ last, (space.slots last).state = .last ∧
    forall i, ((space.slots i).state = .last -> i = last) ∧ ((space.slots i).state = .used -> i < last)
  touched : forall call i, i ∈ touches space call -> Below space i
  -- A slot for one more reservation is always there.
  available : vmFindFirstFreeReservation space ≠ none

-- Spaces whose metadata is a range of addresses and has two slots in its fifth of slots.
def Roomy (space : ReservationSpace) : Prop :=
  ∃ metadataBaseAddress baseAddress metadataSize raw,
    metadataBaseAddress + metadataSize ≤ 2 ^ 64 ∧ baseAddress < 2 ^ 64 ∧ 10 * sizeofReservation ≤ metadataSize ∧
      vmReservationSpaceInit metadataBaseAddress baseAddress metadataSize = .ok raw ∧
      space = vmReservationSpaceFinishInit raw

def roomySystem : TransitionSystem ReservationSpace Call where
  initial := Roomy
  step := callStep

structure Layout (space : ReservationSpace) (last : Nat) : Prop where
  sentinel : (space.slots last).state = .last
  before : forall i, i < last -> (space.slots i).state ≠ .last
  after : forall i, last < i -> (space.slots i).state = .free

section Scans

variable {space : ReservationSpace} {last : Nat}

theorem findReservationTrace_le (layout : Layout space last) (address size remaining index : Nat)
    (reached : index ≤ last) (room : last < index + remaining) (i : Nat)
    (touched : i ∈ (findReservationTrace space address size remaining index).1) : i ≤ last := by
  induction remaining generalizing index with
  | zero => omega
  | succ remaining ih =>
    unfold findReservationTrace at touched
    have next (live : (space.slots index).state ≠ .last) : index + 1 ≤ last := by
      by_contra beyond
      have here : index = last := by omega
      exact live (here ▸ layout.sentinel)
    cases state : (space.slots index).state with
    | last =>
      simp only [state, List.mem_singleton] at touched
      omega
    | free =>
      simp only [state, List.mem_cons] at touched
      rcases touched with rfl | later
      · exact reached
      · exact ih (index + 1) (next (by simp [state])) (by omega) later
    | used =>
      simp only [state] at touched
      split at touched
      next =>
        rw [List.mem_singleton] at touched
        omega
      next =>
        rcases List.mem_cons.mp touched with rfl | later
        · exact reached
        · exact ih (index + 1) (next (by simp [state])) (by omega) later

theorem findFirstFreeReservationTrace_le (layout : Layout space last) (remaining index : Nat)
    (reached : index ≤ last) (room : last < index + remaining) (i : Nat)
    (touched : i ∈ (findFirstFreeReservationTrace space remaining index).1) : i ≤ last + 1 := by
  induction remaining generalizing index with
  | zero => omega
  | succ remaining ih =>
    unfold findFirstFreeReservationTrace at touched
    cases state : (space.slots index).state with
    | last =>
      simp only [state, List.mem_cons, List.not_mem_nil, or_false] at touched
      omega
    | free =>
      simp only [state, List.mem_singleton] at touched
      omega
    | used =>
      have next : index + 1 ≤ last := by
        by_contra beyond
        have here : index = last := by omega
        rw [here, layout.sentinel] at state
        exact absurd state (by decide)
      simp only [state, List.mem_cons] at touched
      rcases touched with rfl | later
      · omega
      · exact ih (index + 1) next (by omega) later

theorem findFirstFree_layout (layout : Layout space last) (remaining index : Nat)
    (reached : index ≤ last) (room : last < index + remaining) :
    ∃ extended found, findFirstFreeReservationFrom space remaining index = some (extended, found) ∧
      ((found < last ∧ extended = space) ∨
        (found = last ∧ Layout extended (last + 1) ∧ ∃ slots, extended = { space with slots := slots })) := by
  induction remaining generalizing index with
  | zero => omega
  | succ remaining ih =>
    unfold findFirstFreeReservationFrom
    cases state : (space.slots index).state with
    | used =>
      have next : index + 1 ≤ last := by
        by_contra beyond
        have here : index = last := by omega
        rw [here, layout.sentinel] at state
        exact absurd state (by decide)
      exact ih (index + 1) next (by omega)
    | free =>
      have distinct : index ≠ last := by
        rintro rfl
        rw [layout.sentinel] at state
        exact absurd state (by decide)
      exact ⟨space, index, rfl, .inl ⟨by omega, rfl⟩⟩
    | last =>
      have here : index = last := by
        by_contra other
        exact layout.before index (by omega) state
      subst here
      refine ⟨_, index, rfl, .inr ⟨rfl, ⟨?_, ?_, ?_⟩, _, rfl⟩⟩
      · simp
      · intro i early
        by_cases same : i = index
        · simp [same]
        · have other : i ≠ index + 1 := by omega
          simpa [same, other] using layout.before i (by omega)
      · intro i late
        have other : i ≠ index + 1 := by omega
        have distinct : i ≠ index := by omega
        simpa [other, distinct] using layout.after i (by omega)

end Scans

-- Every slot that is opened costs a page of commit bitmaps, and those pages never come back.
structure Budget (space : ReservationSpace) (last : Nat) : Prop where
  aligned : space.reservationList % pageSize = 0
  nonzero : space.reservationList ≠ 0
  share : space.bitmapAddressStart = space.reservationList + space.reservedAreaSize * 2000 / 10000
  roomy : 10 * sizeofReservation ≤ space.reservedAreaSize
  small : space.reservedAreaSize < 2 ^ 54
  fits : space.reservationList + space.reservedAreaSize ≤ 2 ^ 64
  pointer : space.freeBitmapAddress < 2 ^ 64
  spent : (last = 0 ∧ space.freeBitmapAddress = space.bitmapAddressStart) ∨
    (space.bitmapAddressStart % pageSize = 0 ∧
      ((space.bitmapAddressStart + pageSize * last ≤ space.freeBitmapAddress ∧
          space.freeBitmapAddress ≤ space.reservationList + space.reservedAreaSize) ∨
        -- The pointer has wrapped around: no reservation is made any more.
        (space.freeBitmapAddress < space.reservationList ∧
          space.bitmapAddressStart + pageSize * last ≤ space.reservationList + space.reservedAreaSize + pageSize)))

section Budgets

variable {space after : ReservationSpace} {last : Nat}

theorem Budget.below (budget : Budget space last) {i : Nat} (opened : i ≤ last + 1) : Below space i := by
  obtain ⟨aligned, _, share, roomy, _, _, _, spent⟩ := budget
  simp only [Below, sizeofReservation, pageSize] at *
  omega

theorem Budget.slotCount (budget : Budget space last) : last < space.slotCount := by
  have below := budget.below (Nat.le_succ last)
  simp only [Below, ReservationSpace.slotCount, sizeofReservation] at *
  omega

theorem Roomy.start (roomy : Roomy space) : Layout space 0 ∧ Budget space 0 := by
  obtain ⟨metadata, base, size, raw, fits, _, enough, init, rfl⟩ := roomy
  simp only [vmReservationSpaceInit, Kernel.assert_bind_eq_ok] at init
  obtain ⟨nonzero, aligned, _, init⟩ := init
  obtain ⟨listSize, percentage, init⟩ := Kernel.bind_eq_ok.mp init
  simp only [calculatePercentage, Kernel.assert_bind_eq_ok, reservationListPercentageInHundreds] at percentage
  obtain ⟨_, small, percentage⟩ := percentage
  have small : (2 ^ 64 - 1) / (20 * 100) ≥ size := of_decide_eq_true small
  have share := Except.ok.inj percentage
  have raw_eq := Except.ok.inj init
  constructor
  · have slots : raw.slots = fun _ => {} := by rw [← raw_eq]
    constructor
    · simp [vmReservationSpaceFinishInit, slots]
    · intro i early
      omega
    · intro i late
      have other : i ≠ 0 := by omega
      simp [vmReservationSpaceFinishInit, slots, other]
  · have whole : qword (size * (20 * 100)) = size * 2000 := qword_of_lt (by omega)
    rw [whole] at share
    simp only [sizeofReservation] at enough
    have start : ptrOffset metadata listSize = metadata + size * 2000 / 10000 := by
      rw [ptrOffset, ← share]
      exact qword_of_lt (by omega)
    have pages : metadata % pageSize = 0 := by
      have masked := isAddressAligned_two_pow metadata 12 (by decide) (by omega)
      exact of_decide_eq_true (masked.symm.trans aligned)
    have nonzero : metadata ≠ 0 := fun zero => by
      rw [zero] at nonzero
      exact absurd nonzero (by decide)
    rw [← raw_eq, start]
    exact ⟨pages, nonzero, rfl, enough, show size < 2 ^ 54 by omega, fits,
      show metadata + size * 2000 / 10000 < 2 ^ 64 by omega, .inl ⟨rfl, rfl⟩⟩

theorem vmInitializeReservation_spend {address size pageRights : Nat} {uncacheable : Bool} {fileObject index : Nat}
    (result : vmInitializeReservation space address size pageRights uncacheable fileObject index = .ok after) :
    ∃ reservation memory pages, reservation.state = .used ∧ 0 < pages ∧ pages ≤ 2 ^ 20 ∧
      isAddressAligned space.freeBitmapAddress pageSize = true ∧
      checkBounds space.freeBitmapAddress (pages * pageSize) space.reservationList space.reservedAreaSize = true ∧
      after = { space.setSlot index reservation with
        memory := memory
        freeBitmapAddress := ptrOffset space.freeBitmapAddress (pages * pageSize) } := by
  simp only [vmInitializeReservation, Kernel.assert_bind_eq_ok] at result
  obtain ⟨_, _, _, _, _, result⟩ := result
  obtain ⟨bitmap, preinit, result⟩ := Kernel.bind_eq_ok.mp result
  simp only [Kernel.assert_bind_eq_ok] at result
  obtain ⟨some, aligned, result⟩ := result
  obtain ⟨⟨memory, commitBitmap⟩, _, result⟩ := Kernel.bind_eq_ok.mp result
  simp only [Kernel.assert_bind_eq_ok] at result
  obtain ⟨bounds, result⟩ := result
  have small : bitmap.bufferSize < 2 ^ 32 := by
    simp only [Bitmap.preinit, Kernel.assert_bind_eq_ok] at preinit
    rw [← Except.ok.inj preinit.2]
    exact Nat.mod_lt _ (by decide)
  have size_eq : alignAddressUpper bitmap.bufferSize pageSize =
      (bitmap.bufferSize + (pageSize - 1)) / pageSize * pageSize := alignAddressUpper_page _ (by omega)
  have positive : bitmap.bufferSize ≠ 0 := fun zero => by
    rw [zero] at some
    exact absurd some (by decide)
  rw [size_eq] at bounds result
  refine ⟨_, memory, (bitmap.bufferSize + (pageSize - 1)) / pageSize, ?_, ?_, ?_, aligned, bounds,
    (Except.ok.inj result).symm⟩
  · rfl
  · simp only [pageSize]
    omega
  · simp only [pageSize]
    omega

theorem Budget.spend (budget : Budget space last) {pages opened : Nat} (next : opened ≤ last + 1) (some : 0 < pages) (few : pages ≤ 2 ^ 20)
    (aligned : isAddressAligned space.freeBitmapAddress pageSize = true)
    (bounds : checkBounds space.freeBitmapAddress (pages * pageSize) space.reservationList space.reservedAreaSize =
      true) {slots : Nat -> Reservation} {memory : Memory} :
    Budget { space with
      slots := slots
      memory := memory
      freeBitmapAddress := ptrOffset space.freeBitmapAddress (pages * pageSize) } opened := by
  obtain ⟨list, nonzero, share, roomy, small, fits, pointer, spent⟩ := budget
  have page : space.freeBitmapAddress % pageSize = 0 := by
    have masked := isAddressAligned_two_pow space.freeBitmapAddress 12 (by decide) pointer
    exact of_decide_eq_true (masked.symm.trans aligned)
  simp only [checkBounds, Bool.and_eq_true, decide_eq_true_eq] at bounds
  refine ⟨list, nonzero, share, roomy, small, fits, qword_lt _, .inr ?_⟩
  simp only [ptrOffset, qword, pageSize, sizeofReservation] at *
  omega

end Budgets

def InArea (reservationList bitmapAddressStart : Nat) (space : ReservationSpace) : Prop :=
  space.reservationList = reservationList ∧ space.bitmapAddressStart = bitmapAddressStart ∧
    ∃ last, Layout space last ∧ Budget space last

section Steps

variable {list start : Nat} {space after : ReservationSpace} {last : Nat}

theorem Layout.update (layout : Layout space last) {index : Nat} (inside : index < last) {reservation : Reservation}
    (live : reservation.state ≠ .last) {memory : Memory} {freeBitmapAddress : Nat} :
    Layout { space.setSlot index reservation with memory := memory, freeBitmapAddress := freeBitmapAddress } last := by
  obtain ⟨sentinel, before, later⟩ := layout
  constructor
  · have other : last ≠ index := by omega
    simpa [other] using sentinel
  · intro i early
    by_cases same : i = index
    · simpa [same] using live
    · simpa [same] using before i early
  · intro i late
    have other : i ≠ index := by omega
    simpa [other] using later i late

theorem reserve_inArea (inside : InArea list start space) {extended : ReservationSpace} {index : Nat}
    (found : vmFindFirstFreeReservation space = some (extended, index)) {address size pageRights : Nat}
    {uncacheable : Bool} {fileObject : Nat}
    (result : vmInitializeReservation extended address size pageRights uncacheable fileObject index = .ok after) :
    InArea list start after := by
  obtain ⟨listed, started, last, layout, budget⟩ := inside
  obtain ⟨extended', index', found', place⟩ := findFirstFree_layout layout space.slotCount 0 (Nat.zero_le _)
    (by have room := budget.slotCount; omega)
  obtain ⟨rfl, rfl⟩ := Prod.mk.inj (Option.some.inj (found.symm.trans found'))
  obtain ⟨reservation, memory, pages, used, some, few, aligned, bounds, rfl⟩ := vmInitializeReservation_spend result
  have live : reservation.state ≠ .last := by
    rw [used]
    decide
  rcases place with ⟨before, rfl⟩ | ⟨rfl, moved, slots, rfl⟩
  · exact ⟨listed, started, last, layout.update before live, budget.spend (Nat.le_succ _) some few aligned bounds⟩
  · exact ⟨listed, started, index + 1, moved.update (Nat.lt_succ_self _) live, budget.spend (Nat.le_refl _) some few aligned bounds⟩

theorem InArea.memory (inside : InArea list start space) (memory : Memory) : InArea list start { space with memory := memory } := by
  obtain ⟨listed, started, last, ⟨sentinel, before, later⟩, budget⟩ := inside
  exact ⟨listed, started, last, ⟨sentinel, before, later⟩, { budget with }⟩

theorem change_inArea (inside : InArea list start space) {address size allocationType pageRights : Nat} {uncacheable : Bool}
    {fileObject : Nat} {status : Status}
    (result : vmChangeVaReservationState space address size allocationType pageRights uncacheable fileObject =
      .ok (after, status)) : InArea list start after := by
  simp only [vmChangeVaReservationState, Kernel.assert_bind_eq_ok] at result
  obtain ⟨_, _, _, _, _, result⟩ := result
  obtain ⟨found, _, result⟩ := Kernel.bind_eq_ok.mp result
  by_cases reserve : allocationType = allocTypeReserve
  · subst reserve
    simp only [if_true] at result
    cases found with
    | some index =>
      obtain ⟨rfl, _⟩ := Prod.mk.inj (Except.ok.inj result)
      exact inside
    | none =>
      cases slot : vmFindFirstFreeReservation space with
      | none => simp [slot, throw, throwThe, MonadExceptOf.throw] at result
      | some extension =>
        obtain ⟨extended, index⟩ := extension
        simp only [slot] at result
        obtain ⟨initialized, init, result⟩ := Kernel.bind_eq_ok.mp result
        obtain ⟨rfl, _⟩ := Prod.mk.inj (Except.ok.inj result)
        exact reserve_inArea inside slot init
  · rw [if_neg reserve] at result
    cases found with
    | none =>
      obtain ⟨rfl, _⟩ := Prod.mk.inj (Except.ok.inj result)
      exact inside
    | some index =>
      dsimp only at result
      split at result
      next =>
        obtain ⟨rfl, _⟩ := Prod.mk.inj (Except.ok.inj result)
        exact inside
      next =>
        split at result
        next =>
          obtain ⟨rfl, _⟩ := Prod.mk.inj (Except.ok.inj result)
          exact inside
        next =>
          obtain ⟨memory, _, result⟩ := Kernel.bind_eq_ok.mp result
          obtain ⟨rfl, _⟩ := Prod.mk.inj (Except.ok.inj result)
          exact inside.memory memory

theorem changeIfRequested_inArea (inside : InArea list start space) {requested : Bool}
    {address size allocationType pageRights : Nat} {uncacheable : Bool} {fileObject : Nat} {status : Status}
    (result : changeIfRequested requested space address size allocationType pageRights uncacheable fileObject =
      .ok (after, status)) : InArea list start after := by
  unfold changeIfRequested at result
  split at result
  next => exact change_inArea inside result
  next =>
    obtain ⟨rfl, _⟩ := Prod.mk.inj (Except.ok.inj result)
    exact inside

theorem InArea.release (inside : InArea list start space) {index : Nat} (used : (space.slots index).state = .used) :
    InArea list start (space.setSlot index {}) := by
  obtain ⟨listed, started, last, layout, budget⟩ := inside
  have before : index < last := by
    by_contra beyond
    by_cases same : index = last
    · rw [same, layout.sentinel] at used
      exact absurd used (by decide)
    · rw [layout.after index (by omega)] at used
      exact absurd used (by decide)
  exact ⟨listed, started, last, @Layout.update space last layout index before {} (by decide) _ _, { budget with }⟩

theorem InArea.pointer (inside : InArea list start space) (freeVirtualAddressPointer : Nat) :
    InArea list start { space with freeVirtualAddressPointer := freeVirtualAddressPointer } := by
  obtain ⟨listed, started, last, ⟨sentinel, before, later⟩, budget⟩ := inside
  exact ⟨listed, started, last, ⟨sentinel, before, later⟩, { budget with }⟩

theorem alignRequest_inArea (inside : InArea list start space) (baseAddress size : Nat) :
    InArea list start (alignRequest space baseAddress size).1 := by
  by_cases automatic : baseAddress = 0
  · simp only [alignRequest, automatic, if_true]
    exact inside.pointer _
  · simp only [alignRequest, automatic, if_false]
    exact inside

theorem call_inArea (inside : InArea list start space) {call : Call} (taken : callStep space call after) : InArea list start after := by
  cases call with
  | alloc baseAddress size allocType rights uncacheable fileObject =>
    obtain ⟨_, _, status, mapping, result⟩ := taken
    have requested := alignRequest_inArea inside baseAddress size
    simp only [vmReservationSpaceAllocRegion, Kernel.assert_bind_eq_ok] at result
    obtain ⟨_, _, result⟩ := result
    generalize alignRequest space baseAddress size = request at result requested
    obtain ⟨chosen, base, alignedSize⟩ := request
    dsimp only at result requested
    split at result
    next =>
      obtain ⟨rfl, _⟩ := Prod.mk.inj (Except.ok.inj result)
      exact inside
    next =>
      obtain ⟨⟨reserved, reserveStatus⟩, reserve, result⟩ := Kernel.bind_eq_ok.mp result
      have kept := changeIfRequested_inArea requested reserve
      dsimp only at result
      split at result
      next =>
        obtain ⟨rfl, _⟩ := Prod.mk.inj (Except.ok.inj result)
        exact kept
      next =>
        obtain ⟨⟨committed, commitStatus⟩, commit, result⟩ := Kernel.bind_eq_ok.mp result
        have final := changeIfRequested_inArea kept commit
        dsimp only at result
        split at result
        all_goals
          obtain ⟨rfl, _⟩ := Prod.mk.inj (Except.ok.inj result)
          exact final
  | free address size freeType =>
    obtain ⟨_, _, alignedAddress, alignedSize, result⟩ := taken
    simp only [vmReservationSpaceFreeRegion, Kernel.assert_bind_eq_ok] at result
    obtain ⟨_, _, _, result⟩ := result
    obtain ⟨found, search, result⟩ := Kernel.bind_eq_ok.mp result
    cases found with
    | none => simp [throw, throwThe, MonadExceptOf.throw] at result
    | some index =>
      dsimp only at result
      split at result
      next =>
        rw [Kernel.assert_bind_eq_ok] at result
        obtain ⟨rfl, _⟩ := Prod.mk.inj (Except.ok.inj result.2)
        obtain ⟨_, _, found_eq⟩ := vmFindReservation_eq_ok search
        exact inside.release (findReservationFrom_spec _ _ found_eq.symm).1
      next =>
        obtain ⟨memory, _, result⟩ := Kernel.bind_eq_ok.mp result
        obtain ⟨rfl, _⟩ := Prod.mk.inj (Except.ok.inj result)
        exact inside.memory memory

theorem InArea.find_below (inside : InArea list start space) (address size : Nat) {i : Nat}
    (touched : i ∈ findTouches space address size) : list + (i + 1) * sizeofReservation ≤ start := by
  obtain ⟨rfl, rfl, last, layout, budget⟩ := inside
  have room := budget.slotCount
  have early := findReservationTrace_le layout address size space.slotCount 0 (Nat.zero_le _) (by omega) i touched
  exact budget.below (by omega)

theorem InArea.firstFree_below (inside : InArea list start space) {i : Nat} (touched : i ∈ firstFreeTouches space) :
    list + (i + 1) * sizeofReservation ≤ start := by
  obtain ⟨rfl, rfl, last, layout, budget⟩ := inside
  have room := budget.slotCount
  exact budget.below (findFirstFreeReservationTrace_le layout space.slotCount 0 (Nat.zero_le _) (by omega) i touched)

theorem InArea.touches_below (inside : InArea list start space) (call : Call) {i : Nat}
    (touched : i ∈ touches space call) : list + (i + 1) * sizeofReservation ≤ start := by
  cases call with
  | free address size freeType => exact inside.find_below address 1 touched
  | alloc baseAddress size allocType rights uncacheable fileObject =>
    have requested := alignRequest_inArea inside baseAddress size
    simp only [touches] at touched
    generalize alignRequest space baseAddress size = request at touched requested
    obtain ⟨chosen, base, alignedSize⟩ := request
    dsimp only at touched requested
    rcases List.mem_append.mp touched with first | second
    · split at first
      next =>
        rcases List.mem_append.mp first with scanned | opened
        · exact requested.find_below _ _ scanned
        · exact requested.firstFree_below opened
      next => exact absurd first List.not_mem_nil
    · split at second
      next reserved status reserve =>
        split at second
        next => exact (changeIfRequested_inArea requested reserve).find_below _ _ second
        next => exact absurd second List.not_mem_nil
      next => exact absurd second List.not_mem_nil

theorem InArea.slotsInArea (inside : InArea space.reservationList space.bitmapAddressStart space) :
    SlotsInArea space := by
  refine ⟨?_, fun call i touched => inside.touches_below call touched, ?_⟩
  · obtain ⟨_, _, last, layout, _⟩ := inside
    refine ⟨last, layout.sentinel, fun i => ⟨?_, ?_⟩⟩
    · intro sentinel
      by_contra other
      rcases Nat.lt_or_gt_of_ne other with early | late
      · exact layout.before i early sentinel
      · rw [layout.after i late] at sentinel
        exact absurd sentinel (by decide)
    · intro used
      by_contra beyond
      by_cases same : i = last
      · rw [same, layout.sentinel] at used
        exact absurd used (by decide)
      · rw [layout.after i (by omega)] at used
        exact absurd used (by decide)
  · obtain ⟨_, _, last, layout, budget⟩ := inside
    have room := budget.slotCount
    obtain ⟨extended, found, result, _⟩ := findFirstFree_layout layout space.slotCount 0 (Nat.zero_le _) (by omega)
    rw [vmFindFirstFreeReservation, result]
    exact nofun

end Steps

-- In every reachable state: the commit bitmaps run out before the slots do.
theorem slots_in_area {space : ReservationSpace} (reached : roomySystem.Reachable space) : SlotsInArea space := by
  let holds (space : ReservationSpace) : Prop := ∃ list start, InArea list start space
  have invariant : holds space := by
    refine reached.invariant ?_ ?_
    · intro space roomy
      obtain ⟨layout, budget⟩ := roomy.start
      exact ⟨_, _, rfl, rfl, 0, layout, budget⟩
    · rintro space call after ⟨list, start, inside⟩ taken
      exact ⟨list, start, call_inArea inside taken⟩
  obtain ⟨list, start, rfl, rfl, rest⟩ := invariant
  exact InArea.slotsInArea ⟨rfl, rfl, rest⟩

theorem slots_in_area_sample : ∃ after, roomySystem.Reachable after ∧ (after.slots 1).state = .used ∧
    SlotsInArea after := by
  have start : roomySystem.Reachable sampleSpace :=
    .start ⟨0x100000, 0x10000000, 0x14000, _, by decide, by decide, by decide, rfl, rfl⟩
  have first := start.next (.alloc 0x10001000 0x1000 allocTypeReserve 1 false 0) ⟨by decide, by decide, _, _, rfl⟩
  have second := first.next (.alloc 0x10003000 0x2000 (allocTypeReserve ||| allocTypeCommit) 1 false 0)
    ⟨by decide, by decide, _, _, rfl⟩
  have third := second.next (.free 0x10001000 0 freeTypeRelease) ⟨by decide, by decide, _, _, rfl⟩
  exact ⟨_, third, rfl, slots_in_area third⟩

-- Metadata of 280 bytes, of which one slot of 56 is a fifth: the first reservation moves the sentinel out.
def tinySpace : ReservationSpace :=
  vmReservationSpaceFinishInit
    { freeVirtualAddressPointer := 0x10000000
      startOfVirtualAddressSpace := 0x10000000
      bitmapAddressStart := 0x100038
      reservedAreaSize := 0x118
      freeBitmapAddress := 0x100038
      reservationList := 0x100000
      slots := fun _ => {}
      memory := fun _ => 0 }

-- Metadata that runs past the end of the address space: BitmapAddressStart wraps to an address below the slots.
def wrappedSpace : ReservationSpace :=
  vmReservationSpaceFinishInit
    { freeVirtualAddressPointer := 0x10000000
      startOfVirtualAddressSpace := 0x10000000
      bitmapAddressStart := 0x3000
      reservedAreaSize := 0x14000
      freeBitmapAddress := 0x3000
      reservationList := 0xFFFFFFFFFFFFF000
      slots := fun _ => {}
      memory := fun _ => 0 }

theorem slots_leave_area : (reservationSystem.Reachable tinySpace ∧ ¬ SlotsInArea tinySpace) ∧
    reservationSystem.Reachable wrappedSpace ∧ ¬ SlotsInArea wrappedSpace := by
  refine ⟨⟨?_, fun claim => ?_⟩, ?_, fun claim => ?_⟩
  · exact .start ⟨0x100000, 0x10000000, 0x118, _, by decide, by decide, by decide, rfl, rfl⟩
  · have below := claim.touched (.alloc 0x10001000 0x1000 allocTypeReserve 1 false 0) 1 (by decide)
    revert below
    unfold Below
    decide
  · exact .start ⟨0xFFFFFFFFFFFFF000, 0x10000000, 0x14000, _, by decide, by decide, by decide, rfl, rfl⟩
  · have below := claim.touched (.free 0x10001000 0 freeTypeRelease) 0 (by decide)
    revert below
    unfold Below
    decide

end Hal9000.Vm
