import Hal9000.Lib.Transition
import Hal9000.Vm.ReservationSpace

set_option autoImplicit false

namespace Hal9000.Vm

open Lib

inductive Call where
  | alloc (baseAddress size allocType rights : Nat) (uncacheable : Bool) (fileObject : Nat)
  | free (address size freeType : Nat)
  deriving DecidableEq, Repr

-- A step is a call that returns: a failed ASSERT stops the kernel and has no state after it.
def callStep (space : ReservationSpace) : Call -> ReservationSpace -> Prop
  | .alloc baseAddress size allocType rights uncacheable fileObject, after =>
    baseAddress < 2 ^ 64 ∧ size < 2 ^ 64 ∧ ∃ status mapping,
      vmReservationSpaceAllocRegion space baseAddress size allocType rights uncacheable fileObject =
        .ok (after, status, mapping)
  | .free address size freeType, after =>
    address < 2 ^ 64 ∧ size < 2 ^ 64 ∧ ∃ alignedAddress alignedSize,
      vmReservationSpaceFreeRegion space address size freeType =
        .ok (after, alignedAddress, alignedSize)

def Initialized (space : ReservationSpace) : Prop :=
  ∃ metadataBaseAddress baseAddress metadataSize raw,
    metadataBaseAddress < 2 ^ 64 ∧ baseAddress < 2 ^ 64 ∧ metadataSize < 2 ^ 64 ∧
      vmReservationSpaceInit metadataBaseAddress baseAddress metadataSize = .ok raw ∧
      space = vmReservationSpaceFinishInit raw

def reservationSystem : TransitionSystem ReservationSpace Call where
  initial := Initialized
  step := callStep

def InRange (base size address : Nat) : Prop :=
  ptrDiff address base < size

def Reservation.Covers (reservation : Reservation) (address : Nat) : Prop :=
  reservation.state = .used ∧ InRange reservation.startVa reservation.size address

def Live (space : ReservationSpace) (address : Nat) : Prop :=
  ∃ i, (space.slots i).Covers address

def ReservationsDisjoint (space : ReservationSpace) : Prop :=
  forall i j, i ≠ j -> forall address,
    ¬ ((space.slots i).Covers address ∧ (space.slots j).Covers address)

-- The page range the call asks for lies inside one reservation (and is then refused) or meets none.
def NoPartialOverlap (space : ReservationSpace) : Call -> Prop
  | .alloc baseAddress size allocType _ _ _ =>
    isBooleanFlagOn allocType allocTypeReserve = true ->
      let (_, base, alignedSize) := alignRequest space baseAddress size
      findReservationFrom space base alignedSize space.slotCount 0 ≠ none ∨
        forall address, InRange base alignedSize address -> ¬ Live space address
  | .free _ _ _ => True

theorem Kept.covers {before after : ReservationSpace} (kept : Kept before after) {i address : Nat}
    (covers : (after.slots i).Covers address) : (before.slots i).Covers address := by
  rw [← kept i covers.1]
  exact covers

theorem Kept.disjoint {before after : ReservationSpace} (kept : Kept before after)
    (disjoint : ReservationsDisjoint before) : ReservationsDisjoint after := by
  intro i j distinct address both
  exact disjoint i j distinct address ⟨kept.covers both.1, kept.covers both.2⟩

theorem Added.disjoint {before after : ReservationSpace} {base size index : Nat}
    (added : Added before after base size index) (disjoint : ReservationsDisjoint before)
    (fresh : forall address, InRange base size address -> ¬ Live before address) :
    ReservationsDisjoint after := by
  have old (i : Nat) (other : i ≠ index) (address : Nat) (covers : (after.slots i).Covers address) :
      (before.slots i).Covers address := by
    rw [← added.others i other covers.1]
    exact covers
  have new (address : Nat) (covers : (after.slots index).Covers address) : InRange base size address := by
    have range := covers.2
    rwa [added.startVa_eq, added.size_eq] at range
  intro i j distinct address both
  by_cases first : i = index
  · subst first
    exact fresh address (new address both.1) ⟨j, old j (Ne.symm distinct) address both.2⟩
  · by_cases second : j = index
    · subst second
      exact fresh address (new address both.2) ⟨i, old i first address both.1⟩
    · exact disjoint i j distinct address ⟨old i first address both.1, old j second address both.2⟩

theorem initialized_unused {space : ReservationSpace} (initial : Initialized space) (i : Nat) :
    (space.slots i).state ≠ .used := by
  obtain ⟨metadata, base, size, raw, _, _, _, init, rfl⟩ := initial
  simp only [vmReservationSpaceInit, Kernel.assert_bind_eq_ok] at init
  obtain ⟨_, _, _, init⟩ := init
  obtain ⟨listSize, _, init⟩ := Kernel.bind_eq_ok.mp init
  have slots : raw.slots = fun _ => {} := by
    rw [← Except.ok.inj init]
  simp only [vmReservationSpaceFinishInit, ReservationSpace.setSlot_slots, slots]
  by_cases first : i = 0 <;> simp [first, Function.update]

theorem alloc_adds_nothing_live {space after : ReservationSpace}
    {baseAddress size allocType rights : Nat} {uncacheable : Bool} {fileObject : Nat}
    {status : Status} {mapping : Option Mapping}
    (met : NoPartialOverlap space (.alloc baseAddress size allocType rights uncacheable fileObject))
    (result : vmReservationSpaceAllocRegion space baseAddress size allocType rights uncacheable
      fileObject = .ok (after, status, mapping)) :
    (Kept space after ∧ (isBooleanFlagOn allocType allocTypeReserve = true -> mapping = none)) ∨
      ∃ index, Added space after (alignRequest space baseAddress size).2.1
          (alignRequest space baseAddress size).2.2 index ∧
        forall address, InRange (alignRequest space baseAddress size).2.1
          (alignRequest space baseAddress size).2.2 address -> ¬ Live space address := by
  rcases vmReservationSpaceAllocRegion_spec result with kept | ⟨reserve, index, added⟩
  · exact .inl kept
  · rcases met reserve with found | fresh
    · exact absurd added.unreserved found
    · exact .inr ⟨index, added, fresh⟩

theorem call_preserves_disjoint {space after : ReservationSpace} {call : Call}
    (disjoint : ReservationsDisjoint space) (met : NoPartialOverlap space call)
    (taken : callStep space call after) : ReservationsDisjoint after := by
  cases call with
  | alloc baseAddress size allocType rights uncacheable fileObject =>
    obtain ⟨_, _, status, mapping, result⟩ := taken
    rcases alloc_adds_nothing_live met result with ⟨kept, _⟩ | ⟨index, added, fresh⟩
    · exact kept.disjoint disjoint
    · exact added.disjoint disjoint fresh
  | free address size freeType =>
    obtain ⟨_, _, alignedAddress, alignedSize, result⟩ := taken
    exact (vmReservationSpaceFreeRegion_spec result).disjoint disjoint

theorem inRange_base {base size : Nat} (nonempty : size ≠ 0) : InRange base size base := by
  have zero : ptrDiff base base = 0 := by
    unfold ptrDiff qword
    omega
  unfold InRange
  omega

theorem reservations_disjoint_of_noPartialOverlap {space : ReservationSpace}
    (reached : reservationSystem.ReachableUnder NoPartialOverlap space) :
    ReservationsDisjoint space ∧
      forall size allocType rights uncacheable fileObject after status mapping,
        isBooleanFlagOn allocType allocTypeReserve = true ->
        NoPartialOverlap space (.alloc 0 size allocType rights uncacheable fileObject) ->
        vmReservationSpaceAllocRegion space 0 size allocType rights uncacheable fileObject =
          .ok (after, status, some mapping) ->
        ¬ Live space mapping.mappedAddress := by
  constructor
  · refine reached.invariant ?_ ?_
    · intro space initial i j _ address both
      exact initialized_unused initial i both.1.1
    · intro space call after disjoint met taken
      exact call_preserves_disjoint disjoint met taken
  · intro size allocType rights uncacheable fileObject after status mapping reserve met result
    have chosen := vmReservationSpaceAllocRegion_mapping result
    rcases alloc_adds_nothing_live met result with ⟨_, none⟩ | ⟨index, added, fresh⟩
    · exact absurd (none reserve) (by simp)
    · rw [chosen]
      refine fresh _ (inRange_base ?_)
      rw [← added.size_eq]
      exact added.wellFormed.size_ne_zero

def sampleSpace : ReservationSpace :=
  vmReservationSpaceFinishInit
    { freeVirtualAddressPointer := 0x10000000
      startOfVirtualAddressSpace := 0x10000000
      bitmapAddressStart := 0x104000
      reservedAreaSize := 0x14000
      freeBitmapAddress := 0x104000
      reservationList := 0x100000
      slots := fun _ => {}
      memory := fun _ => 0 }

theorem sampleSpace_initialized : Initialized sampleSpace :=
  ⟨0x100000, 0x10000000, 0x14000, _, by decide, by decide, by decide, rfl, rfl⟩

theorem reservations_disjoint_sample :
    ∃ after, reservationSystem.ReachableUnder NoPartialOverlap after ∧
      (after.slots 0).Covers 0x10001000 ∧ ReservationsDisjoint after := by
  have fresh : NoPartialOverlap sampleSpace (.alloc 0x10001000 0x1000 allocTypeReserve 1 false 0) := by
    intro _
    refine .inr (fun address _ live => ?_)
    obtain ⟨i, covers⟩ := live
    exact initialized_unused sampleSpace_initialized i covers.1
  have start : reservationSystem.ReachableUnder NoPartialOverlap sampleSpace :=
    .start _ sampleSpace_initialized
  have reached := start.next _ _ _ fresh ⟨by decide, by decide, _, _, rfl⟩
  exact ⟨_, reached, ⟨rfl, by unfold InRange; decide⟩, (reservations_disjoint_of_noPartialOverlap reached).1⟩

-- The second range holds the first one inside, which CHECK_BOUNDS does not notice.
theorem reservations_overlap_sample :
    ¬ forall space, reservationSystem.Reachable space -> ReservationsDisjoint space := by
  intro claim
  have start : reservationSystem.Reachable sampleSpace := .start sampleSpace_initialized
  have first := start.next (.alloc 0x10001000 0x1000 allocTypeReserve 1 false 0)
    ⟨by decide, by decide, _, _, rfl⟩
  have second := first.next (.alloc 0x10000000 0x3000 allocTypeReserve 1 false 0)
    ⟨by decide, by decide, _, _, rfl⟩
  refine claim _ second 0 1 (by decide) 0x10001000 ⟨⟨rfl, ?_⟩, ⟨rfl, ?_⟩⟩
  all_goals
    unfold InRange
    decide

end Hal9000.Vm
