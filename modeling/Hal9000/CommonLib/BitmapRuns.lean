import Hal9000.CommonLib.Bitmap
import Hal9000.Lib.Transition
import Mathlib.Data.List.Pairwise
import Mathlib.Order.Bounds.Basic

set_option autoImplicit false

namespace Hal9000

namespace Bitmap

structure Admitted (bitmap : Bitmap) (index firstInvalidBitIndex consecutiveBits : Nat) : Prop where
  positive : consecutiveBits ≠ 0
  ordered : index ≤ firstInvalidBitIndex
  inside : firstInvalidBitIndex ≤ bitmap.bitCount

def places (memory : Memory) (bitmap : Bitmap) (index firstInvalidBitIndex consecutiveBits : Nat) (set : Bool) : Set Nat :=
  { i | index ≤ i ∧ i + consecutiveBits ≤ firstInvalidBitIndex ∧
    forall j, i ≤ j -> j < i + consecutiveBits -> getBit memory bitmap.bitmapBuffer j = set }

-- The first of the places, or MAX_DWORD if there is none.
structure Finds (places : Set Nat) (result : Nat) : Prop where
  none_ : result = maxDword ↔ ¬ ∃ i, i ∈ places
  least : result ≠ maxDword -> IsLeast places result

structure Flipped (memory after : Memory) (bitmapBuffer start count : Nat) : Prop where
  inside : forall j, start ≤ j -> j < start + count -> getBit after bitmapBuffer j = !getBit memory bitmapBuffer j
  outside : forall j, ¬ (start ≤ j ∧ j < start + count) -> getBit after bitmapBuffer j = getBit memory bitmapBuffer j
  bytes : forall address, (forall j, start ≤ j -> j < start + count -> address ≠ bitmapBuffer + j / entryBits) ->
    after address = memory address

section Scan

variable {memory : Memory} {bitmap : Bitmap} {index firstInvalidBitIndex consecutiveBits : Nat} {set : Bool}

theorem scanLoop_finds {i tries : Nat} (positive : 0 < consecutiveBits) (bound : firstInvalidBitIndex < maxDword)
    (range : i + tries + consecutiveBits = firstInvalidBitIndex + 1) (low : index ≤ i)
    (before : forall k, k ∈ places memory bitmap index firstInvalidBitIndex consecutiveBits set -> i ≤ k) :
    Finds (places memory bitmap index firstInvalidBitIndex consecutiveBits set)
      (scanLoop memory bitmap.bitmapBuffer consecutiveBits set i tries) := by
  have top : maxDword = 2 ^ 32 - 1 := rfl
  induction tries generalizing i with
  | zero =>
    have none_ : ¬ ∃ k, k ∈ places memory bitmap index firstInvalidBitIndex consecutiveBits set := by
      rintro ⟨k, here⟩
      have late := before k here
      have early := here.2.1
      omega
    exact ⟨iff_of_true rfl none_, fun other => absurd rfl other⟩
  | succ tries ih =>
    rw [scanLoop]
    split
    next bits =>
      rw [bitsAre_iff _ _ _ _ _ (by omega)] at bits
      have here : i ∈ places memory bitmap index firstInvalidBitIndex consecutiveBits set := ⟨low, by omega, bits⟩
      exact ⟨iff_of_false (by omega) (not_not_intro ⟨i, here⟩), fun _ => ⟨here, before⟩⟩
    next bits =>
      rw [bitsAre_iff _ _ _ _ _ (by omega)] at bits
      refine ih (by omega) (by omega) (fun k here => ?_)
      rcases Nat.eq_or_lt_of_le (before k here) with rfl | later
      · exact absurd here.2.2 bits
      · exact later

theorem scanInternal_finds (bound : bitmap.bitCount < maxDword)
    (admitted : Admitted bitmap index firstInvalidBitIndex consecutiveBits) :
    ∃ result, scanInternal memory bitmap index firstInvalidBitIndex consecutiveBits set = .ok result ∧
      Finds (places memory bitmap index firstInvalidBitIndex consecutiveBits set) result := by
  have inside := admitted.inside
  have ordered := admitted.ordered
  have positive := Nat.pos_of_ne_zero admitted.positive
  rw [scanInternal, bne_iff_ne.mpr (Ne.symm admitted.positive), assert_true, Kernel.ok_bind, decide_eq_true ordered,
    assert_true, Kernel.ok_bind, decide_eq_true inside, assert_true, Kernel.ok_bind]
  split
  next short =>
    refine ⟨maxDword, rfl, iff_of_true rfl ?_, fun other => absurd rfl other⟩
    rintro ⟨k, low, high, _⟩
    omega
  next room =>
    exact ⟨_, rfl, scanLoop_finds positive (by omega) (by omega) (Nat.le_refl _) (fun k here => here.1)⟩

theorem changeBits_bytes (memory : Memory) (bitmapBuffer start count : Nat) (set : Bool) (bound : start + count ≤ 2 ^ 32)
    {address : Nat} (elsewhere : forall j, start ≤ j -> j < start + count -> address ≠ bitmapBuffer + j / entryBits) :
    changeBits memory bitmapBuffer start set count address = memory address := by
  induction count with
  | zero => rfl
  | succ count ih =>
    rw [changeBits, changeBit, dword_of_lt (by omega),
      Function.update_of_ne (elsewhere (start + count) (by omega) (by omega)),
      ih (by omega) (fun j low high => elsewhere j low (by omega))]

theorem changeBits_flipped {start count : Nat} (bound : start + count ≤ 2 ^ 32)
    (all : forall j, start ≤ j -> j < start + count -> getBit memory bitmap.bitmapBuffer j = set) :
    Flipped memory (changeBits memory bitmap.bitmapBuffer start (!set) count) bitmap.bitmapBuffer start count := by
  refine ⟨fun j low high => ?_, fun j outside => ?_, fun address elsewhere => changeBits_bytes _ _ _ _ _ bound elsewhere⟩
  · rw [getBit_changeBits _ _ _ _ _ _ bound, if_pos ⟨low, high⟩, all j low high]
  · rw [getBit_changeBits _ _ _ _ _ _ bound, if_neg outside]

theorem scans_eq (bound : bitmap.bitCount < maxDword)
    (admitted : Admitted bitmap index firstInvalidBitIndex consecutiveBits) :
    ∃ result after, scanFromTo memory bitmap index firstInvalidBitIndex consecutiveBits set = .ok result ∧
      scanFromToAndFlip memory bitmap index firstInvalidBitIndex consecutiveBits set = .ok (result, after) ∧
      Finds (places memory bitmap index firstInvalidBitIndex consecutiveBits set) result ∧
      (result = maxDword -> after = memory) ∧
      (result ≠ maxDword -> Flipped memory after bitmap.bitmapBuffer result consecutiveBits) := by
  have inside := admitted.inside
  have ordered := admitted.ordered
  have top : maxDword = 2 ^ 32 - 1 := rfl
  obtain ⟨result, scanned, finds⟩ := @scanInternal_finds memory bitmap index firstInvalidBitIndex consecutiveBits set bound admitted
  rw [scanFromTo, scanFromToAndFlip, if_neg admitted.positive, if_neg admitted.positive, if_neg (by omega),
    if_neg (by omega), scanned, Kernel.ok_bind]
  by_cases missing : result = maxDword
  · rw [if_pos missing]
    exact ⟨result, memory, rfl, by rw [missing]; rfl, finds, fun _ => rfl, fun other => absurd missing other⟩
  · obtain ⟨⟨_, high, all⟩, _⟩ := finds.least missing
    rw [if_neg missing]
    exact ⟨result, _, rfl, rfl, finds, fun none_ => absurd none_ missing, fun _ => changeBits_flipped (by omega) all⟩

end Scan

structure Run where
  start : Nat
  count : Nat
  deriving DecidableEq

def Run.Covers (run : Run) (j : Nat) : Prop := run.start ≤ j ∧ j < run.start + run.count

def Run.Disjoint (one other : Run) : Prop := forall j, ¬ (one.Covers j ∧ other.Covers j)

structure Allocations where
  memory : Memory
  runs : List Run

inductive Request where
  | allocate (index firstInvalidBitIndex consecutiveBits : Nat)
  | release (run : Run)

def serve (bitmap : Bitmap) (free : Bool) (state : Allocations) : Request -> Kernel Allocations
  | .allocate index firstInvalidBitIndex consecutiveBits => do
    let (start, memory) <- scanFromToAndFlip state.memory bitmap index firstInvalidBitIndex consecutiveBits free
    pure ⟨memory, if start = maxDword then state.runs else ⟨start, consecutiveBits⟩ :: state.runs⟩
  | .release run => do
    let memory <- setBitsValue state.memory bitmap run.start run.count free
    pure ⟨memory, state.runs.erase run⟩

def Legal (state : Allocations) : Request -> Prop
  | .allocate .. => True
  | .release run => run ∈ state.runs

def Initialised (bitmap : Bitmap) (free : Bool) (memory : Memory) : Prop :=
  ∃ before fresh bitmapBuffer, preinit bitmap.bitCount = .ok fresh ∧
    initEx before fresh bitmapBuffer free = .ok (memory, bitmap)

def allocationSystem (bitmap : Bitmap) (free : Bool) : Lib.TransitionSystem Allocations Request where
  initial state := Initialised bitmap free state.memory ∧ state.runs = []
  step state request after := Legal state request ∧ serve bitmap free state request = .ok after

structure Consistent (bitmap : Bitmap) (free : Bool) (state : Allocations) : Prop where
  disjoint : state.runs.Pairwise Run.Disjoint
  inside : forall run, run ∈ state.runs -> 0 < run.count ∧ run.start + run.count ≤ bitmap.bitCount
  bits : forall j, j < bitmap.bitCount ->
    (getBit state.memory bitmap.bitmapBuffer j = !free ↔ ∃ run, run ∈ state.runs ∧ run.Covers j)

section Histories

variable {bitmap : Bitmap} {free : Bool} {state after : Allocations}

theorem initialised_bits {memory : Memory} (bound : bitmap.bitCount < maxDword) (fresh : Initialised bitmap free memory)
    {j : Nat} (inside : j < bitmap.bitCount) : getBit memory bitmap.bitmapBuffer j = free := by
  have top : maxDword = 2 ^ 32 - 1 := rfl
  obtain ⟨before, fresh, bitmapBuffer, counted, filled⟩ := fresh
  obtain ⟨_, counted⟩ := Kernel.assert_bind_eq_ok.mp counted
  obtain ⟨_, filled⟩ := Kernel.assert_bind_eq_ok.mp filled
  obtain ⟨rfl, same⟩ := Prod.mk.inj (Except.ok.inj filled)
  have size : fresh.bufferSize = dword (alignAddressUpper bitmap.bitCount entryBits / entryBits) :=
    (congrArg Bitmap.bufferSize (Except.ok.inj counted)).symm
  have enough := ((alignAddressUpper_bounds bitmap.bitCount entryBits (by omega) (by decide) (by decide)).1
    (by simp only [entryBits]; omega))
  obtain ⟨bytes, whole⟩ : entryBits ∣ alignAddressUpper bitmap.bitCount entryBits :=
    Nat.dvd_of_mod_eq_zero (alignAddressUpper_aligned bitmap.bitCount 3 (by decide))
  have start : bitmap.bitmapBuffer = bitmapBuffer := (congrArg Bitmap.bitmapBuffer same).symm
  rw [whole] at enough size
  have eight : entryBits = 8 := rfl
  rw [eight] at enough size
  rw [Nat.mul_div_cancel_left _ (by decide), dword_of_lt (by omega)] at size
  have low : j % entryBits < 8 := Nat.mod_lt _ (by decide)
  rw [getBit, start, if_pos ⟨Nat.le_add_right _ _, by rw [size, eight]; omega⟩]
  generalize j % entryBits = bit at low
  cases free with
  | true => interval_cases bit <;> rfl
  | false => interval_cases bit <;> rfl

instance : Std.Symm Run.Disjoint := ⟨fun _ _ disjoint j both => disjoint j both.symm⟩

theorem scanFromToAndFlip_eq (bound : bitmap.bitCount < maxDword) (memory : Memory)
    (index firstInvalidBitIndex consecutiveBits : Nat) :
    ∃ start after, scanFromToAndFlip memory bitmap index firstInvalidBitIndex consecutiveBits free = .ok (start, after) ∧
      (start = maxDword -> after = memory) ∧
      (start ≠ maxDword -> 0 < consecutiveBits ∧ start + consecutiveBits ≤ bitmap.bitCount ∧
        (forall j, start ≤ j -> j < start + consecutiveBits -> getBit memory bitmap.bitmapBuffer j = free) ∧
        Flipped memory after bitmap.bitmapBuffer start consecutiveBits) := by
  by_cases admitted : Admitted bitmap index firstInvalidBitIndex consecutiveBits
  · obtain ⟨start, after, _, flip, finds, missing, found⟩ := @scans_eq memory bitmap index firstInvalidBitIndex consecutiveBits free bound admitted
    refine ⟨start, after, flip, missing, fun hit => ?_⟩
    obtain ⟨⟨_, high, all⟩, _⟩ := finds.least hit
    exact ⟨Nat.pos_of_ne_zero admitted.positive, high.trans admitted.inside, all, found hit⟩
  · refine ⟨maxDword, memory, ?_, fun _ => rfl, fun other => absurd rfl other⟩
    rw [scanFromToAndFlip]
    split
    next => rfl
    next positive =>
      split
      next => rfl
      next range => exact absurd ⟨positive, by omega, by omega⟩ admitted

theorem Consistent.allocate (bound : bitmap.bitCount < maxDword) (consistent : Consistent bitmap free state)
    (index firstInvalidBitIndex consecutiveBits : Nat) :
    ∃ after, serve bitmap free state (.allocate index firstInvalidBitIndex consecutiveBits) = .ok after ∧
      Consistent bitmap free after := by
  obtain ⟨start, memory, flip, missing, found⟩ :=
    @scanFromToAndFlip_eq bitmap free bound state.memory index firstInvalidBitIndex consecutiveBits
  refine ⟨_, by rw [serve, flip]; rfl, ?_⟩
  by_cases hit : start = maxDword
  · rw [if_pos hit, missing hit]
    exact consistent
  · obtain ⟨positive, high, all, flipped⟩ := found hit
    rw [if_neg hit]
    have clear : forall run, run ∈ state.runs -> Run.Disjoint ⟨start, consecutiveBits⟩ run := by
      rintro run member j ⟨⟨low, below⟩, covered⟩
      change start ≤ j at low
      change j < start + consecutiveBits at below
      have used := (consistent.bits j (by omega)).mpr ⟨run, member, covered⟩
      rw [all j low below] at used
      exact absurd used.symm (Bool.not_ne_self free)
    refine ⟨List.pairwise_cons.mpr ⟨clear, consistent.disjoint⟩, List.forall_mem_cons.mpr ⟨⟨positive, high⟩, consistent.inside⟩,
      fun j inside => ?_⟩
    simp only [List.mem_cons, exists_eq_or_imp]
    by_cases covered : start ≤ j ∧ j < start + consecutiveBits
    · rw [flipped.inside j covered.1 covered.2, all j covered.1 covered.2]
      exact iff_of_true rfl (.inl covered)
    · rw [flipped.outside j covered, consistent.bits j inside]
      exact (or_iff_right covered).symm

theorem Consistent.nodup (consistent : Consistent bitmap free state) : state.runs.Nodup := by
  refine consistent.disjoint.imp_of_mem (fun {one other} member _ disjoint same => ?_)
  have positive := (consistent.inside one member).1
  rw [← same] at disjoint
  exact disjoint one.start ⟨⟨Nat.le_refl _, by omega⟩, Nat.le_refl _, by omega⟩

theorem Consistent.release (bound : bitmap.bitCount < maxDword) (consistent : Consistent bitmap free state) {run : Run}
    (allocated : run ∈ state.runs) :
    ∃ after, serve bitmap free state (.release run) = .ok after ∧ Consistent bitmap free after := by
  have top : maxDword = 2 ^ 32 - 1 := rfl
  obtain ⟨positive, high⟩ := consistent.inside run allocated
  have room : bitmap.bitCount + 2 ^ 32 - run.count = bitmap.bitCount - run.count + 2 ^ 32 := by omega
  have accepted : setBitsValue state.memory bitmap run.start run.count free =
      .ok (changeBits state.memory bitmap.bitmapBuffer run.start free run.count) := by
    rw [setBitsValue, decide_eq_true (by omega), assert_true, Kernel.ok_bind, room, dword, Nat.add_mod_right,
      Nat.mod_eq_of_lt (by omega), decide_eq_true (by omega), assert_true]
    rfl
  refine ⟨_, by rw [serve, accepted]; rfl, consistent.disjoint.sublist List.erase_sublist,
    fun other member => consistent.inside other (List.mem_of_mem_erase member), fun j inside => ?_⟩
  have apart : forall other, other ∈ state.runs -> other ≠ run -> other.Disjoint run := fun other member different =>
    consistent.disjoint.forall member allocated different
  rw [getBit_changeBits _ _ _ _ _ _ (by omega)]
  split
  next covered =>
    refine iff_of_false (fun same => absurd same.symm (Bool.not_ne_self free)) ?_
    rintro ⟨other, member, covers⟩
    obtain ⟨different, member⟩ := consistent.nodup.mem_erase_iff.mp member
    exact apart other member different j ⟨covers, covered⟩
  next covered =>
    rw [consistent.bits j inside]
    constructor
    · rintro ⟨other, member, covers⟩
      have different : other ≠ run := by
        rintro rfl
        exact covered covers
      exact ⟨other, consistent.nodup.mem_erase_iff.mpr ⟨different, member⟩, covers⟩
    · rintro ⟨other, member, covers⟩
      exact ⟨other, List.mem_of_mem_erase member, covers⟩

theorem Consistent.served (bound : bitmap.bitCount < maxDword) (consistent : Consistent bitmap free state) {request : Request}
    (legal : Legal state request) :
    ∃ after, serve bitmap free state request = .ok after ∧ Consistent bitmap free after := by
  cases request with
  | allocate index firstInvalidBitIndex consecutiveBits =>
    exact consistent.allocate bound index firstInvalidBitIndex consecutiveBits
  | release run => exact consistent.release bound legal

theorem reachable_consistent (bound : bitmap.bitCount < maxDword) (reached : (allocationSystem bitmap free).Reachable state) :
    Consistent bitmap free state := by
  refine reached.invariant ?_ ?_
  · rintro ⟨memory, runs⟩ ⟨fresh, rfl⟩
    refine ⟨.nil, fun run member => absurd member List.not_mem_nil, fun j inside => ?_⟩
    rw [initialised_bits bound fresh inside]
    exact iff_of_false (fun same => absurd same.symm (Bool.not_ne_self free)) (fun ⟨run, member, _⟩ => nomatch member)
  · rintro state request after consistent ⟨legal, served⟩
    obtain ⟨next, same, kept⟩ := consistent.served bound legal
    rw [Except.ok.inj (same.symm.trans served)] at kept
    exact kept

end Histories

theorem allocations_exact {bitmap : Bitmap} (bound : bitmap.bitCount < maxDword) :
    (forall memory index firstInvalidBitIndex consecutiveBits set,
      Admitted bitmap index firstInvalidBitIndex consecutiveBits ->
        ∃ result after, scanFromTo memory bitmap index firstInvalidBitIndex consecutiveBits set = .ok result ∧
          scanFromToAndFlip memory bitmap index firstInvalidBitIndex consecutiveBits set = .ok (result, after) ∧
          Finds (places memory bitmap index firstInvalidBitIndex consecutiveBits set) result ∧
          (result = maxDword -> after = memory) ∧
          (result ≠ maxDword -> Flipped memory after bitmap.bitmapBuffer result consecutiveBits)) ∧
    (forall free state, (allocationSystem bitmap free).Reachable state ->
      Consistent bitmap free state ∧
        forall request, Legal state request -> ∃ after, serve bitmap free state request = .ok after) := by
  refine ⟨fun memory index firstInvalidBitIndex consecutiveBits set => scans_eq bound, fun free state reached => ?_⟩
  have consistent := reachable_consistent bound reached
  refine ⟨consistent, fun request legal => ?_⟩
  obtain ⟨after, served, _⟩ := consistent.served bound legal
  exact ⟨after, served⟩

theorem allocations_exact_sample :
    ∃ after, scanFromToAndFlip (fun _ => 0x05) ⟨0x1000, 1, 8⟩ 0 8 2 false = .ok (3, after) ∧
      Flipped (fun _ => 0x05) after 0x1000 3 2 := by
  obtain ⟨result, after, scan, flip, _, _, found⟩ := (@allocations_exact ⟨0x1000, 1, 8⟩ (by decide)).1 (fun _ => 0x05)
    0 8 2 false ⟨by decide, by decide, by decide⟩
  have three : scanFromTo (fun _ => 0x05) ⟨0x1000, 1, 8⟩ 0 8 2 false = .ok 3 := by rfl
  obtain rfl : 3 = result := Except.ok.inj (three.symm.trans scan)
  exact ⟨after, flip, found (by decide)⟩

end Bitmap

end Hal9000
