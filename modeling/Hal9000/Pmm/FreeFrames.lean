import Hal9000.Pmm.MemoryMap

set_option autoImplicit false

namespace Hal9000.Pmm

open Bitmap (getBit changeBits)

-- The frames that freeEntry releases: the base is rounded up, the length down, each on its own.
def firstFrame (entry : MemoryMapEntry) : Nat := (entry.baseAddress + (pageSize - 1)) / pageSize

def wholeFrames (entry : MemoryMapEntry) : Nat := entry.length / pageSize

def Encloses (entry : MemoryMapEntry) (frame : Nat) : Prop :=
  entry.baseAddress ≤ frame * pageSize ∧ (frame + 1) * pageSize ≤ entry.baseAddress + entry.length

instance (entry : MemoryMapEntry) (frame : Nat) : Decidable (Encloses entry frame) := by
  unfold Encloses
  infer_instance

def isFree (memory : Memory) (data : PmmData) (frame : Nat) : Bool :=
  decide (frame < data.allocationBitmap.bitCount) && !getBit memory data.allocationBitmap.bitmapBuffer frame

def Respected (memory : Memory) (baseAddress sizeReserved : Nat) (entries : List MemoryMapEntry) : Prop :=
  ∃ after data size,
    pmmInitSystem memory pmmPreinitSystem baseAddress (some entries) sizeReserved =
      .ok (.success, after, data, size) ∧
    forall frame, isFree after data frame = true ↔ ∃ entry ∈ entries, isUsable entry = true ∧ Encloses entry frame

structure Admissible (entries : List MemoryMapEntry) : Prop where
  nonempty : entries ≠ []
  bounded : forall entry, entry ∈ entries -> entry.baseAddress + entry.length < 2 ^ 44
  frame : ∃ entry ∈ entries, pageSize ≤ entry.baseAddress + entry.length

structure WellPlaced (entries : List MemoryMapEntry) : Prop where
  known : forall entry, entry ∈ entries -> isValid entry = true -> entry.type < memoryMapTypeMax
  -- A usable entry shorter than a page has a page above its rounded base.
  short : forall entry, entry ∈ entries -> isUsable entry = true -> entry.length < pageSize ->
    ∃ other ∈ entries, (firstFrame entry + 1) * pageSize ≤ other.baseAddress + other.length
  -- Where rounding the base up moves the last frame past the entry's end, that frame is usable all the same.
  straddling : forall entry, entry ∈ entries -> isUsable entry = true -> pageSize ≤ entry.length ->
    entry.baseAddress + entry.length < (firstFrame entry + wholeFrames entry) * pageSize ->
    ∃ other ∈ entries, isUsable other = true ∧ Encloses other (firstFrame entry + wholeFrames entry - 1)

section Limits

variable {limits after : Limits} {entry : MemoryMapEntry}

theorem countEntry_eq_ok {regions counted : List MemoryRegion} {memoryType : Nat}
    (result : countEntry regions memoryType = .ok counted) :
    memoryType < regions.length ∧ counted.length = regions.length := by
  unfold countEntry at result
  split at result
  next inside =>
    obtain rfl := Except.ok.inj result
    exact ⟨inside, List.length_modify _ _ _⟩
  next => exact absurd result nofun

theorem raise_present (last : Nat) :
    (if last > limits.highestMemoryAddressPresent
      then { limits with highestMemoryAddressPresent := last } else limits) =
      { limits with highestMemoryAddressPresent := max limits.highestMemoryAddressPresent last } := by
  split
  next above => rw [max_eq_right (le_of_lt above)]
  next below => rw [max_eq_left (not_lt.mp below)]

theorem limitsOfEntry_ok (result : limitsOfEntry limits entry = .ok after) :
    (isValid entry = true -> entry.type < limits.memoryRegions.length) ∧
      after.memoryRegions.length = limits.memoryRegions.length ∧
      after.highestMemoryAddressPresent =
        max limits.highestMemoryAddressPresent (qword (entry.baseAddress + entry.length)) := by
  unfold limitsOfEntry at result
  simp only [raise_present] at result
  cases valid : isValid entry with
  | false =>
    rw [valid] at result
    obtain rfl := Except.ok.inj result
    exact ⟨nofun, rfl, rfl⟩
  | true =>
    rw [valid] at result
    obtain ⟨regions, counted, rest⟩ := Kernel.bind_eq_ok.mp result
    obtain ⟨inside, length⟩ := countEntry_eq_ok counted
    refine ⟨fun _ => inside, ?_⟩
    split at rest
    next =>
      obtain rfl := Except.ok.inj rest
      exact ⟨length, rfl⟩
    next =>
      obtain rfl := Except.ok.inj rest
      split
      next => exact ⟨length, rfl⟩
      next => exact ⟨length, rfl⟩

theorem limitsOfEntry_total (known : isValid entry = true -> entry.type < limits.memoryRegions.length) :
    ∃ after, limitsOfEntry limits entry = .ok after := by
  unfold limitsOfEntry
  simp only [raise_present]
  cases valid : isValid entry with
  | false => exact ⟨_, rfl⟩
  | true =>
    have counted : ∃ regions, countEntry limits.memoryRegions entry.type = .ok regions := by
      rw [countEntry, if_pos (known valid)]
      exact ⟨_, rfl⟩
    obtain ⟨regions, counted⟩ := counted
    rw [counted]
    simp only [Bool.not_true, Bool.false_eq_true, if_false, Kernel.ok_bind]
    split
    next => exact ⟨_, rfl⟩
    next => exact ⟨_, rfl⟩

theorem limits_run {entries : List MemoryMapEntry} (result : entries.foldlM limitsOfEntry limits = .ok after) :
    (forall entry, entry ∈ entries -> isValid entry = true -> entry.type < limits.memoryRegions.length) ∧
      forall bound, bound ≤ after.highestMemoryAddressPresent ↔
        bound ≤ limits.highestMemoryAddressPresent ∨
          ∃ entry ∈ entries, bound ≤ qword (entry.baseAddress + entry.length) := by
  induction entries generalizing limits with
  | nil =>
    obtain rfl := Except.ok.inj result
    simp
  | cons entry rest ih =>
    rw [List.foldlM_cons] at result
    obtain ⟨middle, first, others⟩ := Kernel.bind_eq_ok.mp result
    obtain ⟨inside, length, highest⟩ := limitsOfEntry_ok first
    obtain ⟨known, bounds⟩ := ih others
    rw [length] at known
    constructor
    · intro other member
      rcases List.mem_cons.mp member with rfl | later
      · exact inside
      · exact known other later
    · intro bound
      rw [bounds, highest, le_max_iff, or_assoc]
      simp only [List.mem_cons, exists_eq_or_imp]

theorem limits_total {entries : List MemoryMapEntry}
    (known : forall entry, entry ∈ entries -> isValid entry = true -> entry.type < limits.memoryRegions.length) :
    ∃ after, entries.foldlM limitsOfEntry limits = .ok after := by
  induction entries generalizing limits with
  | nil => exact ⟨_, rfl⟩
  | cons entry rest ih =>
    obtain ⟨middle, first⟩ := limitsOfEntry_total (known entry List.mem_cons_self)
    obtain ⟨_, length, _⟩ := limitsOfEntry_ok first
    rw [List.foldlM_cons, first, Kernel.ok_bind]
    apply ih
    intro other member
    rw [length]
    exact known other (List.mem_cons_of_mem _ member)

end Limits

section Releases

variable {memory after : Memory} {data : PmmData} {entry : MemoryMapEntry}

-- BitmapSetBitsValue takes the frames of the entry.
def InRange (bitCount : Nat) (entry : MemoryMapEntry) : Prop :=
  firstFrame entry < bitCount ∧ firstFrame entry + wholeFrames entry ≤ bitCount

theorem freeEntry_skipped (unusable : isUsable entry = false) : freeEntry data memory entry = .ok memory := by
  unfold freeEntry
  unfold isUsable at unusable
  cases valid : isValid entry with
  | false => rfl
  | true =>
    simp only [valid, Bool.true_and, Bool.and_eq_false_iff, beq_eq_false_iff_ne, Bool.not_eq_false',
      decide_eq_true_eq] at unusable
    simp only [Bool.not_true, Bool.false_eq_true, if_false]
    split
    next => rfl
    next ram => rw [if_pos (unusable.resolve_left ram), Kernel.pure_eq]

theorem freeEntry_usable (usable : isUsable entry = true) (bound : entry.baseAddress + entry.length < 2 ^ 44)
    (bits : data.allocationBitmap.bitCount < 2 ^ 32) (few : wholeFrames entry ≤ data.allocationBitmap.bitCount) :
    freeEntry data memory entry = .ok after ↔ InRange data.allocationBitmap.bitCount entry ∧
      after = changeBits memory data.allocationBitmap.bitmapBuffer (firstFrame entry) false (wholeFrames entry) := by
  simp only [isUsable, Bool.and_eq_true, beq_iff_eq, Bool.not_eq_true', decide_eq_false_iff_not] at usable
  obtain ⟨⟨valid, ram⟩, high⟩ := usable
  have aligned := alignAddressUpper_page entry.baseAddress (by omega)
  have index : alignAddressUpper entry.baseAddress pageSize / pageSize = firstFrame entry := by
    rw [aligned]
    exact Nat.mul_div_cancel _ (by decide)
  have page : isAddressAligned (alignAddressUpper entry.baseAddress pageSize) pageSize = true := by
    rw [aligned]
    refine (isAddressAligned_two_pow _ 12 (by decide) ?_).trans ?_
    · simp only [pageSize]
      omega
    · exact decide_eq_true (Nat.mul_mod_left _ _)
  have frames : dword (wholeFrames entry) = wholeFrames entry := dword_of_lt (by omega)
  unfold freeEntry pmmReleaseMemory Bitmap.setBitsValue
  rw [valid, if_neg (by decide), if_neg (not_not.mpr ram), if_neg high]
  simp only [Kernel.assert_bind_eq_ok, page, index, ← wholeFrames.eq_1, frames, true_and, decide_eq_true_eq]
  simp only [Kernel.pure_eq, Except.ok.injEq, InRange, dword, maxDword, eq_comm (a := after)]
  constructor
  · rintro ⟨_, small, low, high, same⟩
    rw [Nat.mod_eq_of_lt (show firstFrame entry < 2 ^ 32 by omega)] at low high same
    exact ⟨⟨low, by omega⟩, same⟩
  · rintro ⟨⟨low, high⟩, same⟩
    rw [Nat.mod_eq_of_lt (show firstFrame entry < 2 ^ 32 by omega)]
    exact ⟨by omega, by omega, low, by omega, same⟩

def Releases (entry : MemoryMapEntry) (frame : Nat) : Prop :=
  firstFrame entry ≤ frame ∧ frame < firstFrame entry + wholeFrames entry

theorem free_run {entries : List MemoryMapEntry}
    (bounded : forall entry, entry ∈ entries -> entry.baseAddress + entry.length < 2 ^ 44)
    (bits : data.allocationBitmap.bitCount < 2 ^ 32)
    (few : forall entry, entry ∈ entries -> wholeFrames entry ≤ data.allocationBitmap.bitCount)
    (result : entries.foldlM (freeEntry data) memory = .ok after) :
    (forall entry, entry ∈ entries -> isUsable entry = true -> InRange data.allocationBitmap.bitCount entry) ∧
      forall frame, getBit after data.allocationBitmap.bitmapBuffer frame = false ↔
        getBit memory data.allocationBitmap.bitmapBuffer frame = false ∨
          ∃ entry ∈ entries, isUsable entry = true ∧ Releases entry frame := by
  induction entries generalizing memory with
  | nil =>
    obtain rfl := Except.ok.inj result
    simp
  | cons entry rest ih =>
    rw [List.foldlM_cons] at result
    obtain ⟨middle, first, others⟩ := Kernel.bind_eq_ok.mp result
    obtain ⟨ranges, freed⟩ := ih (fun other member => bounded other (List.mem_cons_of_mem _ member))
      (fun other member => few other (List.mem_cons_of_mem _ member)) others
    cases usable : isUsable entry with
    | false =>
      rw [freeEntry_skipped usable] at first
      obtain rfl := Except.ok.inj first
      constructor
      · intro other member useful
        rcases List.mem_cons.mp member with rfl | later
        · rw [usable] at useful
          exact absurd useful nofun
        · exact ranges other later useful
      · intro frame
        rw [freed]
        simp only [List.mem_cons, exists_eq_or_imp, usable, Bool.false_eq_true, false_and, false_or]
    | true =>
      obtain ⟨inside, rfl⟩ := (freeEntry_usable usable (bounded entry List.mem_cons_self) bits
        (few entry List.mem_cons_self)).mp first
      obtain ⟨low, high⟩ := id inside
      constructor
      · intro other member useful
        rcases List.mem_cons.mp member with rfl | later
        · exact inside
        · exact ranges other later useful
      · intro frame
        rw [freed, Bitmap.getBit_changeBits _ _ _ _ _ _ (by omega)]
        simp only [List.mem_cons, exists_eq_or_imp, usable, true_and, Releases]
        split
        next here => simp [here]
        next elsewhere => simp [elsewhere]

theorem free_total {entries : List MemoryMapEntry}
    (bounded : forall entry, entry ∈ entries -> entry.baseAddress + entry.length < 2 ^ 44)
    (bits : data.allocationBitmap.bitCount < 2 ^ 32)
    (few : forall entry, entry ∈ entries -> wholeFrames entry ≤ data.allocationBitmap.bitCount)
    (ranges : forall entry, entry ∈ entries -> isUsable entry = true -> InRange data.allocationBitmap.bitCount entry) :
    ∃ after, entries.foldlM (freeEntry data) memory = .ok after := by
  induction entries generalizing memory with
  | nil => exact ⟨_, rfl⟩
  | cons entry rest ih =>
    have first : ∃ middle, freeEntry data memory entry = .ok middle := by
      cases usable : isUsable entry with
      | false => exact ⟨_, freeEntry_skipped usable⟩
      | true =>
        refine ⟨_, (freeEntry_usable usable (bounded entry List.mem_cons_self) bits
          (few entry List.mem_cons_self)).mpr ⟨ranges entry List.mem_cons_self usable, rfl⟩⟩
    obtain ⟨middle, first⟩ := first
    rw [List.foldlM_cons, first, Kernel.ok_bind]
    exact ih (fun other member => bounded other (List.mem_cons_of_mem _ member))
      (fun other member => few other (List.mem_cons_of_mem _ member))
      (fun other member => ranges other (List.mem_cons_of_mem _ member))

end Releases

section Initialization

variable {memory : Memory} {data : PmmData}

theorem initEx_getBit {bitmap cleared : Bitmap} {after : Memory} {buffer frame : Nat}
    (result : bitmap.initEx memory buffer false = .ok (after, cleared))
    (inside : frame < 8 * bitmap.bufferSize) : getBit after buffer frame = false := by
  obtain ⟨_, same⟩ := Kernel.assert_bind_eq_ok.mp result
  obtain ⟨rfl, rfl⟩ := Prod.mk.inj (Except.ok.inj same)
  have byte : buffer ≤ buffer + frame / 8 ∧ buffer + frame / 8 < buffer + bitmap.bufferSize := by omega
  unfold Bitmap.getBit Bitmap.entryBits
  dsimp only
  rw [if_pos byte]
  exact Nat.zero_testBit _

theorem preinit_eq {count : Nat} (some : 0 < count) (bound : count < 2 ^ 32) :
    Bitmap.preinit count = .ok { bitmapBuffer := 0, bufferSize := (count + 7) / 8, bitCount := count } := by
  have sum : qword (count + 8 + (2 ^ 64 - 1)) = count + 7 := by
    simp only [qword]
    omega
  have size : alignAddressUpper count 8 / 8 = (count + 7) / 8 := by
    rw [alignAddressUpper, sum]
    refine (congrArg (· / 8) (alignAddressLower_two_pow _ 3 (by decide) (by omega))).trans ?_
    exact Nat.mul_div_cancel _ (by decide)
  unfold Bitmap.preinit
  rw [Bitmap.entryBits, size, dword_of_lt (by omega)]
  have positive : (0 != count) = true := by simp only [bne_iff_ne]; omega
  rw [positive]
  rfl

theorem scan_all {bitmap : Bitmap} (some : 0 < bitmap.bitCount) (bits : bitmap.bitCount < 2 ^ 32)
    (clear : forall frame, frame < bitmap.bitCount -> getBit memory bitmap.bitmapBuffer frame = false) :
    bitmap.scanFromAndFlip memory 0 bitmap.bitCount false =
      .ok (0, changeBits memory bitmap.bitmapBuffer 0 true bitmap.bitCount) := by
  have all : Bitmap.bitsAre memory bitmap.bitmapBuffer 0 false bitmap.bitCount = true :=
    (Bitmap.bitsAre_iff _ _ _ _ _ (by omega)).mpr fun j _ inside => clear j (by omega)
  have found : bitmap.scanInternal memory 0 bitmap.bitCount bitmap.bitCount false = .ok 0 := by
    unfold Bitmap.scanInternal
    simp only [Kernel.assert_bind_eq_ok, bne_iff_ne, decide_eq_true_eq]
    refine ⟨by omega, Nat.zero_le _, le_refl _, ?_⟩
    rw [if_neg (by omega), Nat.sub_self, Nat.sub_zero, Bitmap.scanLoop, if_pos all]
    rfl
  unfold Bitmap.scanFromAndFlip Bitmap.scanFromToAndFlip
  rw [if_neg (by omega), if_neg (by omega), found, Kernel.ok_bind, if_neg (by decide)]
  rfl

theorem reserve_all (some : 0 < data.allocationBitmap.bitCount) (bits : data.allocationBitmap.bitCount < 2 ^ 32)
    (clear : forall frame, frame < data.allocationBitmap.bitCount ->
      getBit memory data.allocationBitmap.bitmapBuffer frame = false) :
    ∃ idx after, pmmReserveMemoryEx memory data data.allocationBitmap.bitCount 0 = .ok (idx, after) ∧
      forall frame, frame < data.allocationBitmap.bitCount ->
        getBit after data.allocationBitmap.bitmapBuffer frame = true := by
  refine ⟨0, changeBits memory data.allocationBitmap.bitmapBuffer 0 true data.allocationBitmap.bitCount, ?_, ?_⟩
  · unfold pmmReserveMemoryEx
    rw [if_neg (by omega), if_neg (by decide), if_neg (by decide)]
    change data.allocationBitmap.scanFromAndFlip memory 0 data.allocationBitmap.bitCount false >>= _ = _
    rw [scan_all some bits clear]
    rfl
  · intro frame inside
    rw [Bitmap.getBit_changeBits _ _ _ _ _ _ (by omega), if_pos (by omega)]

theorem initialize_eq {base highest : Nat} {entries : List MemoryMapEntry} (place : base ≠ 0)
    (frame : pageSize ≤ highest) (bound : highest < 2 ^ 44) :
    ∃ full allocator,
      allocator.allocationBitmap.bitCount = highest / pageSize ∧
      (forall frame, frame < highest / pageSize ->
        getBit full allocator.allocationBitmap.bitmapBuffer frame = true) ∧
      pmmInitializeAllocationBitmap memory data base highest entries = (do
        let after ← entries.foldlM (freeEntry allocator) full
        pure (after, allocator, allocator.allocationBitmap.bufferSize)) := by
  have count : highest / pageSize < 2 ^ 32 := by
    simp only [pageSize]
    omega
  have some : 0 < highest / pageSize := Nat.div_pos frame (by decide)
  have placed : (0 != base) = true := by
    simp only [bne_iff_ne]
    omega
  have positive : (0 != highest) = true := by
    have above : 0 < highest := lt_of_lt_of_le (by decide) frame
    simp only [bne_iff_ne]
    omega
  have few : decide (highest / pageSize ≤ maxDword) = true := decide_eq_true (Nat.le_sub_one_of_lt count)
  let bitmap : Bitmap :=
    { bitmapBuffer := base, bufferSize := (highest / pageSize + 7) / 8, bitCount := highest / pageSize }
  let allocator : PmmData := { data with allocationBitmap := bitmap }
  let zeroed : Memory := fun address =>
    if base ≤ address ∧ address < base + (highest / pageSize + 7) / 8 then 0 else memory address
  have cleared : Bitmap.initEx memory
      { bitmapBuffer := 0, bufferSize := (highest / pageSize + 7) / 8, bitCount := highest / pageSize } base false =
        .ok (zeroed, bitmap) := by
    unfold Bitmap.initEx
    rw [placed]
    rfl
  have clear (frame : Nat) (inside : frame < bitmap.bitCount) : getBit zeroed bitmap.bitmapBuffer frame = false :=
    initEx_getBit cleared (show frame < 8 * ((highest / pageSize + 7) / 8) by
      have bits : frame < highest / pageSize := inside
      omega)
  obtain ⟨idx, full, reserved, set⟩ := @reserve_all zeroed allocator some count clear
  refine ⟨full, allocator, rfl, set, ?_⟩
  unfold pmmInitializeAllocationBitmap
  simp only [placed, positive, few, assert_true, Kernel.ok_bind, dword_of_lt count, preinit_eq some count, cleared]
  change pmmReserveMemoryEx zeroed allocator allocator.allocationBitmap.bitCount 0 >>= _ = _
  rw [reserved]
  rfl

end Initialization

section Frames

variable {entry : MemoryMapEntry} {frame : Nat}

theorem releases_of_encloses (inside : Encloses entry frame) : Releases entry frame := by
  obtain ⟨low, high⟩ := inside
  simp only [Releases, firstFrame, wholeFrames, pageSize] at low high ⊢
  omega

-- Only the last frame that an entry releases can reach past its end.
theorem encloses_of_releases (released : Releases entry frame)
    (fits : frame + 1 < firstFrame entry + wholeFrames entry ∨
      (firstFrame entry + wholeFrames entry) * pageSize ≤ entry.baseAddress + entry.length) :
    Encloses entry frame := by
  obtain ⟨low, high⟩ := released
  simp only [Encloses, firstFrame, wholeFrames, pageSize] at low high fits ⊢
  omega

end Frames

section Result

variable {memory : Memory} {baseAddress sizeReserved : Nat} {entries : List MemoryMapEntry}

def Present (entries : List MemoryMapEntry) (highest : Nat) : Prop :=
  forall bound, bound ≤ highest ↔ bound = 0 ∨ ∃ entry ∈ entries, bound ≤ entry.baseAddress + entry.length

-- What the initialization comes to: every usable entry is in range and the frames released are the usable ones.
structure Outcome (entries : List MemoryMapEntry) (highest : Nat) : Prop where
  ranges : forall entry, entry ∈ entries -> isUsable entry = true -> InRange (highest / pageSize) entry
  frames : forall frame,
    (frame < highest / pageSize ∧ ∃ entry ∈ entries, isUsable entry = true ∧ Releases entry frame) ↔
      ∃ entry ∈ entries, isUsable entry = true ∧ Encloses entry frame

theorem present_of_limits {limits : Limits} {regions : List MemoryRegion}
    (bounded : forall entry, entry ∈ entries -> entry.baseAddress + entry.length < 2 ^ 44)
    (ran : entries.foldlM limitsOfEntry { memoryRegions := regions } = .ok limits) :
    Present entries limits.highestMemoryAddressPresent := by
  intro bound
  rw [(limits_run ran).2]
  refine or_congr Nat.le_zero (exists_congr fun entry => and_congr_right fun member => ?_)
  have small := bounded entry member
  rw [qword_of_lt (by omega)]

theorem Present.bounded {highest : Nat} (present : Present entries highest) (admissible : Admissible entries) :
    pageSize ≤ highest ∧ highest < 2 ^ 44 := by
  constructor
  · exact (present pageSize).mpr (.inr admissible.frame)
  · rcases (present highest).mp (le_refl _) with zero | ⟨entry, member, below⟩
    · omega
    · have small := admissible.bounded entry member
      omega

theorem Present.wholeFrames_le {highest : Nat} (present : Present entries highest) (entry : MemoryMapEntry)
    (member : entry ∈ entries) : wholeFrames entry ≤ highest / pageSize := by
  have below := (present (entry.baseAddress + entry.length)).mpr (.inr ⟨entry, member, le_refl _⟩)
  exact Nat.div_le_div_right (by omega)

theorem pmmInitSystem_eq (place : baseAddress ≠ 0) (out : sizeReserved ≠ 0) (admissible : Admissible entries)
    {limits : Limits}
    (ran : entries.foldlM limitsOfEntry { memoryRegions := pmmPreinitSystem.memoryRegionList } = .ok limits) :
    ∃ full allocator,
      allocator.allocationBitmap.bitCount = limits.highestMemoryAddressPresent / pageSize ∧
      (forall frame, frame < limits.highestMemoryAddressPresent / pageSize ->
        getBit full allocator.allocationBitmap.bitmapBuffer frame = true) ∧
      pmmInitSystem memory pmmPreinitSystem baseAddress (some entries) sizeReserved = (do
        let after ← entries.foldlM (freeEntry allocator) full
        pure (.success, after, allocator,
          dword (alignAddressUpper allocator.allocationBitmap.bufferSize pageSize))) := by
  have length : entries.length ≠ 0 := fun zero => admissible.nonempty (List.length_eq_zero_iff.mp zero)
  obtain ⟨low, high⟩ := (present_of_limits admissible.bounded ran).bounded admissible
  have determined : pmmDetermineMemoryLimits entries pmmPreinitSystem.memoryRegionList = .ok limits := by
    unfold pmmDetermineMemoryLimits
    rw [show (entries.length != 0) = true from bne_iff_ne.mpr length, assert_true, Kernel.ok_bind]
    exact ran
  obtain ⟨full, allocator, count, set, initialized⟩ := @initialize_eq memory
    { pmmPreinitSystem with
      physicalMemorySize := limits.sizeOfAvailableMemory
      highestPhysicalAddressPresent := limits.highestMemoryAddressPresent
      highestPhysicalAddressAvailable := limits.highestMemoryAddressAvailable
      memoryRegionList := limits.memoryRegions } baseAddress _ entries place low high
  refine ⟨full, allocator, count, set, ?_⟩
  unfold pmmInitSystem
  rw [if_neg place]
  dsimp only
  rw [if_neg length, if_neg out, determined, Kernel.ok_bind, initialized]
  cases entries.foldlM (freeEntry allocator) full with
  | error text => rfl
  | ok after => rfl

theorem Present.unique {highest other : Nat} (present : Present entries highest) (also : Present entries other) :
    highest = other :=
  Nat.le_antisymm ((also _).mpr ((present _).mp (le_refl _))) ((present _).mpr ((also _).mp (le_refl _)))

theorem isFree_iff {full after : Memory} {allocator : PmmData}
    (set : forall frame, frame < allocator.allocationBitmap.bitCount ->
      getBit full allocator.allocationBitmap.bitmapBuffer frame = true)
    (freed : forall frame, getBit after allocator.allocationBitmap.bitmapBuffer frame = false ↔
      getBit full allocator.allocationBitmap.bitmapBuffer frame = false ∨
        ∃ entry ∈ entries, isUsable entry = true ∧ Releases entry frame) (frame : Nat) :
    isFree after allocator frame = true ↔ frame < allocator.allocationBitmap.bitCount ∧
      ∃ entry ∈ entries, isUsable entry = true ∧ Releases entry frame := by
  unfold isFree
  rw [Bool.and_eq_true, decide_eq_true_eq, Bool.not_eq_true', freed]
  refine and_congr_right fun inside => ?_
  rw [set frame inside]
  exact or_iff_right nofun

theorem limits_of_success (place : baseAddress ≠ 0) (out : sizeReserved ≠ 0) (nonempty : entries ≠ [])
    {result : Status × Memory × PmmData × Nat}
    (success : pmmInitSystem memory pmmPreinitSystem baseAddress (some entries) sizeReserved = .ok result) :
    ∃ limits, entries.foldlM limitsOfEntry { memoryRegions := pmmPreinitSystem.memoryRegionList } = .ok limits := by
  have length : entries.length ≠ 0 := fun zero => nonempty (List.length_eq_zero_iff.mp zero)
  unfold pmmInitSystem at success
  rw [if_neg place] at success
  dsimp only at success
  rw [if_neg length, if_neg out] at success
  obtain ⟨limits, determined, _⟩ := Kernel.bind_eq_ok.mp success
  exact ⟨limits, (Kernel.assert_bind_eq_ok.mp determined).2⟩

theorem respected_outcome (place : baseAddress ≠ 0) (out : sizeReserved ≠ 0) (admissible : Admissible entries) :
    Respected memory baseAddress sizeReserved entries ↔
      (forall entry, entry ∈ entries -> isValid entry = true -> entry.type < memoryMapTypeMax) ∧
        ∃ highest, Present entries highest ∧ Outcome entries highest := by
  have regions : pmmPreinitSystem.memoryRegionList.length = memoryMapTypeMax := by
    simp only [pmmPreinitSystem, List.length_map, List.length_range]
  constructor
  · rintro ⟨after, data, size, result, free⟩
    obtain ⟨limits, ran⟩ := limits_of_success place out admissible.nonempty result
    have known := (limits_run ran).1
    have present := present_of_limits admissible.bounded ran
    have small := (present.bounded admissible).2
    obtain ⟨full, allocator, count, set, initialized⟩ := @pmmInitSystem_eq memory _ _ _ place out admissible _ ran
    rw [initialized] at result
    obtain ⟨freed, released, last⟩ := Kernel.bind_eq_ok.mp result
    obtain ⟨_, rfl, rfl, _⟩ := last
    have bits : data.allocationBitmap.bitCount < 2 ^ 32 := by
      simp only [count, pageSize]
      omega
    rw [← count] at set
    obtain ⟨ranges, frames⟩ := free_run admissible.bounded bits
      (by rw [count]; exact present.wholeFrames_le) released
    rw [regions] at known
    refine ⟨known, limits.highestMemoryAddressPresent, present, ?_, ?_⟩
    · rw [← count]
      exact ranges
    · intro frame
      rw [← free, isFree_iff set frames, count]
  · rintro ⟨known, highest, present, outcome⟩
    rw [← regions] at known
    obtain ⟨limits, ran⟩ := @limits_total { memoryRegions := pmmPreinitSystem.memoryRegionList } entries known
    obtain rfl := present.unique (present_of_limits admissible.bounded ran)
    have small := (present.bounded admissible).2
    obtain ⟨full, allocator, count, set, initialized⟩ := @pmmInitSystem_eq memory _ _ _ place out admissible _ ran
    have bits : allocator.allocationBitmap.bitCount < 2 ^ 32 := by
      simp only [count, pageSize]
      omega
    rw [← count] at set
    have few : forall entry, entry ∈ entries -> wholeFrames entry ≤ allocator.allocationBitmap.bitCount := by
      rw [count]
      exact present.wholeFrames_le
    have total : ∃ after, entries.foldlM (freeEntry allocator) full = .ok after :=
      free_total admissible.bounded bits few (by rw [count]; exact outcome.ranges)
    obtain ⟨after, released⟩ := total
    obtain ⟨_, frames⟩ := free_run admissible.bounded bits few released
    refine ⟨after, allocator, _, by rw [initialized, released]; rfl, ?_⟩
    intro frame
    rw [isFree_iff set frames, count]
    exact outcome.frames frame

end Result

section Condition

variable {entries : List MemoryMapEntry} {highest : Nat}

theorem Outcome.wellPlaced (outcome : Outcome entries highest) (present : Present entries highest)
    (known : forall entry, entry ∈ entries -> isValid entry = true -> entry.type < memoryMapTypeMax) :
    WellPlaced entries := by
  refine ⟨known, ?_, ?_⟩
  · intro entry member usable short
    obtain ⟨low, _⟩ := outcome.ranges entry member usable
    have below : (firstFrame entry + 1) * pageSize ≤ highest := by
      simp only [pageSize] at low ⊢
      omega
    rcases (present _).mp below with zero | above
    · simp only [pageSize] at zero
      omega
    · exact above
  · intro entry member usable long _
    obtain ⟨_, high⟩ := outcome.ranges entry member usable
    have some : 0 < wholeFrames entry := Nat.div_pos long (by decide)
    refine (outcome.frames _).mp ⟨by omega, entry, member, usable, ?_⟩
    constructor <;> omega

theorem WellPlaced.outcome (placed : WellPlaced entries) (present : Present entries highest) :
    Outcome entries highest := by
  have enclosed (entry : MemoryMapEntry) (member : entry ∈ entries) (frame : Nat) (inside : Encloses entry frame) :
      frame < highest / pageSize := by
    have below := (present ((frame + 1) * pageSize)).mpr (.inr ⟨entry, member, inside.2⟩)
    simp only [pageSize] at below ⊢
    omega
  constructor
  · intro entry member usable
    by_cases short : entry.length < pageSize
    · have none : wholeFrames entry = 0 := Nat.div_eq_of_lt short
      have below := (present _).mpr (.inr (placed.short entry member usable short))
      simp only [InRange, pageSize] at below ⊢
      omega
    · have some : 0 < wholeFrames entry := Nat.div_pos (not_lt.mp short) (by decide)
      have last : firstFrame entry + wholeFrames entry - 1 < highest / pageSize := by
        by_cases straddles : entry.baseAddress + entry.length < (firstFrame entry + wholeFrames entry) * pageSize
        · obtain ⟨other, also, _, inside⟩ := placed.straddling entry member usable (not_lt.mp short) straddles
          exact enclosed other also _ inside
        · refine enclosed entry member _ (encloses_of_releases ?_ (.inr (not_lt.mp straddles)))
          constructor <;> omega
      constructor <;> omega
  · intro frame
    constructor
    · rintro ⟨_, entry, member, usable, released⟩
      by_cases fits : frame + 1 < firstFrame entry + wholeFrames entry ∨
          (firstFrame entry + wholeFrames entry) * pageSize ≤ entry.baseAddress + entry.length
      · exact ⟨entry, member, usable, encloses_of_releases released fits⟩
      · -- The last frame, which straddles the end of the entry.
        obtain ⟨last, straddles⟩ := not_or.mp fits
        obtain ⟨low, high⟩ := released
        have long : pageSize ≤ entry.length := by
          by_contra short
          have none : wholeFrames entry = 0 := Nat.div_eq_of_lt (not_le.mp short)
          omega
        have here : frame = firstFrame entry + wholeFrames entry - 1 := by omega
        rw [here]
        exact placed.straddling entry member usable long (not_le.mp straddles)
    · rintro ⟨entry, member, usable, inside⟩
      exact ⟨enclosed entry member frame inside, entry, member, usable, releases_of_encloses inside⟩

end Condition

theorem present_exists (entries : List MemoryMapEntry) : ∃ highest, Present entries highest := by
  induction entries with
  | nil => exact ⟨0, fun bound => by simp⟩
  | cons entry rest ih =>
    obtain ⟨highest, present⟩ := ih
    refine ⟨max highest (entry.baseAddress + entry.length), fun bound => ?_⟩
    rw [le_max_iff, present bound, or_assoc]
    simp only [List.mem_cons, exists_eq_or_imp]
    rw [or_comm (b := bound ≤ entry.baseAddress + entry.length)]

theorem respected_iff {memory : Memory} {baseAddress sizeReserved : Nat} {entries : List MemoryMapEntry}
    (place : baseAddress ≠ 0) (out : sizeReserved ≠ 0) (admissible : Admissible entries) :
    Respected memory baseAddress sizeReserved entries ↔ WellPlaced entries := by
  rw [respected_outcome place out admissible]
  constructor
  · rintro ⟨known, highest, present, outcome⟩
    exact outcome.wellPlaced present known
  · intro placed
    obtain ⟨highest, present⟩ := present_exists entries
    exact ⟨placed.known, highest, present, placed.outcome present⟩

def sampleMap : List MemoryMapEntry :=
  [{ baseAddress := 0, length := 0x9F000, type := 1, extendedAttributes := 1 },
    { baseAddress := 0x100000, length := 0x6FF800, type := 1, extendedAttributes := 1 },
    { baseAddress := 0x7FF800, length := 0x801000, type := 2, extendedAttributes := 1 }]

theorem sampleMap_admissible : Admissible sampleMap := ⟨by decide, by decide, by decide⟩

theorem respected_iff_sample : Respected (fun _ => 0) 0x10000 0x2000 sampleMap :=
  (respected_iff (by decide) (by decide) sampleMap_admissible).mpr ⟨by decide, by decide, by decide⟩

def unalignedMap : List MemoryMapEntry :=
  [{ baseAddress := 0x100800, length := 0x1000, type := 1, extendedAttributes := 1 },
    { baseAddress := 0x101800, length := 0x1000, type := 2, extendedAttributes := 1 }]

-- Frame 0x101 is free afterwards, though its upper half is reserved.
theorem reserved_frame_freed : Admissible unalignedMap ∧ ¬ Respected (fun _ => 0) 0x10000 0x2000 unalignedMap := by
  have admissible : Admissible unalignedMap := ⟨by decide, by decide, by decide⟩
  refine ⟨admissible, fun respected => ?_⟩
  obtain ⟨known, highest, present, outcome⟩ := (respected_outcome (by decide) (by decide) admissible).mp respected
  have enclosed := (outcome.wellPlaced present known).straddling
    { baseAddress := 0x100800, length := 0x1000, type := 1, extendedAttributes := 1 } (by decide) (by decide)
    (by decide) (by decide)
  revert enclosed
  decide

end Hal9000.Pmm
