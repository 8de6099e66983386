import Hal9000.Fat32.Entries

set_option autoImplicit false

namespace Hal9000.Fat32

open Lib (Program)
open Lib.Program (fail stop require attempt Returns Fails Stops)

def firstFree (fatData : FatData) (bytes : Lib.Memory) (start count : Nat) : Option Nat :=
  (List.range' start count).find? (isFree fatData bytes)

-- The cluster number at which the search ends: it looks at the sectors below `sectorsPerFat`, counted from
-- the start of the volume.
def searchEnd (fatData : FatData) : Nat :=
  (sectorsPerFat fatData - fatData.reservedSectors) * entriesPerFatSector fatData

def marked (fatData : FatData) (bytes : Lib.Memory) (markReserved : Bool) (cluster : Nat) : Lib.Memory :=
  if markReserved then setFatEntry fatData bytes cluster fat32EocMark else bytes

section FirstFree

variable {fatData : FatData} {bytes : Lib.Memory} {start count more cluster : Nat}

theorem firstFree_some :
    firstFree fatData bytes start count = some cluster ↔
      isFree fatData bytes cluster = true ∧ (start ≤ cluster ∧ cluster < start + count) ∧
        forall second, start ≤ second -> second < cluster -> isFree fatData bytes second = false := by
  rw [firstFree, List.find?_range'_eq_some, List.mem_range'_1]
  simp only [Bool.not_eq_true']

theorem firstFree_none :
    firstFree fatData bytes start count = none ↔
      forall second, start ≤ second -> second < start + count -> isFree fatData bytes second = false := by
  rw [firstFree, List.find?_eq_none]
  simp only [List.mem_range'_1, Bool.not_eq_true]
  constructor
  · intro none second lower upper
    exact none second ⟨lower, upper⟩
  · rintro none second ⟨lower, upper⟩
    exact none second lower upper

theorem firstFree_append :
    firstFree fatData bytes start (count + more) =
      (firstFree fatData bytes start count).or (firstFree fatData bytes (start + count) more) := by
  rw [firstFree, ← List.range'_append_1, List.find?_append]
  rfl

end FirstFree

theorem freeIndexInSector_eq (entries : Lib.Memory) (indexInSector count : Nat) :
    freeIndexInSector entries indexInSector count =
      (List.range' indexInSector count).find? fun index => entryAt entries index &&& fat32ClusterMask == 0 := by
  induction count generalizing indexInSector with
  | zero => rfl
  | succ count ih =>
    rw [freeIndexInSector, List.range'_succ, List.find?_cons, ih]
    by_cases free : entryAt entries indexInSector &&& fat32ClusterMask = 0
    · rw [if_pos free, beq_iff_eq.mpr free]
    · rw [if_neg free, beq_eq_false_iff_ne.mpr free]

section Search

variable {fatData : FatData} {bytes : Lib.Memory} {entries : Nat}

theorem freeIndexInSector_sector (whole : fatData.bytesPerSector = 4 * entries) {number index : Nat}
    (inside : index ≤ entries) :
    (freeIndexInSector (bytes.slice ((fatData.reservedSectors + number) * fatData.bytesPerSector)
      fatData.bytesPerSector) index (entries - index)).map (number * entries + ·) =
      firstFree fatData bytes (number * entries + index) (entries - index) := by
  have range : List.range' (number * entries + index) (entries - index) =
      (List.range' index (entries - index)).map (number * entries + ·) := by
    rw [List.map_add_range']
  rw [freeIndexInSector_eq, firstFree, range, List.find?_map]
  congr 1
  rw [← List.head?_filter, ← List.head?_filter]
  congr 1
  apply List.filter_congr
  intro i member
  obtain ⟨lower, upper⟩ := List.mem_range'_1.mp member
  have address : (fatData.reservedSectors + number) * fatData.bytesPerSector + 4 * i =
      fatData.reservedSectors * fatData.bytesPerSector + 4 * (number * entries + i) := by
    rw [whole]
    ring
  rw [Function.comp_apply, isFree, link, fatEntry, entryAddress_eq whole, ← address]
  rw [entryAt_slice (by simp only [sizeofFat32Entry]; omega)]
  rfl

def searched (fatData : FatData) (bytes : Lib.Memory) (markReserved : Bool) (found : Option Nat) : Lib.Memory :=
  found.elim bytes (marked fatData bytes markReserved)

theorem markEntry_priced (whole : fatData.bytesPerSector = 4 * entries) {number index : Nat}
    (inside : index < entries) (markReserved : Bool) :
    Priced (markEntry fatData markReserved (fatData.reservedSectors + number)
        (bytes.slice ((fatData.reservedSectors + number) * fatData.bytesPerSector) fatData.bytesPerSector) index)
      bytes (.ok ()) (marked fatData bytes markReserved (number * entries + index)) markReserved.toNat := by
  cases markReserved with
  | false => exact Priced.pure
  | true =>
    have address : (fatData.reservedSectors + number) * fatData.bytesPerSector + sizeofFat32Entry * index =
        entryAddress fatData (number * entries + index) := by
      rw [entryAddress_eq whole, whole, sizeofFat32Entry]
      ring
    have copied := @copy_setEntryAt fatData bytes (fatData.reservedSectors + number) fat32EocMark index
      (by simp only [sizeofFat32Entry]; omega)
    have written := @Priced.writeSector fatData bytes
      (setEntryAt (bytes.slice ((fatData.reservedSectors + number) * fatData.bytesPerSector)
        fatData.bytesPerSector) index fat32EocMark) (fatData.reservedSectors + number)
    rw [copied, address] at written
    exact written

def scanCost (fatData : FatData) (markReserved : Bool) (number sectors : Nat) (found : Option Nat) : Nat :=
  found.elim sectors fun cluster => cluster / entriesPerFatSector fatData - number + 1 + markReserved.toNat

theorem scanCost_succ (whole : fatData.bytesPerSector = 4 * entries) (room : 0 < entries) {number sectors : Nat}
    {found : Option Nat} (later : forall cluster, found = some cluster -> (number + 1) * entries ≤ cluster)
    (markReserved : Bool) :
    1 + scanCost fatData markReserved (number + 1) sectors found =
      scanCost fatData markReserved number (sectors + 1) found := by
  cases found with
  | none => exact Nat.add_comm 1 sectors
  | some cluster =>
    have lower := (Nat.le_div_iff_mul_le room).mpr (later cluster rfl)
    simp only [scanCost, Option.elim_some, entriesPerFatSector_eq whole]
    omega

theorem firstFreeInSectors_priced (whole : fatData.bytesPerSector = 4 * entries) (room : 0 < entries)
    (markReserved : Bool) {sectors number index : Nat} (inside : index ≤ entries)
    (start : 2 ≤ number * entries + index) (within : (number + sectors) * entries ≤ entriesPerFat fatData) :
    Priced (firstFreeInSectors fatData markReserved sectors (fatData.reservedSectors + number) index) bytes
      (.ok ((firstFree fatData bytes (number * entries + index) (sectors * entries - index)).getD 0))
      (searched fatData bytes markReserved
        (firstFree fatData bytes (number * entries + index) (sectors * entries - index)))
      (scanCost fatData markReserved number sectors
        (firstFree fatData bytes (number * entries + index) (sectors * entries - index))) := by
  induction sectors generalizing number index with
  | zero =>
    rw [Nat.zero_mul, Nat.zero_sub]
    exact Priced.pure
  | succ sectors ih =>
    have count : (sectors + 1) * entries - index = entries - index + sectors * entries := by
      rw [Nat.succ_mul]
      omega
    have following : number * entries + index + (entries - index) = (number + 1) * entries + 0 := by
      rw [Nat.succ_mul]
      omega
    have sector := @freeIndexInSector_sector fatData bytes entries whole number index inside
    rw [count, firstFree_append, ← sector, following, firstFreeInSectors, entriesPerFatSector_eq whole]
    cases found : freeIndexInSector
        (bytes.slice ((fatData.reservedSectors + number) * fatData.bytesPerSector) fatData.bytesPerSector) index
        (entries - index) with
    | none =>
      have rest := @ih (number + 1) 0 (Nat.zero_le _) (by rw [Nat.succ_mul]; omega)
        (by rw [Nat.add_assoc, Nat.add_comm 1]; exact within)
      have later (cluster : Nat) (first : firstFree fatData bytes ((number + 1) * entries + 0)
          (sectors * entries - 0) = some cluster) : (number + 1) * entries ≤ cluster :=
        (firstFree_some.mp first).2.1.1
      rw [Option.map_none, Option.none_or, ← Nat.sub_zero (sectors * entries),
        ← scanCost_succ whole room later markReserved]
      apply Priced.bind Priced.readSector
      rw [found]
      exact rest
    | some first =>
      rw [found] at sector
      obtain ⟨-, ⟨lower, upper⟩, -⟩ := firstFree_some.mp sector.symm
      change number * entries + index ≤ number * entries + first at lower
      change number * entries + first < _ at upper
      have fits : number * entries + entries ≤ entriesPerFat fatData := by
        refine le_trans ?_ within
        rw [← Nat.succ_mul]
        exact Nat.mul_le_mul_right _ (by omega)
      have bound : entriesPerFat fatData < 2 ^ 32 := dword_lt _
      have index_eq : (fatData.reservedSectors + number - fatData.reservedSectors) * entries + first =
          number * entries + first := by rw [Nat.add_sub_cancel_left]
      have valid : (decide (2 ≤ number * entries + first) &&
          decide (number * entries + first < entriesPerFat fatData)) = true := by
        rw [Bool.and_eq_true, decide_eq_true_iff, decide_eq_true_iff]
        omega
      have known : (fat32Unknown != number * entries + first) = true := by
        rw [bne_iff_ne, fat32Unknown]
        omega
      have here : (number * entries + first) / entries = number := by
        rw [Nat.mul_comm, Nat.mul_add_div room, Nat.div_eq_of_lt (by omega), Nat.add_zero]
      have cost : scanCost fatData markReserved number (sectors + 1) (some (number * entries + first)) =
          1 + markReserved.toNat := by
        simp only [scanCost, Option.elim_some, entriesPerFatSector_eq whole, here]
        omega
      rw [Option.map_some, Option.some_or, cost]
      apply Priced.bind Priced.readSector
      rw [found]
      apply Priced.finish (markEntry_priced whole (by omega) markReserved)
      intro countdown
      rw [index_eq, valid, known]
      rfl

theorem searchEnd_le (whole : fatData.bytesPerSector = 4 * entries) : searchEnd fatData ≤ entriesPerFat fatData := by
  have sectors : sectorsPerFat fatData = entriesPerFat fatData / entries := by
    rw [sectorsPerFat, whole, sizeofFat32Entry, Nat.mul_comm _ 4, Nat.mul_div_mul_left _ _ (by decide)]
  calc searchEnd fatData
      = (entriesPerFat fatData / entries - fatData.reservedSectors) * entries := by
        rw [searchEnd, sectors, entriesPerFatSector_eq whole]
    _ ≤ entriesPerFat fatData / entries * entries := Nat.mul_le_mul_right _ (Nat.sub_le _ _)
    _ ≤ entriesPerFat fatData := Nat.div_mul_le_self _ _

theorem sector_inside_iff (whole : fatData.bytesPerSector = 4 * entries) (room : 0 < entries) {cluster : Nat} :
    entrySector fatData cluster < sectorsPerFat fatData ↔ cluster < searchEnd fatData := by
  rw [entrySector_eq whole, searchEnd, entriesPerFatSector_eq whole, ← Nat.div_lt_iff_lt_mul room]
  generalize cluster / entries = number
  omega

theorem firstFreeCluster_beyond {first : Nat} (markReserved : Bool) (beyond : entriesPerFat fatData ≤ first) :
    Priced (firstFreeCluster fatData first markReserved) bytes (.ok 0) bytes 1 := by
  apply Priced.finish Priced.allocate
  intro countdown
  rw [if_pos beyond]
  rfl

theorem startsAt {first : Nat} (before : ¬ entriesPerFat fatData ≤ first) :
    (if fat32Unknown = first then 2 else first) = first := by
  have bound : entriesPerFat fatData < 2 ^ 32 := dword_lt _
  rw [fat32Unknown]
  rw [if_neg (by omega)]

theorem firstFreeCluster_unsearched (whole : fatData.bytesPerSector = 4 * entries) (room : 0 < entries)
    {first : Nat} (markReserved : Bool) (before : ¬ entriesPerFat fatData ≤ first)
    (outside : ¬ first < searchEnd fatData) :
    Priced (firstFreeCluster fatData first markReserved) bytes (.error .unsuccessful) bytes 1 := by
  have divisor : (entriesPerFatSector fatData != 0) = true := by
    rw [entriesPerFatSector_eq whole, bne_iff_ne]
    omega
  have sector := mt (sector_inside_iff whole room).mp outside
  apply Priced.finish Priced.allocate
  intro countdown
  rw [if_neg before, startsAt before, divisor, Program.require_true, Program.pure_bind, if_pos (not_lt.mp sector)]
  rfl

def searchCost (fatData : FatData) (markReserved : Bool) (first : Nat) (found : Option Nat) : Nat :=
  1 + scanCost fatData markReserved (first / entriesPerFatSector fatData)
    (sectorsPerFat fatData - entrySector fatData first) found

theorem firstFreeCluster_priced (whole : fatData.bytesPerSector = 4 * entries) (room : 0 < entries) {first : Nat}
    (markReserved : Bool) (start : 2 ≤ first) (inside : first < searchEnd fatData) :
    Priced (firstFreeCluster fatData first markReserved) bytes
      (.ok ((firstFree fatData bytes first (searchEnd fatData - first)).getD 0))
      (searched fatData bytes markReserved (firstFree fatData bytes first (searchEnd fatData - first)))
      (searchCost fatData markReserved first (firstFree fatData bytes first (searchEnd fatData - first))) := by
  have limit := searchEnd_le whole
  have before : ¬ entriesPerFat fatData ≤ first := by omega
  have divisor : (entriesPerFatSector fatData != 0) = true := by
    rw [entriesPerFatSector_eq whole, bne_iff_ne]
    omega
  have sector := (sector_inside_iff whole room).mpr inside
  have position := Nat.div_add_mod' first entries
  have sectors : (first / entries + (sectorsPerFat fatData - entrySector fatData first)) * entries =
      searchEnd fatData := by
    rw [searchEnd, entriesPerFatSector_eq whole]
    rw [entrySector_eq whole] at sector ⊢
    generalize first / entries = number at sector ⊢
    congr 1
    omega
  have count : (sectorsPerFat fatData - entrySector fatData first) * entries - first % entries =
      searchEnd fatData - first := by
    rw [← sectors, Nat.add_mul]
    omega
  have search := @firstFreeInSectors_priced fatData bytes entries whole room markReserved
    (sectorsPerFat fatData - entrySector fatData first) (first / entries) (first % entries)
    (Nat.mod_lt _ room).le (by omega) (by rw [sectors]; exact limit)
  rw [position, count, ← entrySector_eq whole] at search
  rw [searchCost, entriesPerFatSector_eq whole]
  apply Priced.bind Priced.allocate
  rw [if_neg before, startsAt before, divisor, Program.require_true, Program.pure_bind, if_neg (not_le.mpr sector),
    entryIndex_eq whole]
  exact search

end Search

-- FAT32_UNKNOWN stands for the first cluster.
def searchStart (first : Nat) : Nat := if first = fat32Unknown then 2 else first

def NoFree (fatData : FatData) (bytes : Lib.Memory) (first : Nat) : Prop :=
  forall cluster, searchStart first ≤ cluster -> cluster < fatData.countOfClusters + 2 ->
    isFree fatData bytes cluster = false

structure SmallestFree (fatData : FatData) (bytes : Lib.Memory) (first cluster : Nat) : Prop where
  start : searchStart first ≤ cluster
  within : cluster < fatData.countOfClusters + 2
  free : isFree fatData bytes cluster = true
  least : forall second, searchStart first ≤ second -> second < cluster -> isFree fatData bytes second = false

structure Marks (fatData : FatData) (before after : Lib.Memory) (cluster : Nat) : Prop where
  mark : link fatData after cluster = fat32EocMark
  reserved : fatEntry fatData after cluster / 2 ^ 28 = fatEntry fatData before cluster / 2 ^ 28
  frame : forall place, ¬ (entryAddress fatData cluster ≤ place ∧ place < entryAddress fatData cluster + 4) ->
    after place = before place

def SearchIsExact (fatData : FatData) (device : Device) (first : Nat) (markReserved : Bool) : Prop :=
  ∃ cluster device', Returns (firstFreeCluster fatData first markReserved) device cluster device' ∧
    ((SmallestFree fatData device.bytes first cluster ∧
        if markReserved then Marks fatData device.bytes device'.bytes cluster else device'.bytes = device.bytes) ∨
      (cluster = 0 ∧ NoFree fatData device.bytes first ∧ device'.bytes = device.bytes))

def SearchCovers (fatData : FatData) (bytes : Lib.Memory) (first : Nat) : Prop :=
  if entriesPerFat fatData ≤ first then NoFree fatData bytes first
  else first < searchEnd fatData ∧
    ((∃ cluster, first ≤ cluster ∧ cluster < searchEnd fatData ∧ isFree fatData bytes cluster = true) ∨
      NoFree fatData bytes first)

theorem setFatEntry_marks (fatData : FatData) (bytes : Lib.Memory) (cluster : Nat) :
    Marks fatData bytes (setFatEntry fatData bytes cluster fat32EocMark) cluster where
  mark := link_setFatEntry (by decide)
  reserved := by
    have small : fat32EocMark < 2 ^ 28 := by decide
    rw [fatEntry_setFatEntry small]
    omega
  frame := fun _ outside => setFatEntry_elsewhere outside

section Exact

variable {fatData : FatData} {device : Device} {entries first : Nat} {markReserved : Bool}

theorem searchStart_of_lt (before : ¬ entriesPerFat fatData ≤ first) : searchStart first = first := by
  have bound : entriesPerFat fatData < 2 ^ 32 := dword_lt _
  rw [searchStart, fat32Unknown, if_neg (by omega)]

theorem searchStart_pos (start : 2 ≤ first) : 2 ≤ searchStart first := by
  rw [searchStart]
  split <;> omega

theorem not_exact_of_fails {code : Status} {device' : Device}
    (fails : Fails (firstFreeCluster fatData first markReserved) device code device') :
    ¬ SearchIsExact fatData device first markReserved := by
  rintro ⟨cluster, after, returns, -⟩
  have same := fails.symm.trans returns
  cases same

theorem allocation_fails {bytes : Lib.Memory} :
    Fails (firstFreeCluster fatData first markReserved) { bytes := bytes, countdown := some 0 }
      .heapNoMoreMemory { bytes := bytes } :=
  @Fails.bind _ _ _ _ _ allocate _ _ _ _ rfl

theorem exact_zero_iff (start : 2 ≤ first) {device' : Device} (same : device'.bytes = device.bytes)
    (returns : Returns (firstFreeCluster fatData first markReserved) device 0 device') :
    SearchIsExact fatData device first markReserved ↔ NoFree fatData device.bytes first := by
  constructor
  · rintro ⟨cluster, after, other, result⟩
    have ends := returns.symm.trans other
    obtain ⟨rfl, rfl⟩ : 0 = cluster ∧ device' = after := by simpa using ends
    rcases result with ⟨smallest, -⟩ | ⟨-, none, -⟩
    · have positive := searchStart_pos start
      have lower := smallest.start
      omega
    · exact none
  · intro none
    exact ⟨0, device', returns, .inr ⟨rfl, none, same⟩⟩

theorem searched_smallest (whole : fatData.bytesPerSector = 4 * entries)
    (before : ¬ entriesPerFat fatData ≤ first) {bytes : Lib.Memory} {cluster : Nat}
    (found : firstFree fatData bytes first (searchEnd fatData - first) = some cluster) :
    SmallestFree fatData bytes first cluster := by
  obtain ⟨free, ⟨lower, upper⟩, least⟩ := firstFree_some.mp found
  have limit := searchEnd_le whole
  have count : entriesPerFat fatData ≤ fatData.countOfClusters + 2 := Nat.mod_le _ _
  exact
    { start := by rw [searchStart_of_lt before]; exact lower
      within := by omega
      free := free
      least := by rw [searchStart_of_lt before]; exact least }

end Exact

theorem search_exact_iff {fatData : FatData} (accepted : Accepted fatData) (whole : 4 ∣ fatData.bytesPerSector)
    {device : Device} (transfers : forall count, device.countdown = some count -> count = 0) {first : Nat}
    (start : 2 ≤ first) (markReserved : Bool) :
    SearchIsExact fatData device first markReserved ↔
      device.countdown = none ∧ SearchCovers fatData device.bytes first := by
  obtain ⟨entries, whole⟩ := whole
  have geometry := accepted_geometry accepted
  have room : 0 < entries := by
    have sector := geometry.sector
    omega
  obtain ⟨bytes, countdown⟩ := device
  cases countdown with
  | some count =>
    obtain rfl := transfers count rfl
    simp only [reduceCtorEq, false_and, iff_false]
    exact not_exact_of_fails allocation_fails
  | none =>
    rw [eq_self, true_and, SearchCovers]
    by_cases beyond : entriesPerFat fatData ≤ first
    · rw [if_pos beyond]
      exact exact_zero_iff start rfl (firstFreeCluster_beyond markReserved beyond).quiet
    · rw [if_neg beyond]
      by_cases inside : first < searchEnd fatData
      · have result := (@firstFreeCluster_priced fatData bytes entries whole room first markReserved start inside).quiet
        cases found : firstFree fatData bytes first (searchEnd fatData - first) with
        | none =>
          rw [found] at result
          have nothing := firstFree_none.mp found
          rw [exact_zero_iff start (by rfl) result]
          constructor
          · intro none
            exact ⟨inside, .inr none⟩
          · rintro ⟨-, ⟨cluster, lower, upper, free⟩ | none⟩
            · rw [nothing cluster lower (by omega)] at free
              cases free
            · exact none
        | some cluster =>
          rw [found] at result
          obtain ⟨free, ⟨lower, upper⟩, -⟩ := firstFree_some.mp found
          constructor
          · intro _
            exact ⟨inside, .inl ⟨cluster, lower, by omega, free⟩⟩
          · intro _
            refine ⟨cluster, _, result, .inl ⟨searched_smallest whole beyond found, ?_⟩⟩
            cases markReserved with
            | false => rfl
            | true => exact setFatEntry_marks fatData bytes cluster
      · constructor
        · intro exact
          exact absurd exact (not_exact_of_fails
            (firstFreeCluster_unsearched whole room markReserved beyond inside).quiet)
        · rintro ⟨searched, -⟩
          exact absurd searched inside

theorem search_exact_small : SearchIsExact smallVolume { bytes := fun _ => 0 } 2 true := by
  have covers : SearchCovers smallVolume (fun _ => 0) 2 := by
    unfold SearchCovers
    rw [if_neg (by decide)]
    exact ⟨by decide, .inl ⟨2, by decide, by decide, by decide +kernel⟩⟩
  exact (search_exact_iff smallVolume_accepted (by decide) (by simp) (by decide) true).mpr ⟨rfl, covers⟩

-- With an unknown hint the search ends before it starts, and the clusters from 61440 on are never looked at.
theorem search_not_exact :
    ¬ SearchIsExact smallVolume { bytes := fun _ => 0 } fat32Unknown true ∧
      ¬ SearchIsExact smallVolume { bytes := fun _ => 0 } 62000 true := by
  constructor
  · intro exact
    have returns : Returns (firstFreeCluster smallVolume fat32Unknown true) { bytes := fun _ => 0 } 0 _ :=
      (firstFreeCluster_beyond true (by decide)).quiet
    have none := (exact_zero_iff (by decide) rfl returns).mp exact 2 (by decide) (by decide)
    revert none
    decide +kernel
  · exact not_exact_of_fails
      (@firstFreeCluster_unsearched smallVolume _ 128 rfl (by decide) _ true (by decide) (by decide)).quiet

end Hal9000.Fat32
