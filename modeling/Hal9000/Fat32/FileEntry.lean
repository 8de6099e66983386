import Hal9000.Fat32.ReadFile

set_option autoImplicit false

namespace Hal9000.Fat32

open Lib (Program)
open Lib.Program (fail stop require Returns Fails Stops)

def entryPlace (fatData : FatData) (directory index : Nat) : Nat :=
  sectorOf fatData directory * fatData.bytesPerSector + 32 * index

-- The entry of the file that begins at a cluster: the entries of the directory do not end before it, it is in use
-- and no part of a long name, and the cluster is the one it has the two halves of.
structure FileEntry (fatData : FatData) (bytes : Lib.Memory) (directory first index : Nat) : Prop where
  inside : 32 * (index + 1) ≤ fatData.sectorsPerCluster * fatData.bytesPerSector
  listed : forall earlier, earlier ≤ index -> bytes.load 1 (entryPlace fatData directory earlier) ≠ 0x00
  used : bytes.load 1 (entryPlace fatData directory index) ≠ 0xE5 ∧
    bytes.load 1 (entryPlace fatData directory index) ≠ 0x05
  short : bytes.load 1 (entryPlace fatData directory index + 11) % 64 ≠ 15
  cluster : 2 ^ 16 * bytes.load 2 (entryPlace fatData directory index + 20) +
    bytes.load 2 (entryPlace fatData directory index + 26) = first

section Entries

variable {entries other entry : Lib.Memory} {index cluster count : Nat}

theorem dirEntryAt_set : dirEntryAt (setDirEntryAt entries index entry) index = entry.slice 0 sizeofDirEntry := by
  funext place
  by_cases inside : place < sizeofDirEntry
  · rw [dirEntryAt, Lib.Memory.slice_apply inside, setDirEntryAt, Lib.Memory.copy_inside (by omega) (by omega),
      Lib.Memory.slice_apply inside, Nat.add_sub_cancel_left, Nat.zero_add]
  · rw [dirEntryAt, Lib.Memory.slice_beyond inside, Lib.Memory.slice_beyond inside]

theorem dirEntryAt_set_apart {second : Nat} (apart : second ≠ index) :
    dirEntryAt (setDirEntryAt entries index entry) second = dirEntryAt entries second := by
  apply Lib.Memory.slice_congr
  apply Lib.Memory.copy_agrees
  simp only [sizeofDirEntry]
  omega

theorem findDirEntry_congr {first : Nat}
    (same : forall index, first ≤ index -> index < first + count ->
      refersTo cluster (dirEntryAt entries index) = refersTo cluster (dirEntryAt other index)) :
    findDirEntry entries cluster count first = findDirEntry other cluster count first := by
  induction count generalizing first with
  | zero => rfl
  | succ count ih =>
    rw [findDirEntry, findDirEntry, same first (by omega) (by omega),
      ih fun index lower upper => same index (by omega) (by omega)]

theorem findDirEntry_lt {first : Nat} (found : findDirEntry entries cluster count first = some index) :
    index < first + count := by
  induction count generalizing first with
  | zero => cases found
  | succ count ih =>
    rw [findDirEntry] at found
    by_cases here : refersTo cluster (dirEntryAt entries first) = true
    · rw [if_pos here] at found
      obtain rfl := Option.some.inj found
      omega
    · rw [if_neg here] at found
      have bound := ih found
      omega

theorem findDirEntry_reaches {first : Nat} (lower : first ≤ index) (upper : index < first + count)
    (refers : refersTo cluster (dirEntryAt entries index) = true) :
    ∃ found, findDirEntry entries cluster count first = some found ∧ found ≤ index ∧
      refersTo cluster (dirEntryAt entries found) = true := by
  induction count generalizing first with
  | zero => omega
  | succ count ih =>
    rw [findDirEntry]
    by_cases here : refersTo cluster (dirEntryAt entries first) = true
    · rw [if_pos here]
      exact ⟨first, rfl, lower, here⟩
    · have later : first ≠ index := by
        rintro rfl
        exact here refers
      rw [if_neg here]
      exact ih (by omega) (by omega)

theorem refersTo_iff : refersTo cluster entry = true ↔ (entry.load 1 0 ≠ 0xE5 ∧ entry.load 1 0 ≠ 0x05) ∧
    entry.load 1 11 % 64 ≠ 15 ∧ 2 ^ 16 * entry.load 2 20 + entry.load 2 26 = cluster := by
  have unused : isUnusedEntry entry = true ↔ 0xE5 = entry.load 1 0 ∨ 0x05 = entry.load 1 0 := by
    rw [isUnusedEntry, Bool.or_eq_true, beq_iff_eq, beq_iff_eq, freeEntry, freeJapEntry]
  have long : isLongEntry entry = true ↔ entry.load 1 11 % 64 = 15 := by
    rw [isLongEntry, beq_iff_eq, dirAttr, attrLongName]
    exact Eq.congr_left (Nat.and_two_pow_sub_one_eq_mod _ 6)
  rw [refersTo]
  by_cases one : isUnusedEntry entry = true
  · rw [if_pos one]
    refine iff_of_false Bool.false_ne_true fun all => ?_
    rcases unused.mp one with same | same
    · exact all.1.1 same.symm
    · exact all.1.2 same.symm
  · rw [if_neg one]
    rw [unused, not_or] at one
    by_cases two : isLongEntry entry = true
    · rw [if_pos two]
      exact iff_of_false Bool.false_ne_true fun all => all.2.1 (long.mp two)
    · rw [if_neg two, beq_iff_eq, dirCluster, wordsToDword, dirFstClusHi, dirFstClusLo]
      rw [long] at two
      constructor
      · intro same
        exact ⟨⟨Ne.symm one.1, Ne.symm one.2⟩, two, same.symm⟩
      · intro all
        exact all.2.2.symm

structure SameEntry (entry other : Lib.Memory) : Prop where
  name : entry.load 1 0 = other.load 1 0
  attr : dirAttr entry = dirAttr other
  cluster : dirCluster entry = dirCluster other

theorem SameEntry.refersTo (same : SameEntry entry other) : refersTo cluster entry = refersTo cluster other := by
  rw [Fat32.refersTo, Fat32.refersTo, isUnusedEntry, isUnusedEntry, isLongEntry, isLongEntry, same.name, same.attr,
    same.cluster]

theorem sameEntry_slice : SameEntry (entry.slice 0 sizeofDirEntry) entry where
  name := by rw [Lib.Memory.load_slice (by decide), Nat.zero_add]
  attr := by rw [dirAttr, Lib.Memory.load_slice (by decide), Nat.zero_add, dirAttr]
  cluster := by
    rw [dirCluster, dirFstClusHi, dirFstClusLo, Lib.Memory.load_slice (by decide), Lib.Memory.load_slice (by decide),
      Nat.zero_add, Nat.zero_add, dirCluster, dirFstClusHi, dirFstClusLo]

theorem SameEntry.trans {third : Lib.Memory} (first : SameEntry entry other) (second : SameEntry other third) :
    SameEntry entry third :=
  ⟨first.name.trans second.name, first.attr.trans second.attr, first.cluster.trans second.cluster⟩

theorem sameEntry_store {width place value : Nat}
    (apart : 12 ≤ place ∧ place + width ≤ 20 ∨ 22 ≤ place ∧ place + width ≤ 26 ∨ 28 ≤ place) :
    SameEntry (entry.store width place value) entry where
  name := Lib.Memory.load_store_apart (by omega)
  attr := Lib.Memory.load_store_apart (by omega)
  cluster := by
    rw [dirCluster, dirFstClusHi, dirFstClusLo, Lib.Memory.load_store_apart (by omega),
      Lib.Memory.load_store_apart (by omega), dirCluster, dirFstClusHi, dirFstClusLo]

theorem sameEntry_touched (now : DateTime) (size : Nat) : SameEntry (touchedEntry now size entry) entry := by
  have grown : SameEntry (if size > dirFileSize entry then setFileSize entry size else entry) entry := by
    by_cases more : size > dirFileSize entry
    · rw [if_pos more]
      exact sameEntry_store (by omega)
    · rw [if_neg more]
      exact ⟨rfl, rfl, rfl⟩
  rw [touchedEntry]
  exact (sameEntry_store (by omega)).trans ((sameEntry_store (by omega)).trans
    ((sameEntry_store (by omega)).trans grown))

theorem dirFileSize_store {width place value : Nat} (apart : place + width ≤ 28) :
    dirFileSize (entry.store width place value) = dirFileSize entry :=
  Lib.Memory.load_store_apart (by omega)

theorem dirFileSize_touched (now : DateTime) {size : Nat} (bound : size < 2 ^ 32) :
    dirFileSize (touchedEntry now size entry) = max (dirFileSize entry) size := by
  have kept : dirFileSize (touchedEntry now size entry) =
      dirFileSize (if size > dirFileSize entry then setFileSize entry size else entry) := by
    rw [touchedEntry, setWrtTime, dirFileSize_store (by omega), setWrtDate, dirFileSize_store (by omega),
      setLstAccDate, dirFileSize_store (by omega)]
  rw [kept]
  by_cases more : size > dirFileSize entry
  · rw [if_pos more, Nat.max_eq_right (le_of_lt more), dirFileSize, setFileSize, Lib.Memory.load_store bound]
  · rw [if_neg more, Nat.max_eq_left (not_lt.mp more)]

end Entries

section Directory

variable {fatData : FatData} {bytes other entry : Lib.Memory} {sector index cluster : Nat}

theorem directoryCluster_set (inside : index < clusterBytes fatData / sizeofDirEntry) :
    directoryCluster fatData (setDirEntry fatData bytes sector index entry) sector =
      setDirEntryAt (directoryCluster fatData bytes sector) index entry := by
  have whole := Nat.div_mul_le_self (clusterBytes fatData) sizeofDirEntry
  have next := Nat.mul_le_mul_right sizeofDirEntry (Nat.succ_le_of_lt inside)
  rw [Nat.succ_mul, Nat.mul_comm index] at next
  funext place
  by_cases early : place < clusterBytes fatData
  · rw [directoryCluster, Lib.Memory.slice_apply early, setDirEntry, Lib.Memory.copy_inside (by omega) (by omega),
      Nat.add_sub_cancel_left]
  · rw [directoryCluster, Lib.Memory.slice_beyond early, setDirEntryAt, Lib.Memory.copy_elsewhere (by omega),
      directoryCluster, Lib.Memory.slice_beyond early]

theorem setDirEntry_elsewhere {place : Nat}
    (outside : ¬ (qword (sector * fatData.bytesPerSector) + sizeofDirEntry * index ≤ place ∧
      place < qword (sector * fatData.bytesPerSector) + sizeofDirEntry * index + sizeofDirEntry)) :
    setDirEntry fatData bytes sector index entry place = bytes place := by
  by_cases inside : qword (sector * fatData.bytesPerSector) ≤ place ∧
      place < qword (sector * fatData.bytesPerSector) + clusterBytes fatData
  · rw [setDirEntry, Lib.Memory.copy_inside inside.1 inside.2, setDirEntryAt, Lib.Memory.copy_elsewhere (by omega),
      directoryCluster, Lib.Memory.slice_apply (by omega), Nat.add_sub_cancel' inside.1]
  · rw [setDirEntry, Lib.Memory.copy_elsewhere inside]

theorem directoryIndex_lt (found : directoryIndex fatData bytes sector cluster = some index) :
    index < clusterBytes fatData / sizeofDirEntry := by
  have bound := findDirEntry_lt found
  omega

theorem directoryIndex_set (found : directoryIndex fatData bytes sector cluster = some index)
    (same : SameEntry entry (dirEntryAt (directoryCluster fatData bytes sector) index)) :
    directoryIndex fatData (setDirEntry fatData bytes sector index entry) sector cluster = some index := by
  rw [← found, directoryIndex, directoryIndex, directoryCluster_set (directoryIndex_lt found)]
  apply findDirEntry_congr
  intro second _ _
  by_cases here : second = index
  · subst here
    rw [dirEntryAt_set, sameEntry_slice.refersTo, same.refersTo]
  · rw [dirEntryAt_set_apart here]

end Directory

section File

variable {fatData : FatData} {bytes middle entry : Lib.Memory} {directory first index sector base cluster : Nat}
variable {countdown : Option Nat} {device' : Device}

theorem sectorOf_address (geometry : Geometry fatData) (listing : IsCluster fatData directory) :
    qword (sectorOf fatData directory * fatData.bytesPerSector) =
      sectorOf fatData directory * fatData.bytesPerSector := by
  have small := sectorOf_lt geometry listing geometry.cluster
  have product : sectorOf fatData directory * fatData.bytesPerSector ≤ 2 ^ 41 * 2 ^ 16 :=
    Nat.mul_le_mul (by omega) (le_of_lt geometry.sector_lt)
  exact qword_of_lt (by omega)

theorem load_dirEntryAt (geometry : Geometry fatData) (listing : IsCluster fatData directory)
    (inside : 32 * (index + 1) ≤ fatData.sectorsPerCluster * fatData.bytesPerSector) {width field : Nat}
    (within : field + width ≤ 32) :
    (dirEntryAt (directoryCluster fatData bytes (sectorOf fatData directory)) index).load width field =
      bytes.load width (entryPlace fatData directory index + field) := by
  rw [dirEntryAt, Lib.Memory.load_slice (by rw [sizeofDirEntry]; exact within), directoryCluster,
    Lib.Memory.load_slice (by rw [sizeofDirEntry, clusterBytes, Nat.mul_comm fatData.bytesPerSector]; omega),
    sectorOf_address geometry listing, entryPlace, sizeofDirEntry, Nat.add_assoc]

theorem refersTo_directory (geometry : Geometry fatData) (listing : IsCluster fatData directory)
    (inside : 32 * (index + 1) ≤ fatData.sectorsPerCluster * fatData.bytesPerSector) :
    refersTo first (dirEntryAt (directoryCluster fatData bytes (sectorOf fatData directory)) index) = true ↔
      (bytes.load 1 (entryPlace fatData directory index) ≠ 0xE5 ∧
          bytes.load 1 (entryPlace fatData directory index) ≠ 0x05) ∧
        bytes.load 1 (entryPlace fatData directory index + 11) % 64 ≠ 15 ∧
        2 ^ 16 * bytes.load 2 (entryPlace fatData directory index + 20) +
          bytes.load 2 (entryPlace fatData directory index + 26) = first := by
  rw [refersTo_iff, load_dirEntryAt geometry listing inside (by omega), load_dirEntryAt geometry listing inside (by omega),
    load_dirEntryAt geometry listing inside (by omega), load_dirEntryAt geometry listing inside (by omega), Nat.add_zero]

theorem FileEntry.found (geometry : Geometry fatData) (listing : IsCluster fatData directory)
    (entry : FileEntry fatData bytes directory first index)
    (only : forall other, FileEntry fatData bytes directory first other -> other = index) :
    directoryIndex fatData bytes (sectorOf fatData directory) first = some index := by
  have upper : index < clusterBytes fatData / sizeofDirEntry := by
    have inside := entry.inside
    rw [sizeofDirEntry, Nat.lt_div_iff_mul_lt (by decide), clusterBytes, Nat.mul_comm fatData.bytesPerSector]
    omega
  obtain ⟨found, search, early, refers⟩ := findDirEntry_reaches (Nat.zero_le index)
    (show index < 0 + clusterBytes fatData / sizeofDirEntry by omega)
    ((refersTo_directory geometry listing entry.inside).mpr ⟨entry.used, entry.short, entry.cluster⟩)
  have inside : 32 * (found + 1) ≤ fatData.sectorsPerCluster * fatData.bytesPerSector := by
    have inside := entry.inside
    omega
  obtain ⟨used, short, cluster⟩ := (refersTo_directory geometry listing inside).mp refers
  have same := only found
    { inside := inside
      listed := fun earlier before => entry.listed earlier (by omega)
      used := used
      short := short
      cluster := cluster }
  rw [directoryIndex, search, same]

theorem FileEntry.congr {after : Lib.Memory} (geometry : Geometry fatData) (listing : IsCluster fatData directory)
    (file : FileEntry fatData bytes directory first index)
    (same : directoryCluster fatData after (sectorOf fatData directory) =
      directoryCluster fatData bytes (sectorOf fatData directory)) : FileEntry fatData after directory first index := by
  have inside := file.inside
  have field {earlier width place : Nat} (before : earlier ≤ index) (within : place + width ≤ 32) :
      after.load width (entryPlace fatData directory earlier + place) =
        bytes.load width (entryPlace fatData directory earlier + place) := by
    rw [← load_dirEntryAt geometry listing (by omega) within, same, load_dirEntryAt geometry listing (by omega) within]
  have name {earlier : Nat} (before : earlier ≤ index) := @field earlier 1 0 before (by omega)
  simp only [Nat.add_zero] at name
  refine ⟨inside, ?_, ?_, ?_, ?_⟩
  · intro earlier before
    rw [name before]
    exact file.listed earlier before
  · rw [name (le_refl index)]
    exact file.used
  · rw [field (le_refl index) (by omega)]
    exact file.short
  · rw [field (le_refl index) (by omega), field (le_refl index) (by omega)]
    exact file.cluster

theorem FileEntry.set (geometry : Geometry fatData) (listing : IsCluster fatData directory)
    (file : FileEntry fatData bytes directory first index)
    (same : SameEntry entry (dirEntryAt (directoryCluster fatData bytes (sectorOf fatData directory)) index)) :
    FileEntry fatData (setDirEntry fatData bytes (sectorOf fatData directory) index entry) directory first index := by
  have inside := file.inside
  have upper : index < clusterBytes fatData / sizeofDirEntry := by
    rw [sizeofDirEntry, Nat.lt_div_iff_mul_lt (by decide), clusterBytes, Nat.mul_comm fatData.bytesPerSector]
    omega
  have cluster := @directoryCluster_set fatData bytes entry (sectorOf fatData directory) index upper
  have refers : refersTo first (dirEntryAt (directoryCluster fatData
      (setDirEntry fatData bytes (sectorOf fatData directory) index entry) (sectorOf fatData directory)) index) = true := by
    rw [cluster, dirEntryAt_set, sameEntry_slice.refersTo, same.refersTo]
    exact (refersTo_directory geometry listing inside).mpr ⟨file.used, file.short, file.cluster⟩
  obtain ⟨used, short, number⟩ := (refersTo_directory geometry listing inside).mp refers
  refine ⟨inside, fun earlier before => ?_, used, short, number⟩
  have name := @load_dirEntryAt fatData (setDirEntry fatData bytes (sectorOf fatData directory) index entry) directory
    earlier geometry listing (by omega) 1 0 (by omega)
  have old := @load_dirEntryAt fatData bytes directory earlier geometry listing (by omega) 1 0 (by omega)
  have kept := file.listed earlier before
  rw [cluster, Nat.add_zero] at name
  rw [Nat.add_zero] at old
  rw [← name]
  rw [← old] at kept
  by_cases here : earlier = index
  · rw [here, dirEntryAt_set, sameEntry_slice.name, same.name, ← here]
    exact kept
  · rw [dirEntryAt_set_apart here]
    exact kept

theorem readCluster_priced : Priced (readCluster fatData sector) bytes (.ok (directoryCluster fatData bytes sector)) bytes
    1 := by
  apply Priced.finish Priced.ioReadDevice
  intro countdown
  simp [directoryCluster]

theorem getDirEntryFromSector_inv {found : Nat × Lib.Memory}
    (start : forall device, Returns (clusterOfSector fatData base) device cluster device)
    (result : Returns (getDirEntryFromSector fatData sector base) { bytes := bytes, countdown := countdown } found device') :
    ∃ index left, directoryIndex fatData bytes sector cluster = some index ∧
      found = (index, dirEntryAt (directoryCluster fatData bytes sector) index) ∧
      device' = { bytes := bytes, countdown := left } := by
  rw [getDirEntryFromSector] at result
  obtain ⟨nothing, second, allocated, result⟩ := Program.bind_returns.mp result
  obtain ⟨-, -, rfl⟩ := Priced.allocate.inv allocated
  obtain ⟨entries, third, read, result⟩ := Program.bind_returns.mp result
  obtain ⟨-, same, rfl⟩ := readCluster_priced.inv read
  cases same
  obtain ⟨number, fourth, here, result⟩ := Program.bind_returns.mp result
  obtain ⟨rfl, rfl⟩ := (start _).unique here
  rw [← directoryIndex] at result
  cases search : directoryIndex fatData bytes sector cluster with
  | none =>
    rw [search] at result
    exact absurd result Program.fail_returns
  | some index =>
    rw [search] at result
    obtain ⟨rfl, rfl⟩ := Program.pure_returns.mp result
    exact ⟨index, _, rfl, rfl, rfl⟩

theorem writeDirEntryToSector_inv
    (result : Returns (writeDirEntryToSector fatData sector index entry) { bytes := bytes, countdown := countdown } ()
      device') : device'.bytes = setDirEntry fatData bytes sector index entry := by
  rw [writeDirEntryToSector] at result
  obtain ⟨nothing, second, allocated, result⟩ := Program.bind_returns.mp result
  obtain ⟨-, -, rfl⟩ := Priced.allocate.inv allocated
  obtain ⟨entries, third, read, result⟩ := Program.bind_returns.mp result
  obtain ⟨-, same, rfl⟩ := readCluster_priced.inv read
  cases same
  rw [writeCluster] at result
  obtain ⟨written, fourth, wrote, result⟩ := Program.bind_returns.mp result
  obtain ⟨-, -, rfl⟩ := Priced.ioWriteDevice.inv wrote
  obtain ⟨-, rfl⟩ := Program.require_returns.mp result
  rfl

end File

end Hal9000.Fat32
