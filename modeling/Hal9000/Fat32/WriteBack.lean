import Hal9000.Fat32.FileEntry
import Hal9000.Fat32.WriteFile

set_option autoImplicit false

namespace Hal9000.Fat32

open Lib (Program Gathered Scattered SameBlocks agrees_blocks)
open Lib.Program (fail stop require loop Returns Fails Stops)

-- The volume after FatWriteFile has succeeded: the written bytes can be read back, everything else of the files
-- that were there before is as it was, and the directory entry has the size.
structure WriteReadsBack (fatData : FatData) (before after : Lib.Memory) (clusters added : List Nat) (first directory index
    sectorOffset : Nat) (buffer : Lib.Memory) (sectorsToWrite : Nat) : Prop where
  file : FileChain fatData after (clusters ++ added)
  new : forall cluster, cluster ∈ added -> isFree fatData before cluster = true
  read : forall now target, ∃ buffer' device',
    Returns (fatReadFile fatData now (sectorOf fatData first) sectorOffset (sectorOf fatData directory) target
      sectorsToWrite) { bytes := after } (buffer', sectorsToWrite) device' ∧
    forall place, place < sectorsToWrite * fatData.bytesPerSector -> buffer' place = buffer place
  kept : forall position sector, (fileSectors fatData clusters)[position]? = some sector ->
    ¬ (sectorOffset ≤ position ∧ position < sectorOffset + sectorsToWrite) ->
    forall offset, offset < fatData.bytesPerSector ->
      after (sector * fatData.bytesPerSector + offset) = before (sector * fatData.bytesPerSector + offset)
  others : forall cluster, IsCluster fatData cluster -> isFree fatData before cluster = false -> cluster ∉ clusters ->
    forall sector, sector ∈ clusterSectors fatData cluster -> forall offset, offset < fatData.bytesPerSector ->
      ¬ (entryPlace fatData directory index ≤ sector * fatData.bytesPerSector + offset ∧
        sector * fatData.bytesPerSector + offset < entryPlace fatData directory index + 32) ->
      after (sector * fatData.bytesPerSector + offset) = before (sector * fatData.bytesPerSector + offset)
  chains : forall others, FileChain fatData before others -> List.Disjoint others clusters ->
    FileChain fatData after others
  listed : FileEntry fatData after directory first index
  size : (sectorOffset + sectorsToWrite) * fatData.bytesPerSector < 2 ^ 32 ->
    after.load 4 (entryPlace fatData directory index + 28) =
      max (before.load 4 (entryPlace fatData directory index + 28))
        ((sectorOffset + sectorsToWrite) * fatData.bytesPerSector)

section WriteBack

variable {fatData : FatData} {bytes middle buffer : Lib.Memory} {now : DateTime} {clusters rest added : List Nat}
variable {first directory index sectorOffset sectorsToWrite : Nat}

theorem not_mem_wantedSectors {cluster sector : Nat} {list : List Nat} (geometry : Geometry fatData)
    (valid : IsCluster fatData cluster) (all : forall other, other ∈ list -> IsCluster fatData other)
    (fresh : cluster ∉ list) (member : sector ∈ clusterSectors fatData cluster) :
    sector ∉ wantedSectors fatData list sectorOffset sectorsToWrite := by
  intro wanted
  obtain ⟨other, inside, here⟩ := mem_fileSectors.mp (mem_of_mem_wantedSectors wanted)
  have apart : cluster ≠ other := by
    rintro rfl
    exact fresh inside
  exact clusterSectors_disjoint geometry.cluster valid.1 (all other inside).1 apart member here

theorem isData_clusterSectors {cluster sector : Nat} (member : sector ∈ clusterSectors fatData cluster) :
    IsData fatData sector :=
  le_trans firstDataSector_le_sectorOf (mem_clusterSectors.mp member).1

theorem directoryCluster_written (geometry : Geometry fatData)
    (written : Written fatData bytes middle clusters added sectorOffset sectorsToWrite 0 buffer)
    (listing : IsCluster fatData directory) (fresh : directory ∉ clusters ++ added) :
    directoryCluster fatData middle (sectorOf fatData directory) =
      directoryCluster fatData bytes (sectorOf fatData directory) := by
  rw [directoryCluster, directoryCluster, sectorOf_address geometry listing, clusterBytes,
    Nat.mul_comm fatData.bytesPerSector]
  apply Lib.Memory.slice_congr
  apply agrees_blocks geometry.sector
  intro sector member offset inside
  exact written.scattered.outside sector (isData_clusterSectors member)
    (not_mem_wantedSectors geometry listing (fun other => written.file.chain.valid) fresh member) offset inside

theorem outside_wantedSectors {position sector : Nat} (geometry : Geometry fatData)
    (file : FileChain fatData middle (clusters ++ added))
    (found : (fileSectors fatData clusters)[position]? = some sector)
    (outside : ¬ (sectorOffset ≤ position ∧ position < sectorOffset + sectorsToWrite)) :
    sector ∉ wantedSectors fatData (clusters ++ added) sectorOffset sectorsToWrite := by
  have distinct := fileSectors_nodup geometry.cluster (fun other member => (file.chain.valid member).1) file.distinct
  have here : (fileSectors fatData (clusters ++ added))[position]? = some sector := by
    obtain ⟨early, -⟩ := List.getElem?_eq_some_iff.mp found
    rw [fileSectors_append, List.getElem?_append_left early]
    exact found
  obtain ⟨early, -⟩ := List.getElem?_eq_some_iff.mp here
  intro wanted
  obtain ⟨index, taken⟩ := List.getElem?_of_mem wanted
  have within : index < sectorsToWrite := by
    by_contra late
    rw [wantedSectors, List.getElem?_take_eq_none (not_lt.mp late)] at taken
    cases taken
  rw [wantedSectors, List.getElem?_take_of_lt within, List.getElem?_drop, ← here] at taken
  have same := (List.getElem?_inj early distinct).mp taken.symm
  omega

theorem setDirEntry_table (volume : Fat32Volume fatData) (listing : IsCluster fatData directory) (entry : Lib.Memory) :
    SameTable fatData middle (setDirEntry fatData middle (sectorOf fatData directory) index entry) := by
  apply sameTable_of_below volume
  intro place below
  have start := Nat.mul_le_mul_right fatData.bytesPerSector (@firstDataSector_le_sectorOf fatData directory)
  rw [setDirEntry, sectorOf_address (accepted_geometry volume.accepted) listing]
  exact Lib.Memory.copy_elsewhere (by omega)

theorem entry_written (volume : Fat32Volume fatData) {entry : Lib.Memory} {sector offset : Nat}
    (listing : IsCluster fatData directory)
    (outside : ¬ (entryPlace fatData directory index ≤ sector * fatData.bytesPerSector + offset ∧
      sector * fatData.bytesPerSector + offset < entryPlace fatData directory index + 32)) :
    setDirEntry fatData middle (sectorOf fatData directory) index entry (sector * fatData.bytesPerSector + offset) =
      middle (sector * fatData.bytesPerSector + offset) := by
  apply setDirEntry_elsewhere
  rw [sectorOf_address (accepted_geometry volume.accepted) listing]
  exact outside

theorem entry_apart (geometry : Geometry fatData) {cluster sector offset : Nat}
    (listing : IsCluster fatData directory) (within : 32 * (index + 1) ≤ fatData.sectorsPerCluster * fatData.bytesPerSector)
    (valid : IsCluster fatData cluster) (apart : cluster ≠ directory)
    (member : sector ∈ clusterSectors fatData cluster) (inside : offset < fatData.bytesPerSector) :
    ¬ (entryPlace fatData directory index ≤ sector * fatData.bytesPerSector + offset ∧
      sector * fatData.bytesPerSector + offset < entryPlace fatData directory index + 32) := by
  rw [entryPlace]
  rintro ⟨lower, upper⟩
  have foreign := clusterSectors_disjoint geometry.cluster valid.1 listing.1 apart member
  apply foreign
  rw [mem_clusterSectors]
  constructor
  · by_contra below
    have place := Lib.block_lt (not_le.mp below) inside
    omega
  · by_contra above
    have least := Nat.mul_le_mul_right fatData.bytesPerSector (not_lt.mp above)
    rw [Nat.add_mul] at least
    omega

theorem afterReading_used {after : Lib.Memory} (file : FileChain fatData after clusters) :
    afterReading fatData after clusters sectorOffset sectorsToWrite = after := by
  have used := file.used _ file.last_mem
  rw [isFree, beq_eq_false_iff_ne] at used
  rw [afterReading]
  by_cases beyond : clusters.length * fatData.sectorsPerCluster < sectorOffset + sectorsToWrite
  · rw [if_pos beyond, mended_used used]
  · rw [if_neg beyond]

theorem written_read (volume : Fat32Volume fatData) {entry : Lib.Memory}
    (done : Written fatData bytes middle (first :: rest) added sectorOffset sectorsToWrite 0 buffer)
    (listing : IsCluster fatData directory) (fresh : directory ∉ first :: rest ++ added)
    (aligned : isAddressAligned (sectorOf fatData first) fatData.sectorsPerCluster = true)
    (more : 1 ≤ sectorsToWrite)
    (inside : 32 * (index + 1) ≤ fatData.sectorsPerCluster * fatData.bytesPerSector)
    (found : directoryIndex fatData middle (sectorOf fatData directory) first = some index)
    (same : SameEntry entry (dirEntryAt (directoryCluster fatData middle (sectorOf fatData directory)) index))
    (target : Lib.Memory) :
    ∃ buffer' device',
      Returns (fatReadFile fatData now (sectorOf fatData first) sectorOffset (sectorOf fatData directory) target
        sectorsToWrite) { bytes := setDirEntry fatData middle (sectorOf fatData directory) index entry }
        (buffer', sectorsToWrite) device' ∧
      forall place, place < sectorsToWrite * fatData.bytesPerSector -> buffer' place = buffer place := by
  have geometry := accepted_geometry volume.accepted
  have table := @setDirEntry_table fatData middle directory index volume listing entry
  have file := done.file.congr fun other member => table other (done.file.chain.valid member).2
  have length := done.length
  have early : sectorOffset < (first :: rest ++ added).length * fatData.sectorsPerCluster := by
    rw [wantedSectors, List.length_take, List.length_drop, length_fileSectors] at length
    omega
  have room : sizeofFat32Entry ≤ fatData.bytesPerSector := by
    obtain ⟨entries, whole⟩ := volume.whole
    have positive := geometry.sector
    rw [sizeofFat32Entry]
    omega
  have start : fatData.firstDataSector ≠ 0 := by
    intro zero
    have table := volume.table
    rw [zero, Nat.zero_mul] at table
    omega
  have exact := (@read_inside fatData ⟨setDirEntry fatData middle (sectorOf fatData directory) index entry, none⟩ now
    (rest ++ added) first sectorOffset (sectorOf fatData directory) sectorsToWrite target geometry rfl file.chain
    file.distinct aligned (by omega) early).mpr
    { inside := early
      table := .inl room
      away := fun zero => absurd zero start
      listed := by
        have used := @afterReading_used fatData _ sectorOffset sectorsToWrite _ file
        rw [List.cons_append] at used
        rw [used, directoryIndex_set found same]
        rfl }
  obtain ⟨buffer', device', result, gathered⟩ := exact
  rw [List.cons_append] at length
  rw [length] at result
  refine ⟨buffer', device', result, fun place below => ?_⟩
  have source : Gathered fatData.bytesPerSector middle target buffer' 0
      (wantedSectors fatData (first :: (rest ++ added)) sectorOffset sectorsToWrite) := by
    refine gathered.congr fun sector member offset within => ?_
    obtain ⟨cluster, belongs, here⟩ := mem_fileSectors.mp (mem_of_mem_wantedSectors member)
    have different : cluster ≠ directory := by
      rintro rfl
      exact fresh belongs
    exact entry_written volume listing (entry_apart geometry listing inside (done.file.chain.valid belongs) different
      here within)
  have scattered := done.scattered
  rw [List.cons_append] at scattered
  have read : buffer' (0 + place) = buffer (0 + place) :=
    Gathered.scattered scattered source (by rw [length]; exact below)
  rwa [Nat.zero_add] at read

theorem writeReadsBack_entry (volume : Fat32Volume fatData) (file : FileChain fatData bytes (first :: rest))
    (done : Written fatData bytes middle (first :: rest) added sectorOffset sectorsToWrite 0 buffer)
    (listing : IsCluster fatData directory) (apart : directory ∉ first :: rest)
    (fresh : directory ∉ first :: rest ++ added)
    (aligned : isAddressAligned (sectorOf fatData first) fatData.sectorsPerCluster = true)
    (more : 1 ≤ sectorsToWrite) (entry : FileEntry fatData bytes directory first index)
    (found : directoryIndex fatData middle (sectorOf fatData directory) first = some index) :
    WriteReadsBack fatData bytes
      (setDirEntry fatData middle (sectorOf fatData directory) index
        (touchedEntry now (dword (dword (sectorOffset + sectorsToWrite) * fatData.bytesPerSector))
          (dirEntryAt (directoryCluster fatData middle (sectorOf fatData directory)) index)))
      (first :: rest) added first directory index sectorOffset buffer sectorsToWrite := by
  have geometry := accepted_geometry volume.accepted
  have within := entry.inside
  have table := @setDirEntry_table fatData middle directory index volume listing
    (touchedEntry now (dword (dword (sectorOffset + sectorsToWrite) * fatData.bytesPerSector))
      (dirEntryAt (directoryCluster fatData middle (sectorOf fatData directory)) index))
  have cluster := directoryCluster_written geometry done listing fresh
  have same := @sameEntry_touched (dirEntryAt (directoryCluster fatData middle (sectorOf fatData directory)) index)
    now (dword (dword (sectorOffset + sectorsToWrite) * fatData.bytesPerSector))
  exact
    { file := done.file.congr fun other member => table other (done.file.chain.valid member).2
      new := done.new
      read := fun now target => written_read volume done listing fresh aligned more within found same target
      kept := by
        intro position sector here outside offset inside
        obtain ⟨other, member, belongs⟩ := mem_fileSectors.mp (List.mem_of_getElem? here)
        have different : other ≠ directory := by
          rintro rfl
          exact apart member
        rw [entry_written volume listing (entry_apart geometry listing within (file.chain.valid member) different
          belongs inside)]
        exact done.scattered.outside sector (isData_clusterSectors belongs)
          (outside_wantedSectors geometry done.file here outside) offset inside
      others := by
        intro other valid busy foreign sector member offset inside outside
        have new : other ∉ first :: rest ++ added := by
          rw [List.mem_append, not_or]
          refine ⟨foreign, fun member => ?_⟩
          rw [done.new other member] at busy
          cases busy
        rw [entry_written volume listing outside]
        exact done.scattered.outside sector (isData_clusterSectors member)
          (not_mem_wantedSectors geometry valid (fun other => done.file.chain.valid) new member) offset inside
      chains := by
        intro others chain disjoint
        refine chain.congr fun other member => ?_
        have valid := chain.chain.valid member
        rw [table other valid.2]
        exact done.links other valid (chain.used other member) (disjoint member)
      listed := (entry.congr geometry listing cluster).set geometry listing same
      size := by
        intro bound
        have few : sectorOffset + sectorsToWrite < 2 ^ 32 :=
          lt_of_le_of_lt (Nat.le_mul_of_pos_right _ geometry.sector) bound
        rw [← load_dirEntryAt geometry listing within (by omega), ← load_dirEntryAt geometry listing within (by omega),
          directoryCluster_set (directoryIndex_lt found), dirEntryAt_set, Lib.Memory.load_slice (by decide), Nat.zero_add,
          dword_of_lt few, dword_of_lt bound, ← cluster]
        exact dirFileSize_touched now bound }

theorem fatReadFile_short (volume : Fat32Volume fatData) (file : FileChain fatData bytes (first :: rest))
    (inside : sectorOffset ≤ (first :: rest).length * fatData.sectorsPerCluster) (more : sectorsToWrite ≠ 0)
    {dirEntrySector count : Nat} {buffer' : Lib.Memory} {device' : Device}
    (result : Returns (fatReadFile fatData now (sectorOf fatData first) sectorOffset dirEntrySector buffer sectorsToWrite)
      { bytes := bytes } (buffer', count) device') :
    sectorOffset + count ≤ (first :: rest).length * fatData.sectorsPerCluster := by
  have geometry := accepted_geometry volume.accepted
  have clusters := file.chain.length_le file.distinct
  have count_lt := geometry.count_lt
  have cluster_lt := geometry.cluster_lt
  have product : (first :: rest).length * fatData.sectorsPerCluster ≤ 2 ^ 32 * 2 ^ 8 :=
    Nat.mul_le_mul (by omega) (le_of_lt geometry.cluster_lt)
  have within : sectorOffset % fatData.sectorsPerCluster < fatData.sectorsPerCluster := Nat.mod_lt _ geometry.cluster
  rw [fatReadFile, if_neg more] at result
  obtain ⟨nothing, device₁, required, result⟩ := Program.bind_returns.mp result
  obtain ⟨-, rfl⟩ := Program.require_returns.mp required
  obtain ⟨current, device₂, skipped, result⟩ := Program.bind_returns.mp result
  obtain ⟨nothing, device₃, required, result⟩ := Program.bind_returns.mp result
  obtain ⟨nonzero, rfl⟩ := Program.require_returns.mp required
  obtain ⟨⟨buffer'', remaining⟩, device₄, read, result⟩ := Program.bind_returns.mp result
  obtain ⟨⟨index, entry⟩, device₅, -, result⟩ := Program.bind_returns.mp result
  obtain ⟨nothing, device₆, -, result⟩ := Program.bind_returns.mp result
  obtain ⟨same, -⟩ := Program.pure_returns.mp result
  have total : sectorsToWrite - remaining = count := congrArg Prod.snd same
  rw [bne_iff_ne] at nonzero
  by_cases early : sectorOffset < (first :: rest).length * fatData.sectorsPerCluster
  · obtain ⟨cluster, behind, dropped, priced⟩ := skipClusters_chain geometry file.chain rfl (.inl volume.room)
      (Nat.zero_le _) (by omega) (by omega) (show sectorOffset - 0 < sectorOffset + 1 by omega) false
    obtain ⟨rfl, rfl⟩ := Returns.unique priced.quiet skipped
    rw [Nat.sub_zero] at dropped
    obtain ⟨number, buffer₁, device₇, looped, run⟩ := @readClusters_chain fatData ⟨bytes, none⟩ cluster
      (sectorOffset % fatData.sectorsPerCluster) sectorsToWrite behind (cluster :: behind) 0 buffer geometry rfl
      (file.chain.drop dropped) rfl nonzero within (by omega) (.inl volume.room) sectorsToWrite (le_refl _)
    obtain ⟨both, -⟩ := Returns.unique looped read
    have left : sectorsToWrite - number = remaining := congrArg Prod.snd both
    have most := run.most
    have length := congrArg List.length dropped
    have split := Nat.div_add_mod' sectorOffset fatData.sectorsPerCluster
    rw [List.length_drop, List.length_cons, List.length_cons] at length
    rw [wantedSectors, List.length_take, List.length_drop, length_fileSectors, List.length_cons] at most
    have sectors : (first :: rest).length * fatData.sectorsPerCluster =
        sectorOffset / fatData.sectorsPerCluster * fatData.sectorsPerCluster +
          (behind.length + 1) * fatData.sectorsPerCluster := by
      rw [← Nat.add_mul, List.length_cons]
      congr 1
      omega
    omega
  · exact absurd (skipClusters_past volume file (by omega) (by omega) skipped) nonzero

theorem shortened_not_read (volume : Fat32Volume fatData) (listing : IsCluster fatData directory)
    (inside : sectorOffset ≤ (first :: rest).length * fatData.sectorsPerCluster) (more : 1 ≤ sectorsToWrite)
    (shortened : Shortened fatData bytes middle (first :: rest) added sectorOffset sectorsToWrite) {found : Nat}
    {entry : Lib.Memory} {others : List Nat} :
    ¬ WriteReadsBack fatData bytes (setDirEntry fatData middle (sectorOf fatData directory) found entry) (first :: rest)
      others first directory index sectorOffset buffer sectorsToWrite := by
  intro reads
  have table := @setDirEntry_table fatData middle directory found volume listing entry
  have file : FileChain fatData (setDirEntry fatData middle (sectorOf fatData directory) found entry)
      (first :: (rest ++ added)) :=
    shortened.file.congr fun other member => table other (shortened.file.chain.valid member).2
  obtain ⟨buffer', device', result, -⟩ := reads.read ⟨1, 1, 2020, 0, 0, 0⟩ buffer
  have short := shortened.short
  rw [List.cons_append] at short
  have product := Nat.mul_le_mul_right fatData.sectorsPerCluster
    (show (first :: rest).length ≤ (first :: (rest ++ added)).length by simp)
  have most := fatReadFile_short volume file (by omega) (by omega) result
  omega

theorem fatWriteFile_inv (volume : Fat32Volume fatData) (file : FileChain fatData bytes (first :: rest))
    (inside : sectorOffset ≤ (first :: rest).length * fatData.sectorsPerCluster) (more : 1 ≤ sectorsToWrite)
    {countdown : Option Nat} {written : Nat} {device' : Device}
    (result : Returns (fatWriteFile fatData now (sectorOf fatData first) sectorOffset (sectorOf fatData directory)
      buffer sectorsToWrite) { bytes := bytes, countdown := countdown } written device') :
    isAddressAligned (sectorOf fatData first) fatData.sectorsPerCluster = true ∧ written = sectorsToWrite ∧
      ∃ middle added index, WriteEnds fatData bytes middle (first :: rest) added sectorOffset sectorsToWrite 0 buffer
          (WriteLosesLink fatData bytes countdown (first :: rest).length sectorOffset sectorsToWrite) ∧
        directoryIndex fatData middle (sectorOf fatData directory) first = some index ∧
        device'.bytes = setDirEntry fatData middle (sectorOf fatData directory) index
          (touchedEntry now (dword (dword (sectorOffset + sectorsToWrite) * fatData.bytesPerSector))
            (dirEntryAt (directoryCluster fatData middle (sectorOf fatData directory)) index)) := by
  have geometry := accepted_geometry volume.accepted
  have base := @clusterOfSector_sectorOf fatData first 0 geometry (file.chain.valid List.mem_cons_self)
    geometry.cluster
  rw [fatWriteFile, if_neg (by omega)] at result
  obtain ⟨nothing, device₁, required, result⟩ := Program.bind_returns.mp result
  obtain ⟨aligned, rfl⟩ := Program.require_returns.mp required
  obtain ⟨current, device₂, skipped, result⟩ := Program.bind_returns.mp result
  obtain ⟨nothing, device₃, required, result⟩ := Program.bind_returns.mp result
  obtain ⟨-, rfl⟩ := Program.require_returns.mp required
  obtain ⟨nothing, device₄, wrote, result⟩ := Program.bind_returns.mp result
  obtain ⟨middle, left, added, rfl, ends⟩ := fatWriteFile_ends volume file inside more skipped wrote
  obtain ⟨found, device₅, looked, result⟩ := Program.bind_returns.mp result
  obtain ⟨index, left, search, rfl, rfl⟩ := getDirEntryFromSector_inv base looked
  obtain ⟨nothing, device₆, updated, result⟩ := Program.bind_returns.mp result
  obtain ⟨rfl, rfl⟩ := Program.pure_returns.mp result
  exact ⟨aligned, rfl, middle, added, index, ends, search, writeDirEntryToSector_inv updated⟩

theorem write_reads_back_iff (volume : Fat32Volume fatData) (file : FileChain fatData bytes (first :: rest))
    (listing : IsCluster fatData directory) (busy : isFree fatData bytes directory = false)
    (apart : directory ∉ first :: rest) (entry : FileEntry fatData bytes directory first index)
    (only : forall other, FileEntry fatData bytes directory first other -> other = index)
    (inside : sectorOffset ≤ (first :: rest).length * fatData.sectorsPerCluster) (more : 1 ≤ sectorsToWrite)
    {countdown : Option Nat} {written : Nat} {device' : Device}
    (result : Returns (fatWriteFile fatData now (sectorOf fatData first) sectorOffset (sectorOf fatData directory)
      buffer sectorsToWrite) { bytes := bytes, countdown := countdown } written device') :
    (written = sectorsToWrite ∧ ∃ added, WriteReadsBack fatData bytes device'.bytes (first :: rest) added first directory
        index sectorOffset buffer sectorsToWrite) ↔
      ¬ WriteLosesLink fatData bytes countdown (first :: rest).length sectorOffset sectorsToWrite := by
  have geometry := accepted_geometry volume.accepted
  obtain ⟨aligned, whole, middle, added, found, ends, search, bytes'⟩ := fatWriteFile_inv volume file inside more result
  rcases ends with ⟨kept, done⟩ | ⟨lost, shortened⟩
  · refine iff_of_true ⟨whole, added, ?_⟩ kept
    have fresh : directory ∉ first :: rest ++ added := by
      rw [List.mem_append, not_or]
      refine ⟨apart, fun member => ?_⟩
      rw [done.new directory member] at busy
      cases busy
    have here := entry.found geometry listing only
    rw [directoryIndex, ← directoryCluster_written geometry done listing fresh, ← directoryIndex, search] at here
    obtain rfl := Option.some.inj here
    rw [bytes']
    exact writeReadsBack_entry volume file done listing apart fresh aligned more entry search
  · refine iff_of_false ?_ (not_not.mpr lost)
    rintro ⟨-, others, reads⟩
    rw [bytes'] at reads
    exact shortened_not_read volume listing inside more shortened reads

def growingVolume : Lib.Memory :=
  ((Lib.Memory.store fileVolume 4 16392 fat32EocMark).store 4 1000 65534).store 4 1004 4

theorem fileChain_growingVolume : FileChain smallVolume growingVolume [3] :=
  fileChain_single ⟨by decide, by decide⟩ (by decide +kernel)

theorem fileEntry_growingVolume : FileEntry smallVolume growingVolume 2 3 0 := by
  refine ⟨by decide, fun earlier before => ?_, by decide +kernel, by decide +kernel, by decide +kernel⟩
  obtain rfl := Nat.le_zero.mp before
  decide +kernel

theorem fileEntry_only (other : Nat) (entry : FileEntry smallVolume growingVolume 2 3 other) : other = 0 := by
  by_contra later
  exact entry.listed 1 (by omega) (by decide +kernel)

theorem returns_of_toOption {program : Driver Nat} {device : Device} {value : Nat}
    (result : (program device).toOption.map (fun ends => ends.1.toOption) = some (some value)) :
    ∃ device', Returns program device value device' := by
  rcases Program.cases_end program device with ⟨other, device', returns⟩ | ⟨code, device', fails⟩ | ⟨reason, stops⟩
  · rw [show program device = .ok (.ok other, device') from returns] at result
    cases result
    exact ⟨device', returns⟩
  · rw [show program device = .ok (.error code, device') from fails] at result
    cases result
  · rw [show program device = .error reason from stops] at result
    cases result

theorem write_reads_back_small : ∃ device' added,
    Returns (fatWriteFile smallVolume ⟨1, 1, 2020, 0, 0, 0⟩ (sectorOf smallVolume 3) 0 (sectorOf smallVolume 2)
      (fun _ => 7) 2) { bytes := growingVolume } 2 device' ∧
    WriteReadsBack smallVolume growingVolume device'.bytes [3] added 3 2 0 0 (fun _ => 7) 2 := by
  have busy : isFree smallVolume growingVolume 2 = false := by decide +kernel
  obtain ⟨device', result⟩ := @returns_of_toOption (fatWriteFile smallVolume ⟨1, 1, 2020, 0, 0, 0⟩
    (sectorOf smallVolume 3) 0 (sectorOf smallVolume 2) (fun _ => 7) 2) { bytes := growingVolume } 2 (by decide +kernel)
  have kept : ¬ WriteLosesLink smallVolume growingVolume none 1 0 2 := fun lost => losesLink_none lost.2
  obtain ⟨-, added, reads⟩ := (write_reads_back_iff smallVolume_fat32 fileChain_growingVolume ⟨by decide, by decide⟩ busy
    (by decide) fileEntry_growingVolume fileEntry_only (Nat.zero_le _) (by decide) result).mpr kept
  exact ⟨device', added, result, reads⟩

-- With the write of the link failing, the call succeeds as well and the second sector is not in the file.
theorem write_not_read_back : ∃ device',
    Returns (fatWriteFile smallVolume ⟨1, 1, 2020, 0, 0, 0⟩ (sectorOf smallVolume 3) 0 (sectorOf smallVolume 2)
      (fun _ => 7) 2) { bytes := growingVolume, countdown := some 10 } 2 device' ∧
    ¬ ∃ added, WriteReadsBack smallVolume growingVolume device'.bytes [3] added 3 2 0 0 (fun _ => 7) 2 := by
  obtain ⟨device', result⟩ := @returns_of_toOption (fatWriteFile smallVolume ⟨1, 1, 2020, 0, 0, 0⟩
    (sectorOf smallVolume 3) 0 (sectorOf smallVolume 2) (fun _ => 7) 2)
    { bytes := growingVolume, countdown := some 10 } 2 (by decide +kernel)
  refine ⟨device', result, ?_⟩
  obtain ⟨-, -, middle, added, found, ends, -, bytes'⟩ :=
    fatWriteFile_inv smallVolume_fat32 fileChain_growingVolume (Nat.zero_le _) (by decide) result
  have hint : nxtFree (fsInfoOf smallVolume growingVolume) = 4 := by decide +kernel
  have first : firstFree smallVolume growingVolume 4 (searchEnd smallVolume - 4) = some 4 := by
    rw [firstFree_some]
    exact ⟨by decide +kernel, ⟨le_refl 4, by decide⟩, fun second lower upper => by omega⟩
  have lost : WriteLosesLink smallVolume growingVolume (some 10) 1 0 2 := by
    refine ⟨fun count same => by cases same; decide, ?_⟩
    change losesLink smallVolume 1 growingVolume (some 7)
    rw [losesLink, hint, first]
    exact .inl ⟨7, rfl, by decide, by decide⟩
  rcases ends with ⟨kept, -⟩ | ⟨-, shortened⟩
  · exact absurd lost kept
  · rintro ⟨others, reads⟩
    rw [bytes'] at reads
    exact shortened_not_read smallVolume_fat32 ⟨by decide, by decide⟩ (Nat.zero_le _) (by decide) shortened reads

end WriteBack

end Hal9000.Fat32
