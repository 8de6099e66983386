import Hal9000.Fat32.Reading

set_option autoImplicit false

namespace Hal9000.Fat32

open Lib (Program Gathered)
open Lib.Program (fail stop require loop Returns Fails Stops)

def directoryCluster (fatData : FatData) (bytes : Lib.Memory) (sector : Nat) : Lib.Memory :=
  bytes.slice (qword (sector * fatData.bytesPerSector)) (clusterBytes fatData)

def directoryIndex (fatData : FatData) (bytes : Lib.Memory) (sector cluster : Nat) : Option Nat :=
  findDirEntry (directoryCluster fatData bytes sector) cluster (clusterBytes fatData / sizeofDirEntry) 0

def setDirEntry (fatData : FatData) (bytes : Lib.Memory) (sector index : Nat) (entry : Lib.Memory) : Lib.Memory :=
  bytes.copy (qword (sector * fatData.bytesPerSector)) (clusterBytes fatData)
    (setDirEntryAt (directoryCluster fatData bytes sector) index entry)

section Entry

variable {fatData : FatData} {device : Device} {sector base cluster index : Nat} {entries entry : Lib.Memory}

theorem readCluster_quiet (quiet : device.countdown = none) :
    Returns (readCluster fatData sector) device (directoryCluster fatData device.bytes sector) device := by
  rw [Returns, readCluster, Returns.bind (ioReadDevice_quiet quiet)]
  simp [directoryCluster]

theorem writeCluster_quiet (quiet : device.countdown = none) :
    Returns (writeCluster fatData sector entries) device ()
      { device with
        bytes := device.bytes.copy (qword (sector * fatData.bytesPerSector)) (clusterBytes fatData) entries } := by
  rw [Returns, writeCluster, Returns.bind (ioWriteDevice_quiet quiet)]
  simp

theorem getDirEntryFromSector_some (quiet : device.countdown = none)
    (first : Returns (clusterOfSector fatData base) device cluster device)
    (found : directoryIndex fatData device.bytes sector cluster = some index) :
    Returns (getDirEntryFromSector fatData sector base) device
      (index, dirEntryAt (directoryCluster fatData device.bytes sector) index) device := by
  rw [directoryIndex] at found
  rw [Returns, getDirEntryFromSector, Returns.bind (allocate_quiet quiet), Returns.bind (readCluster_quiet quiet),
    Returns.bind first, found]
  rfl

theorem getDirEntryFromSector_none (quiet : device.countdown = none)
    (first : Returns (clusterOfSector fatData base) device cluster device)
    (missing : directoryIndex fatData device.bytes sector cluster = none) :
    Fails (getDirEntryFromSector fatData sector base) device .elementNotFound device := by
  rw [directoryIndex] at missing
  rw [Fails, getDirEntryFromSector, Returns.bind (allocate_quiet quiet), Returns.bind (readCluster_quiet quiet),
    Returns.bind first, missing]
  rfl

theorem writeDirEntryToSector_quiet (quiet : device.countdown = none) :
    Returns (writeDirEntryToSector fatData sector index entry) device ()
      { device with bytes := setDirEntry fatData device.bytes sector index entry } := by
  rw [Returns, writeDirEntryToSector, Returns.bind (allocate_quiet quiet), Returns.bind (readCluster_quiet quiet)]
  exact writeCluster_quiet quiet

end Entry

-- The buffer has the sectors [offset, offset + count) of the file that exist, and *SectorsRead is their number.
def ReadIsExact (fatData : FatData) (now : DateTime) (device : Device) (clusters : List Nat) (first sectorOffset
    dirEntrySector : Nat) (buffer : Lib.Memory) (sectorsToRead : Nat) : Prop :=
  ∃ buffer' device',
    Returns (fatReadFile fatData now (sectorOf fatData first) sectorOffset dirEntrySector buffer sectorsToRead) device
      (buffer', (wantedSectors fatData clusters sectorOffset sectorsToRead).length) device' ∧
    Gathered fatData.bytesPerSector device.bytes buffer buffer' 0
      (wantedSectors fatData clusters sectorOffset sectorsToRead)

structure ReadableSectors (fatData : FatData) (bytes : Lib.Memory) (clusters : List Nat) (first sectorOffset
    dirEntrySector sectorsToRead : Nat) : Prop where
  inside : sectorOffset < clusters.length * fatData.sectorsPerCluster
  table : sizeofFat32Entry ≤ fatData.bytesPerSector ∨ sectorOffset + sectorsToRead ≤ fatData.sectorsPerCluster
  away : Away fatData (wantedSectors fatData clusters sectorOffset sectorsToRead)
  listed : (directoryIndex fatData (afterReading fatData bytes clusters sectorOffset sectorsToRead) dirEntrySector
    first).isSome

structure Readable (fatData : FatData) (bytes : Lib.Memory) (clusters : List Nat) (first sectorOffset
    dirEntrySector sectorsToRead : Nat) : Prop where
  aligned : isAddressAligned (sectorOf fatData first) fatData.sectorsPerCluster = true
  sectors : sectorsToRead = 0 ∨
    ReadableSectors fatData bytes clusters first sectorOffset dirEntrySector sectorsToRead

section ReadFile

variable {fatData : FatData} {device : Device} {now : DateTime} {clusters rest : List Nat}
variable {first sectorOffset dirEntrySector sectorsToRead : Nat} {buffer : Lib.Memory}

theorem readClusters_remaining {transfer : Transfer} {buffer' : Lib.Memory} {remaining : Nat} {device' : Device}
    (positive : 0 < fatData.sectorsPerCluster) (some : 0 < transfer.sectors)
    (few : transfer.sectors ≤ transfer.sectorsRemaining)
    (result : Returns (readClusters fatData transfer buffer) device (buffer', remaining) device') :
    remaining < transfer.sectorsRemaining := by
  rw [readClusters] at result
  refine Program.loop_invariant
    (fun locals _ => locals.1.sectorsRemaining ≤ transfer.sectorsRemaining ∧ 0 < locals.1.sectors ∧
      locals.1.sectors ≤ locals.1.sectorsRemaining)
    (fun result _ => result.2 < transfer.sectorsRemaining) ?_ ?_ ⟨le_refl _, some, few⟩ result
  · rintro ⟨current, buffer⟩ state ⟨next, later⟩ state' ⟨most, positive, within⟩ turn
    rw [readClusterOfFile] at turn
    obtain ⟨⟨data, read⟩, middle, -, turn⟩ := Program.bind_returns.mp turn
    obtain ⟨nothing, middle', -, turn⟩ := Program.bind_returns.mp turn
    by_cases done : current.sectorsRemaining - current.sectors = 0
    · rw [if_pos done] at turn
      obtain ⟨same, -⟩ := Program.pure_returns.mp turn
      cases same
    · rw [if_neg done] at turn
      obtain ⟨sector, middle'', -, turn⟩ := Program.bind_returns.mp turn
      by_cases zero : sector = 0
      · rw [if_pos zero] at turn
        obtain ⟨same, -⟩ := Program.pure_returns.mp turn
        cases same
      · rw [if_neg zero] at turn
        obtain ⟨same, -⟩ := Program.pure_returns.mp turn
        cases same
        dsimp only at most positive within
        simp only [nextTransfer]
        omega
  · rintro ⟨current, buffer⟩ state ⟨later, remaining⟩ state' ⟨most, positive, within⟩ turn
    rw [readClusterOfFile] at turn
    obtain ⟨⟨data, read⟩, middle, -, turn⟩ := Program.bind_returns.mp turn
    obtain ⟨nothing, middle', -, turn⟩ := Program.bind_returns.mp turn
    by_cases done : current.sectorsRemaining - current.sectors = 0
    · rw [if_pos done] at turn
      obtain ⟨same, -⟩ := Program.pure_returns.mp turn
      cases same
      dsimp only at most positive within ⊢
      omega
    · rw [if_neg done] at turn
      obtain ⟨sector, middle'', -, turn⟩ := Program.bind_returns.mp turn
      by_cases zero : sector = 0
      · rw [if_pos zero] at turn
        obtain ⟨same, -⟩ := Program.pure_returns.mp turn
        cases same
        dsimp only at most positive within ⊢
        omega
      · rw [if_neg zero] at turn
        obtain ⟨same, -⟩ := Program.pure_returns.mp turn
        cases same

theorem fatReadFile_read {base current remaining : Nat} {buffer' : Lib.Memory} {device' : Device}
    (aligned : isAddressAligned base fatData.sectorsPerCluster = true) (more : sectorsToRead ≠ 0)
    (skipped : Returns (skipClusters fatData false sectorOffset base) device current device) (nonzero : current ≠ 0)
    (read : Returns (readClusters fatData (firstTransfer fatData current sectorOffset sectorsToRead) buffer) device
      (buffer', remaining) device') :
    fatReadFile fatData now base sectorOffset dirEntrySector buffer sectorsToRead device =
      (do
        let (dirEntryIndex, dirEntry) <- getDirEntryFromSector fatData dirEntrySector base
        writeDirEntryToSector fatData dirEntrySector dirEntryIndex
          (setLstAccDate dirEntry (convertDateToFatDate now))
        pure (buffer', sectorsToRead - remaining) : Driver (Lib.Memory × Nat)) device' := by
  have away : (current != 0) = true := bne_iff_ne.mpr nonzero
  rw [fatReadFile, aligned, Program.require_true, Program.pure_bind, if_neg more, Returns.bind skipped, away,
    Program.require_true, Program.pure_bind, Returns.bind read]

theorem fatReadFile_unaligned {base : Nat} (unaligned : isAddressAligned base fatData.sectorsPerCluster = false) :
    Stops (fatReadFile fatData now base sectorOffset dirEntrySector buffer sectorsToRead) device
      (.assertion "IsAddressAligned(BaseFileSector, FatData->SectorsPerCluster)") := by
  rw [Stops, fatReadFile, unaligned]
  rfl

theorem fatReadFile_none {base : Nat} (aligned : isAddressAligned base fatData.sectorsPerCluster = true) :
    Returns (fatReadFile fatData now base sectorOffset dirEntrySector buffer 0) device (buffer, 0) device := by
  rw [Returns, fatReadFile, aligned]
  rfl

theorem fatReadFile_positive (geometry : Geometry fatData) (more : sectorsToRead ≠ 0) {base count : Nat}
    {buffer' : Lib.Memory} {device' : Device}
    (result : Returns (fatReadFile fatData now base sectorOffset dirEntrySector buffer sectorsToRead) device
      (buffer', count) device') : 0 < count := by
  rw [fatReadFile, if_neg more] at result
  obtain ⟨nothing, first, -, result⟩ := Program.bind_returns.mp result
  obtain ⟨current, second, -, result⟩ := Program.bind_returns.mp result
  obtain ⟨nothing, third, -, result⟩ := Program.bind_returns.mp result
  obtain ⟨⟨buffer'', remaining⟩, fourth, read, result⟩ := Program.bind_returns.mp result
  obtain ⟨⟨index, entry⟩, fifth, -, result⟩ := Program.bind_returns.mp result
  obtain ⟨nothing, sixth, -, result⟩ := Program.bind_returns.mp result
  obtain ⟨same, -⟩ := Program.pure_returns.mp result
  have count : sectorsToRead - remaining = count := congrArg Prod.snd same
  have within : sectorOffset % fatData.sectorsPerCluster < fatData.sectorsPerCluster :=
    Nat.mod_lt _ geometry.cluster
  have less := readClusters_remaining geometry.cluster (lt_min (by omega) (by omega)) (Nat.min_le_left _ _) read
  change remaining < sectorsToRead at less
  omega

theorem wantedSectors_drop :
    wantedSectors fatData clusters sectorOffset sectorsToRead =
      wantedSectors fatData (clusters.drop (sectorOffset / fatData.sectorsPerCluster))
        (sectorOffset % fatData.sectorsPerCluster) sectorsToRead := by
  rw [wantedSectors, wantedSectors, fileSectors_drop, List.drop_drop, Nat.div_add_mod']

theorem afterReading_drop {cluster : Nat} {behind : List Nat} {bytes : Lib.Memory}
    (dropped : clusters.drop (sectorOffset / fatData.sectorsPerCluster) = cluster :: behind) :
    afterReading fatData bytes (cluster :: behind) (sectorOffset % fatData.sectorsPerCluster) sectorsToRead =
      afterReading fatData bytes clusters sectorOffset sectorsToRead := by
  have length := congrArg List.length dropped
  have last : (cluster :: behind).getLastD 0 = clusters.getLastD 0 := by
    have length := congrArg List.length dropped
    rw [List.length_drop, List.length_cons] at length
    rw [List.getLastD_eq_getLast?, List.getLastD_eq_getLast?, ← dropped, List.getLast?_drop, if_neg (by omega)]
  have split := Nat.div_add_mod' sectorOffset fatData.sectorsPerCluster
  rw [List.length_drop, List.length_cons] at length
  have total : clusters.length * fatData.sectorsPerCluster =
      sectorOffset / fatData.sectorsPerCluster * fatData.sectorsPerCluster +
        (behind.length + 1) * fatData.sectorsPerCluster := by
    rw [← Nat.add_mul]
    congr 1
    omega
  rw [afterReading, afterReading, last, List.length_cons]
  congr 1
  rw [eq_iff_iff]
  omega

theorem table_iff : sizeofFat32Entry ≤ fatData.bytesPerSector ↔ entriesPerFatSector fatData ≠ 0 := by
  rw [entriesPerFatSector, ne_eq, Nat.div_eq_zero_iff, sizeofFat32Entry]
  omega

theorem read_found {cluster : Nat} {behind : List Nat} (geometry : Geometry fatData) (quiet : device.countdown = none)
    (valid : IsCluster fatData first) (chain : Chain fatData device.bytes (cluster :: behind))
    (aligned : isAddressAligned (sectorOf fatData first) fatData.sectorsPerCluster = true) (more : sectorsToRead ≠ 0)
    (dropped : clusters.drop (sectorOffset / fatData.sectorsPerCluster) = cluster :: behind)
    (skipped : Returns (skipClusters fatData false sectorOffset (sectorOf fatData first)) device
      (sectorOf fatData cluster) device)
    (nonzero : sectorOf fatData cluster ≠ 0)
    (room : entriesPerFatSector fatData ≠ 0 ∨
      sectorOffset % fatData.sectorsPerCluster + sectorsToRead ≤ fatData.sectorsPerCluster) :
    ReadIsExact fatData now device clusters first sectorOffset dirEntrySector buffer sectorsToRead ↔
      Away fatData (wantedSectors fatData clusters sectorOffset sectorsToRead) ∧
        (directoryIndex fatData (afterReading fatData device.bytes clusters sectorOffset sectorsToRead) dirEntrySector
          first).isSome := by
  have within : sectorOffset % fatData.sectorsPerCluster < fatData.sectorsPerCluster :=
    Nat.mod_lt _ geometry.cluster
  obtain ⟨read, buffer', device', looped, run⟩ := @readClusters_chain fatData device cluster
    (sectorOffset % fatData.sectorsPerCluster) sectorsToRead behind (cluster :: behind) 0 buffer geometry quiet chain rfl
    nonzero within (by omega) room sectorsToRead (le_refl _)
  have whole := @fatReadFile_read fatData device now sectorOffset dirEntrySector sectorsToRead buffer
    (sectorOf fatData first) _ _ buffer' device' aligned more skipped nonzero looped
  have sectors := @wantedSectors_drop fatData clusters sectorOffset sectorsToRead
  rw [dropped] at sectors
  rw [ReadIsExact, sectors, ← afterReading_drop dropped]
  have most := run.most
  have number : (wantedSectors fatData (cluster :: behind) (sectorOffset % fatData.sectorsPerCluster)
      sectorsToRead).length ≤ sectorsToRead := List.length_take_le _ _
  have base := @clusterOfSector_sectorOf fatData first 0 geometry valid geometry.cluster device'
  rw [Nat.add_zero] at base
  cases found : directoryIndex fatData device'.bytes dirEntrySector first with
  | none =>
    have fails := @getDirEntryFromSector_none fatData device' dirEntrySector _ first run.quiet base found
    constructor
    · rintro ⟨buffer'', device'', result, -⟩
      rw [Returns, whole, fails.bind] at result
      cases result
    · rintro ⟨away, listed⟩
      rw [← run.after away, found] at listed
      cases listed
  | some index =>
    have entry := @getDirEntryFromSector_some fatData device' dirEntrySector _ first index run.quiet base found
    have final : Returns (fatReadFile fatData now (sectorOf fatData first) sectorOffset dirEntrySector buffer
        sectorsToRead) device (buffer', read)
        { device' with
          bytes := setDirEntry fatData device'.bytes dirEntrySector index
            (setLstAccDate (dirEntryAt (directoryCluster fatData device'.bytes dirEntrySector) index)
              (convertDateToFatDate now)) } := by
      rw [Returns, whole, Returns.bind entry]
      dsimp only
      rw [Returns.bind (writeDirEntryToSector_quiet run.quiet), Nat.sub_sub_self (by omega)]
      rfl
    constructor
    · rintro ⟨buffer'', device'', result, -⟩
      have count : read = (wantedSectors fatData (cluster :: behind) (sectorOffset % fatData.sectorsPerCluster)
          sectorsToRead).length := congrArg Prod.snd (final.unique result).1
      have away := run.whole.mp count
      rw [← run.after away, found]
      exact ⟨away, rfl⟩
    · rintro ⟨away, -⟩
      have count := run.whole.mpr away
      have gathered := run.gathered
      rw [count, List.take_length] at gathered
      rw [count] at final
      exact ⟨buffer', _, final, gathered⟩

theorem fatReadFile_skipStops {base : Nat} {reason : Stop}
    (aligned : isAddressAligned base fatData.sectorsPerCluster = true) (more : sectorsToRead ≠ 0)
    (skipped : Stops (skipClusters fatData false sectorOffset base) device reason) :
    Stops (fatReadFile fatData now base sectorOffset dirEntrySector buffer sectorsToRead) device reason := by
  rw [Stops, fatReadFile, aligned, Program.require_true, Program.pure_bind, if_neg more, skipped.bind]

theorem fatReadFile_zero {base : Nat} (aligned : isAddressAligned base fatData.sectorsPerCluster = true)
    (more : sectorsToRead ≠ 0)
    (skipped : Returns (skipClusters fatData false sectorOffset base) device 0 device) :
    Stops (fatReadFile fatData now base sectorOffset dirEntrySector buffer sectorsToRead) device
      (.assertion "0 != currentSector") := by
  rw [Stops, fatReadFile, aligned, Program.require_true, Program.pure_bind, if_neg more, Returns.bind skipped]
  rfl

theorem fatReadFile_readStops {base current : Nat} {reason : Stop}
    (aligned : isAddressAligned base fatData.sectorsPerCluster = true) (more : sectorsToRead ≠ 0)
    (skipped : Returns (skipClusters fatData false sectorOffset base) device current device) (nonzero : current ≠ 0)
    (read : Stops (readClusters fatData (firstTransfer fatData current sectorOffset sectorsToRead) buffer) device
      reason) :
    Stops (fatReadFile fatData now base sectorOffset dirEntrySector buffer sectorsToRead) device reason := by
  have away : (current != 0) = true := bne_iff_ne.mpr nonzero
  rw [Stops, fatReadFile, aligned, Program.require_true, Program.pure_bind, if_neg more, Returns.bind skipped, away,
    Program.require_true, Program.pure_bind, read.bind]

theorem not_exact_of_stops {reason : Stop}
    (stops : Stops (fatReadFile fatData now (sectorOf fatData first) sectorOffset dirEntrySector buffer sectorsToRead)
      device reason) :
    ¬ ReadIsExact fatData now device clusters first sectorOffset dirEntrySector buffer sectorsToRead := by
  rintro ⟨buffer', device', result, -⟩
  rw [Returns, stops] at result
  cases result

theorem readClusters_stops {cluster offset : Nat} (geometry : Geometry fatData) (quiet : device.countdown = none)
    (valid : IsCluster fatData cluster) (within : offset < fatData.sectorsPerCluster)
    (room : entriesPerFatSector fatData = 0) (many : fatData.sectorsPerCluster < offset + sectorsToRead) :
    Stops (readClusters fatData (chainTransfer fatData cluster offset 0 sectorsToRead) buffer) device
      .divideByZero := by
  obtain ⟨fuel, sectors⟩ := Nat.exists_eq_add_of_lt (show 0 < sectorsToRead by omega)
  have size : (chainTransfer fatData cluster offset 0 sectorsToRead).sectors = fatData.sectorsPerCluster - offset :=
    Nat.min_eq_right (by omega)
  have more : (chainTransfer fatData cluster offset 0 sectorsToRead).sectorsRemaining -
      (chainTransfer fatData cluster offset 0 sectorsToRead).sectors ≠ 0 := by
    rw [size]
    change sectorsToRead - (fatData.sectorsPerCluster - offset) ≠ 0
    omega
  have turn := @readClusterOfFile_stops fatData device (chainTransfer fatData cluster offset 0 sectorsToRead) buffer
    quiet more _ (nextSector_stops geometry room valid within false)
  have count : (chainTransfer fatData cluster offset 0 sectorsToRead).sectorsRemaining = 0 + fuel + 1 := sectors
  rw [readClusters, count]
  exact Program.loop_stops turn

theorem read_inside (geometry : Geometry fatData) (quiet : device.countdown = none)
    (chain : Chain fatData device.bytes (first :: rest)) (distinct : (first :: rest).Nodup)
    (aligned : isAddressAligned (sectorOf fatData first) fatData.sectorsPerCluster = true) (more : sectorsToRead ≠ 0)
    (inside : sectorOffset < (first :: rest).length * fatData.sectorsPerCluster) :
    ReadIsExact fatData now device (first :: rest) first sectorOffset dirEntrySector buffer sectorsToRead ↔
      ReadableSectors fatData device.bytes (first :: rest) first sectorOffset dirEntrySector sectorsToRead := by
  have valid := chain.valid List.mem_cons_self
  have few := chain.length_le distinct
  have count := geometry.count_lt
  have product : (first :: rest).length * fatData.sectorsPerCluster ≤ 2 ^ 32 * 2 ^ 8 :=
    Nat.mul_le_mul (by omega) (le_of_lt geometry.cluster_lt)
  have cluster_lt := geometry.cluster_lt
  have within : sectorOffset % fatData.sectorsPerCluster < fatData.sectorsPerCluster :=
    Nat.mod_lt _ geometry.cluster
  have below : sectorOffset % fatData.sectorsPerCluster ≤ sectorOffset := Nat.mod_le _ _
  by_cases room : entriesPerFatSector fatData ≠ 0 ∨ sectorOffset < 0 + fatData.sectorsPerCluster
  case neg =>
    rw [not_or, not_not] at room
    refine iff_of_false (not_exact_of_stops (fatReadFile_skipStops aligned more
      (skipClusters_stops geometry room.1 valid (by omega) (by omega) false))) fun readable => ?_
    rcases readable.table with table | near
    · exact table_iff.mp table room.1
    · omega
  obtain ⟨cluster, behind, dropped, priced⟩ := skipClusters_chain geometry chain rfl room (Nat.zero_le _)
    (by omega) (by omega) (show sectorOffset - 0 < sectorOffset + 1 by omega) false
  have skipped : Returns (skipClusters fatData false sectorOffset (sectorOf fatData first)) device
      (sectorOf fatData cluster) device := by
    obtain ⟨bytes, countdown⟩ := device
    obtain rfl : countdown = none := quiet
    exact priced.quiet
  rw [Nat.sub_zero] at dropped
  have later := chain.drop dropped
  have sectors := @wantedSectors_drop fatData (first :: rest) sectorOffset sectorsToRead
  rw [dropped] at sectors
  have member := @sectorOf_mem_wantedSectors fatData cluster _ sectorsToRead behind within (by omega)
  rw [← sectors] at member
  by_cases nonzero : sectorOf fatData cluster = 0
  case pos =>
    rw [nonzero] at skipped
    refine iff_of_false (not_exact_of_stops (fatReadFile_zero aligned more skipped)) fun readable => ?_
    have start : fatData.firstDataSector = 0 := by
      rw [sectorOf] at nonzero
      omega
    have least := readable.away start _ member
    omega
  by_cases table : entriesPerFatSector fatData ≠ 0 ∨
      sectorOffset % fatData.sectorsPerCluster + sectorsToRead ≤ fatData.sectorsPerCluster
  case neg =>
    rw [not_or, not_not] at table
    refine iff_of_false (not_exact_of_stops (fatReadFile_readStops aligned more skipped nonzero
      (readClusters_stops geometry quiet (later.valid List.mem_cons_self) within table.1 (by omega))))
      fun readable => ?_
    rcases readable.table with whole | near
    · exact table_iff.mp whole table.1
    · omega
  rw [read_found geometry quiet valid later aligned more dropped skipped nonzero table]
  constructor
  · rintro ⟨away, listed⟩
    have space : sizeofFat32Entry ≤ fatData.bytesPerSector ∨
        sectorOffset + sectorsToRead ≤ fatData.sectorsPerCluster := by
      rw [table_iff]
      rcases room with whole | near
      · exact .inl whole
      · rw [Nat.mod_eq_of_lt (by omega)] at table
        exact table
    exact ⟨inside, space, away, listed⟩
  · intro readable
    exact ⟨readable.away, readable.listed⟩

theorem read_exact_iff (accepted : Accepted fatData) (quiet : device.countdown = none)
    (chain : Chain fatData device.bytes (first :: rest)) (distinct : (first :: rest).Nodup) :
    ReadIsExact fatData now device (first :: rest) first sectorOffset dirEntrySector buffer sectorsToRead ↔
      Readable fatData device.bytes (first :: rest) first sectorOffset dirEntrySector sectorsToRead := by
  have geometry := accepted_geometry accepted
  cases aligned : isAddressAligned (sectorOf fatData first) fatData.sectorsPerCluster with
  | false =>
    constructor
    · rintro ⟨buffer', device', result, -⟩
      have stops := @fatReadFile_unaligned fatData device now sectorOffset dirEntrySector sectorsToRead buffer _ aligned
      rw [Returns, stops] at result
      cases result
    · intro readable
      have both := readable.aligned
      rw [aligned] at both
      cases both
  | true =>
    by_cases none : sectorsToRead = 0
    · subst none
      refine iff_of_true ⟨buffer, device, fatReadFile_none aligned, ?_⟩ ⟨aligned, .inl rfl⟩
      rw [wantedSectors, List.take_zero]
      exact Gathered.nil
    · have split : Readable fatData device.bytes (first :: rest) first sectorOffset dirEntrySector sectorsToRead ↔
          ReadableSectors fatData device.bytes (first :: rest) first sectorOffset dirEntrySector sectorsToRead :=
        ⟨fun readable => readable.sectors.resolve_left none, fun readable => ⟨aligned, .inr readable⟩⟩
      rw [split]
      by_cases inside : sectorOffset < (first :: rest).length * fatData.sectorsPerCluster
      · exact read_inside geometry quiet chain distinct aligned none inside
      · refine iff_of_false ?_ fun readable => inside readable.inside
        rintro ⟨buffer', device', result, -⟩
        have positive := fatReadFile_positive geometry none result
        rw [wantedSectors, List.drop_eq_nil_of_le (by rw [length_fileSectors]; omega), List.take_nil] at positive
        exact absurd positive (Nat.lt_irrefl 0)

def fileVolume : Lib.Memory :=
  ((Lib.Memory.store (fun _ => 0) 4 16396 fat32EocMark).store 1 541696 0x41).store 2 541722 3

theorem chain_fileVolume : Chain smallVolume fileVolume [3] := by
  have mark : link smallVolume fileVolume 3 = fat32EocMark := by decide +kernel
  refine .last ⟨by decide, by decide⟩ (.inr ?_)
  rw [mark]
  decide

theorem read_exact_small :
    ReadIsExact smallVolume ⟨1, 1, 2020, 0, 0, 0⟩ { bytes := fileVolume } [3] 3 0 1058 (fun _ => 0) 1 := by
  refine (read_exact_iff smallVolume_accepted rfl chain_fileVolume (by decide)).mpr ?_
  have index : directoryIndex smallVolume fileVolume 1058 3 = some 0 := by decide +kernel
  refine ⟨by decide, .inr ⟨by decide, .inl (by decide), ?_, ?_⟩⟩
  · intro start
    exact absurd start (by decide)
  · rw [afterReading, if_neg (by decide), index]
    rfl

theorem read_not_exact :
    Chain smallVolume fileVolume [3] ∧
      ¬ ReadIsExact smallVolume ⟨1, 1, 2020, 0, 0, 0⟩ { bytes := fileVolume } [3] 3 1 1058 (fun _ => 0) 1 := by
  refine ⟨chain_fileVolume, ?_⟩
  rintro ⟨buffer', device', result, -⟩
  have positive := fatReadFile_positive (accepted_geometry smallVolume_accepted) (by decide) result
  rw [wantedSectors, List.drop_eq_nil_of_le (by rw [length_fileSectors]; decide)] at positive
  exact absurd positive (by decide)

end ReadFile

end Hal9000.Fat32
