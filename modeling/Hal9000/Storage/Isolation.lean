import Hal9000.Lib.Transition
import Hal9000.Storage.Runs

set_option autoImplicit false

namespace Hal9000.Storage

structure Volume where
  entry : MbrPartitionEntry
  diskOffset : UInt32
  deriving DecidableEq, Repr

def Volume.partition (volume : Volume) : PartitionInformation :=
  partitionInformation volume.entry volume.diskOffset

structure Request.Aligned (request : Request) (volume : Volume) : Prop where
  length : isAddressAligned request.length.toNat (volumeDeviceObject volume.partition).deviceAlignment = true
  offset : isAddressAligned request.offset.toNat (volumeDeviceObject volume.partition).deviceAlignment = true

def Request.firstSector (request : Request) : Nat := request.offset.toNat / sectorSize

def Request.sectors (request : Request) : Nat := request.length.toNat / sectorSize

def Request.Fits (request : Request) (volume : Volume) : Prop :=
  request.firstSector + request.sectors ≤ volume.partition.partitionSize

structure Addresses (volume : Volume) (request : Request) (command : AtaCommand) : Prop where
  lba : command.lba = request.firstSector + volume.partition.offsetInDisk
  sectors : command.sectors = request.sectors
  inside : forall sector, command.lba ≤ sector -> sector < command.lba + command.sectors ->
    volume.partition.offsetInDisk ≤ sector ∧
      sector < volume.partition.offsetInDisk + volume.partition.partitionSize

def CompletedLast (trace : List Event) : Prop :=
  ∃ before, trace = before ++ [.irpCompleted] ∧ .irpCompleted ∉ before

def Isolated (volume : Volume) (drive : AtaDevice) (request : Request) : Prop :=
  ∃ status m, serve volume.partition drive request = .ok (status, m) ∧
    (forall command, .command command ∈ m.trace -> Addresses volume request command) ∧
    (¬ request.Fits volume -> m.irp.status ≠ .success ∧ forall command, .command command ∉ m.trace) ∧
    CompletedLast m.trace

-- An asynchronous transfer that nothing refuses, of a buffer whose PRD table needs more than a page.
structure PrdTableOverflows (volume : Volume) (drive : AtaDevice) (request : Request) : Prop where
  asynchronous : request.asynchronous = true
  buffer : request.buffer ≠ 0
  nonempty : request.sectors ≠ 0
  count : request.sectors ≤ maxWord
  fits : request.Fits volume
  checked : ataCheckIoParameters drive (request.firstSector + volume.partition.offsetInDisk)
    request.sectors = .success
  runs : TooManyRuns request.memory request.length.toNat

-- One request after the other, to any volume of the disk; IoCallDriver refuses the unaligned ones
-- before a driver sees them.
def driveSystem : Lib.TransitionSystem AtaDevice (Volume × Request) where
  initial drive := drive.transferState = .free
  step drive label after := label.2.Aligned label.1 ∧
    ∃ status m, serve label.1.partition drive label.2 = .ok (status, m) ∧ after = m.drive

section

variable {volume : Volume} {drive : AtaDevice} {request : Request}

def arrived (volume : Volume) (drive : AtaDevice) (request : Request) : Machine :=
  Machine.called { irp := request.irp (volumeDeviceObject volume.partition), drive := drive
                   memory := request.memory, trace := [] }

theorem serve_eq (aligned : request.Aligned volume) :
    serve volume.partition drive request =
      (volDispatchReadWrite volume.partition).run (arrived volume drive request) :=
  run_ioCallDriver (Nat.succ_pos 2) (by exact (by decide : 3 ≤ 0xFF)) aligned.length aligned.offset rfl

theorem volCheckIoParameters_fits {volume : PartitionInformation} {sectorIndex sectorCount : Nat}
    (checked : volCheckIoParameters volume sectorIndex sectorCount = .success) :
    sectorIndex < volume.partitionSize ∧ sectorIndex + sectorCount ≤ volume.partitionSize := by
  simp only [volCheckIoParameters] at checked
  split at checked
  · cases checked
  split at checked
  · cases checked
  · omega

theorem volCheckIoParameters_eq {volume : PartitionInformation} {sectorIndex sectorCount : Nat}
    (fits : sectorIndex + sectorCount ≤ volume.partitionSize) (nonempty : sectorCount ≠ 0) :
    volCheckIoParameters volume sectorIndex sectorCount = .success := by
  rw [volCheckIoParameters, if_neg (by omega), if_neg (by omega)]

theorem diskLocation_offset
    (checked : volCheckIoParameters volume.partition request.firstSector request.sectors = .success) :
    qword (qword (request.firstSector + volume.partition.offsetInDisk) * sectorSize) =
      (request.firstSector + volume.partition.offsetInDisk) * sectorSize := by
  have below := (volCheckIoParameters_fits checked).1
  have size : volume.partition.partitionSize < 2 ^ 32 := volume.entry.numberOfSectors.toNat_lt
  have start : volume.partition.offsetInDisk < 2 ^ 32 := (volume.entry.firstSectorLba + volume.diskOffset).toNat_lt
  have inner : qword (request.firstSector + volume.partition.offsetInDisk) =
      request.firstSector + volume.partition.offsetInDisk := qword_of_lt (by omega)
  rw [inner]
  exact qword_of_lt (by simp only [sectorSize]; omega)

theorem sectors_mul (aligned : request.Aligned volume) : request.sectors * sectorSize = request.length.toNat := by
  have multiple : isAddressAligned request.length.toNat sectorSize = true := aligned.length
  rw [aligned_sectorSize, qword_of_lt request.length.toNat_lt, decide_eq_true_iff] at multiple
  simp only [Request.sectors, sectorSize]
  omega

def requested (request : Request) : IoStackLocation :=
  { majorFunction := request.majorFunction, length := request.length.toNat, offset := request.offset.toNat }

theorem transferOverflows_iff (aligned : request.Aligned volume)
    (checked : volCheckIoParameters volume.partition request.firstSector request.sectors = .success) {m : Machine}
    (same : m.drive = drive) (memory : m.memory = request.memory) (buffer : m.irp.buffer = request.buffer)
    (asynchronous : m.irp.asynchronous = request.asynchronous) :
    TransferOverflows m (diskLocation volume.partition (requested request)) ↔
      PrdTableOverflows volume drive request := by
  have offset : (diskLocation volume.partition (requested request)).offset =
      (request.firstSector + volume.partition.offsetInDisk) * sectorSize := diskLocation_offset checked
  have first : (diskLocation volume.partition (requested request)).offset / sectorSize =
      request.firstSector + volume.partition.offsetInDisk := by
    rw [offset]
    exact Nat.mul_div_cancel _ (by decide)
  have count : (diskLocation volume.partition (requested request)).length / sectorSize = request.sectors := rfl
  constructor
  · intro ⟨accepts, overflows⟩
    obtain ⟨waits, nonempty, present, runs⟩ := overflows
    rw [count, memory, sectors_mul aligned] at runs
    have passed := accepts.checked
    rw [same, first, count] at passed
    exact {
      asynchronous := asynchronous.symm.trans waits
      buffer := by rwa [buffer] at present
      nonempty := nonempty
      count := accepts.count
      fits := (volCheckIoParameters_fits checked).2
      checked := passed
      runs := runs }
  · intro overflows
    refine ⟨⟨?_, overflows.count, ?_⟩, asynchronous.trans overflows.asynchronous, overflows.nonempty, ?_, ?_⟩
    · have length : isAddressAligned request.length.toNat sectorSize = true := aligned.length
      have even : isAddressAligned (diskLocation volume.partition (requested request)).offset sectorSize = true := by
        rw [offset, aligned_sectorSize, decide_eq_true_iff]
        simp only [qword, sectorSize]
        omega
      have down : isAddressAligned (diskLocation volume.partition (requested request)).length sectorSize = true :=
        length
      rw [ataCheckAlignment, even, down]
      rfl
    · rw [same, first, count]
      exact overflows.checked
    · rw [buffer]
      exact overflows.buffer
    · rw [count, memory, sectors_mul aligned]
      exact overflows.runs

def lowest (volume : Volume) (drive : AtaDevice) (request : Request) : Machine :=
  (((arrived volume drive request).happened .irpUsed).lowered volume.partition).forwarded

theorem lowest_location :
    (lowest volume drive request).location = diskLocation volume.partition (requested request) := by
  rw [lowest, forwarded_location, lowered_location]
  rfl

theorem lowest_trace : ∃ uses, (lowest volume drive request).trace = uses ∧ OnlyUses uses :=
  ⟨_, rfl, by simp [OnlyUses, Machine.forwarded, Machine.lowered, Machine.passDown, Machine.called, arrived,
    lowest, Machine.happened]⟩

theorem run_volDispatchReadWrite_accepted (aligned : request.Aligned volume)
    (checked : volCheckIoParameters volume.partition request.firstSector request.sectors = .success) :
    (volDispatchReadWrite volume.partition).run (arrived volume drive request) =
      ataDispatchReadWrite.run (lowest volume drive request) >>= fun outcome =>
        (do volFinish outcome.1; return .success : Io Status).run outcome.2 := by
  have offset := diskLocation_offset checked
  have even : isAddressAligned (diskLocation volume.partition (requested request)).offset sectorSize = true := by
    have written : (diskLocation volume.partition (requested request)).offset =
        (request.firstSector + volume.partition.offsetInDisk) * sectorSize := offset
    rw [written, aligned_sectorSize, decide_eq_true_iff]
    simp only [qword, sectorSize]
    omega
  have length : isAddressAligned request.length.toNat sectorSize = true := aligned.length
  have lowered : (((arrived volume drive request).happened .irpUsed).lowered volume.partition).location =
      diskLocation volume.partition (requested request) := lowered_location
  have forward : (volForward volume.partition (requested request)).run
      ((arrived volume drive request).happened .irpUsed) =
        ataDispatchReadWrite.run (lowest volume drive request) := by
    refine (run_volForward (m := (arrived volume drive request).happened .irpUsed) ?_ ?_ length even checked).trans ?_
    · exact Nat.succ_pos 1
    · exact (by decide : 2 ≤ 0xFF)
    · refine run_diskDispatchReadWrite (Nat.succ_pos 0) (by exact (by decide : 1 ≤ 0xFF)) ?_ ?_
      · rw [lowered]
        exact length
      · rw [lowered]
        exact even
  rw [volDispatchReadWrite, StateT.run_bind, run_ioGetCurrentIrpStackLocation (by exact (by decide : 2 < 0xFF)),
    Kernel.ok_bind, StateT.run_bind, ← forward]
  rfl

theorem serve_stops (free : drive.transferState = .free) (aligned : request.Aligned volume)
    (overflows : PrdTableOverflows volume drive request) :
    ∃ text, serve volume.partition drive request = .error text := by
  have checked := volCheckIoParameters_eq overflows.fits overflows.nonempty
  have transfer : TransferOverflows (lowest volume drive request) (lowest volume drive request).location := by
    rw [lowest_location]
    exact (transferOverflows_iff aligned checked rfl rfl rfl rfl).mpr overflows
  obtain ⟨text, stopped⟩ := ataDispatchReadWrite_stops (m := lowest volume drive request)
    (by exact (by decide : 0 < 0xFF)) free transfer
  refine ⟨text, ?_⟩
  rw [serve_eq aligned, run_volDispatchReadWrite_accepted aligned checked]
  exact bind_of_error stopped

theorem addresses_of_commanded {events : List Event}
    (checked : volCheckIoParameters volume.partition request.firstSector request.sectors = .success)
    (commanded : Commanded events (request.firstSector + volume.partition.offsetInDisk) request.sectors)
    {command : AtaCommand} (issued : .command command ∈ events) : Addresses volume request command := by
  obtain ⟨lba, sectors⟩ := commanded.addressed command issued
  have fits := (volCheckIoParameters_fits checked).2
  exact ⟨lba, sectors, fun sector lower upper => by omega⟩

theorem lowest_first
    (checked : volCheckIoParameters volume.partition request.firstSector request.sectors = .success) :
    (lowest volume drive request).location.offset / sectorSize =
      request.firstSector + volume.partition.offsetInDisk := by
  have offset : (diskLocation volume.partition (requested request)).offset =
      (request.firstSector + volume.partition.offsetInDisk) * sectorSize := diskLocation_offset checked
  rw [lowest_location, offset]
  exact Nat.mul_div_cancel _ (by decide)

theorem lowest_sectors : (lowest volume drive request).location.length / sectorSize = request.sectors := by
  rw [lowest_location]
  rfl

def refusedMachine (volume : Volume) (drive : AtaDevice) (request : Request) : Machine :=
  let m := (arrived volume drive request).happened .irpUsed
  { (m.happened .irpUsed).happened .irpCompleted with
    irp := { m.irp with
      status := volCheckIoParameters volume.partition request.firstSector request.sectors
      completed := true } }

theorem serve_returns (free : drive.transferState = .free) (aligned : request.Aligned volume)
    (fits : ¬ PrdTableOverflows volume drive request) :
    ∃ status m, serve volume.partition drive request = .ok (status, m) ∧ m.drive.transferState = .free ∧
      (forall command, .command command ∈ m.trace -> Addresses volume request command) ∧
      (¬ request.Fits volume -> m.irp.status ≠ .success ∧ forall command, .command command ∉ m.trace) ∧
      CompletedLast m.trace := by
  by_cases checked : volCheckIoParameters volume.partition request.firstSector request.sectors = .success
  · have transfer : ¬ TransferOverflows (lowest volume drive request) (lowest volume drive request).location := by
      rw [lowest_location, transferOverflows_iff aligned checked rfl rfl rfl rfl]
      exact fits
    obtain ⟨m, returned, idle, events, trace, commanded⟩ := ataDispatchReadWrite_returns
      (m := lowest volume drive request) (by exact (by decide : 0 < 0xFF)) rfl free transfer
    obtain ⟨uses, before, onlyUses⟩ := @lowest_trace volume drive request
    rw [lowest_first checked, lowest_sectors] at commanded
    rw [before] at trace
    have whole : Commanded (uses ++ events) (request.firstSector + volume.partition.offsetInDisk)
        request.sectors := by
      simpa using commanded.between onlyUses onlyUses_nil
    refine ⟨.success, m, ?_, idle, fun command issued => ?_, fun outside => ?_, _, trace, whole.uncompleted⟩
    · rw [serve_eq aligned, run_volDispatchReadWrite_accepted aligned checked]
      exact bind_of_ok returned
    · rw [trace] at issued
      rcases List.mem_append.mp issued with issued | completed
      · exact addresses_of_commanded checked whole issued
      · exact absurd (List.mem_singleton.mp completed) nofun
    · exact absurd (volCheckIoParameters_fits checked).2 outside
  · have quiet : forall command, .command command ∉ (refusedMachine volume drive request).trace := by
      simp [refusedMachine, arrived, Machine.called, Machine.happened]
    refine ⟨.success, refusedMachine volume drive request, ?_, free, fun command issued =>
      absurd issued (quiet command), fun _ => ⟨checked, quiet⟩, _, rfl, ?_⟩
    · have refused : (volForward volume.partition (requested request)).run
          ((arrived volume drive request).happened .irpUsed) =
            .ok (volCheckIoParameters volume.partition request.firstSector request.sectors,
              (arrived volume drive request).happened .irpUsed) := by
        have failed : volCheckIoParameters volume.partition ((requested request).offset / sectorSize)
          ((requested request).length / sectorSize) ≠ .success := checked
        simp only [volForward, if_pos failed]
        rfl
      rw [serve_eq aligned, volDispatchReadWrite, StateT.run_bind,
        run_ioGetCurrentIrpStackLocation (by exact (by decide : 2 < 0xFF)), Kernel.ok_bind, StateT.run_bind]
      refine (bind_of_ok refused).trans ?_
      simp only [volFinish, ne_eq, checked, not_false_eq_true, if_true, StateT.run_bind, run_writeIrp, Kernel.ok_bind]
      rw [run_ioCompleteIrp (by exact rfl)]
      rfl
    · simp [arrived, Machine.called, Machine.happened]

theorem drive_free {drive : AtaDevice} (reached : driveSystem.Reachable drive) : drive.transferState = .free := by
  refine reached.invariant (fun drive initial => initial) ?_
  rintro drive ⟨volume, request⟩ after free ⟨aligned, status, m, served, rfl⟩
  by_cases overflows : PrdTableOverflows volume drive request
  · obtain ⟨text, stopped⟩ := serve_stops free aligned overflows
    rw [stopped] at served
    cases served
  · obtain ⟨_, _, returned, idle, _⟩ := serve_returns free aligned overflows
    rw [returned] at served
    cases served
    exact idle

theorem volume_isolated {drive : AtaDevice} (reached : driveSystem.Reachable drive) (volume : Volume)
    (request : Request) (aligned : request.Aligned volume) :
    Isolated volume drive request ↔ ¬ PrdTableOverflows volume drive request := by
  have free := drive_free reached
  constructor
  · intro ⟨status, m, served, _⟩ overflows
    obtain ⟨text, stopped⟩ := serve_stops free aligned overflows
    rw [stopped] at served
    cases served
  · intro fits
    obtain ⟨status, m, served, _, addressed, refused, completed⟩ := serve_returns free aligned fits
    exact ⟨status, m, served, addressed, refused, completed⟩

end

def scatteredPairs (byteCount : Nat) : List MdlTranslationPair :=
  (List.range ((byteCount + 0xFFF) / pageSize)).map fun i =>
    { address := 2 * pageSize * (i + 1), numberOfBytes := pageSize }

section Scattered

variable (byteCount : Nat)

theorem scatteredPairs_length : (scatteredPairs byteCount).length = (byteCount + 0xFFF) / pageSize := by
  rw [scatteredPairs, List.length_map, List.length_range]

theorem scatteredPairs_covered : byteCount ≤ ((scatteredPairs byteCount).map MdlTranslationPair.numberOfBytes).sum := by
  have pages : MdlTranslationPair.numberOfBytes ∘ (fun i => ⟨2 * pageSize * (i + 1), pageSize⟩) =
      fun _ : Nat => pageSize := rfl
  rw [scatteredPairs, List.map_map, pages, List.map_const', List.sum_replicate_nat, List.length_range]
  simp only [pageSize]
  omega

theorem scatteredPairs_bounded : (scatteredPairs byteCount).length ≤ byteCount / pageSize + 2 := by
  rw [scatteredPairs_length]
  simp only [pageSize]
  omega

variable {byteCount}

theorem scatteredPairs_nonempty (positive : 0 < byteCount) : scatteredPairs byteCount ≠ [] := by
  intro empty
  have length := scatteredPairs_length byteCount
  rw [empty, List.length_nil] at length
  simp only [pageSize] at length
  omega

end Scattered

def scatteredMdl (byteCount : Nat) (positive : 0 < byteCount) : Mdl byteCount where
  translations := scatteredPairs byteCount
  covered := scatteredPairs_covered byteCount
  nonempty := scatteredPairs_nonempty positive
  bounded := scatteredPairs_bounded byteCount

def scatteredMemory : DmaMemory where
  mdl byteCount := if positive : 0 < byteCount then some (scatteredMdl byteCount positive) else none
  continuousMemory allocationSize :=
    if allocationSize ≤ maxDword then some ⟨pageSize, pageSize, rfl, by decide⟩ else none
  inside _ _ found := inside_of_limit (by decide) found

def sampleVolume : Volume := { entry := { firstSectorLba := 63, numberOfSectors := 4096 }, diskOffset := 0 }

def sampleDrive : AtaDevice where
  registers := { recent := fun _ => 0, previous := fun _ => 0 }
  totalSectors := 0x10000
  slave := false
  initialized := true
  transferState := .free
  prdt := none

def sampleRequest (length : UInt64) : Request where
  majorFunction := .read
  buffer := 0xFFFF800000000000
  length := length
  offset := 512
  asynchronous := true
  memory := scatteredMemory

theorem scatteredMemory_length {byteCount : Nat} {mdl : Mdl byteCount}
    (described : scatteredMemory.mdl byteCount = some mdl) :
    mdl.translations.length = (byteCount + 0xFFF) / pageSize := by
  simp only [scatteredMemory] at described
  split at described
  · cases described
    exact scatteredPairs_length byteCount
  · cases described

theorem sampleDrive_reachable : driveSystem.Reachable sampleDrive :=
  .start (show sampleDrive.transferState = .free from rfl)

theorem volume_isolated_sample : Isolated sampleVolume sampleDrive (sampleRequest 4096) :=
  (volume_isolated sampleDrive_reachable sampleVolume (sampleRequest 4096) ⟨by decide, by decide⟩).mpr
    fun overflows => by
      obtain ⟨mdl, described, many, _⟩ := overflows.runs
      rw [scatteredMemory_length described] at many
      exact absurd many (by decide)

-- A read of 257 pages: the PRD table takes 4112 bytes.
theorem request_stopped : ¬ forall drive, driveSystem.Reachable drive -> forall volume request,
    request.Aligned volume -> Isolated volume drive request := by
  intro always
  have aligned : (sampleRequest 0x101000).Aligned sampleVolume := ⟨by decide, by decide⟩
  have described : scatteredMemory.mdl 0x101000 = some (scatteredMdl 0x101000 (by decide)) := rfl
  have length := scatteredMemory_length described
  have many : TooManyRuns (sampleRequest 0x101000).memory (sampleRequest 0x101000).length.toNat := by
    refine ⟨_, described, ?_, ?_⟩
    · rw [length]
      decide
    · rw [length]
      rfl
  have overflows : PrdTableOverflows sampleVolume sampleDrive (sampleRequest 0x101000) := {
    asynchronous := rfl
    buffer := by decide
    nonempty := by decide
    count := by decide
    fits := (by decide : 1 + 2056 ≤ 4096)
    checked := by decide
    runs := many }
  obtain ⟨status, m, served, _⟩ := always sampleDrive sampleDrive_reachable sampleVolume _ aligned
  obtain ⟨text, stopped⟩ := serve_stops rfl aligned overflows
  rw [stopped] at served
  cases served

end Hal9000.Storage
