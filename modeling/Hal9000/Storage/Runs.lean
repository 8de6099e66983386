import Hal9000.Storage.Stack

set_option autoImplicit false

namespace Hal9000.Storage

theorem bind_of_ok {α β : Type} {first : Kernel α} {rest : α -> Kernel β} {value : α}
    (returned : first = .ok value) : (first >>= rest) = rest value := by
  rw [returned]
  rfl

theorem bind_of_error {α β : Type} {first : Kernel α} {rest : α -> Kernel β} {text : String}
    (stopped : first = .error text) : (first >>= rest) = .error text := by
  rw [stopped]
  rfl

section

variable {m : Machine}

def Machine.happened (m : Machine) (event : Event) : Machine := { m with trace := m.trace ++ [event] }

@[simp] theorem run_assert_true {text : String} :
    (liftM (assert true text) : Io Unit).run m = .ok ((), m) := rfl

theorem run_lift {α : Type} (value : Kernel α) :
    (liftM value : Io α).run m = value >>= fun result => .ok (result, m) := by
  cases value <;> rfl

@[simp] theorem run_readIrp : readIrp.run m = .ok (m.irp, m.happened .irpUsed) := rfl

@[simp] theorem run_writeIrp {change : Irp -> Irp} :
    (writeIrp change).run m = .ok ((), { m.happened .irpUsed with irp := change m.irp }) := rfl

@[simp] theorem run_changeDrive {change : AtaDevice -> AtaDevice} :
    (changeDrive change).run m = .ok ((), { m with drive := change m.drive }) := rfl

@[simp] theorem run_ioGetCurrentIrpStackLocation (valid : m.irp.currentStackLocation < 0xFF) :
    ioGetCurrentIrpStackLocation.run m =
      .ok (m.irp.stackLocations m.irp.currentStackLocation, m.happened .irpUsed) := by
  have other : (m.irp.currentStackLocation != 0xFF) = true := by simpa using Nat.ne_of_lt valid
  simp only [ioGetCurrentIrpStackLocation, StateT.run_bind, run_readIrp, Kernel.ok_bind, other, run_assert_true]
  rfl

@[simp] theorem run_ioGetNextIrpStackLocation (below : 0 < m.irp.currentStackLocation) :
    ioGetNextIrpStackLocation.run m = .ok (m.irp.currentStackLocation - 1, m.happened .irpUsed) := by
  have other : (m.irp.currentStackLocation != 0) = true := by simpa using Nat.ne_of_gt below
  simp only [ioGetNextIrpStackLocation, StateT.run_bind, run_readIrp, Kernel.ok_bind, other, run_assert_true]
  rfl

@[simp] theorem run_ioCompleteIrp (uncompleted : m.irp.completed = false) :
    ioCompleteIrp.run m =
      .ok ((), { m.happened .irpCompleted with irp := { m.irp with completed := true } }) := by
  simp only [ioCompleteIrp, StateT.run_bind, StateT.run_get, Kernel.pure_eq, Kernel.ok_bind, uncompleted,
    beq_self_eq_true, run_assert_true]
  rfl

theorem run_ioCopyCurrentStackLocationToNext (below : 0 < m.irp.currentStackLocation) :
    ioCopyCurrentStackLocationToNext.run m = .ok ((), { (m.happened .irpUsed).happened .irpUsed with
      irp := m.irp.setStackLocation (m.irp.currentStackLocation - 1)
        (m.irp.stackLocations m.irp.currentStackLocation) }) := by
  have other : (m.irp.currentStackLocation != 0) = true := by simpa using Nat.ne_of_gt below
  simp only [ioCopyCurrentStackLocationToNext, StateT.run_bind, run_readIrp, Kernel.ok_bind, other, run_assert_true]
  rfl

def Machine.called (m : Machine) : Machine :=
  { ((m.happened .irpUsed).happened .irpUsed).happened .irpUsed with
    irp := { m.irp with currentStackLocation := m.irp.currentStackLocation - 1 } }

theorem run_ioCallDriver {device : DeviceObject} {dispatch : Io Status} (below : 0 < m.irp.currentStackLocation)
    (valid : m.irp.currentStackLocation ≤ 0xFF)
    (length : isAddressAligned (m.irp.stackLocations (m.irp.currentStackLocation - 1)).length
      device.deviceAlignment = true)
    (offset : isAddressAligned (m.irp.stackLocations (m.irp.currentStackLocation - 1)).offset
      device.deviceAlignment = true)
    (found : device.dispatchFunctions (m.irp.stackLocations (m.irp.currentStackLocation - 1)).majorFunction =
      some dispatch) : (ioCallDriver device).run m = dispatch.run m.called := by
  have other : (m.irp.currentStackLocation != 0) = true := by simpa using Nat.ne_of_gt below
  have current := @run_ioGetCurrentIrpStackLocation { (m.happened .irpUsed).happened .irpUsed with
    irp := { m.irp with currentStackLocation := m.irp.currentStackLocation - 1 } } (by dsimp only; omega)
  simp only [ioCallDriver, StateT.run_bind, run_readIrp, Kernel.ok_bind, other, run_assert_true, run_writeIrp]
  refine (bind_of_ok current).trans ?_
  simp only [length, offset, found]
  rfl

@[simp] theorem run_writeAtaCommand {code : Nat} :
    (writeAtaCommand code).run m = .ok ((), m.happened (.command
      { code := code, lba := m.drive.registers.lba, sectors := m.drive.registers.sectors })) := rfl

@[simp] theorem run_ataDmaInterrupt (started : m.drive.transferState = .inProgress) :
    ataDmaInterrupt.run m = .ok ((), { m with drive := { m.drive with transferState := .finished } }) := by
  simp only [ataDmaInterrupt, StateT.run_bind, StateT.run_get, Kernel.pure_eq, Kernel.ok_bind, started,
    beq_self_eq_true, run_assert_true]
  rfl

def Overflows (memory : DmaMemory) (sectorCount buffer : Nat) (asynchronous : Bool) : Prop :=
  asynchronous = true ∧ sectorCount ≠ 0 ∧ buffer ≠ 0 ∧ TooManyRuns memory (sectorCount * sectorSize)

theorem ataReadWriteSectors_stops {sectorIndex sectorCount buffer : Nat} {asynchronous : Bool}
    (writeOperation : Bool) (small : sectorCount < 2 ^ 16)
    (overflows : Overflows m.memory sectorCount buffer asynchronous) :
    ∃ text, (ataReadWriteSectors sectorIndex sectorCount buffer asynchronous writeOperation).run m =
      .error text := by
  obtain ⟨rfl, filled, present, many⟩ := overflows
  obtain ⟨text, stopped⟩ := ataPrepareDmaTransfer_stops small many
  refine ⟨text, ?_⟩
  simp only [ataReadWriteSectors, filled, present, if_false, if_true, StateT.run_bind, run_changeDrive,
    Kernel.ok_bind, StateT.run_get, Kernel.pure_eq, run_lift, stopped, Kernel.error_bind]

structure Commanded (events : List Event) (lba sectors : Nat) : Prop where
  uncompleted : .irpCompleted ∉ events
  addressed : forall command, .command command ∈ events -> command.lba = lba ∧ command.sectors = sectors

def OnlyUses (events : List Event) : Prop := forall event, event ∈ events -> event = .irpUsed

theorem Commanded.between {before events after : List Event} {lba sectors : Nat}
    (commanded : Commanded events lba sectors) (first : OnlyUses before) (last : OnlyUses after) :
    Commanded (before ++ events ++ after) lba sectors := by
  have inside : forall event, event ∈ before ++ events ++ after -> event ≠ .irpUsed -> event ∈ events := by
    intro event member other
    rcases List.mem_append.mp member with member | member
    · rcases List.mem_append.mp member with member | member
      · exact absurd (first event member) other
      · exact member
    · exact absurd (last event member) other
  exact ⟨fun member => commanded.uncompleted (inside _ member nofun),
    fun command member => commanded.addressed command (inside _ member nofun)⟩

theorem onlyUses_nil : OnlyUses [] := fun _ => nofun

theorem onlyUses_cons {events : List Event} (rest : OnlyUses events) : OnlyUses (.irpUsed :: events) := by
  intro event member
  rcases List.mem_cons.mp member with rfl | member
  · rfl
  · exact rest event member

def Machine.commandedDrive (m : Machine) (sectorIndex sectorCount : Nat) : AtaDevice :=
  { m.drive with registers :=
      ataWriteIoParameters (ataSelectDevice m.drive.registers m.drive.slave) sectorIndex sectorCount }

theorem ataReadWriteSectors_returns {sectorIndex sectorCount buffer : Nat} {asynchronous : Bool}
    (writeOperation : Bool) (index : sectorIndex < 2 ^ 48) (small : sectorCount < 2 ^ 16)
    (started : m.drive.transferState = .inProgress)
    (fits : ¬ Overflows m.memory sectorCount buffer asynchronous) :
    ∃ result drive events,
      (ataReadWriteSectors sectorIndex sectorCount buffer asynchronous writeOperation).run m =
        .ok (result, { m with drive := drive, trace := m.trace ++ events }) ∧
      Commanded events sectorIndex sectorCount := by
  have quiet : Commanded [] sectorIndex sectorCount := ⟨List.not_mem_nil, fun _ => nofun⟩
  by_cases empty : sectorCount = 0
  · refine ⟨(.invalidParameter3, 0), m.drive, [], ?_, quiet⟩
    simp only [ataReadWriteSectors, empty, if_true, List.append_nil]
    rfl
  by_cases absent : buffer = 0
  · refine ⟨(.invalidParameter4, 0), m.drive, [], ?_, quiet⟩
    simp only [ataReadWriteSectors, empty, absent, if_false, if_true, List.append_nil]
    rfl
  have addressed := ataWriteIoParameters_lba (ataSelectDevice m.drive.registers m.drive.slave) sectorCount index
  have counted := ataWriteIoParameters_sectors (ataSelectDevice m.drive.registers m.drive.slave) sectorIndex
    (Nat.pos_of_ne_zero empty) small
  have commanded : forall code, Commanded [.command { code := code, lba := sectorIndex, sectors := sectorCount }]
      sectorIndex sectorCount := by
    intro code
    refine ⟨by simp, fun command member => ?_⟩
    rw [Event.command.inj (List.mem_singleton.mp member)]
    exact ⟨rfl, rfl⟩
  cases asynchronous with
  | false =>
    refine ⟨(.success, sectorCount), m.commandedDrive sectorIndex sectorCount, _, ?_,
      commanded (ataCommandCode false writeOperation)⟩
    simp only [ataReadWriteSectors, empty, absent, if_false, Bool.false_eq_true, StateT.run_bind, run_changeDrive,
      Kernel.ok_bind, run_writeAtaCommand, addressed, counted]
    rfl
  | true =>
    have few : ¬ TooManyRuns m.memory (sectorCount * sectorSize) := fun many => fits ⟨rfl, empty, absent, many⟩
    obtain ⟨⟨status, prepared⟩, outcome⟩ := ataPrepareDmaTransfer_returns small few
    cases prepared with
    | none =>
      refine ⟨(status, 0), m.commandedDrive sectorIndex sectorCount, [], ?_, quiet⟩
      simp only [ataReadWriteSectors, empty, absent, if_false, if_true, StateT.run_bind, run_changeDrive,
        Kernel.ok_bind, StateT.run_get, Kernel.pure_eq, run_lift, outcome, List.append_nil]
      rfl
    | some transfer =>
      refine ⟨(.success, sectorCount), { m.commandedDrive sectorIndex sectorCount with
          transferState := .finished, prdt := none }, _, ?_, commanded (ataCommandCode true writeOperation)⟩
      simp only [ataReadWriteSectors, empty, absent, if_false, if_true, StateT.run_bind, run_changeDrive,
        Kernel.ok_bind, StateT.run_get, Kernel.pure_eq, run_lift, outcome, run_writeAtaCommand, addressed, counted]
      rw [run_ataDmaInterrupt (by exact started)]
      rfl

structure AtaAccepts (drive : AtaDevice) (location : IoStackLocation) : Prop where
  aligned : ataCheckAlignment location.length location.offset = .success
  count : location.length / sectorSize ≤ maxWord
  checked : ataCheckIoParameters drive (location.offset / sectorSize) (location.length / sectorSize) = .success

def TransferOverflows (m : Machine) (location : IoStackLocation) : Prop :=
  AtaAccepts m.drive location ∧
    Overflows m.memory (location.length / sectorSize) m.irp.buffer m.irp.asynchronous

theorem ataCheckIoParameters_lt {device : AtaDevice} {sectorIndex sectorCount : Nat}
    (checked : ataCheckIoParameters device sectorIndex sectorCount = .success) : sectorIndex < 2 ^ 48 := by
  simp only [ataCheckIoParameters] at checked
  split at checked
  · cases checked
  split at checked
  · cases checked
  split at checked
  · cases checked
  · rename_i small
    simp only [lba48MaxValue] at small
    omega

theorem ataTransfer_stops {location : IoStackLocation} (free : m.drive.transferState = .free)
    (overflows : TransferOverflows m location) : ∃ text, (ataTransfer location).run m = .error text := by
  obtain ⟨accepts, overflows⟩ := overflows
  have count := accepts.count
  have small : location.length / sectorSize < 2 ^ 16 := by
    simp only [maxWord] at count
    omega
  have whole : word (location.length / sectorSize) = location.length / sectorSize := Nat.mod_eq_of_lt small
  obtain ⟨text, stopped⟩ := @ataReadWriteSectors_stops
    { m.happened .irpUsed with drive := { m.drive with transferState := .inProgress } }
    (location.offset / sectorSize) _ _ _ (location.majorFunction == .write) small overflows
  refine ⟨text, ?_⟩
  simp only [ataTransfer, accepts.aligned, accepts.checked, whole, Nat.not_lt.mpr count, ne_eq, not_true_eq_false,
    if_false, StateT.run_bind, StateT.run_get, Kernel.pure_eq, Kernel.ok_bind, free, beq_self_eq_true,
    run_assert_true, run_changeDrive, run_readIrp]
  exact bind_of_error stopped

def Passed (m m' : Machine) (lba sectors : Nat) : Prop :=
  ∃ drive events, m' = { m with drive := drive, trace := m.trace ++ events } ∧
    drive.transferState = .free ∧ Commanded events lba sectors

theorem passed_self {lba sectors : Nat} (free : m.drive.transferState = .free) : Passed m m lba sectors := by
  refine ⟨m.drive, [], ?_, free, List.not_mem_nil, fun _ => nofun⟩
  rw [List.append_nil]

theorem ataTransfer_returns {location : IoStackLocation} (free : m.drive.transferState = .free)
    (fits : ¬ TransferOverflows m location) :
    ∃ result m', (ataTransfer location).run m = .ok (result, m') ∧
      Passed m m' (location.offset / sectorSize) (location.length / sectorSize) := by
  by_cases aligned : ataCheckAlignment location.length location.offset = .success
  swap
  · refine ⟨(ataCheckAlignment location.length location.offset, 0), m, ?_, passed_self free⟩
    simp only [ataTransfer, ne_eq, aligned, not_false_eq_true, if_true]
    rfl
  by_cases many : location.length / sectorSize > maxWord
  · refine ⟨(.deviceSectorCountExceeded, 0), m, ?_, passed_self free⟩
    simp only [ataTransfer, ne_eq, aligned, not_true_eq_false, if_false, many, if_true]
    rfl
  have small : location.length / sectorSize < 2 ^ 16 := by
    simp only [maxWord] at many
    omega
  have whole : word (location.length / sectorSize) = location.length / sectorSize := Nat.mod_eq_of_lt small
  by_cases checked : ataCheckIoParameters m.drive (location.offset / sectorSize)
      (location.length / sectorSize) = .success
  swap
  · refine ⟨(ataCheckIoParameters m.drive (location.offset / sectorSize) (location.length / sectorSize), 0), m, ?_,
      passed_self free⟩
    simp only [ataTransfer, ne_eq, aligned, not_true_eq_false, if_false, many, whole, StateT.run_bind,
      StateT.run_get, Kernel.pure_eq, Kernel.ok_bind, checked, not_false_eq_true, if_true]
    rfl
  have few : ¬ Overflows m.memory (location.length / sectorSize) m.irp.buffer m.irp.asynchronous :=
    fun overflows => fits ⟨⟨aligned, Nat.le_of_not_lt many, checked⟩, overflows⟩
  obtain ⟨result, drive, events, returned, commanded⟩ := @ataReadWriteSectors_returns
    { m.happened .irpUsed with drive := { m.drive with transferState := .inProgress } }
    _ _ _ _ (location.majorFunction == .write) (ataCheckIoParameters_lt checked) small rfl few
  refine ⟨result, _, ?_, { drive with transferState := .free }, [.irpUsed] ++ events, rfl, rfl, ?_⟩
  · simp only [ataTransfer, ne_eq, aligned, not_true_eq_false, if_false, many, whole, StateT.run_bind,
      StateT.run_get, Kernel.pure_eq, Kernel.ok_bind, checked, free, beq_self_eq_true,
      run_assert_true, run_changeDrive, run_readIrp]
    refine (bind_of_ok returned).trans ?_
    rw [← List.append_assoc]
    rfl
  · simpa using commanded.between (onlyUses_cons onlyUses_nil) onlyUses_nil

structure Handled (m m' : Machine) (lba sectors : Nat) : Prop where
  free : m'.drive.transferState = .free
  trace : ∃ events, m'.trace = m.trace ++ events ++ [.irpCompleted] ∧ Commanded events lba sectors

def Machine.location (m : Machine) : IoStackLocation := m.irp.stackLocations m.irp.currentStackLocation

theorem ataDispatchReadWrite_stops (valid : m.irp.currentStackLocation < 0xFF)
    (free : m.drive.transferState = .free) (overflows : TransferOverflows m m.location) :
    ∃ text, ataDispatchReadWrite.run m = .error text := by
  obtain ⟨text, stopped⟩ := @ataTransfer_stops (m.happened .irpUsed) m.location free overflows
  refine ⟨text, ?_⟩
  rw [ataDispatchReadWrite, StateT.run_bind, run_ioGetCurrentIrpStackLocation valid, Kernel.ok_bind, StateT.run_bind]
  exact bind_of_error stopped

theorem ataDispatchReadWrite_returns (valid : m.irp.currentStackLocation < 0xFF)
    (uncompleted : m.irp.completed = false) (free : m.drive.transferState = .free)
    (fits : ¬ TransferOverflows m m.location) :
    ∃ m', ataDispatchReadWrite.run m = .ok (.success, m') ∧
      Handled m m' (m.location.offset / sectorSize) (m.location.length / sectorSize) := by
  obtain ⟨result, _, returned, drive, events, rfl, idle, commanded⟩ :=
    @ataTransfer_returns (m.happened .irpUsed) m.location free fits
  let irp : Irp :=
    { m.irp with status := result.1, information := result.2 * sectorSize, completed := true }
  have grown : m.trace ++ [.irpUsed] ++ events ++ [.irpUsed] ++ [.irpCompleted] =
      m.trace ++ ([.irpUsed] ++ events ++ [.irpUsed]) ++ [.irpCompleted] := by simp
  refine ⟨{ m with
    irp := irp
    drive := drive
    trace := m.trace ++ ([.irpUsed] ++ events ++ [.irpUsed]) ++ [.irpCompleted] }, ?_, idle, _, rfl, ?_⟩
  · rw [ataDispatchReadWrite, StateT.run_bind, run_ioGetCurrentIrpStackLocation valid, Kernel.ok_bind,
      StateT.run_bind]
    refine (bind_of_ok returned).trans ?_
    simp only [StateT.run_bind, run_writeIrp, Kernel.ok_bind]
    rw [run_ioCompleteIrp (by exact uncompleted), ← grown]
    rfl
  · exact commanded.between (onlyUses_cons onlyUses_nil) (onlyUses_cons onlyUses_nil)

theorem aligned_sectorSize {value : Nat} : isAddressAligned value sectorSize = decide (qword value % 2 ^ 9 = 0) := by
  have size : sectorSize = 2 ^ 9 := rfl
  have wrapped : isAddressAligned value sectorSize = isAddressAligned (qword value) sectorSize := by
    simp only [isAddressAligned, qword, Nat.mod_mod]
  rw [wrapped, size, isAddressAligned_two_pow _ _ (by omega) (qword_lt _)]

def Machine.forwarded (m : Machine) : Machine :=
  Machine.called { (m.happened .irpUsed).happened .irpUsed with
    irp := m.irp.setStackLocation (m.irp.currentStackLocation - 1) m.location }

theorem forwarded_location : m.forwarded.location = m.location := by
  simp only [Machine.forwarded, Machine.called, Machine.location, Machine.happened, Irp.setStackLocation, if_true]

theorem run_diskDispatchReadWrite (below : 0 < m.irp.currentStackLocation)
    (valid : m.irp.currentStackLocation ≤ 0xFF)
    (length : isAddressAligned m.location.length sectorSize = true)
    (offset : isAddressAligned m.location.offset sectorSize = true) :
    diskDispatchReadWrite.run m = ataDispatchReadWrite.run m.forwarded := by
  rw [diskDispatchReadWrite, StateT.run_bind, run_ioCopyCurrentStackLocationToNext below, Kernel.ok_bind]
  have copied : (m.irp.setStackLocation (m.irp.currentStackLocation - 1) m.location).stackLocations
      (m.irp.currentStackLocation - 1) = m.location := if_pos rfl
  refine run_ioCallDriver below valid ?_ ?_ rfl
  · rw [← copied] at length
    exact length
  · rw [← copied] at offset
    exact offset

variable {volume : PartitionInformation}

def diskLocation (volume : PartitionInformation) (location : IoStackLocation) : IoStackLocation :=
  { location with offset := qword (qword (location.offset / sectorSize + volume.offsetInDisk) * sectorSize) }

def Machine.passDown (m : Machine) (change : IoStackLocation -> IoStackLocation) : Machine :=
  let copied := m.irp.setStackLocation (m.irp.currentStackLocation - 1) m.location
  { (((m.happened .irpUsed).happened .irpUsed).happened .irpUsed).happened .irpUsed with
    irp := copied.setStackLocation (m.irp.currentStackLocation - 1)
      (change (copied.stackLocations (m.irp.currentStackLocation - 1))) }

def Machine.lowered (m : Machine) (volume : PartitionInformation) : Machine :=
  (m.passDown (diskLocation volume)).called

theorem lowered_location : (m.lowered volume).location = diskLocation volume m.location := by
  simp only [Machine.lowered, Machine.passDown, Machine.called, Machine.location, Machine.happened,
    Irp.setStackLocation, if_true]

theorem run_volForward (below : 0 < m.irp.currentStackLocation) (valid : m.irp.currentStackLocation ≤ 0xFF)
    (length : isAddressAligned m.location.length sectorSize = true)
    (offset : isAddressAligned (diskLocation volume m.location).offset sectorSize = true)
    (checked : volCheckIoParameters volume (m.location.offset / sectorSize)
      (m.location.length / sectorSize) = .success) :
    (volForward volume m.location).run m = diskDispatchReadWrite.run (m.lowered volume) := by
  have below' : 0 < (m.passDown (diskLocation volume)).irp.currentStackLocation := below
  have lowered : (m.passDown (diskLocation volume)).irp.stackLocations
      ((m.passDown (diskLocation volume)).irp.currentStackLocation - 1) = diskLocation volume m.location :=
    lowered_location
  have offset' : forall irp : Irp, irp.stackLocations (m.irp.currentStackLocation - 1) = m.location ->
      { irp.stackLocations (m.irp.currentStackLocation - 1) with
        offset := qword (qword (m.location.offset / sectorSize + volume.offsetInDisk) * sectorSize) } =
      diskLocation volume (irp.stackLocations (m.irp.currentStackLocation - 1)) := by
    intro irp same
    rw [diskLocation, same]
  have called : (ioCallDriver diskDeviceObject).run (m.passDown (diskLocation volume)) =
      diskDispatchReadWrite.run (m.lowered volume) := by
    refine run_ioCallDriver below' valid ?_ ?_ rfl
    · rw [lowered]
      exact length
    · rw [lowered]
      exact offset
  simp only [volForward, checked, ne_eq, not_true_eq_false, if_false]
  rw [StateT.run_bind, run_ioCopyCurrentStackLocationToNext below, Kernel.ok_bind, StateT.run_bind,
    run_ioGetNextIrpStackLocation (by exact below), Kernel.ok_bind, StateT.run_bind, run_writeIrp, Kernel.ok_bind]
  refine Eq.trans ?_ called
  have location : (m.irp.setStackLocation (m.irp.currentStackLocation - 1) m.location).stackLocations
      (m.irp.currentStackLocation - 1) = m.location := if_pos rfl
  rw [Machine.passDown, ← offset' _ location]
  rfl

end

end Hal9000.Storage
