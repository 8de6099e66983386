import Hal9000.Storage.AtaDevice

set_option autoImplicit false

namespace Hal9000.Storage

inductive MajorFunction where
  | read
  | write
  deriving DecidableEq, Repr

structure IoStackLocation where
  majorFunction : MajorFunction
  length : Nat
  offset : Nat
  deriving DecidableEq, Repr

structure Irp where
  buffer : Nat
  status : Status
  information : Nat
  completed : Bool
  asynchronous : Bool
  currentStackLocation : Nat
  stackLocations : Nat -> IoStackLocation

structure AtaCommand where
  code : Nat
  lba : Nat
  sectors : Nat
  deriving DecidableEq, Repr

inductive Event where
  | irpUsed
  | irpCompleted
  | command (command : AtaCommand)
  deriving DecidableEq, Repr

structure Machine where
  irp : Irp
  drive : AtaDevice
  memory : DmaMemory
  trace : List Event

abbrev Io := StateT Machine Kernel

def happen (event : Event) : Io Unit :=
  modify fun m => { m with trace := m.trace ++ [event] }

def readIrp : Io Irp := do
  happen .irpUsed
  return (← get).irp

def writeIrp (change : Irp -> Irp) : Io Unit := do
  happen .irpUsed
  modify fun m => { m with irp := change m.irp }

def changeDrive (change : AtaDevice -> AtaDevice) : Io Unit :=
  modify fun m => { m with drive := change m.drive }

def ioGetCurrentIrpStackLocation : Io IoStackLocation := do
  let irp <- readIrp
  assert (irp.currentStackLocation != 0xFF) "MAX_BYTE != Irp->CurrentStackLocation"
  return irp.stackLocations irp.currentStackLocation

def ioGetNextIrpStackLocation : Io Nat := do
  let irp <- readIrp
  assert (irp.currentStackLocation != 0) "0 != Irp->CurrentStackLocation"
  return irp.currentStackLocation - 1

def Irp.setStackLocation (irp : Irp) (index : Nat) (location : IoStackLocation) : Irp :=
  { irp with stackLocations := fun i => if i = index then location else irp.stackLocations i }

def ioCopyCurrentStackLocationToNext : Io Unit := do
  let irp <- readIrp
  assert (irp.currentStackLocation != 0) "0 != currentStackLocation"
  writeIrp fun irp =>
    irp.setStackLocation (irp.currentStackLocation - 1) (irp.stackLocations irp.currentStackLocation)

def ioCompleteIrp : Io Unit := do
  let m <- get
  assert (m.irp.completed == false) "FALSE == Irp->Flags.Completed"
  modify fun m => { m with irp := { m.irp with completed := true }, trace := m.trace ++ [.irpCompleted] }

structure DeviceObject where
  deviceAlignment : Nat
  stackSize : Nat
  dispatchFunctions : MajorFunction -> Option (Io Status)

-- With one request in flight the device lock is free when it is acquired.
def ioCallDriver (device : DeviceObject) : Io Status := do
  let irp <- readIrp
  assert (irp.currentStackLocation != 0) "0 != Irp->CurrentStackLocation"
  writeIrp fun irp => { irp with currentStackLocation := irp.currentStackLocation - 1 }
  let location <- ioGetCurrentIrpStackLocation
  if isAddressAligned location.length device.deviceAlignment = false then
    return .deviceAlignmentNoSatisfied
  else if isAddressAligned location.offset device.deviceAlignment = false then
    return .deviceAlignmentNoSatisfied
  else
    match device.dispatchFunctions location.majorFunction with
    | none => return .deviceInvalidOperation
    | some dispatch => dispatch

def lba48MaxValue : Nat := 0x0000FFFFFFFFFFFF

def ataCheckAlignment (size offset : Nat) : Status :=
  if isAddressAligned size sectorSize = false then .deviceDataAlignmentError
  else if isAddressAligned offset sectorSize = false then .deviceDataAlignmentError
  else .success

def ataCheckIoParameters (device : AtaDevice) (sectorIndex sectorCount : Nat) : Status :=
  if device.initialized = false then .deviceNotInitialized
  else if sectorIndex ≥ device.totalSectors then .deviceSectorOffsetExceeded
  else if sectorIndex ≥ lba48MaxValue then .deviceSectorOffsetExceeded
  else if device.totalSectors - sectorIndex < sectorCount then .deviceSectorCountExceeded
  else .success

def ataCommandCode (asynchronous writeOperation : Bool) : Nat :=
  if writeOperation then (if asynchronous then 0x35 else 0x34)
  else if asynchronous then 0x25 else 0x24

def writeAtaCommand (code : Nat) : Io Unit := do
  let registers := (← get).drive.registers
  happen (.command { code := code, lba := registers.lba, sectors := registers.sectors })

-- The interrupt of a transfer that went well.
def ataDmaInterrupt : Io Unit := do
  let drive := (← get).drive
  assert (drive.transferState == .inProgress)
    "AtaTransferStateInProgress == _InterlockedCompareExchange(&pAtaDev->CurrentTransfer.State, ..)"
  changeDrive fun drive => { drive with transferState := .finished }

-- The status and the sectors read or written. The drive becomes idle and ready when it is waited for.
def ataReadWriteSectors (sectorIndex sectorCount buffer : Nat) (asynchronous writeOperation : Bool) :
    Io (Status × Nat) := do
  if sectorCount = 0 then return (.invalidParameter3, 0)
  else if buffer = 0 then return (.invalidParameter4, 0)
  else
    changeDrive fun drive => { drive with
      registers := ataWriteIoParameters (ataSelectDevice drive.registers drive.slave) sectorIndex sectorCount }
    if asynchronous then
      let (status, prepared) <- ataPrepareDmaTransfer (← get).memory sectorCount
      match prepared with
      | none => return (status, 0)
      | some transfer =>
        changeDrive fun drive => { drive with prdt := some transfer.prdt }
        writeAtaCommand (ataCommandCode asynchronous writeOperation)
        -- ExEventWaitForSignal: the wait ends with the interrupt.
        ataDmaInterrupt
        let drive := (← get).drive
        assert (drive.transferState == .finished)
          "AtaTransferStateFinished == _InterlockedAnd(&Device->CurrentTransfer.State, MAX_DWORD)"
        assert (drive.prdt != none) "NULL != Device->CurrentTransfer.Prdt"
        changeDrive fun drive => { drive with prdt := none }
        return (.success, sectorCount)
    else
      writeAtaCommand (ataCommandCode asynchronous writeOperation)
      return (.success, sectorCount)

-- The __try block of AtaDispatchReadWrite.
def ataTransfer (location : IoStackLocation) : Io (Status × Nat) := do
  let writeOperation := location.majorFunction == .write
  let aligned := ataCheckAlignment location.length location.offset
  if aligned ≠ .success then return (aligned, 0)
  else
    let sectorIndex := location.offset / sectorSize
    let sectorCount := location.length / sectorSize
    if sectorCount > maxWord then return (.deviceSectorCountExceeded, 0)
    else
      let drive := (← get).drive
      let checked := ataCheckIoParameters drive sectorIndex (word sectorCount)
      if checked ≠ .success then return (checked, 0)
      else
        assert (drive.transferState == .free)
          "AtaTransferStateFree == _InterlockedCompareExchange(&pAtaDevice->CurrentTransfer.State, ..)"
        changeDrive fun drive => { drive with transferState := .inProgress }
        let irp <- readIrp
        let result <- ataReadWriteSectors sectorIndex (word sectorCount) irp.buffer irp.asynchronous writeOperation
        changeDrive fun drive => { drive with transferState := .free }
        return result

def ataDispatchReadWrite : Io Status := do
  let location <- ioGetCurrentIrpStackLocation
  let (status, sectorsRead) <- ataTransfer location
  writeIrp fun irp => { irp with status := status, information := sectorsRead * sectorSize }
  ioCompleteIrp
  return .success

def ataDeviceObject : DeviceObject where
  deviceAlignment := sectorSize
  stackSize := 1
  dispatchFunctions _ := some ataDispatchReadWrite

def diskDispatchReadWrite : Io Status := do
  ioCopyCurrentStackLocationToNext
  ioCallDriver ataDeviceObject

def diskDeviceObject : DeviceObject where
  deviceAlignment := ataDeviceObject.deviceAlignment
  stackSize := ataDeviceObject.stackSize + 1
  dispatchFunctions _ := some diskDispatchReadWrite

structure MbrPartitionEntry where
  firstSectorLba : UInt32
  numberOfSectors : UInt32
  deriving DecidableEq, Repr

structure PartitionInformation where
  offsetInDisk : Nat
  partitionSize : Nat
  deriving DecidableEq, Repr

-- The sum is a DWORD; DiskOffset is 0 or where the extended partition starts.
def partitionInformation (entry : MbrPartitionEntry) (diskOffset : UInt32) : PartitionInformation where
  offsetInDisk := (entry.firstSectorLba + diskOffset).toNat
  partitionSize := entry.numberOfSectors.toNat

def volCheckIoParameters (volume : PartitionInformation) (sectorIndex sectorCount : Nat) : Status :=
  if sectorIndex ≥ volume.partitionSize then .deviceSectorOffsetExceeded
  else if volume.partitionSize - sectorIndex < sectorCount then .deviceSectorCountExceeded
  else .success

-- The __try block of VolDispatchReadWrite.
def volForward (volume : PartitionInformation) (location : IoStackLocation) : Io Status := do
  let lengthInSectors := location.length / sectorSize
  let offsetInSectors := location.offset / sectorSize
  let checked := volCheckIoParameters volume offsetInSectors lengthInSectors
  if checked ≠ .success then return checked
  else
    ioCopyCurrentStackLocationToNext
    let next <- ioGetNextIrpStackLocation
    writeIrp fun irp => irp.setStackLocation next { irp.stackLocations next with
      offset := qword (qword (offsetInSectors + volume.offsetInDisk) * sectorSize) }
    ioCallDriver diskDeviceObject

-- Its __finally block: with success the lower driver has set the status.
def volFinish (status : Status) : Io Unit := do
  if status ≠ .success then
    writeIrp fun irp => { irp with status := status }
    ioCompleteIrp

def volDispatchReadWrite (volume : PartitionInformation) : Io Status := do
  let location <- ioGetCurrentIrpStackLocation
  let status <- volForward volume location
  volFinish status
  return .success

def volumeDeviceObject (volume : PartitionInformation) : DeviceObject where
  deviceAlignment := diskDeviceObject.deviceAlignment
  stackSize := diskDeviceObject.stackSize + 1
  dispatchFunctions _ := some (volDispatchReadWrite volume)

-- What the caller of IoReadDeviceEx or IoWriteDeviceEx asks for.
structure Request where
  majorFunction : MajorFunction
  buffer : Nat
  length : UInt64
  offset : UInt64
  asynchronous : Bool
  memory : DmaMemory

def emptyStackLocation : IoStackLocation := { majorFunction := .read, length := 0, offset := 0 }

-- A new IRP is zeroed, and IoCallDriver decrements its stack location before its first use.
def ioAllocateIrp (stackSize : Nat) : Irp where
  buffer := 0
  status := .success
  information := 0
  completed := false
  asynchronous := false
  currentStackLocation := stackSize
  stackLocations _ := emptyStackLocation

def Request.irp (request : Request) (device : DeviceObject) : Irp :=
  { (ioAllocateIrp device.stackSize).setStackLocation (device.stackSize - 1)
      { majorFunction := request.majorFunction, length := request.length.toNat, offset := request.offset.toNat } with
    buffer := request.buffer
    asynchronous := request.asynchronous }

def serve (volume : PartitionInformation) (drive : AtaDevice) (request : Request) : Kernel (Status × Machine) :=
  let device := volumeDeviceObject volume
  (ioCallDriver device).run { irp := request.irp device, drive := drive, memory := request.memory, trace := [] }

end Hal9000.Storage
