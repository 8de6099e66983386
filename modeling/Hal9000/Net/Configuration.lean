import Hal9000.Lib.Ownership
import Hal9000.Lib.Program

set_option autoImplicit false

namespace Hal9000.NetworkPort

open Lib (FreedOnce PointerHeap Program Settled Standing)

inductive Direction where
  | rx
  | tx
  deriving DecidableEq

inductive Object where
  | pciDevices
  | driverExtension
  | physicalAddresses (direction : Direction)
  | device (i : Nat)
  | portDevice (i : Nat)
  | miniport (i : Nat)
  | miniportExtension (i : Nat)
  | bufferArray (i : Nat) (direction : Direction)
  | buffer (i : Nat) (direction : Direction) (k : Nat)
  | descriptorArray (i : Nat) (direction : Direction)
  deriving DecidableEq

def Object.owner : Object -> Option Nat
  | .pciDevices | .driverExtension | .physicalAddresses _ => none
  | .device i | .portDevice i | .miniport i | .miniportExtension i | .bufferArray i _ | .buffer i _ _
  | .descriptorArray i _ => some i

-- The fields that hold pointers. `deviceExtension` is one of DEVICE_OBJECT and one of MINIPORT_DEVICE, `buffers`
-- those of NETWORK_PORT_DEVICE, and `element k` one of an array.
inductive Field where
  | deviceExtension
  | deviceObject
  | miniport
  | buffers (direction : Direction)
  | element (k : Nat)
  deriving DecidableEq

-- A call that succeeds comes back with no status of these.
inductive Status where
  | invalidParameter1
  | invalidParameter2
  | invalidBuffer
  | invalidFunction
  | deviceCouldNotBeCreated
  | heapInsufficientResources
  | deviceDoesNotExist
  | unsuccessful
  deriving DecidableEq

inductive Step where
  | device
  | deviceExtension
  | miniport
  | miniportExtension
  | bufferArray (direction : Direction)
  | buffer (direction : Direction) (k : Nat)
  | descriptorArray (direction : Direction)
  | miniportInitializeDevice
  | framesListNotEmptyEvent (direction : Direction)
  | descriptorsAvailable
  | transmitWorkerThread
  deriving DecidableEq

structure BufferDescription where
  numberOfBuffers : Nat
  descriptorSize : Nat
  bufferSize : Nat

structure MiniportFunctions where
  miniportInitializeDevice : Bool
  miniportUninitializeDevice : Bool
  miniportSendBuffer : Bool
  miniportInterruptHandler : Bool
  miniportChangeDeviceStatus : Bool

structure MiniportRegistration where
  deviceContextSize : Nat
  buffers : Direction -> BufferDescription
  miniportFunctions : MiniportFunctions

structure Port where
  heap : PointerHeap Object Field
  driverExtension : Option Object
  -- the local variables of _NetworkPortConfigureDevice, pRxBuffers and pTxBuffers in `buffers`
  devObj : Option Object
  portDevice : Option Object
  miniportDevice : Option Object
  buffers : Direction -> Option Object
  -- initialization.RxBuffers.RingBuffer and initialization.TxBuffers.RingBuffer
  ringBuffer : Direction -> Option Object
  -- the local variables of _NetworkPortInitializeMiniportBuffers
  bufferArray : Option Object
  descriptorArray : Option Object
  pciDevices : Option Object
  physicalAddresses : Direction -> Option Object
  noOfDevicesInitialized : Nat
  -- what _NetworkPortConfigureDevice returned for each device, as the LOG says
  results : List (Except Status Unit)

abbrev PortProgram := Program Port Empty Status

def allocate (object : Object) : PortProgram Unit :=
  Program.modify fun p => { p with heap := p.heap.allocate object }

def access (object : Object) : PortProgram Unit :=
  Program.modify fun p => { p with heap := p.heap.access object }

def release (object : Object) : PortProgram Unit :=
  Program.modify fun p => { p with heap := p.heap.release object }

def zero (object : Object) : PortProgram Unit :=
  Program.modify fun p => { p with heap := p.heap.zero object }

def write (object : Object) (field : Field) (value : Option Object) : PortProgram Unit :=
  Program.modify fun p => { p with heap := p.heap.write object field value }

def read (object : Object) (field : Field) : PortProgram (Option Object) :=
  fun p => .ok (.ok (p.heap.pointer object field), { p with heap := p.heap.access object })

def allocateOr (succeeds : Bool) (object : Object) (code : Status) : PortProgram Unit :=
  if succeeds then allocate object else Program.fail code

def succeedOr (succeeds : Bool) (code : Status) : PortProgram Unit :=
  if succeeds then pure () else Program.fail code

def whenSome (pointer : Option Object) (rest : Object -> PortProgram Unit) : PortProgram Unit :=
  match pointer with
  | some object => rest object
  | none => pure ()

section Device

variable (succeeds : Step -> Bool) (registration : MiniportRegistration) (i : Nat)

def createDeviceObject : PortProgram Unit := do
  allocateOr (succeeds .device) (.device i) .deviceCouldNotBeCreated
  if succeeds .deviceExtension then
    allocate (.portDevice i)
    write (.device i) .deviceExtension (some (.portDevice i))
  else
    release (.device i)
    Program.fail .deviceCouldNotBeCreated

def ioCreateDevice : PortProgram Unit := do
  createDeviceObject succeeds i
  Program.modify fun p => { p with devObj := some (.device i) }

def ioDeleteDevice (device : Object) : PortProgram Unit := do
  let deviceExtension <- read device .deviceExtension
  whenSome deviceExtension fun deviceExtension => do
    release deviceExtension
    write device .deviceExtension none
  release device

def fillBuffers (direction : Direction) : List Nat -> PortProgram Unit
  | [] => pure ()
  | k :: rest => do
    allocateOr (succeeds (.buffer direction k)) (.buffer i direction k) .heapInsufficientResources
    write (.bufferArray i direction) (.element k) (some (.buffer i direction k))
    access (.physicalAddresses direction)
    fillBuffers direction rest

def freeEach (array : Object) : List Nat -> PortProgram Unit
  | [] => pure ()
  | k :: rest => do
    let buffer <- read array (.element k)
    whenSome buffer fun buffer => do
      release buffer
      write array (.element k) none
    freeEach array rest

def freeBuffers (array : Object) (numberOfBuffers : Nat) : PortProgram Unit := do
  freeEach array (List.range numberOfBuffers)
  release array

def allocateBuffers (direction : Direction) (numberOfBuffers : Nat) : PortProgram Unit := do
  allocateOr (succeeds (.bufferArray direction)) (.bufferArray i direction) .heapInsufficientResources
  Program.modify fun p => { p with bufferArray := some (.bufferArray i direction) }
  fillBuffers succeeds i direction (List.range numberOfBuffers)
  allocateOr (succeeds (.descriptorArray direction)) (.descriptorArray i direction) .heapInsufficientResources
  Program.modify fun p => { p with descriptorArray := some (.descriptorArray i direction) }

def freeMiniportBuffers (numberOfBuffers : Nat) : PortProgram Unit := do
  let p <- Program.get
  whenSome p.descriptorArray release
  whenSome p.bufferArray fun array => freeBuffers array numberOfBuffers

-- _NetworkPortInitializeMiniportBuffers
def initializeMiniportBuffers (direction : Direction) (numberOfBuffers : Nat) : PortProgram Unit := do
  Program.modify fun p => { p with bufferArray := none, descriptorArray := none }
  Program.onFailure (allocateBuffers succeeds i direction numberOfBuffers) (freeMiniportBuffers numberOfBuffers)
  Program.modify fun p =>
    { p with
      buffers := Function.update p.buffers direction p.bufferArray
      ringBuffer := Function.update p.ringBuffer direction p.descriptorArray
      bufferArray := none
      descriptorArray := none }

def deviceInitBuffers (direction : Direction) : PortProgram Unit := do
  let p <- Program.get
  write (.portDevice i) (.buffers direction) (p.buffers direction)
  succeedOr (succeeds (.framesListNotEmptyEvent direction)) .unsuccessful

def networkPortDeviceInit : PortProgram Unit := do
  let p <- Program.get
  write (.portDevice i) .miniport p.miniportDevice
  deviceInitBuffers succeeds i .rx
  deviceInitBuffers succeeds i .tx
  succeedOr (succeeds .descriptorsAvailable) .unsuccessful
  succeedOr (succeeds .transmitWorkerThread) .unsuccessful

def uninitializeMiniport (miniport : Object) : PortProgram Unit := do
  let deviceObject <- read miniport .deviceObject
  whenSome deviceObject fun deviceObject => do
    access deviceObject
    let p <- Program.get
    whenSome p.driverExtension fun driverData => do
      access driverData
      if registration.miniportFunctions.miniportUninitializeDevice then access miniport else pure ()

def freeMiniport (miniport : Object) : PortProgram Unit := do
  let deviceExtension <- read miniport .deviceExtension
  whenSome deviceExtension fun deviceExtension => do
    release deviceExtension
    write miniport .deviceExtension none
  release miniport

def freePortBuffers (portDevice : Object) (direction : Direction) : PortProgram Unit := do
  let buffers <- read portDevice (.buffers direction)
  whenSome buffers fun buffers => do
    release buffers
    write portDevice (.buffers direction) none

def networkPortDeviceUninit (portDevice : Object) : PortProgram Unit := do
  let miniport <- read portDevice .miniport
  whenSome miniport fun miniport => do
    uninitializeMiniport registration miniport
    freeMiniport miniport
  freePortBuffers portDevice .rx
  freePortBuffers portDevice .tx
  zero portDevice

def createPort : PortProgram Unit := do
  ioCreateDevice succeeds i
  let portDevice <- read (.device i) .deviceExtension
  Program.modify fun p => { p with portDevice := portDevice }
  zero (.portDevice i)

def allocateMiniport : PortProgram Unit := do
  allocateOr (succeeds .miniport) (.miniport i) .heapInsufficientResources
  Program.modify fun p => { p with miniportDevice := some (.miniport i) }
  write (.miniport i) .deviceObject (some (.device i))

def allocateMiniportExtension : PortProgram Unit :=
  if registration.deviceContextSize ≠ 0 then do
    allocateOr (succeeds .miniportExtension) (.miniportExtension i) .heapInsufficientResources
    write (.miniport i) .deviceExtension (some (.miniportExtension i))
  else pure ()

def miniportInitializeDevice : PortProgram Unit := do
  access (.miniport i)
  succeedOr (succeeds .miniportInitializeDevice) .unsuccessful

-- The body of the __try; the ASSERT on IoRegisterInterrupt stops the kernel where that call fails.
def configureBody : PortProgram Unit := do
  createPort succeeds i
  allocateMiniport succeeds i
  allocateMiniportExtension succeeds registration i
  initializeMiniportBuffers succeeds i .rx (registration.buffers .rx).numberOfBuffers
  initializeMiniportBuffers succeeds i .tx (registration.buffers .tx).numberOfBuffers
  miniportInitializeDevice succeeds i
  networkPortDeviceInit succeeds i

-- The __finally of a configuration that failed.
def configureCleanup : PortProgram Unit := do
  let p <- Program.get
  whenSome p.portDevice (networkPortDeviceUninit registration)
  whenSome p.devObj ioDeleteDevice
  whenSome p.miniportDevice freeMiniport
  whenSome (p.buffers .rx) fun array => freeBuffers array (registration.buffers .rx).numberOfBuffers
  whenSome (p.buffers .tx) fun array => freeBuffers array (registration.buffers .tx).numberOfBuffers

-- _NetworkPortConfigureDevice
def configureDevice : PortProgram Unit := do
  Program.modify fun p =>
    { p with
      devObj := none
      portDevice := none
      miniportDevice := none
      buffers := fun _ => none
      ringBuffer := fun _ => none
      bufferArray := none
      descriptorArray := none }
  Program.onFailure (configureBody succeeds registration i) (configureCleanup registration)

end Device

structure Surroundings where
  ioGetPciDevicesMatchingSpecification : Bool
  driverExtension : Bool
  physicalAddresses : Direction -> Bool
  devices : List (Step -> Bool)

def BufferDescription.valid (b : BufferDescription) : Bool :=
  !(b.numberOfBuffers == 0 || b.descriptorSize == 0 || b.bufferSize == 0)

def MiniportFunctions.valid (f : MiniportFunctions) : Bool :=
  f.miniportInitializeDevice && f.miniportSendBuffer && f.miniportInterruptHandler && f.miniportChangeDeviceStatus

def findDevices (s : Surroundings) : PortProgram Unit :=
  if s.ioGetPciDevicesMatchingSpecification then
    if s.devices.isEmpty then pure ()
    else do
      allocate .pciDevices
      Program.modify fun p => { p with pciDevices := some .pciDevices }
  else Program.fail .unsuccessful

def allocateDriverExtension (s : Surroundings) : PortProgram Unit := do
  allocateOr s.driverExtension .driverExtension .heapInsufficientResources
  Program.modify fun p => { p with driverExtension := some .driverExtension }
  access .driverExtension

def allocatePhysicalAddresses (s : Surroundings) (direction : Direction) : PortProgram Unit := do
  allocateOr (s.physicalAddresses direction) (.physicalAddresses direction) .heapInsufficientResources
  Program.modify fun p =>
    { p with
      physicalAddresses := Function.update p.physicalAddresses direction (some (.physicalAddresses direction)) }

def configureNext (registration : MiniportRegistration) (i : Nat) (succeeds : Step -> Bool) : PortProgram Unit := do
  match <- Program.attempt (configureDevice succeeds registration i) with
  | .error code => Program.modify fun p => { p with results := p.results ++ [.error code] }
  | .ok _ => do
    Program.modify fun p =>
      { p with
        results := p.results ++ [.ok ()]
        noOfDevicesInitialized := p.noOfDevicesInitialized + 1 }
    access (.physicalAddresses .rx)
    access (.physicalAddresses .tx)

def configureDevices (registration : MiniportRegistration) : (i : Nat) -> List (Step -> Bool) -> PortProgram Unit
  | _, [] => pure ()
  | i, succeeds :: rest => do
    configureNext registration i succeeds
    configureDevices registration (i + 1) rest

def registerBody (registration : MiniportRegistration) (s : Surroundings) : PortProgram Unit := do
  findDevices s
  allocateDriverExtension s
  allocatePhysicalAddresses s .rx
  allocatePhysicalAddresses s .tx
  configureDevices registration 0 s.devices

def freeDriverExtension : PortProgram Unit := do
  let p <- Program.get
  whenSome p.driverExtension release
  Program.modify fun p => { p with driverExtension := none }

def freePhysicalAddresses (array : Object) : PortProgram Unit := do
  access array
  release array

-- The __finally of the registration, which gives the status its last value.
def registerCleanup : PortProgram Unit := do
  let p <- Program.get
  whenSome (p.physicalAddresses .rx) freePhysicalAddresses
  whenSome (p.physicalAddresses .tx) freePhysicalAddresses
  whenSome p.pciDevices release
  if p.noOfDevicesInitialized > 1 then pure ()
  else do
    freeDriverExtension
    Program.fail .deviceDoesNotExist

def registerDevices (registration : MiniportRegistration) (s : Surroundings) : PortProgram Unit := do
  let _ <- Program.attempt (registerBody registration s)
  registerCleanup

def networkPortRegisterMiniportDriver (driverObject : Option Unit) (registration : Option MiniportRegistration)
    (s : Surroundings) : PortProgram Unit :=
  match driverObject, registration with
  | none, _ => Program.fail .invalidParameter1
  | some _, none => Program.fail .invalidParameter2
  | some _, some registration =>
    if !(registration.buffers .rx).valid then Program.fail .invalidBuffer
    else if !(registration.buffers .tx).valid then Program.fail .invalidBuffer
    else if !registration.miniportFunctions.valid then Program.fail .invalidFunction
    else registerDevices registration s

def Port.initial : Port where
  heap := { log := [], pointer := fun _ _ => none }
  driverExtension := none
  devObj := none
  portDevice := none
  miniportDevice := none
  buffers := fun _ => none
  ringBuffer := fun _ => none
  bufferArray := none
  descriptorArray := none
  pciDevices := none
  physicalAddresses := fun _ => none
  noOfDevicesInitialized := 0
  results := []

structure CleansUpOnce (result : Except Status Unit) (p : Port) : Prop where
  freed : forall (i : Nat) code, p.results[i]? = some (.error code) -> forall object, object.owner = some i ->
    .allocate object ∈ p.heap.log -> FreedOnce p.heap.log object
  succeeds : result = .ok () ↔ .ok () ∈ p.results
  keeps : .ok () ∈ p.results -> .release .driverExtension ∉ p.heap.log

end Hal9000.NetworkPort
