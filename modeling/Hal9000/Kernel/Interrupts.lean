import Hal9000.CommonLib.BitmapRuns
import Hal9000.Kernel.IoApic
import Hal9000.Lib.Program

set_option autoImplicit false

namespace Hal9000.Interrupts

open Function (update)
open Lib (Program)
open IoApic

def noOfTotalInterrupts : Nat := 256
def noOfReservedExceptions : Nat := 32
def vectorsPerIrql : Nat := 0x10

def irqlToVector (irql : Nat) : Nat := irql * 2 ^ 4 % 2 ^ 8

def vectorToIrql (vector : Nat) : Nat := vector / 2 ^ 4

inductive Code where
  | deviceInterruptPriorityNotAvailable
  | deviceInterruptNotAvailable
  | alreadyInitialized
  | heapInsufficientResources
  | pciInterrupt
  | ioApic (status : IoApic.Status)
  deriving DecidableEq, Repr

structure PciDevice where
  bus : Nat
  device : Nat
  function : Nat
  interruptPin : UInt8
  -- the Function of each Parent, the outermost bridge last
  parents : List UInt8
  -- PciDevRetrieveCapabilityById finds PCI_CAPABILITY_ID_MSI
  msiCapable : Bool
  deriving DecidableEq, Repr

inductive InterruptType where
  | legacy (irq : UInt8)
  | lapic
  | pci (pciDevice : PciDevice)
  deriving DecidableEq, Repr

structure IoInterrupt (Routine Device : Type) where
  type : InterruptType
  irql : Nat
  usable : 2 ≤ irql ∧ irql < 16
  exclusive : Bool
  serviceRoutine : Routine
  broadcastInterrupt : Bool
  deviceObject : Option Device
  -- ExAllocatePoolWithTag and _IomuProgramPciInterrupt succeed, and LapicSystemGetState is TRUE
  allocates : Bool
  programs : Bool
  lapicState : Bool

structure RegisteredInterruptEntry (Routine Device : Type) where
  function : Routine
  device : Device
  deriving DecidableEq, Repr

inductive IsrRoutine where
  | iomuGenericInterrupt
  deriving DecidableEq, Repr

structure IomuData (Routine Device : Type) where
  systemDevice : Option Device
  interruptBitmap : Bitmap
  memory : Memory
  registeredInterrupts : Nat -> List (RegisteredInterruptEntry Routine Device)
  isrRoutines : Nat -> Option IsrRoutine
  isrContexts : Nat -> Nat
  ioApicData : IoApicSystemData

variable {Routine Device : Type}

abbrev Iomu (Routine Device α : Type) := Program (IomuData Routine Device) String Code α

def call {α : Type} : Kernel α -> Iomu Routine Device α
  | .ok value => pure value
  | .error text => Program.stop text

def interruptBitmapInit (memory : Memory) (bitmapBuffer : Nat) : Kernel (Memory × Bitmap) := do
  let bitmap <- Bitmap.preinit noOfTotalInterrupts
  assert (bitmap.bufferSize == noOfTotalInterrupts / Bitmap.entryBits) "bitmapSize == sizeof(m_iomuData.BitmapBuffer)"
  let (memory, bitmap) <- Bitmap.initEx memory bitmap bitmapBuffer false
  let memory <- Bitmap.setBitsValue memory bitmap 0 noOfReservedExceptions true
  pure (memory, bitmap)

def matchesPrt (device : PciDevice) (entry : PrtEntry) : Bool :=
  entry.bus == device.bus && entry.device == device.device &&
    (entry.function == 0xFF || entry.function == device.function) && entry.interruptPin == device.interruptPin.toNat

def ioApicGetInterruptLineForPciDevice (s : IoApicSystemData) (device : PciDevice) : Nat :=
  match ((s.prtEntries.getD []).take s.noOfPrtEntries).find? (matchesPrt device) with
  | some entry => entry.ioApicLine
  | none =>
    -- each parent but the outermost one shifts the pin
    let accumulatedOffset := device.parents.dropLast.foldl (fun offset function => (offset + function.toNat) % 4)
      device.interruptPin.toNat
    0x10 + accumulatedOffset

def interruptLine (interrupt : IoInterrupt Routine Device) : Iomu Routine Device (Option UInt8) :=
  match interrupt.type with
  | .legacy irq => pure (some irq)
  | .lapic => pure none
  | .pci device =>
    if device.msiCapable then pure none
    else do
      let s <- Program.get
      let temp := ioApicGetInterruptLineForPciDevice s.ioApicData device
      Program.require (decide (temp ≤ 0xFF)) "temp <= MAX_BYTE"
      pure (some (UInt8.ofNat temp))

def usesMsi (interrupt : IoInterrupt Routine Device) : Bool :=
  match interrupt.type with
  | .pci device => device.msiCapable
  | _ => false

def entryRegistered (irql : Nat) : Option UInt8 -> Iomu Routine Device (Option Nat)
  | none => pure none
  | some line => do
    let s <- Program.get
    let result <- call (ioApicSystemGetVectorForIrq s.ioApicData line)
    match result with
    | (.success, some vector) =>
      if vectorToIrql vector ≠ irql then Program.fail .deviceInterruptPriorityNotAvailable else pure (some vector)
    | (.deviceInterruptNotConfigured, _) => pure none
    | (status, _) => Program.fail (.ioApic status)

def chooseVector (interrupt : IoInterrupt Routine Device) : (registered : Option Nat) -> Iomu Routine Device Nat
  | some vector => if interrupt.exclusive then Program.fail .deviceInterruptNotAvailable else pure vector
  | none => do
    let s <- Program.get
    let (bitmapResult, memory) <- call (Bitmap.scanFromToAndFlip s.memory s.interruptBitmap (irqlToVector interrupt.irql)
      (irqlToVector interrupt.irql + vectorsPerIrql) 1 false)
    Program.modify fun s => { s with memory := memory }
    if maxDword = bitmapResult then
      if interrupt.exclusive then Program.fail .deviceInterruptNotAvailable else pure (irqlToVector interrupt.irql)
    else pure (bitmapResult % 2 ^ 8)

def isrInstallEx (vector : Nat) (isrRoutine : IsrRoutine) (context : Nat) : Iomu Routine Device Unit := do
  Program.require (decide (vector > noOfReservedExceptions)) "Vector > NO_OF_RESERVED_EXCEPTIONS"
  let s <- Program.get
  if (s.isrRoutines (vector - noOfReservedExceptions)).isSome then Program.fail .alreadyInitialized
  else Program.modify fun s => { s with
    isrRoutines := update s.isrRoutines (vector - noOfReservedExceptions) (some isrRoutine)
    isrContexts := update s.isrContexts (vector - noOfReservedExceptions) context }

def linkEntry (interrupt : IoInterrupt Routine Device) (device : Device) (vector : Nat) : Iomu Routine Device Bool := do
  Program.require (decide (noOfReservedExceptions ≤ vector) && decide (vector < noOfTotalInterrupts))
    "interruptVector >= NO_OF_RESERVED_EXCEPTIONS && interruptVector < NO_OF_TOTAL_INTERRUPTS"
  let interruptIndex := vector - noOfReservedExceptions
  let s <- Program.get
  let listEmpty := (s.registeredInterrupts interruptIndex).isEmpty
  Program.require (listEmpty || !interrupt.exclusive) "bListEmpty || !Interrupt->Exclusive"
  if listEmpty then isrInstallEx vector .iomuGenericInterrupt interruptIndex else pure ()
  if interrupt.allocates then
    Program.modify fun s => { s with
      registeredInterrupts := update s.registeredInterrupts interruptIndex
        (s.registeredInterrupts interruptIndex ++ [⟨interrupt.serviceRoutine, device⟩]) }
  else Program.fail .heapInsufficientResources
  pure listEmpty

def isPci (type : InterruptType) : Bool :=
  match type with
  | .pci _ => true
  | _ => false

-- The arguments of IoApicSystemSetInterrupt.
def lineRequest (interrupt : IoInterrupt Routine Device) (vector : Nat) : InterruptRequest where
  vector := vector
  destinationMode := .logical
  deliveryMode := if interrupt.broadcastInterrupt then .fixed else .lowest
  pinPolarity := if isPci interrupt.type then .activeLow else .activeHigh
  triggerMode := if isPci interrupt.type then .level else .edge
  destination := 0xFF
  overwrite := false

def setLine (interrupt : IoInterrupt Routine Device) (vector : Nat) (line : UInt8) : Iomu Routine Device Unit := do
  let s <- Program.get
  let (status, ioApicData) <- call (ioApicSystemSetInterrupt s.ioApicData line (lineRequest interrupt vector))
  if status = .success then do
    Program.require interrupt.lapicState "TRUE == LapicSystemGetState()"
    Program.modify fun s => { s with ioApicData := ioApicData }
  else Program.fail (.ioApic status)

def programVector (interrupt : IoInterrupt Routine Device) (line : Option UInt8) (vector : Nat) (setup : Bool) :
    Iomu Routine Device Nat := do
  if usesMsi interrupt && !interrupt.programs then Program.fail .pciInterrupt else pure ()
  match line with
  | some line => if setup then setLine interrupt vector line else pure ()
  | none => pure ()
  pure vector

def registerVector (interrupt : IoInterrupt Routine Device) (device : Device) (line : Option UInt8)
    (registered : Option Nat) : Iomu Routine Device Nat := do
  let vector <- chooseVector interrupt registered
  let listEmpty <- linkEntry interrupt device vector
  programVector interrupt line vector (listEmpty && registered.isNone)

def iomuRegisterInterrupt (interrupt : IoInterrupt Routine Device) : Iomu Routine Device Nat := do
  let s <- Program.get
  match interrupt.deviceObject.or s.systemDevice with
  | none => Program.stop "NULL != pDevObj"
  | some device => do
    let line <- interruptLine interrupt
    let registered <- entryRegistered interrupt.irql line
    registerVector interrupt device line registered

end Hal9000.Interrupts
