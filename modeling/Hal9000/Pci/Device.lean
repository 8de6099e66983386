import Hal9000.Lib.Bytes
import Mathlib.Algebra.Group.Nat.Defs

set_option autoImplicit false

namespace Hal9000.Pci

open Lib (Access)

def predefinedPciDeviceSpaceSize : Nat := 256
def predefinedPciExpressDeviceSpaceSize : Nat := 4096

inductive Status where
  | success
  | invalidParameter1
  | invalidParameter2
  | invalidParameter3
  | invalidParameter4
  | invalidParameter5
  | deviceCapabilitiesNotSupported
  | deviceCapabilityDoesNotExist
  | deviceNoMoreDevices
  | deviceSpaceRangeExceeded
  | deviceNotConnected
  | bufferTooSmall
  | elementNotFound
  | heapInsufficientResources
  | deviceTypeInvalid
  | aeError
  | aeBadParameter
  deriving DecidableEq, Repr

structure PciDeviceLocation where
  bus : UInt8
  device : UInt8
  function : UInt8
  deriving DecidableEq, Repr

structure PciRootComplex where
  startBusNumber : UInt8
  endBusNumber : UInt8
  baseAddress : Nat

def pciNoOfBuses : Nat := 256
def pciNoOfDevices : Nat := 32
def pciNoOfFunctions : Nat := 8

def maxDword : UInt32 := 0xFFFFFFFF

-- The PCI_CONFIG_REGISTER for PCI_CONFIG_ADDRESS; the bit-fields have 5, 3 and 6 bits.
def pciConfigRegister (location : PciDeviceLocation) (registerNumber : Nat) : Nat :=
  2 ^ 31 + location.bus.toNat * 2 ^ 16 + location.device.toNat % 2 ^ 5 * 2 ^ 11 + location.function.toNat % 2 ^ 3 * 2 ^ 8 +
    registerNumber % 2 ^ 6 * 2 ^ 2

def pciExpressFormAddress (base : Nat) (location : PciDeviceLocation) : Nat :=
  base + location.bus.toNat * 2 ^ 20 + location.device.toNat * 2 ^ 15 + location.function.toNat * 2 ^ 12

structure PciDevice where
  data : Fin predefinedPciDeviceSpaceSize -> UInt8

structure PciDeviceDescription where
  deviceLocation : PciDeviceLocation
  deviceData : PciDevice

def PciDevice.read (device : PciDevice) (offset : Nat) : Access UInt8 :=
  if inside : offset < predefinedPciDeviceSpaceSize then .ok (device.data ⟨offset, inside⟩) else .error (.outOfBounds offset)

-- Fields of PCI_COMMON_HEADER, by their offsets.
def PciDevice.vendorId (device : PciDevice) : UInt16 :=
  (device.data ⟨0x00, by decide⟩).toUInt16 ||| (device.data ⟨0x01, by decide⟩).toUInt16 <<< 8
def PciDevice.deviceId (device : PciDevice) : UInt16 :=
  (device.data ⟨0x02, by decide⟩).toUInt16 ||| (device.data ⟨0x03, by decide⟩).toUInt16 <<< 8
def PciDevice.subclass (device : PciDevice) : UInt8 := device.data ⟨0x0A, by decide⟩
def PciDevice.classCode (device : PciDevice) : UInt8 := device.data ⟨0x0B, by decide⟩
def PciDevice.layout (device : PciDevice) : UInt8 := device.data ⟨0x0E, by decide⟩ &&& 0x7F
def PciDevice.secondaryBusNumber (device : PciDevice) : UInt8 := device.data ⟨0x19, by decide⟩
def PciDevice.capabilitiesList (device : PciDevice) : Bool := (device.data ⟨0x06, by decide⟩).toNat.testBit 4
def PciDevice.capabilitiesPointer (device : PciDevice) : UInt8 := device.data ⟨0x34, by decide⟩

def PciDevice.byte (device : PciDevice) (pointer : UInt8) : UInt8 := device.data ⟨pointer.toNat, UInt8.toNat_lt pointer⟩

theorem PciDevice.read_byte (device : PciDevice) (pointer : UInt8) :
    device.read pointer.toNat = .ok (device.byte pointer) :=
  dif_pos (UInt8.toNat_lt pointer)

end Hal9000.Pci
