import Hal9000.CommonLib.Base
import Hal9000.Lib.Subword
import Hal9000.Pci.Device
import Mathlib.Data.List.Pairwise

set_option autoImplicit false

namespace Hal9000.Pci

open Lib (insertBits byteAt)

-- Of _PciSystemInitRootComplexEntry: the difference is an int, the product a DWORD.
def bytesToMap (rootComplex : PciRootComplex) : Nat :=
  dword (2 ^ 32 + (rootComplex.endBusNumber.toNat + 1) * 2 ^ 20 - rootComplex.startBusNumber.toNat * 2 ^ 20)

def PciRootComplex.Window (rootComplex : PciRootComplex) (address : Nat) : Prop :=
  rootComplex.baseAddress ≤ address ∧ address < rootComplex.baseAddress + bytesToMap rootComplex

-- PCI_SYSTEM_DATA; IoMapMemory gives each window addresses of its own.
structure PciSystemData where
  pciExpressSupport : Bool
  pciRootComplexList : List PciRootComplex
  separate : pciRootComplexList.Pairwise (fun one other => forall address, one.Window address -> ¬ other.Window address)

-- The registers as memory, and the addresses of the accesses so far.
structure Space where
  registers : Nat -> BitVec 32
  touched : List Nat

def Space.touch (space : Space) (address : Nat) : Space := { space with touched := space.touched ++ [address] }

def Space.write (space : Space) (address : Nat) (value : BitVec 32) : Space where
  registers := Function.update space.registers address value
  touched := space.touched ++ [address]

def PciSystemData.findRootComplexForDevice (system : PciSystemData) (location : PciDeviceLocation) : Option PciRootComplex :=
  system.pciRootComplexList.find? fun rootComplex =>
    decide (rootComplex.startBusNumber ≤ location.bus) && decide (location.bus ≤ rootComplex.endBusNumber)

def spaceSize (system : PciSystemData) : Nat :=
  if system.pciExpressSupport then predefinedPciExpressDeviceSpaceSize else predefinedPciDeviceSpaceSize

-- Where _PciSystemReadConfigurationSpace and _PciSystemWriteConfigurationSpace access a register, or what they return before.
def registerAddress (system : PciSystemData) (location : PciDeviceLocation) (register : Nat) : Except Status Nat :=
  if system.pciExpressSupport then
    if predefinedPciExpressDeviceSpaceSize ≤ register then .error .deviceSpaceRangeExceeded
    else match system.findRootComplexForDevice location with
      | none => .error .deviceNotConnected
      | some rootComplex => .ok (pciExpressFormAddress rootComplex.baseAddress location + register)
  else if predefinedPciDeviceSpaceSize ≤ register then .error .deviceSpaceRangeExceeded
  else .ok (pciConfigRegister location (register / 4))

def pciSystemReadConfigurationSpace (system : PciSystemData) (location : PciDeviceLocation) (register : Nat)
    (space : Space) : Space × Except Status (BitVec 32) :=
  match registerAddress system location register with
  | .error status => (space, .error status)
  | .ok address => (space.touch address, .ok (space.registers address))

def pciSystemWriteConfigurationSpace (system : PciSystemData) (location : PciDeviceLocation) (register : Nat)
    (value : BitVec 32) (space : Space) : Space × Status :=
  match registerAddress system location register with
  | .error status => (space, status)
  | .ok address => (space.write address value, .success)

def addressOffset (addr alig : Nat) : Nat := qword addr &&& (alig - 1)

-- With whether the address for the value is not NULL; AE_OK is STATUS_SUCCESS.
def pciSystemReadConfigurationSpaceGeneric (system : PciSystemData) (location : PciDeviceLocation) (register : UInt16)
    (width : UInt8) (value : Bool) (space : Space) : Space × Status × Option (BitVec 64) :=
  if isAddressAligned register.toNat (width.toNat / 8) = false then (space, .invalidParameter3, none)
  else if value = false then (space, .invalidParameter4, none)
  else match pciSystemReadConfigurationSpace system location (alignAddressLower register.toNat 4) space with
    | (space, .error _) => (space, .aeError, none)
    | (space, .ok dword) =>
      let shifted := dword >>> (addressOffset register.toNat 4 * 8)
      if width = 8 then (space, .success, some ((shifted &&& 0xFF#32).setWidth 64))
      else if width = 16 then (space, .success, some ((shifted &&& 0xFFFF#32).setWidth 64))
      else if width = 32 then (space, .success, some ((shifted &&& 0xFFFFFFFF#32).setWidth 64))
      else if width = 64 then
        match pciSystemReadConfigurationSpace system location ((register.toNat + 4) % 2 ^ 16) space with
        | (space, .error _) => (space, .aeError, none)
        | (space, .ok high) => (space, .success, some (high.setWidth 64 <<< 32 ||| shifted.setWidth 64))
      else (space, .aeBadParameter, none)

def valueToWrite (width : UInt8) (initialValue : BitVec 32) (value : BitVec 64) (offsetInRegisterBits : Nat) : BitVec 32 :=
  if width = 8 then
    (initialValue &&& ~~~(0xFF#32 <<< offsetInRegisterBits)) |||
      ((value &&& 0xFF#64) <<< offsetInRegisterBits).setWidth 32
  else if width = 16 then
    (initialValue &&& ~~~(0xFFFF#32 <<< offsetInRegisterBits)) |||
      ((value &&& 0xFFFF#64) <<< offsetInRegisterBits).setWidth 32
  else if width = 32 ∨ width = 64 then (value &&& 0xFFFFFFFF#64).setWidth 32
  else 0

def pciSystemWriteConfigurationSpaceGeneric (system : PciSystemData) (location : PciDeviceLocation) (register : UInt16)
    (width : UInt8) (value : BitVec 64) (space : Space) : Space × Status :=
  if isAddressAligned register.toNat (width.toNat / 8) = false then (space, .invalidParameter3)
  else
    let alignedRegister := alignAddressLower register.toNat 4
    let offsetInRegisterBits := (register.toNat - alignedRegister) * 8
    -- for DWORD and QWORD accesses there is no need to read previous value
    let (space, initial) :=
      if width < 32 then pciSystemReadConfigurationSpace system location alignedRegister space else (space, .ok 0)
    match initial with
    | .error _ => (space, .aeError)
    | .ok initialValue =>
      match pciSystemWriteConfigurationSpace system location alignedRegister
          (valueToWrite width initialValue value offsetInRegisterBits) space with
      | (space, .success) =>
        if width = 64 then
          match pciSystemWriteConfigurationSpace system location ((alignedRegister + 4) % 2 ^ 16)
              ((value >>> 32).setWidth 32) space with
          | (space, .success) => (space, .success)
          | (space, _) => (space, .aeError)
        else (space, .success)
      | (space, _) => (space, .aeError)

abbrev DeviceAt := { location : PciDeviceLocation // location.device.toNat < 32 ∧ location.function.toNat < 8 }

def devicePlace (system : PciSystemData) (location : PciDeviceLocation) (register : Nat) : Option Nat :=
  if system.pciExpressSupport then
    (system.findRootComplexForDevice location).map fun rootComplex =>
      rootComplex.baseAddress + (location.bus.toNat - rootComplex.startBusNumber.toNat) * 2 ^ 20 +
        location.device.toNat * 2 ^ 15 + location.function.toNat * 2 ^ 12 + register
  else some (pciConfigRegister location (register / 4))

def deviceByte (system : PciSystemData) (space : Space) (location : PciDeviceLocation) (offset : Nat) : Option (BitVec 8) :=
  (devicePlace system location (offset / 4 * 4)).map fun place => byteAt (space.registers place) (offset % 4)

-- An address belongs to the device, and lies in the window that was mapped for its root complex.
def OwnPlace (system : PciSystemData) (location : PciDeviceLocation) (address : Nat) : Prop :=
  (∃ register, register < spaceSize system ∧ devicePlace system location register = some address) ∧
  forall rootComplex, system.pciExpressSupport = true -> system.findRootComplexForDevice location = some rootComplex ->
    rootComplex.Window address

def ProperWidth (width : UInt8) : Prop := width = 8 ∨ width = 16 ∨ width = 32 ∨ width = 64

-- A value that has been written is read back, and the other bytes of all devices stay; a request to be refused
-- changes nothing; and only places of the device are touched.
structure Exact (system : PciSystemData) (location : DeviceAt) (register : UInt16) (width : UInt8) (value : BitVec 64)
    (space : Space) : Prop where
  readBack : (pciSystemWriteConfigurationSpaceGeneric system location register width value space).2 = .success ->
    ∃ returned, (pciSystemReadConfigurationSpaceGeneric system location register width true
        (pciSystemWriteConfigurationSpaceGeneric system location register width value space).1).2 =
      (.success, some returned) ∧ returned.toNat = value.toNat % 2 ^ width.toNat
  others : (pciSystemWriteConfigurationSpaceGeneric system location register width value space).2 = .success ->
    forall (other : DeviceAt) (offset : Nat), offset < spaceSize system ->
      ¬ (other = location ∧ register.toNat ≤ offset ∧ offset < register.toNat + width.toNat / 8) ->
      deviceByte system (pciSystemWriteConfigurationSpaceGeneric system location register width value space).1 other offset =
        deviceByte system space other offset
  refused : ¬ (ProperWidth width ∧ isAddressAligned register.toNat (width.toNat / 8) = true ∧
      register.toNat < spaceSize system) ->
    (pciSystemWriteConfigurationSpaceGeneric system location register width value space).1.registers = space.registers
  written : forall address,
    address ∈ (pciSystemWriteConfigurationSpaceGeneric system location register width value space).1.touched ->
      address ∈ space.touched ∨ OwnPlace system location address
  read : forall address,
    address ∈ (pciSystemReadConfigurationSpaceGeneric system location register width true space).1.touched ->
      address ∈ space.touched ∨ OwnPlace system location address

def Passes (system : PciSystemData) (location : PciDeviceLocation) (register : UInt16) (width : UInt8) : Prop :=
  isAddressAligned register.toNat (width.toNat / 8) = true ∧ register.toNat < spaceSize system ∧
    (system.pciExpressSupport = true -> (system.findRootComplexForDevice location).isSome = true)

def FromBusZero (system : PciSystemData) (location : PciDeviceLocation) : Prop :=
  forall rootComplex, system.pciExpressSupport = true -> system.findRootComplexForDevice location = some rootComplex ->
    rootComplex.startBusNumber = 0

variable {system : PciSystemData} {location : PciDeviceLocation} {register : UInt16} {width : UInt8} {value : BitVec 64}
  {space : Space}

section Places

variable {rootComplex : PciRootComplex} {offset address : Nat}

theorem found (some_ : system.findRootComplexForDevice location = some rootComplex) :
    rootComplex ∈ system.pciRootComplexList ∧ rootComplex.startBusNumber.toNat ≤ location.bus.toNat ∧
      location.bus.toNat ≤ rootComplex.endBusNumber.toNat := by
  have within := List.find?_some some_
  simp only [Bool.and_eq_true, decide_eq_true_eq, UInt8.le_iff_toNat_le] at within
  exact ⟨List.mem_of_find?_eq_some some_, within⟩

theorem bytesToMap_eq (range : rootComplex.startBusNumber.toNat ≤ rootComplex.endBusNumber.toNat) :
    bytesToMap rootComplex = (rootComplex.endBusNumber.toNat + 1 - rootComplex.startBusNumber.toNat) * 2 ^ 20 := by
  have small := rootComplex.endBusNumber.toNat_lt
  unfold bytesToMap dword
  omega

theorem place_window (valid : location.device.toNat < 32 ∧ location.function.toNat < 8) (short : offset < 4096)
    (some_ : system.findRootComplexForDevice location = some rootComplex) :
    rootComplex.Window (rootComplex.baseAddress + (location.bus.toNat - rootComplex.startBusNumber.toNat) * 2 ^ 20 +
      location.device.toNat * 2 ^ 15 + location.function.toNat * 2 ^ 12 + offset) := by
  obtain ⟨_, lower, upper⟩ := found some_
  rw [PciRootComplex.Window, bytesToMap_eq (Nat.le_trans lower upper)]
  omega

theorem devicePlace_injective {one other : DeviceAt} {first second : Nat} (firstShort : first < spaceSize system)
    (secondShort : second < spaceSize system) (firstAligned : first % 4 = 0) (secondAligned : second % 4 = 0)
    (here : devicePlace system one first = some address) (there : devicePlace system other second = some address) :
    one = other ∧ first = second := by
  have oneValid := one.property
  have otherValid := other.property
  have same (bus : one.1.bus.toNat = other.1.bus.toNat) (device : one.1.device.toNat = other.1.device.toNat)
      (function : one.1.function.toNat = other.1.function.toNat) : one = other := by
    obtain ⟨⟨_, _, _⟩, _⟩ := one
    obtain ⟨⟨_, _, _⟩, _⟩ := other
    simp only [UInt8.toNat_inj] at bus device function
    simp only [bus, device, function]
  cases express : system.pciExpressSupport with
  | false =>
    simp only [devicePlace, spaceSize, express, Bool.false_eq_true, if_false, Option.some.injEq, pciConfigRegister,
      predefinedPciDeviceSpaceSize] at here there firstShort secondShort
    exact ⟨same (by omega) (by omega) (by omega), by omega⟩
  | true =>
    simp only [devicePlace, spaceSize, express, if_true, Option.map_eq_some_iff,
      predefinedPciExpressDeviceSpaceSize] at here there firstShort secondShort
    obtain ⟨oneComplex, oneFound, here⟩ := here
    obtain ⟨otherComplex, otherFound, there⟩ := there
    obtain ⟨oneListed, oneLower, oneUpper⟩ := found oneFound
    obtain ⟨otherListed, otherLower, otherUpper⟩ := found otherFound
    by_cases complex : oneComplex = otherComplex
    next =>
      subst complex
      exact ⟨same (by omega) (by omega) (by omega), by omega⟩
    next =>
      have oneInside := place_window oneValid firstShort oneFound
      have otherInside := place_window otherValid secondShort otherFound
      rw [here] at oneInside
      rw [there] at otherInside
      have symmetric : Std.Symm fun (one other : PciRootComplex) => forall address, one.Window address -> ¬ other.Window address :=
        ⟨fun _ _ apart address inside outside => apart address outside inside⟩
      exact absurd otherInside (system.separate.forall oneListed otherListed complex address oneInside)

end Places

section Accesses

variable {offset address : Nat}

def accessAddress (system : PciSystemData) (location : PciDeviceLocation) (register : Nat) : Nat :=
  if system.pciExpressSupport then
    match system.findRootComplexForDevice location with
    | none => 0
    | some rootComplex => pciExpressFormAddress rootComplex.baseAddress location + register
  else pciConfigRegister location (register / 4)

theorem registerAddress_inside (short : offset < spaceSize system)
    (connected : system.pciExpressSupport = true -> (system.findRootComplexForDevice location).isSome = true) :
    registerAddress system location offset = .ok (accessAddress system location offset) := by
  cases express : system.pciExpressSupport with
  | false =>
    simp only [spaceSize, express, Bool.false_eq_true, if_false] at short
    simp only [registerAddress, accessAddress, express, Bool.false_eq_true, if_false, Nat.not_le.mpr short]
  | true =>
    obtain ⟨rootComplex, some_⟩ := Option.isSome_iff_exists.mp (connected express)
    simp only [spaceSize, express, if_true] at short
    simp only [registerAddress, accessAddress, express, if_true, Nat.not_le.mpr short, if_false, some_]

theorem registerAddress_outside (outside : ¬ (offset < spaceSize system ∧
      (system.pciExpressSupport = true -> (system.findRootComplexForDevice location).isSome = true))) :
    ∃ status, status ≠ .success ∧ registerAddress system location offset = .error status := by
  cases express : system.pciExpressSupport with
  | false =>
    simp only [spaceSize, express, Bool.false_eq_true, if_false, false_implies, and_true, Nat.not_lt] at outside
    exact ⟨.deviceSpaceRangeExceeded, by decide, by
      simp only [registerAddress, express, Bool.false_eq_true, if_false, outside, if_true]⟩
  | true =>
    by_cases short : offset < predefinedPciExpressDeviceSpaceSize
    next =>
      simp only [spaceSize, express, if_true, short, true_and, true_implies, Option.not_isSome_iff_eq_none] at outside
      exact ⟨.deviceNotConnected, by decide, by
        simp only [registerAddress, express, if_true, Nat.not_le.mpr short, if_false, outside]⟩
    next =>
      exact ⟨.deviceSpaceRangeExceeded, by decide, by
        simp only [registerAddress, express, if_true, Nat.not_lt.mp short]⟩

theorem alignedRegister_eq (register : UInt16) : alignAddressLower register.toNat 4 = register.toNat / 4 * 4 :=
  alignAddressLower_two_pow register.toNat 2 (by decide) (Nat.lt_trans register.toNat_lt (by decide))

theorem addressOffset_eq (register : UInt16) : addressOffset register.toNat 4 = register.toNat % 4 := by
  rw [addressOffset, qword_of_lt (Nat.lt_trans register.toNat_lt (by decide))]
  exact Nat.and_two_pow_sub_one_eq_mod register.toNat 2

theorem spaceSize_aligned : (register.toNat / 4 * 4 < spaceSize system ↔ register.toNat < spaceSize system) ∧
    spaceSize system % 8 = 0 ∧ spaceSize system ≤ 4096 := by
  unfold spaceSize predefinedPciExpressDeviceSpaceSize predefinedPciDeviceSpaceSize
  split <;> omega

theorem read_inside (short : offset < spaceSize system)
    (connected : system.pciExpressSupport = true -> (system.findRootComplexForDevice location).isSome = true) (space : Space) :
    pciSystemReadConfigurationSpace system location offset space =
      (space.touch (accessAddress system location offset), .ok (space.registers (accessAddress system location offset))) := by
  rw [pciSystemReadConfigurationSpace, registerAddress_inside short connected]

theorem write_inside (short : offset < spaceSize system)
    (connected : system.pciExpressSupport = true -> (system.findRootComplexForDevice location).isSome = true)
    (value : BitVec 32) (space : Space) :
    pciSystemWriteConfigurationSpace system location offset value space =
      (space.write (accessAddress system location offset) value, .success) := by
  rw [pciSystemWriteConfigurationSpace, registerAddress_inside short connected]

theorem write_stopped (stopped : ¬ Passes system location register width) (value : BitVec 64) (space : Space) :
    ∃ status, status ≠ .success ∧
      pciSystemWriteConfigurationSpaceGeneric system location register width value space = (space, status) := by
  by_cases aligned : isAddressAligned register.toNat (width.toNat / 8) = true
  next =>
    obtain ⟨status, failed, outside⟩ := @registerAddress_outside system location (register.toNat / 4 * 4) (fun both =>
      stopped ⟨aligned, spaceSize_aligned.1.mp both.1, both.2⟩)
    refine ⟨.aeError, by decide, ?_⟩
    by_cases narrow : width < 32
    next =>
      simp only [pciSystemWriteConfigurationSpaceGeneric, aligned, Bool.true_eq_false, if_false, narrow, if_true,
        alignedRegister_eq, pciSystemReadConfigurationSpace, outside]
    next =>
      simp only [pciSystemWriteConfigurationSpaceGeneric, aligned, Bool.true_eq_false, if_false, narrow,
        alignedRegister_eq, pciSystemWriteConfigurationSpace, outside]
  next =>
    exact ⟨.invalidParameter3, by decide, by
      simp only [pciSystemWriteConfigurationSpaceGeneric, Bool.eq_false_iff.mpr aligned, if_true]⟩

theorem read_stopped (stopped : ¬ Passes system location register width) (space : Space) :
    (pciSystemReadConfigurationSpaceGeneric system location register width true space).1 = space := by
  by_cases aligned : isAddressAligned register.toNat (width.toNat / 8) = true
  next =>
    obtain ⟨status, failed, outside⟩ := @registerAddress_outside system location (register.toNat / 4 * 4) (fun both =>
      stopped ⟨aligned, spaceSize_aligned.1.mp both.1, both.2⟩)
    simp only [pciSystemReadConfigurationSpaceGeneric, aligned, Bool.true_eq_false, if_false,
      alignedRegister_eq, pciSystemReadConfigurationSpace, outside]
  next => simp only [pciSystemReadConfigurationSpaceGeneric, Bool.eq_false_iff.mpr aligned, if_true]

theorem improper_cases (improper : ¬ ProperWidth width) : width ≠ 8 ∧ width ≠ 16 ∧ width ≠ 32 ∧ width ≠ 64 := by
  simp only [ProperWidth, not_or] at improper
  exact improper

theorem aligned_width {k : Nat} (small : k < 64) (bytes : width.toNat / 8 = 2 ^ k)
    (aligned : isAddressAligned register.toNat (width.toNat / 8) = true) : register.toNat % 2 ^ k = 0 := by
  rw [bytes, isAddressAligned_two_pow _ k small (Nat.lt_trans register.toNat_lt (by decide))] at aligned
  exact of_decide_eq_true aligned

theorem short_fits (short : width = 8 ∨ width = 16 ∨ width = 32)
    (aligned : isAddressAligned register.toNat (width.toNat / 8) = true) :
    ∃ bytes, width.toNat = 8 * bytes ∧ register.toNat % 4 + bytes ≤ 4 ∧ (bytes = 4 -> register.toNat % 4 = 0) := by
  rcases short with rfl | rfl | rfl
  · exact ⟨1, rfl, by omega, by omega⟩
  · have even := @aligned_width register 16 1 (by decide) rfl aligned
    exact ⟨2, rfl, by omega, by omega⟩
  · have whole := @aligned_width register 32 2 (by decide) rfl aligned
    exact ⟨4, rfl, by omega, by omega⟩

theorem valueToWrite_short (short : width = 8 ∨ width = 16 ∨ width = 32)
    (aligned : isAddressAligned register.toNat (width.toNat / 8) = true) (initial : BitVec 32) (value : BitVec 64) :
    valueToWrite width initial value (register.toNat % 4 * 8) =
      insertBits width.toNat (8 * (register.toNat % 4)) initial value := by
  rw [Nat.mul_comm 8]
  rcases short with rfl | rfl | rfl
  · rfl
  · rfl
  · have whole := @aligned_width register 32 2 (by decide) rfl aligned
    have zero : register.toNat % 4 = 0 := whole
    have all : (32 : UInt8).toNat = 32 := rfl
    rw [zero, Nat.zero_mul, all, Lib.insertBits_whole (by decide)]
    refine BitVec.eq_of_toNat_eq ?_
    simp only [valueToWrite, show (32 : UInt8) ≠ 8 from by decide, show (32 : UInt8) ≠ 16 from by decide, if_false, true_or,
      if_true, BitVec.toNat_setWidth, BitVec.toNat_and]
    have low := Nat.and_two_pow_sub_one_eq_mod value.toNat 32
    simp only [Nat.reducePow, Nat.reduceSub] at low
    simp only [BitVec.toNat_ofNat, Nat.reducePow, Nat.reduceMod, low, Nat.mod_mod]

theorem valueToWrite_long (initial : BitVec 32) (value : BitVec 64) (offset : Nat) :
    valueToWrite 64 initial value offset = value.setWidth 32 := by
  refine BitVec.eq_of_toNat_eq ?_
  simp only [valueToWrite, show (64 : UInt8) ≠ 8 from by decide, show (64 : UInt8) ≠ 16 from by decide, if_false, or_true,
    if_true, BitVec.toNat_setWidth, BitVec.toNat_and]
  have low := Nat.and_two_pow_sub_one_eq_mod value.toNat 32
  simp only [Nat.reducePow, Nat.reduceSub] at low
  simp only [BitVec.toNat_ofNat, Nat.reducePow, Nat.reduceMod, low, Nat.mod_mod]

section Passing

variable (passes : Passes system location register width)
include passes

theorem aligned_inside : register.toNat / 4 * 4 < spaceSize system := spaceSize_aligned.1.mpr passes.2.1

theorem write_passes (notLong : width ≠ 64) (value : BitVec 64) (space : Space) :
    ∃ touched, pciSystemWriteConfigurationSpaceGeneric system location register width value space =
        (⟨Function.update space.registers (accessAddress system location (register.toNat / 4 * 4))
            (valueToWrite width (if width < 32 then space.registers (accessAddress system location (register.toNat / 4 * 4)) else 0)
              value (register.toNat % 4 * 8)), touched⟩, .success) ∧
      forall address, address ∈ touched -> address ∈ space.touched ∨
        address = accessAddress system location (register.toNat / 4 * 4) := by
  have offset : (register.toNat - register.toNat / 4 * 4) * 8 = register.toNat % 4 * 8 := by omega
  have inside := aligned_inside passes
  by_cases narrow : width < 32
  next =>
    refine ⟨(space.touch (accessAddress system location (register.toNat / 4 * 4))).touched ++
      [accessAddress system location (register.toNat / 4 * 4)], ?_, ?_⟩
    · simp only [pciSystemWriteConfigurationSpaceGeneric, passes.1, Bool.true_eq_false, if_false, narrow, if_true,
        alignedRegister_eq, read_inside inside passes.2.2, write_inside inside passes.2.2, offset, notLong]
      rfl
    · simp only [Space.touch, List.mem_append, List.mem_singleton]
      grind
  next =>
    refine ⟨space.touched ++ [accessAddress system location (register.toNat / 4 * 4)], ?_, ?_⟩
    · simp only [pciSystemWriteConfigurationSpaceGeneric, passes.1, Bool.true_eq_false, if_false, narrow,
        alignedRegister_eq, write_inside inside passes.2.2, offset, notLong]
      rfl
    · simp only [List.mem_append, List.mem_singleton]
      exact fun _ => id

theorem write_short (short : width = 8 ∨ width = 16 ∨ width = 32) (value : BitVec 64) (space : Space) :
    ∃ touched, pciSystemWriteConfigurationSpaceGeneric system location register width value space =
        (⟨Function.update space.registers (accessAddress system location (register.toNat / 4 * 4))
            (insertBits width.toNat (8 * (register.toNat % 4))
              (if width < 32 then space.registers (accessAddress system location (register.toNat / 4 * 4)) else 0) value),
          touched⟩, .success) ∧
      forall address, address ∈ touched -> address ∈ space.touched ∨
        address = accessAddress system location (register.toNat / 4 * 4) := by
  have notLong : width ≠ 64 := by
    rcases short with rfl | rfl | rfl <;> decide
  have run := write_passes passes notLong value space
  rwa [valueToWrite_short short passes.1] at run

theorem read_short (short : width = 8 ∨ width = 16 ∨ width = 32) (space : Space) :
    ∃ returned, pciSystemReadConfigurationSpaceGeneric system location register width true space =
        (space.touch (accessAddress system location (register.toNat / 4 * 4)), .success, some returned) ∧
      returned.toNat = ((space.registers (accessAddress system location (register.toNat / 4 * 4)) >>>
        (8 * (register.toNat % 4))) &&& (BitVec.allOnes width.toNat).setWidth 32).toNat := by
  have inside := aligned_inside passes
  have offset : addressOffset register.toNat 4 * 8 = 8 * (register.toNat % 4) := by rw [addressOffset_eq, Nat.mul_comm]
  have extended (word : BitVec 32) : (word.setWidth 64).toNat = word.toNat := by
    rw [BitVec.toNat_setWidth, Nat.mod_eq_of_lt (Nat.lt_trans word.isLt (by decide))]
  rcases short with rfl | rfl | rfl
  all_goals
    refine ⟨_, ?_, extended _⟩
    simp only [pciSystemReadConfigurationSpaceGeneric, passes.1, Bool.true_eq_false, if_false, alignedRegister_eq,
      read_inside inside passes.2.2, offset]
    rfl

theorem read_improper (improper : ¬ ProperWidth width) (space : Space) :
    (pciSystemReadConfigurationSpaceGeneric system location register width true space).2 = (.aeBadParameter, none) ∧
    (pciSystemReadConfigurationSpaceGeneric system location register width true space).1 =
      space.touch (accessAddress system location (register.toNat / 4 * 4)) := by
  obtain ⟨notByte, notWord, notDword, notQword⟩ := improper_cases improper
  simp only [pciSystemReadConfigurationSpaceGeneric, passes.1, Bool.true_eq_false, if_false, alignedRegister_eq,
    read_inside (aligned_inside passes) passes.2.2, notByte, notWord, notDword, notQword,
    and_self]

end Passing

section Long

variable (passes : Passes system location register 64)
include passes

theorem long_inside : register.toNat % 8 = 0 ∧ register.toNat / 4 * 4 = register.toNat ∧
    register.toNat + 4 < spaceSize system ∧ (register.toNat + 4) % 2 ^ 16 = register.toNat + 4 := by
  have whole : register.toNat % 2 ^ 3 = 0 := @aligned_width register 64 3 (by decide) rfl passes.1
  have short := passes.2.1
  obtain ⟨_, multiple, bound⟩ := @spaceSize_aligned system register
  omega

theorem write_long (value : BitVec 64) (space : Space) :
    ∃ touched, pciSystemWriteConfigurationSpaceGeneric system location register 64 value space =
        (⟨Function.update (Function.update space.registers (accessAddress system location register.toNat) (value.setWidth 32))
          (accessAddress system location (register.toNat + 4)) ((value >>> 32).setWidth 32), touched⟩, .success) ∧
      forall address, address ∈ touched -> address ∈ space.touched ∨
        address = accessAddress system location register.toNat ∨
        address = accessAddress system location (register.toNat + 4) := by
  obtain ⟨_, same, high, noWrap⟩ := long_inside passes
  have inside := passes.2.1
  refine ⟨space.touched ++ [accessAddress system location register.toNat] ++
    [accessAddress system location (register.toNat + 4)], ?_, ?_⟩
  · simp only [pciSystemWriteConfigurationSpaceGeneric, passes.1, Bool.true_eq_false, if_false,
      show ¬ (64 : UInt8) < 32 from by decide, alignedRegister_eq, same, write_inside inside passes.2.2, valueToWrite_long,
      if_true, noWrap, write_inside high passes.2.2]
    rfl
  · simp only [List.mem_append, List.mem_singleton]
    grind

theorem read_long (space : Space) :
    pciSystemReadConfigurationSpaceGeneric system location register 64 true space =
      ((space.touch (accessAddress system location register.toNat)).touch (accessAddress system location (register.toNat + 4)),
        .success, some ((space.registers (accessAddress system location (register.toNat + 4))).setWidth 64 <<< 32 |||
          (space.registers (accessAddress system location register.toNat)).setWidth 64)) := by
  obtain ⟨whole, same, high, noWrap⟩ := long_inside passes
  have inside := passes.2.1
  have offset : addressOffset register.toNat 4 * 8 = 0 := by rw [addressOffset_eq]; omega
  simp only [pciSystemReadConfigurationSpaceGeneric, passes.1, Bool.true_eq_false, if_false,
    show (64 : UInt8) ≠ 8 from by decide, show (64 : UInt8) ≠ 16 from by decide, show (64 : UInt8) ≠ 32 from by decide,
    if_true, alignedRegister_eq, same, read_inside inside passes.2.2, noWrap, read_inside high passes.2.2, offset,
    BitVec.ushiftRight_zero]
  rfl

end Long

end Accesses

section Exactness

theorem halves_eq (value : BitVec 64) :
    ((value >>> 32).setWidth 32).setWidth 64 <<< 32 ||| (value.setWidth 32).setWidth 64 = value := by
  refine BitVec.eq_of_getLsbD_eq (fun j inside => ?_)
  simp only [BitVec.getLsbD_or, BitVec.getLsbD_shiftLeft, BitVec.getLsbD_setWidth, BitVec.getLsbD_ushiftRight]
  by_cases low : j < 32
  next => simp [low, inside]
  next =>
    have high : 32 + (j - 32) = j := by omega
    have short : j - 32 < 32 := by omega
    have bound : j - 32 < 64 := by omega
    simp [low, inside, high, short, bound]

variable {device : DeviceAt} {offset : Nat}

theorem devicePlace_eq (fromZero : FromBusZero system location)
    (connected : system.pciExpressSupport = true -> (system.findRootComplexForDevice location).isSome = true) :
    devicePlace system location offset = some (accessAddress system location offset) := by
  cases express : system.pciExpressSupport with
  | false => simp only [devicePlace, accessAddress, express, Bool.false_eq_true, if_false]
  | true =>
    obtain ⟨rootComplex, some_⟩ := Option.isSome_iff_exists.mp (connected express)
    have zero : rootComplex.startBusNumber.toNat = 0 := by rw [fromZero rootComplex express some_]; rfl
    simp only [devicePlace, accessAddress, express, if_true, some_, Option.map_some, zero, Nat.sub_zero,
      pciExpressFormAddress]

theorem ownPlace_access (fromZero : FromBusZero system device.1)
    (connected : system.pciExpressSupport = true -> (system.findRootComplexForDevice device.1).isSome = true)
    (short : offset < spaceSize system) : OwnPlace system device.1 (accessAddress system device.1 offset) := by
  have place := @devicePlace_eq system device.1 offset fromZero connected
  refine ⟨⟨offset, short, place⟩, ?_⟩
  intro rootComplex express some_
  simp only [devicePlace, express, if_true, some_, Option.map_some, Option.some.injEq] at place
  simp only [spaceSize, express, if_true, predefinedPciExpressDeviceSpaceSize] at short
  rw [← place]
  exact place_window device.2 short some_

theorem fromBusZero_of_ownPlace (short : offset < spaceSize system)
    (own : OwnPlace system device.1 (accessAddress system device.1 offset)) : FromBusZero system device.1 := by
  intro rootComplex express some_
  obtain ⟨⟨place, inside, same⟩, _⟩ := own
  obtain ⟨_, lower, _⟩ := found some_
  simp only [devicePlace, accessAddress, express, if_true, some_, Option.map_some, Option.some.injEq,
    pciExpressFormAddress] at same
  simp only [spaceSize, express, if_true, predefinedPciExpressDeviceSpaceSize] at inside short
  rw [← UInt8.toNat_inj, UInt8.toNat_zero]
  omega

theorem deviceByte_same {after : Space} {other : PciDeviceLocation}
    (same : forall place, devicePlace system other (offset / 4 * 4) = some place ->
      byteAt (after.registers place) (offset % 4) = byteAt (space.registers place) (offset % 4)) :
    deviceByte system after other offset = deviceByte system space other offset := by
  simp only [deviceByte]
  cases place : devicePlace system other (offset / 4 * 4) with
  | none => rfl
  | some place_ => rw [Option.map_some, Option.map_some, same place_ place]

theorem exact_stopped (stopped : ¬ Passes system device.1 register width) (value : BitVec 64) (space : Space) :
    Exact system device register width value space := by
  obtain ⟨status, failed, run⟩ := write_stopped stopped value space
  constructor
  · rw [run]
    exact fun success => absurd success failed
  · rw [run]
    exact fun success => absurd success failed
  · rw [run]
    exact fun _ => rfl
  · rw [run]
    exact fun _ => .inl
  · rw [read_stopped stopped]
    exact fun _ => .inl

theorem exact_short (passes : Passes system device.1 register width) (short : width = 8 ∨ width = 16 ∨ width = 32)
    (fromZero : FromBusZero system device.1) (value : BitVec 64) (space : Space) :
    Exact system device register width value space := by
  obtain ⟨touched, write, new⟩ := write_short passes short value space
  obtain ⟨bytes, bits, fits, whole⟩ := short_fits short passes.1
  have inside := aligned_inside passes
  have own := ownPlace_access fromZero passes.2.2 inside
  have place := @devicePlace_eq system device.1 (register.toNat / 4 * 4) fromZero passes.2.2
  have proper : ProperWidth width := by
    rcases short with rfl | rfl | rfl <;> simp [ProperWidth]
  constructor
  · intro _
    rw [write]
    obtain ⟨returned, read, number⟩ := read_short passes short
      ⟨Function.update space.registers (accessAddress system device.1 (register.toNat / 4 * 4))
        (insertBits width.toNat (8 * (register.toNat % 4))
          (if width < 32 then space.registers (accessAddress system device.1 (register.toNat / 4 * 4)) else 0) value), touched⟩
    dsimp only at number
    rw [Function.update_self, Lib.shift_insertBits (by omega) (by decide)] at number
    exact ⟨returned, by rw [read], number⟩
  · intro _ other offset short outside
    rw [write]
    refine deviceByte_same (fun there somewhere => ?_)
    dsimp only
    by_cases here : there = accessAddress system device.1 (register.toNat / 4 * 4)
    next =>
      obtain ⟨same, register_⟩ := devicePlace_injective (by omega) inside (by omega) (by omega) somewhere (here ▸ place)
      have beside : offset % 4 < register.toNat % 4 ∨ register.toNat % 4 + bytes ≤ offset % 4 := by
        by_contra covered
        exact outside ⟨same, by omega⟩
      have narrow : width < 32 := by
        rw [UInt8.lt_iff_toNat_lt, bits]
        change 8 * bytes < 32
        omega
      rw [here, Function.update_self, if_pos narrow, bits, Lib.byteAt_insertBits (by decide) (by omega) beside]
    next => rw [Function.update_of_ne here]
  · exact fun improper => absurd ⟨proper, passes.1, passes.2.1⟩ improper
  · intro address added
    rw [write] at added
    rcases new address added with old | rfl
    · exact .inl old
    · exact .inr own
  · intro address added
    obtain ⟨returned, read, _⟩ := read_short passes short space
    rw [read] at added
    simp only [Space.touch, List.mem_append, List.mem_singleton] at added
    rcases added with old | rfl
    · exact .inl old
    · exact .inr own

theorem exact_long (passes : Passes system device.1 register 64) (fromZero : FromBusZero system device.1) (value : BitVec 64)
    (space : Space) : Exact system device register 64 value space := by
  obtain ⟨touched, write, new⟩ := write_long passes value space
  obtain ⟨aligned, same, high, _⟩ := long_inside passes
  have inside := passes.2.1
  have lowOwn := ownPlace_access fromZero passes.2.2 inside
  have highOwn := ownPlace_access fromZero passes.2.2 high
  have lowPlace := @devicePlace_eq system device.1 register.toNat fromZero passes.2.2
  have highPlace := @devicePlace_eq system device.1 (register.toNat + 4) fromZero passes.2.2
  have apart : accessAddress system device.1 register.toNat ≠ accessAddress system device.1 (register.toNat + 4) := by
    intro equal
    have collapsed := (devicePlace_injective inside high (by omega) (by omega) lowPlace (equal ▸ highPlace)).2
    omega
  constructor
  · intro _
    rw [write, read_long passes]
    refine ⟨_, rfl, ?_⟩
    simp only [Function.update_self, Function.update_of_ne apart]
    rw [halves_eq]
    exact (Nat.mod_eq_of_lt value.isLt).symm
  · intro _ other offset short outside
    have bytes : (64 : UInt8).toNat / 8 = 8 := rfl
    rw [bytes] at outside
    rw [write]
    refine deviceByte_same (fun there somewhere => ?_)
    have notHigh : there ≠ accessAddress system device.1 (register.toNat + 4) := by
      intro here
      obtain ⟨same, register_⟩ := devicePlace_injective (by omega) high (by omega) (by omega) somewhere (here ▸ highPlace)
      exact outside ⟨same, by omega⟩
    have notLow : there ≠ accessAddress system device.1 register.toNat := by
      intro here
      obtain ⟨same, register_⟩ := devicePlace_injective (by omega) inside (by omega) (by omega) somewhere (here ▸ lowPlace)
      exact outside ⟨same, by omega⟩
    dsimp only
    rw [Function.update_of_ne notHigh, Function.update_of_ne notLow]
  · exact fun improper => absurd ⟨.inr (.inr (.inr rfl)), passes.1, passes.2.1⟩ improper
  · intro address added
    rw [write] at added
    rcases new address added with old | rfl | rfl
    · exact .inl old
    · exact .inr lowOwn
    · exact .inr highOwn
  · intro address added
    rw [read_long passes] at added
    simp only [Space.touch, List.mem_append, List.mem_singleton] at added
    rcases added with (old | rfl) | rfl
    · exact .inl old
    · exact .inr lowOwn
    · exact .inr highOwn

end Exactness

theorem configuration_exact_iff (system : PciSystemData) (device : DeviceAt) (register : UInt16) (width : UInt8)
    (value : BitVec 64) (registers : Nat -> BitVec 32) :
    Exact system device register width value ⟨registers, []⟩ ↔
      (Passes system device.1 register width -> ProperWidth width ∧ FromBusZero system device.1) := by
  constructor
  next =>
    intro exactly passes
    constructor
    next =>
      by_contra improper
      have notLong := (improper_cases improper).2.2.2
      obtain ⟨touched, write, _⟩ := write_passes passes notLong value ⟨registers, []⟩
      obtain ⟨returned, read, _⟩ := exactly.readBack (by rw [write])
      rw [(read_improper passes improper _).1] at read
      cases read
    next =>
      have inside := aligned_inside passes
      by_cases long : width = 64
      next =>
        subst long
        obtain ⟨_, same, _⟩ := long_inside passes
        have own := exactly.read (accessAddress system device.1 register.toNat)
          (by rw [read_long passes]; simp [Space.touch])
        exact fromBusZero_of_ownPlace passes.2.1 (own.resolve_left (by simp))
      next =>
        have own := exactly.read (accessAddress system device.1 (register.toNat / 4 * 4)) (by
          by_cases proper : ProperWidth width
          next =>
            have short : width = 8 ∨ width = 16 ∨ width = 32 := by
              rcases proper with byte | word | dword | qword
              · exact .inl byte
              · exact .inr (.inl word)
              · exact .inr (.inr dword)
              · exact absurd qword long
            obtain ⟨returned, read, _⟩ := read_short passes short ⟨registers, []⟩
            rw [read]
            simp [Space.touch]
          next =>
            rw [(read_improper passes proper _).2]
            simp [Space.touch])
        exact fromBusZero_of_ownPlace inside (own.resolve_left (by simp))
  next =>
    intro proper
    by_cases passes : Passes system device.1 register width
    next =>
      obtain ⟨byte | word | dword | long, fromZero⟩ := proper passes
      · exact exact_short passes (.inl byte) fromZero value _
      · exact exact_short passes (.inr (.inl word)) fromZero value _
      · exact exact_short passes (.inr (.inr dword)) fromZero value _
      · subst long
        exact exact_long passes fromZero value _
    next => exact exact_stopped passes value _

def legacySystem : PciSystemData := ⟨false, [], .nil⟩

def expressSystem : PciSystemData := ⟨true, [⟨1, 1, 0x10000000⟩], List.pairwise_singleton _ _⟩

-- A write of 24 bits clears the register; and the first bus of a window is looked for behind the end of the
-- window.
theorem configuration_not_exact :
    (pciSystemWriteConfigurationSpaceGeneric legacySystem ⟨0, 0, 0⟩ 0 24 5 ⟨fun _ => 7, []⟩).2 = .success ∧
      (pciSystemWriteConfigurationSpaceGeneric legacySystem ⟨0, 0, 0⟩ 0 24 5 ⟨fun _ => 7, []⟩).1.registers 0x80000000 = 0 ∧
      ¬ Exact legacySystem ⟨⟨0, 0, 0⟩, by decide⟩ 0 24 5 ⟨fun _ => 7, []⟩ ∧
      (pciSystemReadConfigurationSpaceGeneric expressSystem ⟨1, 0, 0⟩ 0 32 true ⟨fun _ => 7, []⟩).1.touched = [0x10100000] ∧
      bytesToMap ⟨1, 1, 0x10000000⟩ = 0x100000 ∧
      ¬ Exact expressSystem ⟨⟨1, 0, 0⟩, by decide⟩ 0 32 5 ⟨fun _ => 7, []⟩ := by
  have zero : (pciSystemWriteConfigurationSpaceGeneric legacySystem ⟨0, 0, 0⟩ 0 24 5 ⟨fun _ => 7, []⟩).1.registers 0x80000000 =
      0 := by decide +kernel
  refine ⟨rfl, zero, ?_, rfl, rfl, ?_⟩
  · intro exactly
    have cleared := congrFun (exactly.refused (by
      rintro ⟨byte | word | dword | long, _⟩
      · cases byte
      · cases word
      · cases dword
      · cases long)) 0x80000000
    have same : (0 : BitVec 32) = 7 := zero.symm.trans cleared
    exact absurd same (by decide)
  · intro exactly
    obtain ⟨⟨place, inside, same⟩, _⟩ := (exactly.read 0x10100000 (List.mem_singleton.mpr rfl)).resolve_left (by simp)
    have found : some (0x10000000 + place) = some 0x10100000 := same
    have short : place < 4096 := inside
    simp only [Option.some.injEq] at found
    omega

end Hal9000.Pci
