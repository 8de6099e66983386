import Hal9000.Lib.Tracking

set_option autoImplicit false

namespace Hal9000.Eth

open Lib (Tracks Meets Tracker meets_nil meets_cons)

structure NetworkDeviceStatus where
  rxEnabled : UInt8
  txEnabled : UInt8
  deriving DecidableEq, Repr

structure EthDevice where
  receiveControlRegister : BitVec 32
  transmitControlRegister : BitVec 32
  deviceStatus : NetworkDeviceStatus
  deriving DecidableEq, Repr

-- ctrlRegister.Enable = NewStatus. The field is bit 1 of either register and takes the lowest bit of the BOOLEAN.
def setEnable (ctrlRegister : BitVec 32) (newStatus : UInt8) : BitVec 32 :=
  ctrlRegister &&& ~~~(1#32 <<< 1) ||| (newStatus.toBitVec.setWidth 32 &&& 1#32) <<< 1

def ethChangeRxStatus (device : EthDevice) (newStatus : UInt8) : EthDevice :=
  { device with receiveControlRegister := setEnable device.receiveControlRegister newStatus }

def ethChangeTxStatus (device : EthDevice) (newStatus : UInt8) : EthDevice :=
  { device with transmitControlRegister := setEnable device.transmitControlRegister newStatus }

-- The second change is made with the first status.
def ethChangeDeviceStatus (device : EthDevice) (deviceStatus : NetworkDeviceStatus) : EthDevice :=
  let newRxStatus := deviceStatus.rxEnabled
  let newTxStatus := deviceStatus.txEnabled
  let changed := if newRxStatus ^^^ device.deviceStatus.rxEnabled ≠ 0 then ethChangeRxStatus device newRxStatus else device
  if newTxStatus ^^^ changed.deviceStatus.txEnabled ≠ 0 then ethChangeTxStatus changed newRxStatus else changed

def netDispatchChangeDeviceStatus (device : EthDevice) (deviceStatus : NetworkDeviceStatus) : EthDevice :=
  { ethChangeDeviceStatus device deviceStatus with deviceStatus }

def enable (ctrlRegister : BitVec 32) : Nat := (ctrlRegister.getLsbD 1).toNat

structure EthDevice.Agrees (device : EthDevice) : Prop where
  rx : enable device.receiveControlRegister = device.deviceStatus.rxEnabled.toNat
  tx : enable device.transmitControlRegister = device.deviceStatus.txEnabled.toNat

structure InStep (initial device : EthDevice) (requested : NetworkDeviceStatus) : Prop extends device.Agrees where
  recorded : device.deviceStatus = requested
  rxOthers : forall i, i ≠ 1 -> device.receiveControlRegister.getLsbD i = initial.receiveControlRegister.getLsbD i
  txOthers : forall i, i ≠ 1 -> device.transmitControlRegister.getLsbD i = initial.transmitControlRegister.getLsbD i

-- A request with a BOOLEAN for the receiver that leaves the transmitter as it is or asks for the same of both.
def Met (last request : NetworkDeviceStatus) : Prop :=
  request.rxEnabled ≤ 1 ∧ (request.txEnabled = last.txEnabled ∨ request.txEnabled = request.rxEnabled)

instance (last request : NetworkDeviceStatus) : Decidable (Met last request) := inferInstanceAs (Decidable (_ ∧ _))

section Change

variable {initial device : EthDevice} {last request : NetworkDeviceStatus} {ctrlRegister : BitVec 32} {newStatus : UInt8}

theorem setEnable_getLsbD (i : Nat) : (setEnable ctrlRegister newStatus).getLsbD i =
    if i = 1 then newStatus.toBitVec.getLsbD 0 else ctrlRegister.getLsbD i := by
  simp only [setEnable, BitVec.getLsbD_or, BitVec.getLsbD_and, BitVec.getLsbD_not, BitVec.getLsbD_shiftLeft,
    BitVec.getLsbD_setWidth, BitVec.getLsbD_one]
  by_cases here : i = 1
  next =>
    subst here
    simp
  next =>
    by_cases inside : i < 32
    next =>
      rcases Nat.lt_or_ge i 1 with first | behind
      next => simp [here, inside, first]
      next =>
        have above : ¬ i - 1 = 0 := by omega
        simp [here, inside, above]
    next => simp [here, inside, BitVec.getLsbD_of_ge _ i (Nat.le_of_not_lt inside)]

theorem enable_le : enable ctrlRegister ≤ 1 := Bool.toNat_le _

theorem enable_setEnable (boolean : newStatus ≤ 1) : enable (setEnable ctrlRegister newStatus) = newStatus.toNat := by
  rw [enable, setEnable_getLsbD, if_pos rfl]
  have small : newStatus.toNat ≤ 1 := UInt8.le_iff_toNat_le.mp boolean
  rcases Nat.le_one_iff_eq_zero_or_eq_one.mp small with off | on
  next =>
    obtain rfl : newStatus = 0 := UInt8.toNat_inj.mp off
    rfl
  next =>
    obtain rfl : newStatus = 1 := UInt8.toNat_inj.mp on
    rfl

theorem receiveControlRegister_eq : (netDispatchChangeDeviceStatus device request).receiveControlRegister =
    if request.rxEnabled = device.deviceStatus.rxEnabled then device.receiveControlRegister
    else setEnable device.receiveControlRegister request.rxEnabled := by
  simp only [netDispatchChangeDeviceStatus, ethChangeDeviceStatus, ethChangeRxStatus, ethChangeTxStatus, ne_eq,
    UInt8.xor_eq_zero_iff]
  split <;> split <;> simp_all

theorem transmitControlRegister_eq : (netDispatchChangeDeviceStatus device request).transmitControlRegister =
    if request.txEnabled = device.deviceStatus.txEnabled then device.transmitControlRegister
    else setEnable device.transmitControlRegister request.rxEnabled := by
  simp only [netDispatchChangeDeviceStatus, ethChangeDeviceStatus, ethChangeRxStatus, ethChangeTxStatus, ne_eq,
    UInt8.xor_eq_zero_iff]
  split <;> split <;> simp_all

theorem InStep.keeps (inStep : InStep initial device last) (met : Met last request) :
    InStep initial (netDispatchChangeDeviceStatus device request) request := by
  obtain ⟨⟨rx, tx⟩, recorded, rxOthers, txOthers⟩ := inStep
  obtain ⟨boolean, same⟩ := met
  constructor
  next =>
    constructor
    next =>
      rw [receiveControlRegister_eq]
      split
      next unchanged => rw [rx, ← unchanged]; rfl
      next => exact enable_setEnable boolean
    next =>
      rw [transmitControlRegister_eq]
      split
      next unchanged => rw [tx, ← unchanged]; rfl
      next changed =>
        rw [recorded] at changed
        rw [enable_setEnable boolean, ← same.resolve_left changed]
        rfl
  next => rfl
  next =>
    intro i other
    rw [receiveControlRegister_eq, ← rxOthers i other]
    split
    next => rfl
    next => rw [setEnable_getLsbD, if_neg other]
  next =>
    intro i other
    rw [transmitControlRegister_eq, ← txOthers i other]
    split
    next => rfl
    next => rw [setEnable_getLsbD, if_neg other]

theorem InStep.met (inStep : InStep initial device last)
    (after : InStep initial (netDispatchChangeDeviceStatus device request) request) : Met last request := by
  have rx : enable (netDispatchChangeDeviceStatus device request).receiveControlRegister = request.rxEnabled.toNat := after.rx
  have tx : enable (netDispatchChangeDeviceStatus device request).transmitControlRegister = request.txEnabled.toNat := after.tx
  have boolean : request.rxEnabled ≤ 1 := by
    have small : request.rxEnabled.toNat ≤ 1 := rx ▸ enable_le
    exact UInt8.le_iff_toNat_le.mpr small
  refine ⟨boolean, ?_⟩
  by_cases unchanged : request.txEnabled = last.txEnabled
  next => exact .inl unchanged
  next =>
    rw [transmitControlRegister_eq, inStep.recorded, if_neg unchanged, enable_setEnable boolean] at tx
    exact .inr (UInt8.toNat_inj.mp tx.symm)

theorem device_tracker : Tracker (fun device request => some (netDispatchChangeDeviceStatus device request))
    (fun _ request => request) (InStep initial) Met (InStep initial) where
  agreed _ _ inStep := inStep
  kept _ _ _ inStep met := ⟨_, rfl, inStep.keeps met⟩
  lost _ _ _ _ inStep failing taken inStepAfter := by
    rw [← Option.some.inj taken] at inStepAfter
    exact failing (inStep.met inStepAfter)

end Change

theorem status_in_step_iff (device : EthDevice) (agrees : device.Agrees) (requests : List NetworkDeviceStatus) :
    Tracks (fun device request => some (netDispatchChangeDeviceStatus device request)) (fun _ request => request)
        (InStep device) device device.deviceStatus requests ↔
      Meets (fun _ request => request) Met device.deviceStatus requests :=
  device_tracker.tracks_iff ⟨agrees, rfl, fun _ _ => rfl, fun _ _ => rfl⟩ requests

def enabledDevice : EthDevice where
  receiveControlRegister := 0x8002
  transmitControlRegister := 0xA
  deviceStatus := ⟨1, 1⟩

theorem enabledDevice_agrees : enabledDevice.Agrees := ⟨rfl, rfl⟩

theorem status_in_step_sample :
    Tracks (fun device request => some (netDispatchChangeDeviceStatus device request)) (fun _ request => request)
      (InStep enabledDevice) enabledDevice ⟨1, 1⟩ [⟨0, 0⟩] := by
  refine (status_in_step_iff enabledDevice enabledDevice_agrees [⟨0, 0⟩]).mpr ?_
  exact meets_cons.mpr ⟨by decide, meets_nil⟩

-- The transmitter is switched off alone: it gets the receiver's status and stays on.
theorem transmitter_stays_enabled :
    enable (netDispatchChangeDeviceStatus enabledDevice ⟨1, 0⟩).transmitControlRegister = 1 ∧
      (netDispatchChangeDeviceStatus enabledDevice ⟨1, 0⟩).deviceStatus.txEnabled = 0 ∧
      ¬ forall (device : EthDevice) (requests : List NetworkDeviceStatus), device.Agrees ->
        Tracks (fun device request => some (netDispatchChangeDeviceStatus device request)) (fun _ request => request)
          (InStep device) device device.deviceStatus requests := by
  refine ⟨by decide, by decide, fun claimed => ?_⟩
  have meets := (device_tracker.tracks_iff ⟨enabledDevice_agrees, rfl, fun _ _ => rfl, fun _ _ => rfl⟩ _).mp
    (claimed enabledDevice [⟨1, 0⟩] enabledDevice_agrees)
  exact absurd (meets_cons.mp meets).1 (by decide)

end Hal9000.Eth
