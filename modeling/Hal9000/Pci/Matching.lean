import Hal9000.Pci.Device

set_option autoImplicit false

namespace Hal9000.Pci

open Lib (Access)

structure PciDescription where
  vendorId : UInt16
  deviceId : UInt16
  subclass : UInt8
  classCode : UInt8

structure PciSpec where
  description : PciDescription
  matchClass : Bool
  matchSubclass : Bool
  matchVendor : Bool
  matchDevice : Bool

structure PciSpecLocation where
  location : PciDeviceLocation
  matchBus : Bool
  matchDevice : Bool
  matchFunction : Bool

def PciSpec.matches (specification : PciSpec) (device : PciDeviceDescription) : Bool :=
  (!specification.matchClass || device.deviceData.classCode == specification.description.classCode) &&
  (!specification.matchSubclass || device.deviceData.subclass == specification.description.subclass) &&
  (!specification.matchVendor || device.deviceData.vendorId == specification.description.vendorId) &&
  (!specification.matchDevice || device.deviceData.deviceId == specification.description.deviceId)

def PciSpecLocation.matches (specification : PciSpecLocation) (device : PciDeviceDescription) : Bool :=
  (!specification.matchBus || device.deviceLocation.bus == specification.location.bus) &&
  (!specification.matchDevice || device.deviceLocation.device == specification.location.device) &&
  (!specification.matchFunction || device.deviceLocation.function == specification.location.function)

abbrev Elements := List (Option PciDeviceDescription)

def storeElement (pciDevices : Elements) (index : Nat) (device : PciDeviceDescription) : Access Elements :=
  if index < pciDevices.length then .ok (pciDevices.set index (some device)) else .error (.outOfBounds index)

-- The status, *NumberOfDevices and the array afterwards.
structure Found where
  status : Status
  numberOfDevices : Option UInt32
  pciDevices : Option Elements

def findLoop (matching : PciDeviceDescription -> Bool) (numberOfDevices : UInt32) :
    List PciDeviceDescription -> (noOfDevicesFound : UInt32) -> Option Elements -> Access Found
  | [], noOfDevicesFound, pciDevices =>
    pure ⟨if noOfDevicesFound ≠ 0 then .success else .elementNotFound, some noOfDevicesFound, pciDevices⟩
  | device :: rest, noOfDevicesFound, pciDevices =>
    if matching device then
      match pciDevices with
      | none => findLoop matching numberOfDevices rest (noOfDevicesFound + 1) none
      | some elements =>
        if numberOfDevices < noOfDevicesFound then pure ⟨.bufferTooSmall, some numberOfDevices, some elements⟩
        else do
          let elements <- storeElement elements noOfDevicesFound.toNat device
          findLoop matching numberOfDevices rest (noOfDevicesFound + 1) (some elements)
    else findLoop matching numberOfDevices rest noOfDevicesFound pciDevices

def pciSystemFindDevicesMatching (matching : PciDeviceDescription -> Bool)
    (pciDeviceList : Option (List PciDeviceDescription)) (pciDevices : Option Elements)
    (numberOfDevices : Option UInt32) : Access Found :=
  match pciDeviceList, numberOfDevices with
  | none, _ => pure ⟨.invalidParameter1, numberOfDevices, pciDevices⟩
  | some _, none => pure ⟨.invalidParameter5, none, pciDevices⟩
  | some devices, some capacity => findLoop matching capacity devices 0 pciDevices

def pciSystemFindDevicesMatchingSpecification (pciDeviceList : Option (List PciDeviceDescription))
    (specification : PciSpec) : Option Elements -> Option UInt32 -> Access Found :=
  pciSystemFindDevicesMatching specification.matches pciDeviceList

def pciSystemFindDevicesMatchingLocation (pciDeviceList : Option (List PciDeviceDescription))
    (specification : PciSpecLocation) : Option Elements -> Option UInt32 -> Access Found :=
  pciSystemFindDevicesMatching specification.matches pciDeviceList

-- ExAllocatePoolWithTag takes the size of the array as a DWORD.
def elementsAllocated (noOfDevices : UInt32) : Nat := 8 * noOfDevices.toNat % 2 ^ 32 / 8

-- IoGetPciDevicesMatchingSpecification and IoGetPciDevicesMatchingLocation, by the function that they call.
def ioGetPciDevicesMatching (find : Option Elements -> Option UInt32 -> Access Found) (allocated : Bool) :
    Access (Status × Option (UInt32 × Elements)) := do
  let counted <- find none (some 0)
  if counted.status ≠ .success then pure (counted.status, none)
  else
    let noOfDevices := counted.numberOfDevices.getD 0
    if noOfDevices = 0 then pure (.success, some (0, []))
    else if allocated = false then pure (.heapInsufficientResources, none)
    else do
      let filled <- find (some (List.replicate (elementsAllocated noOfDevices) none)) (some noOfDevices)
      if filled.status ≠ .success then pure (filled.status, none)
      else do
        Access.assert (filled.numberOfDevices == some noOfDevices) "temp == noOfDevices"
        pure (.success, some (noOfDevices, filled.pciDevices.getD []))

def pciHeaderLayoutPciToPci : UInt8 := 1

def ioGetPciSecondaryBusForBridge (pciDeviceList : List PciDeviceDescription) (deviceLocation : PciDeviceLocation) :
    Access (Status × Option UInt8) := do
  let found <- pciSystemFindDevicesMatchingLocation (some pciDeviceList) ⟨deviceLocation, true, true, true⟩
    (some [none]) (some 0)
  if found.status ≠ .success then pure (found.status, none)
  else do
    Access.assert (found.numberOfDevices == some 1) "noOfDevices == 1"
    match found.pciDevices with
    | some (some device :: _) =>
      if device.deviceData.layout ≠ pciHeaderLayoutPciToPci then pure (.deviceTypeInvalid, none)
      else pure (.success, some device.deviceData.secondaryBusNumber)
    | _ => .error (.outOfBounds 0)

-- With an array of the capacity that is given: nothing is stored outside, BUFFER_TOO_SMALL is returned when more
-- devices match, and otherwise the matching devices are stored, and their number.
def Respects (find : Option Elements -> Option UInt32 -> Access Found) (matched : List PciDeviceDescription)
    (capacity : UInt32) : Prop :=
  forall pciDevices : Elements, pciDevices.length = capacity.toNat ->
    ∃ found, find (some pciDevices) (some capacity) = .ok found ∧
      (found.status = .bufferTooSmall ↔ capacity.toNat < matched.length) ∧
      (matched.length ≤ capacity.toNat ->
        found.status = (if matched = [] then .elementNotFound else .success) ∧
        found.numberOfDevices.map UInt32.toNat = some matched.length ∧
        found.pciDevices = some (matched.map some ++ pciDevices.drop matched.length))

def Counts (find : Option Elements -> Option UInt32 -> Access Found) (matched : List PciDeviceDescription)
    (capacity : UInt32) : Prop :=
  ∃ found, find none (some capacity) = .ok found ∧
    found.status = (if matched = [] then .elementNotFound else .success) ∧
    found.numberOfDevices.map UInt32.toNat = some matched.length ∧ found.pciDevices = none

def NeverOverruns {α : Type} (run : Access α) : Prop := forall index, run ≠ .error (.outOfBounds index)

variable {matching : PciDeviceDescription -> Bool} {capacity found : UInt32} {devices : List PciDeviceDescription}

section Loop

theorem findLoop_none (matching : PciDeviceDescription -> Bool) (capacity : UInt32) (devices : List PciDeviceDescription)
    (found : UInt32) :
    findLoop matching capacity devices found none =
      .ok ⟨if found + UInt32.ofNat (devices.filter matching).length ≠ 0 then .success else .elementNotFound,
        some (found + UInt32.ofNat (devices.filter matching).length), none⟩ := by
  induction devices generalizing found with
  | nil =>
    have same : found + UInt32.ofNat 0 = found := UInt32.add_zero found
    simp only [findLoop, List.filter_nil, List.length_nil, same]
    rfl
  | cons device rest ih =>
    by_cases fits : matching device = true
    next =>
      have number : found + 1 + UInt32.ofNat (rest.filter matching).length =
          found + UInt32.ofNat ((rest.filter matching).length + 1) := by
        rw [UInt32.ofNat_add, UInt32.add_assoc, UInt32.add_comm 1]
        rfl
      simp only [findLoop, fits, if_true, List.filter_cons_of_pos, List.length_cons, ih, number]
    next => simp only [findLoop, fits, if_false, List.filter_cons_of_neg, not_false_eq_true, ih, Bool.false_eq_true]

theorem storeElement_next (stored : List PciDeviceDescription) (free : Option PciDeviceDescription) (left : Elements)
    (device : PciDeviceDescription) :
    storeElement (stored.map some ++ free :: left) stored.length device = .ok ((stored ++ [device]).map some ++ left) := by
  have inside : stored.length < (stored.map some ++ free :: left).length := by
    simp only [List.length_append, List.length_map, List.length_cons]; omega
  simp only [storeElement, inside, if_true, List.set_append, List.length_map, Nat.lt_irrefl, if_false, Nat.sub_self,
    List.set_cons_zero, List.map_append, List.map_cons, List.map_nil, List.append_assoc, List.cons_append, List.nil_append]

theorem findLoop_fits (stored : List PciDeviceDescription) (left : Elements)
    (room : (devices.filter matching).length ≤ left.length)
    (bound : stored.length + (devices.filter matching).length ≤ capacity.toNat + 1) :
    findLoop matching capacity devices (UInt32.ofNat stored.length) (some (stored.map some ++ left)) =
      .ok ⟨if UInt32.ofNat (stored ++ devices.filter matching).length ≠ 0 then .success else .elementNotFound,
        some (UInt32.ofNat (stored ++ devices.filter matching).length),
        some ((stored ++ devices.filter matching).map some ++ left.drop (devices.filter matching).length)⟩ := by
  induction devices generalizing stored left with
  | nil => simp only [findLoop, List.filter_nil, List.append_nil, List.length_nil, List.drop_zero]; rfl
  | cons device rest ih =>
    by_cases fits : matching device = true
    next =>
      simp only [List.filter_cons_of_pos, fits, List.length_cons] at room bound ⊢
      cases left with
      | nil => simp only [List.length_nil] at room; omega
      | cons free left =>
        have small : stored.length < 2 ^ 32 := by have := capacity.toNat_lt; omega
        have number : (UInt32.ofNat stored.length).toNat = stored.length := UInt32.toNat_ofNat_of_lt' small
        have pass : ¬ capacity < UInt32.ofNat stored.length := by
          rw [UInt32.lt_iff_toNat_lt, number]; omega
        have counted : UInt32.ofNat stored.length + 1 = UInt32.ofNat (stored ++ [device]).length := by
          rw [List.length_append, UInt32.ofNat_add]; rfl
        have further := ih (stored ++ [device]) left (by simpa using room) (by simp; omega)
        simp only [List.append_assoc, List.singleton_append] at further
        simp only [findLoop, fits, if_true, pass, if_false, number, storeElement_next, Access.ok_bind, counted, further,
          List.drop_succ_cons]
    next =>
      simp only [List.filter_cons_of_neg, fits, not_false_eq_true, Bool.false_eq_true] at room bound ⊢
      simp only [findLoop, fits, if_false, Bool.false_eq_true]
      exact ih stored left room bound

theorem findLoop_overruns (stored : List PciDeviceDescription) (left : Elements)
    (room : left.length < (devices.filter matching).length) (bound : stored.length + left.length ≤ capacity.toNat) :
    findLoop matching capacity devices (UInt32.ofNat stored.length) (some (stored.map some ++ left)) =
      .error (.outOfBounds (stored.length + left.length)) := by
  induction devices generalizing stored left with
  | nil => simp only [List.filter_nil, List.length_nil] at room; omega
  | cons device rest ih =>
    by_cases fits : matching device = true
    next =>
      simp only [List.filter_cons_of_pos, fits, List.length_cons] at room
      have small : stored.length < 2 ^ 32 := by have := capacity.toNat_lt; omega
      have number : (UInt32.ofNat stored.length).toNat = stored.length := UInt32.toNat_ofNat_of_lt' small
      have pass : ¬ capacity < UInt32.ofNat stored.length := by
        rw [UInt32.lt_iff_toNat_lt, number]; omega
      cases left with
      | nil =>
        have outside : ¬ stored.length < (stored.map some ++ ([] : Elements)).length := by simp
        simp only [findLoop, fits, if_true, pass, if_false, number, storeElement, outside, Access.error_bind,
          List.length_nil, Nat.add_zero]
      | cons free left =>
        have counted : UInt32.ofNat stored.length + 1 = UInt32.ofNat (stored ++ [device]).length := by
          rw [List.length_append, UInt32.ofNat_add]; rfl
        simp only [List.length_cons] at room bound ⊢
        have further := ih (stored ++ [device]) left (by omega) (by simp; omega)
        have last : (stored ++ [device]).length + left.length = stored.length + (left.length + 1) := by simp; omega
        rw [last] at further
        simp only [findLoop, fits, if_true, pass, if_false, number, storeElement_next, Access.ok_bind, counted, further]
    next =>
      simp only [List.filter_cons_of_neg, fits, not_false_eq_true, Bool.false_eq_true] at room
      simp only [findLoop, fits, if_false, Bool.false_eq_true]
      exact ih stored left room bound

theorem findLoop_small (stored : List PciDeviceDescription) (left : Elements)
    (room : capacity.toNat + 1 ≤ stored.length + left.length) (bound : stored.length ≤ capacity.toNat + 1)
    (more : capacity.toNat + 1 < stored.length + (devices.filter matching).length) (small : capacity.toNat + 1 < 2 ^ 32) :
    ∃ elements, findLoop matching capacity devices (UInt32.ofNat stored.length) (some (stored.map some ++ left)) =
      .ok ⟨.bufferTooSmall, some capacity, some elements⟩ := by
  induction devices generalizing stored left with
  | nil => simp only [List.filter_nil, List.length_nil] at more; omega
  | cons device rest ih =>
    have number : (UInt32.ofNat stored.length).toNat = stored.length := UInt32.toNat_ofNat_of_lt' (Nat.lt_of_le_of_lt bound small)
    by_cases fits : matching device = true
    next =>
      simp only [List.filter_cons_of_pos, fits, List.length_cons] at more
      by_cases full : stored.length = capacity.toNat + 1
      next =>
        have refused : capacity < UInt32.ofNat stored.length := by
          rw [UInt32.lt_iff_toNat_lt, number]; omega
        exact ⟨stored.map some ++ left, by simp only [findLoop, fits, if_true, refused]; rfl⟩
      next =>
        have pass : ¬ capacity < UInt32.ofNat stored.length := by
          rw [UInt32.lt_iff_toNat_lt, number]; omega
        cases left with
        | nil => simp only [List.length_nil] at room; omega
        | cons free left =>
          have counted : UInt32.ofNat stored.length + 1 = UInt32.ofNat (stored ++ [device]).length := by
            rw [List.length_append, UInt32.ofNat_add]; rfl
          simp only [List.length_cons] at room
          obtain ⟨elements, further⟩ := ih (stored ++ [device]) left (by simp; omega) (by simp; omega) (by simp; omega)
          refine ⟨elements, ?_⟩
          simp only [findLoop, fits, if_true, pass, if_false, number, storeElement_next, Access.ok_bind, counted, further]
    next =>
      simp only [List.filter_cons_of_neg, fits, not_false_eq_true, Bool.false_eq_true] at more
      simp only [findLoop, fits, if_false, Bool.false_eq_true]
      exact ih stored left room bound more

variable {elements : Elements}

theorem find_fits (room : (devices.filter matching).length ≤ elements.length)
    (bound : (devices.filter matching).length ≤ capacity.toNat + 1) :
    findLoop matching capacity devices 0 (some elements) =
      .ok ⟨if UInt32.ofNat (devices.filter matching).length ≠ 0 then .success else .elementNotFound,
        some (UInt32.ofNat (devices.filter matching).length),
        some ((devices.filter matching).map some ++ elements.drop (devices.filter matching).length)⟩ :=
  findLoop_fits [] elements room (by simpa using bound)

theorem find_overruns (room : elements.length < (devices.filter matching).length) (bound : elements.length ≤ capacity.toNat) :
    findLoop matching capacity devices 0 (some elements) = .error (.outOfBounds elements.length) := by
  have run := findLoop_overruns [] elements room (by simpa using bound)
  rw [List.length_nil, Nat.zero_add] at run
  exact run

theorem find_small (room : capacity.toNat + 1 ≤ elements.length)
    (more : capacity.toNat + 1 < (devices.filter matching).length) (small : capacity.toNat + 1 < 2 ^ 32) :
    ∃ stored, findLoop matching capacity devices 0 (some elements) = .ok ⟨.bufferTooSmall, some capacity, some stored⟩ :=
  findLoop_small [] elements (by simpa using room) (Nat.zero_le _) (by simpa using more) small

end Loop

section Capacity

theorem ofNat_ne_zero {count : Nat} (small : count < 2 ^ 32) : UInt32.ofNat count ≠ 0 ↔ count ≠ 0 := by
  rw [ne_eq, ← UInt32.toNat_inj, UInt32.toNat_ofNat_of_lt' small]
  rfl

theorem status_eq {matched : List PciDeviceDescription} (small : matched.length < 2 ^ 32) :
    (if UInt32.ofNat matched.length ≠ 0 then Status.success else .elementNotFound) =
      if matched = [] then .elementNotFound else .success := by
  cases matched with
  | nil => rfl
  | cons device rest =>
    have some_ : UInt32.ofNat (device :: rest).length ≠ 0 := (ofNat_ne_zero small).mpr (Nat.succ_ne_zero _)
    rw [if_pos some_, if_neg (List.cons_ne_nil _ _)]

theorem respects_iff (matching : PciDeviceDescription -> Bool) (devices : List PciDeviceDescription) (capacity : UInt32) :
    Respects (pciSystemFindDevicesMatching matching (some devices)) (devices.filter matching) capacity ↔
      (devices.filter matching).length ≤ capacity.toNat := by
  constructor
  next =>
    intro respects
    by_contra more
    obtain ⟨result, run, _⟩ := respects (List.replicate capacity.toNat none) List.length_replicate
    have outside := @find_overruns matching capacity devices (List.replicate capacity.toNat none)
      (by simpa using more) (by simp)
    cases run.symm.trans outside
  next =>
    intro fits elements room
    have small : (devices.filter matching).length < 2 ^ 32 := Nat.lt_of_le_of_lt fits capacity.toNat_lt
    have run := @find_fits matching capacity devices elements (room ▸ fits) (Nat.le_succ_of_le fits)
    refine ⟨_, run, ?_, fun _ => ⟨status_eq small, ?_, rfl⟩⟩
    next =>
      simp only [status_eq small]
      split <;> simp [fits]
    next => simp only [Option.map_some, UInt32.toNat_ofNat_of_lt' small]

theorem counts_iff (matching : PciDeviceDescription -> Bool) (devices : List PciDeviceDescription) (capacity : UInt32) :
    Counts (pciSystemFindDevicesMatching matching (some devices)) (devices.filter matching) capacity ↔
      (devices.filter matching).length < 2 ^ 32 := by
  have run := findLoop_none matching capacity devices 0
  simp only [UInt32.zero_add] at run
  constructor
  next =>
    rintro ⟨result, found, _, number, _⟩
    cases run.symm.trans found
    simp only [Option.map_some, Option.some.injEq] at number
    exact number ▸ UInt32.toNat_lt _
  next =>
    intro small
    exact ⟨_, run, status_eq small, by simp only [Option.map_some, UInt32.toNat_ofNat_of_lt' small], rfl⟩

end Capacity

section Callers

theorem elementsAllocated_eq {noOfDevices : UInt32} : elementsAllocated noOfDevices = noOfDevices.toNat % 2 ^ 29 := by
  unfold elementsAllocated
  omega

theorem ioGetPciDevicesMatching_none (allocated : Bool)
    (wraps : UInt32.ofNat (devices.filter matching).length = 0) :
    ioGetPciDevicesMatching (pciSystemFindDevicesMatching matching (some devices)) allocated =
      .ok (.elementNotFound, none) := by
  have counted := findLoop_none matching 0 devices 0
  simp only [UInt32.zero_add, wraps] at counted
  simp only [ioGetPciDevicesMatching, pciSystemFindDevicesMatching, counted, Access.ok_bind]
  rfl

theorem ioGetPciDevicesMatching_some {number : UInt32} (counted : UInt32.ofNat (devices.filter matching).length = number)
    (some_ : number ≠ 0) :
    ioGetPciDevicesMatching (pciSystemFindDevicesMatching matching (some devices)) true = (do
      let filled <- findLoop matching number devices 0 (some (List.replicate (elementsAllocated number) none))
      if filled.status ≠ .success then pure (filled.status, none)
      else do
        Access.assert (filled.numberOfDevices == some number) "temp == noOfDevices"
        pure (.success, some (number, filled.pciDevices.getD []))) := by
  have run := findLoop_none matching 0 devices 0
  simp only [UInt32.zero_add, counted, ne_eq, some_, not_false_eq_true, if_true] at run
  simp only [ioGetPciDevicesMatching, pciSystemFindDevicesMatching, run, Access.ok_bind, ne_eq, not_true_eq_false, if_false,
    Option.getD_some, some_, Bool.true_eq_false]

theorem ioGetPciDevicesMatching_iff (matching : PciDeviceDescription -> Bool) (devices : List PciDeviceDescription) :
    NeverOverruns (ioGetPciDevicesMatching (pciSystemFindDevicesMatching matching (some devices)) true) ↔
      (devices.filter matching).length < 2 ^ 29 ∨ (devices.filter matching).length % 2 ^ 32 = 0 := by
  have number : (UInt32.ofNat (devices.filter matching).length).toNat = (devices.filter matching).length % 2 ^ 32 :=
    UInt32.toNat_ofNat'
  by_cases wraps : UInt32.ofNat (devices.filter matching).length = 0
  next =>
    have multiple : (devices.filter matching).length % 2 ^ 32 = 0 := by rw [← number, wraps]; rfl
    refine iff_of_true ?_ (.inr multiple)
    intro index
    rw [ioGetPciDevicesMatching_none true wraps]
    rintro ⟨⟩
  next =>
    have some_ : (devices.filter matching).length % 2 ^ 32 ≠ 0 := by
      intro multiple
      exact wraps (UInt32.toNat_inj.mp (number.trans multiple))
    have room : elementsAllocated (UInt32.ofNat (devices.filter matching).length) =
        (devices.filter matching).length % 2 ^ 29 := by rw [elementsAllocated_eq, number]; omega
    rw [NeverOverruns, ioGetPciDevicesMatching_some rfl wraps, room]
    by_cases few : (devices.filter matching).length < 2 ^ 29
    next =>
      have run := @find_fits matching (UInt32.ofNat (devices.filter matching).length) devices
        (List.replicate ((devices.filter matching).length % 2 ^ 29) none) (by simp; omega) (by rw [number]; omega)
      refine iff_of_true ?_ (.inl few)
      intro index
      rw [run, Access.ok_bind]
      simp only [ne_eq, wraps, not_false_eq_true, if_true, not_true_eq_false, if_false, beq_self_eq_true,
        Access.assert_true, Access.ok_bind]
      rintro ⟨⟩
    next =>
      have run := @find_overruns matching (UInt32.ofNat (devices.filter matching).length) devices
        (List.replicate ((devices.filter matching).length % 2 ^ 29) none) (by simp; omega) (by rw [number]; simp; omega)
      refine iff_of_false ?_ (by omega)
      rw [run, Access.error_bind]
      exact fun never => never _ rfl

theorem ioGetPciSecondaryBusForBridge_never (devices : List PciDeviceDescription) (location : PciDeviceLocation) :
    NeverOverruns (ioGetPciSecondaryBusForBridge devices location) := by
  intro index
  let specification : PciSpecLocation := ⟨location, true, true, true⟩
  by_cases few : (devices.filter specification.matches).length ≤ 1
  next =>
    have run := @find_fits specification.matches 0 devices [none] few few
    rw [ioGetPciSecondaryBusForBridge, pciSystemFindDevicesMatchingLocation, pciSystemFindDevicesMatching, run,
      Access.ok_bind]
    cases matched : devices.filter specification.matches with
    | nil => rintro ⟨⟩
    | cons device rest =>
      rw [matched] at few
      cases rest with
      | nil =>
        have found : (if UInt32.ofNat [device].length ≠ 0 then Status.success else .elementNotFound) = .success := rfl
        have single : (some (UInt32.ofNat [device].length) == some 1) = true := rfl
        simp only [found, ne_eq, not_true_eq_false, if_false, single, Access.assert_true, Access.ok_bind, List.map_cons,
          List.cons_append]
        split <;> rintro ⟨⟩
      | cons other rest => simp only [List.length_cons] at few; omega
  next =>
    obtain ⟨elements, run⟩ := @find_small specification.matches 0 devices [none] (Nat.le_refl _) (Nat.lt_of_not_le few)
      (by decide)
    rw [ioGetPciSecondaryBusForBridge, pciSystemFindDevicesMatchingLocation, pciSystemFindDevicesMatching, run,
      Access.ok_bind]
    rintro ⟨⟩

end Callers

theorem device_matching_iff (devices : List PciDeviceDescription) :
    (forall (specification : PciSpec) (capacity : UInt32),
      (Respects (pciSystemFindDevicesMatchingSpecification (some devices) specification)
          (devices.filter specification.matches) capacity ↔
        (devices.filter specification.matches).length ≤ capacity.toNat) ∧
      (Counts (pciSystemFindDevicesMatchingSpecification (some devices) specification)
          (devices.filter specification.matches) capacity ↔
        (devices.filter specification.matches).length < 2 ^ 32) ∧
      (NeverOverruns (ioGetPciDevicesMatching (pciSystemFindDevicesMatchingSpecification (some devices) specification) true) ↔
        (devices.filter specification.matches).length < 2 ^ 29 ∨
          (devices.filter specification.matches).length % 2 ^ 32 = 0)) ∧
    (forall (specification : PciSpecLocation) (capacity : UInt32),
      (Respects (pciSystemFindDevicesMatchingLocation (some devices) specification)
          (devices.filter specification.matches) capacity ↔
        (devices.filter specification.matches).length ≤ capacity.toNat) ∧
      (Counts (pciSystemFindDevicesMatchingLocation (some devices) specification)
          (devices.filter specification.matches) capacity ↔
        (devices.filter specification.matches).length < 2 ^ 32) ∧
      (NeverOverruns (ioGetPciDevicesMatching (pciSystemFindDevicesMatchingLocation (some devices) specification) true) ↔
        (devices.filter specification.matches).length < 2 ^ 29 ∨
          (devices.filter specification.matches).length % 2 ^ 32 = 0)) ∧
    forall location, NeverOverruns (ioGetPciSecondaryBusForBridge devices location) :=
  ⟨fun specification capacity => ⟨respects_iff _ devices capacity, counts_iff _ devices capacity,
      ioGetPciDevicesMatching_iff specification.matches devices⟩,
    fun specification capacity => ⟨respects_iff _ devices capacity, counts_iff _ devices capacity,
      ioGetPciDevicesMatching_iff specification.matches devices⟩,
    ioGetPciSecondaryBusForBridge_never devices⟩

def sampleDevice : PciDeviceDescription := ⟨⟨0, 0, 0⟩, ⟨fun _ => 0⟩⟩

theorem device_matching_overruns :
    pciSystemFindDevicesMatchingSpecification (some [sampleDevice, sampleDevice]) ⟨⟨0, 0, 0, 0⟩, false, false, false, false⟩
        (some [none]) (some 1) = .error (.outOfBounds 1) ∧
      pciSystemFindDevicesMatchingLocation (some [sampleDevice, sampleDevice]) ⟨⟨0, 0, 0⟩, false, false, false⟩
        (some [none]) (some 1) = .error (.outOfBounds 1) ∧
      ¬ Respects (pciSystemFindDevicesMatchingSpecification (some [sampleDevice, sampleDevice])
        ⟨⟨0, 0, 0, 0⟩, false, false, false, false⟩) [sampleDevice, sampleDevice] 1 := by
  refine ⟨rfl, rfl, ?_⟩
  intro respects
  obtain ⟨result, run, _⟩ := respects [none] rfl
  have same : Except.error (.outOfBounds 1) = (.ok result : Access Found) := run
  cases same

end Hal9000.Pci
