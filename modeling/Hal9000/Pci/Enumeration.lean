import Hal9000.Lib.Bytes
import Hal9000.Lib.Cursor
import Hal9000.Pci.Device

set_option autoImplicit false

namespace Hal9000.Pci

open Lib (Access Cursor calls answers calls_cons answers_nil)

structure Retrieved (D : Type) where
  deviceLocation : PciDeviceLocation
  pciExpressDevice : Bool
  deviceData : D
  deriving DecidableEq

structure Search where
  currentDeviceLocation : PciDeviceLocation
  exhaustedPciSpace : Bool
  deriving DecidableEq

-- The loop over the registers, by their numbers; the first one tells whether there is a device.
def readRegisters (read : Nat -> UInt32) : List Nat -> Option (List UInt32)
  | [] => some []
  | register :: rest =>
    if register = 0 ∧ read register = maxDword then none
    else (readRegisters read rest).map (read register :: ·)

def pciRetrieveDevice (ports : Nat -> UInt32) (bytesToRead : UInt16) (location : PciDeviceLocation) :
    Option (Retrieved (List UInt32)) :=
  (readRegisters (fun register => ports (pciConfigRegister location register))
    (List.range ((bytesToRead.toNat + 3) / 4))).map fun data => ⟨location, false, data⟩

def pciExpressRetrieveDevice (memory : Nat -> UInt32) (rootComplex : PciRootComplex) (location : PciDeviceLocation) :
    Option (Retrieved Nat) :=
  let functionBase := pciExpressFormAddress rootComplex.baseAddress location
  if memory functionBase ≠ maxDword then some ⟨location, true, functionBase⟩ else none

def advance (ends : UInt8 -> Bool) (location : PciDeviceLocation) : PciDeviceLocation × Bool :=
  let function := UInt8.ofNat ((location.function.toNat + 1) % pciNoOfFunctions)
  if function = 0 then
    let device := UInt8.ofNat ((location.device.toNat + 1) % pciNoOfDevices)
    if device = 0 then
      let bus := UInt8.ofNat ((location.bus.toNat + 1) % pciNoOfBuses)
      (⟨bus, device, function⟩, ends bus)
    else (⟨location.bus, device, function⟩, false)
  else (⟨location.bus, location.device, function⟩, false)

section Calls

variable {D : Type} (retrieve : PciDeviceLocation -> Option D) (ends : UInt8 -> Bool)

def retrieveLoop : (fuel : Nat) -> PciDeviceLocation -> Access (Search × Status × Option D)
  | 0, _ => .error .unfinished
  | fuel + 1, current =>
    let (behind, exhausted) := advance ends current
    match retrieve current with
    | some device => pure (⟨behind, exhausted⟩, .success, some device)
    | none =>
      if exhausted then pure (⟨behind, exhausted⟩, .deviceNoMoreDevices, none)
      else retrieveLoop fuel behind

def retrieveNext (startBusNumber : UInt8) (fuel : Nat) (resetSearch : Bool) (search : Search) :
    Access (Search × Status × Option D) :=
  let search := if resetSearch then ⟨⟨startBusNumber, 0, 0⟩, false⟩ else search
  if search.exhaustedPciSpace then pure (search, .deviceNoMoreDevices, none)
  else retrieveLoop retrieve ends fuel search.currentDeviceLocation

end Calls

def pciRetrieveNextDevice (ports : Nat -> UInt32) (bytesToRead : UInt16) (pciDevice : Bool) (fuel : Nat)
    (resetSearch : Bool) (search : Search) : Access (Search × Status × Option (Retrieved (List UInt32))) :=
  if predefinedPciDeviceSpaceSize < bytesToRead.toNat then pure (search, .invalidParameter2, none)
  else if pciDevice = false then pure (search, .invalidParameter3, none)
  else retrieveNext (pciRetrieveDevice ports bytesToRead) (fun bus => bus == 0) 0 fuel resetSearch search

def pciExpressRetrieveNextDevice (memory : Nat -> UInt32) (pciRootComplex : Option PciRootComplex) (pciDevice : Bool)
    (fuel : Nat) (resetSearch : Bool) (search : Search) : Access (Search × Status × Option (Retrieved Nat)) :=
  match pciRootComplex with
  | none => pure (search, .invalidParameter1, none)
  | some rootComplex =>
    if pciDevice = false then pure (search, .invalidParameter3, none)
    else retrieveNext (pciExpressRetrieveDevice memory rootComplex)
      (fun bus => bus == 0 || rootComplex.endBusNumber.toNat + 1 == bus.toNat) rootComplex.startBusNumber fuel resetSearch
      search

def Before (one other : PciDeviceLocation) : Prop :=
  one.bus < other.bus ∨ one.bus = other.bus ∧
    (one.device < other.device ∨ one.device = other.device ∧ one.function < other.function)

def locationAt (place : Nat) : PciDeviceLocation :=
  ⟨UInt8.ofNat (place / 256), UInt8.ofNat (place / 8 % 32), UInt8.ofNat (place % 8)⟩

def locationsOf (startBusNumber endBusNumber : Nat) : List PciDeviceLocation :=
  (List.range' (256 * startBusNumber) (256 * (endBusNumber + 1) - 256 * startBusNumber)).map locationAt

def outcomeOf {D : Type} : Option D -> Status × Option D
  | some device => (.success, some device)
  | none => (.deviceNoMoreDevices, none)

section Locations

variable {place later startBusNumber endBusNumber : Nat}

theorem ofNat_toNat {number : Nat} (small : number < 256) : (UInt8.ofNat number).toNat = number :=
  UInt8.toNat_ofNat_of_lt' small

theorem ofNat_eq_zero {number : Nat} (small : number < 256) : UInt8.ofNat number = 0 ↔ number = 0 := by
  rw [← UInt8.toNat_inj, ofNat_toNat small]
  rfl

theorem locationAt_before (less : place < later) (bound : later < 65536) : Before (locationAt place) (locationAt later) := by
  have bus : (UInt8.ofNat (place / 256)).toNat = place / 256 := ofNat_toNat (by omega)
  have laterBus : (UInt8.ofNat (later / 256)).toNat = later / 256 := ofNat_toNat (by omega)
  have device : (UInt8.ofNat (place / 8 % 32)).toNat = place / 8 % 32 := ofNat_toNat (by omega)
  have laterDevice : (UInt8.ofNat (later / 8 % 32)).toNat = later / 8 % 32 := ofNat_toNat (by omega)
  have function : (UInt8.ofNat (place % 8)).toNat = place % 8 := ofNat_toNat (by omega)
  have laterFunction : (UInt8.ofNat (later % 8)).toNat = later % 8 := ofNat_toNat (by omega)
  simp only [Before, locationAt, UInt8.lt_iff_toNat_lt, ← UInt8.toNat_inj, bus, laterBus, device, laterDevice, function,
    laterFunction]
  omega

theorem locationsOf_sorted (bound : endBusNumber < 256) : (locationsOf startBusNumber endBusNumber).Pairwise Before := by
  refine List.pairwise_map.mpr (List.Pairwise.imp_of_mem ?_ List.pairwise_lt_range')
  intro place later _ inside less
  have within := List.mem_range'_1.mp inside
  exact locationAt_before less (by omega)

theorem mem_locationsOf (bound : endBusNumber < 256) {location : PciDeviceLocation} :
    location ∈ locationsOf startBusNumber endBusNumber ↔
      (startBusNumber ≤ location.bus.toNat ∧ location.bus.toNat ≤ endBusNumber) ∧ location.device.toNat < 32 ∧
        location.function.toNat < 8 := by
  constructor
  next =>
    intro inside
    obtain ⟨place, within, rfl⟩ := List.mem_map.mp inside
    rw [List.mem_range'_1] at within
    have bus : (UInt8.ofNat (place / 256)).toNat = place / 256 := ofNat_toNat (by omega)
    have device : (UInt8.ofNat (place / 8 % 32)).toNat = place / 8 % 32 := ofNat_toNat (by omega)
    have function : (UInt8.ofNat (place % 8)).toNat = place % 8 := ofNat_toNat (by omega)
    simp only [locationAt, bus, device, function]
    omega
  next =>
    intro within
    refine List.mem_map.mpr
      ⟨256 * location.bus.toNat + 8 * location.device.toNat + location.function.toNat, List.mem_range'_1.mpr (by omega), ?_⟩
    have bus : (256 * location.bus.toNat + 8 * location.device.toNat + location.function.toNat) / 256 =
        location.bus.toNat := by omega
    have device : (256 * location.bus.toNat + 8 * location.device.toNat + location.function.toNat) / 8 % 32 =
        location.device.toNat := by omega
    have function : (256 * location.bus.toNat + 8 * location.device.toNat + location.function.toNat) % 8 =
        location.function.toNat := by omega
    simp only [locationAt, bus, device, function, UInt8.ofNat_toNat]

theorem advance_locationAt (ends : UInt8 -> Bool) (bound : place < 65536) :
    advance ends (locationAt place) =
      (locationAt (place + 1), decide ((place + 1) % 256 = 0) && ends (UInt8.ofNat ((place + 1) / 256))) := by
  have bus : (UInt8.ofNat (place / 256)).toNat = place / 256 := ofNat_toNat (by omega)
  have device : (UInt8.ofNat (place / 8 % 32)).toNat = place / 8 % 32 := ofNat_toNat (by omega)
  have function : (UInt8.ofNat (place % 8)).toNat = place % 8 := ofNat_toNat (by omega)
  have functionBehind : (place % 8 + 1) % 8 = (place + 1) % 8 := by omega
  simp only [advance, locationAt, bus, device, function, pciNoOfFunctions, pciNoOfDevices, pciNoOfBuses, functionBehind]
  by_cases carry : (place + 1) % 8 = 0
  next =>
    have deviceBehind : (place / 8 % 32 + 1) % 32 = (place + 1) / 8 % 32 := by omega
    rw [if_pos ((ofNat_eq_zero (by omega)).mpr carry), deviceBehind]
    by_cases last : (place + 1) / 8 % 32 = 0
    next =>
      have busBehind : UInt8.ofNat ((place / 256 + 1) % 256) = UInt8.ofNat ((place + 1) / 256) := by
        rw [← UInt8.toNat_inj, ofNat_toNat (by omega), UInt8.toNat_ofNat']; omega
      have whole : decide ((place + 1) % 256 = 0) = true := decide_eq_true (by omega)
      rw [if_pos ((ofNat_eq_zero (by omega)).mpr last), busBehind, whole, Bool.true_and]
    next =>
      have sameBus : place / 256 = (place + 1) / 256 := by omega
      have partial_ : decide ((place + 1) % 256 = 0) = false := decide_eq_false (by omega)
      rw [if_neg (fun zero => last ((ofNat_eq_zero (by omega)).mp zero)), sameBus, partial_, Bool.false_and]
  next =>
    have sameBus : place / 256 = (place + 1) / 256 := by omega
    have sameDevice : place / 8 % 32 = (place + 1) / 8 % 32 := by omega
    have partial_ : decide ((place + 1) % 256 = 0) = false := decide_eq_false (by omega)
    rw [if_neg (fun zero => carry ((ofNat_eq_zero (by omega)).mp zero)), sameBus, sameDevice, partial_, Bool.false_and]

end Locations

section Search

variable {D : Type} {retrieve : PciDeviceLocation -> Option D} {ends : UInt8 -> Bool} {first stop fuel place : Nat}
  {search : Search} {devices : List D}

def EndsAt (ends : UInt8 -> Bool) (first stop : Nat) : Prop :=
  forall place, first ≤ place -> place < stop ->
    (decide ((place + 1) % 256 = 0) && ends (UInt8.ofNat ((place + 1) / 256))) = decide (place + 1 = stop)

def devicesFrom (retrieve : PciDeviceLocation -> Option D) (stop place : Nat) : List D :=
  ((List.range' place (stop - place)).map locationAt).filterMap retrieve

def Left (retrieve : PciDeviceLocation -> Option D) (first stop : Nat) (search : Search) (devices : List D) : Prop :=
  (search.exhaustedPciSpace = true ∧ devices = []) ∨
  search.exhaustedPciSpace = false ∧ ∃ place, (first ≤ place ∧ place < stop) ∧
    search.currentDeviceLocation = locationAt place ∧ devices = devicesFrom retrieve stop place

theorem devicesFrom_step (inside : place < stop) :
    devicesFrom retrieve stop place = (retrieve (locationAt place)).toList ++ devicesFrom retrieve stop (place + 1) := by
  have length : stop - place = (stop - (place + 1)) + 1 := by omega
  rw [devicesFrom, length, List.range'_succ, List.map_cons, List.filterMap_cons]
  cases retrieve (locationAt place) <;> rfl

theorem devicesFrom_stop : devicesFrom retrieve stop stop = [] := by
  rw [devicesFrom, Nat.sub_self, List.range'_zero, List.map_nil, List.filterMap_nil]

theorem left_behind (inside : first ≤ place ∧ place < stop) :
    Left retrieve first stop ⟨locationAt (place + 1), decide (place + 1 = stop)⟩ (devicesFrom retrieve stop (place + 1)) := by
  by_cases last : place + 1 = stop
  next => exact .inl ⟨decide_eq_true last, last ▸ devicesFrom_stop⟩
  next => exact .inr ⟨decide_eq_false last, place + 1, by omega, rfl, rfl⟩

theorem retrieveLoop_eq (endsAt : EndsAt ends first stop) (bound : stop ≤ 65536) (inside : first ≤ place ∧ place < stop)
    (enough : stop - place ≤ fuel) :
    ∃ search', retrieveLoop retrieve ends fuel (locationAt place) =
        .ok (search', outcomeOf (devicesFrom retrieve stop place).head?) ∧
      Left retrieve first stop search' (devicesFrom retrieve stop place).tail := by
  induction fuel generalizing place with
  | zero => omega
  | succ fuel ih =>
    rw [retrieveLoop, advance_locationAt ends (by omega), endsAt place inside.1 inside.2, devicesFrom_step inside.2]
    have behind := @left_behind D retrieve first stop place inside
    cases retrieve (locationAt place) with
    | some device => exact ⟨_, rfl, behind⟩
    | none =>
      by_cases last : place + 1 = stop
      next =>
        have exhausted : decide (place + 1 = stop) = true := decide_eq_true last
        have none_ : devicesFrom retrieve stop (place + 1) = [] := last ▸ devicesFrom_stop
        refine ⟨⟨locationAt (place + 1), true⟩, ?_, .inl ⟨rfl, ?_⟩⟩
        · simp only [exhausted, if_true, none_]
          rfl
        · rw [none_]
          rfl
      next =>
        simp only [decide_eq_false last, Bool.false_eq_true, if_false]
        exact ih (by omega) (by omega)

theorem retrieveNext_cursor (endsAt : EndsAt ends first stop) (bound : stop ≤ 65536) (enough : 65536 ≤ fuel) (start : UInt8) :
    Cursor (· = false) (retrieveNext retrieve ends start fuel) outcomeOf (Left retrieve first stop)
      (fun search => Left retrieve first stop search []) := by
  have further (search : Search) (devices : List D) (left : Left retrieve first stop search devices) :
      ∃ search', retrieveNext retrieve ends start fuel false search = .ok (search', outcomeOf devices.head?) ∧
        Left retrieve first stop search' devices.tail := by
    rcases left with ⟨exhausted, rfl⟩ | ⟨searching, place, inside, here, rfl⟩
    · exact ⟨search, by simp only [retrieveNext, Bool.false_eq_true, if_false, exhausted, if_true]; rfl,
        .inl ⟨exhausted, rfl⟩⟩
    · simp only [retrieveNext, Bool.false_eq_true, if_false, searching, here]
      exact retrieveLoop_eq endsAt bound inside (by omega)
  constructor
  next =>
    intro reset search device rest allowed left
    subst allowed
    exact further search (device :: rest) left
  all_goals
    intro reset search allowed left
    subst allowed
    exact further search [] left

theorem retrieveNext_calls (endsAt : EndsAt ends first stop) (bound : stop ≤ 65536) (enough : 65536 ≤ fuel)
    {start : UInt8} (beginning : first = 256 * start.toNat) (some_ : first < stop) (search : Search) (count : Nat) :
    ∃ search', calls (retrieveNext retrieve ends start fuel) (true :: List.replicate count false) search =
      .ok (search', answers outcomeOf (devicesFrom retrieve stop first) (count + 1)) := by
  have cursor := @retrieveNext_cursor D retrieve ends first stop fuel endsAt bound enough start
  have small := start.toNat_lt
  have here : (⟨start, 0, 0⟩ : PciDeviceLocation) = locationAt first := by
    have bus : 256 * start.toNat / 256 = start.toNat := by omega
    have device : 256 * start.toNat / 8 % 32 = 0 := by omega
    have function : 256 * start.toNat % 8 = 0 := by omega
    simp only [beginning, locationAt, bus, device, function, UInt8.ofNat_toNat]
    rfl
  have fresh : Left retrieve first stop ⟨⟨start, 0, 0⟩, false⟩ (devicesFrom retrieve stop first) :=
    .inr ⟨rfl, first, ⟨Nat.le_refl _, some_⟩, here, rfl⟩
  obtain ⟨search', run, _⟩ := cursor.run (List.replicate (count + 1) false) (fun c inside => List.eq_of_mem_replicate inside) fresh
  rw [List.length_replicate] at run
  exact ⟨search', run⟩

end Search

section Devices

variable {bytesToRead : UInt16} {rootComplex : PciRootComplex} {fuel : Nat} {present : PciDeviceLocation -> Bool}
  {ports memory : Nat -> UInt32} {location : PciDeviceLocation}

def portAddress (location : PciDeviceLocation) : Nat :=
  0x80000000 + 0x10000 * location.bus.toNat + 0x800 * location.device.toNat + 0x100 * location.function.toNat

def pageAddress (baseAddress : Nat) (location : PciDeviceLocation) : Nat :=
  baseAddress + 0x100000 * location.bus.toNat + 0x8000 * location.device.toNat + 0x1000 * location.function.toNat

def Connected (address : PciDeviceLocation -> Nat) (present : PciDeviceLocation -> Bool) (read : Nat -> UInt32) : Prop :=
  forall location, location.device.toNat < 32 -> location.function.toNat < 8 ->
    (read (address location) = 0xFFFFFFFF ↔ present location = false)

def registersRead (ports : Nat -> UInt32) (bytesToRead : UInt16) (location : PciDeviceLocation) : List UInt32 :=
  (List.range ((bytesToRead.toNat + 3) / 4)).map fun register => ports (portAddress location + 4 * register)

def Visits {D : Type} (next : Bool -> Search -> Access (Search × Status × Option D)) (startBusNumber endBusNumber : Nat)
    (present : PciDeviceLocation -> Bool) (describe : PciDeviceLocation -> D) : Prop :=
  forall search count, ∃ search', calls next (true :: List.replicate count false) search =
    .ok (search', answers outcomeOf (((locationsOf startBusNumber endBusNumber).filter present).map describe) (count + 1))

def PciVisits (bytesToRead : UInt16) : Prop :=
  forall present ports fuel, Connected portAddress present ports -> 65536 ≤ fuel ->
    Visits (pciRetrieveNextDevice ports bytesToRead true fuel) 0 255 present
      fun location => ⟨location, false, registersRead ports bytesToRead location⟩

def PciExpressVisits (rootComplex : PciRootComplex) : Prop :=
  forall present memory fuel, Connected (pageAddress rootComplex.baseAddress) present memory -> 65536 ≤ fuel ->
    Visits (pciExpressRetrieveNextDevice memory (some rootComplex) true fuel) rootComplex.startBusNumber.toNat
      rootComplex.endBusNumber.toNat present fun location => ⟨location, true, pageAddress rootComplex.baseAddress location⟩

theorem pciConfigRegister_eq (device : location.device.toNat < 32) (function : location.function.toNat < 8) {register : Nat}
    (small : register < 64) : pciConfigRegister location register = portAddress location + 4 * register := by
  simp only [pciConfigRegister, portAddress, Nat.reducePow]
  omega

theorem pciExpressFormAddress_eq (baseAddress : Nat) (location : PciDeviceLocation) :
    pciExpressFormAddress baseAddress location = pageAddress baseAddress location := by
  simp only [pciExpressFormAddress, pageAddress, Nat.reducePow]
  omega

theorem filterMap_present {A D : Type} {retrieve : A -> Option D} {present : A -> Bool} {describe : A -> D} {values : List A}
    (each : forall value, value ∈ values -> retrieve value = if present value then some (describe value) else none) :
    values.filterMap retrieve = (values.filter present).map describe := by
  induction values with
  | nil => rfl
  | cons value rest ih =>
    have others := ih (fun other inside => each other (List.mem_cons_of_mem _ inside))
    have first := each value List.mem_cons_self
    by_cases here : present value = true
    next =>
      rw [if_pos here] at first
      rw [List.filterMap_cons_some first, List.filter_cons_of_pos here, List.map_cons, others]
    next =>
      rw [if_neg here] at first
      rw [List.filterMap_cons_none first, List.filter_cons_of_neg here, others]

theorem readRegisters_later {read : Nat -> UInt32} {registers : List Nat} (later : 0 ∉ registers) :
    readRegisters read registers = some (registers.map read) := by
  induction registers with
  | nil => rfl
  | cons register rest ih =>
    have different : register ≠ 0 := fun zero => later (zero ▸ List.mem_cons_self)
    have others := ih (fun inside => later (List.mem_cons_of_mem _ inside))
    simp only [readRegisters, different, false_and, if_false, others, Option.map_some, List.map_cons]

theorem pciRetrieveDevice_eq (connected : Connected portAddress present ports) (someBytes : 0 < bytesToRead.toNat)
    (within : bytesToRead.toNat ≤ 256) (device : location.device.toNat < 32) (function : location.function.toNat < 8) :
    pciRetrieveDevice ports bytesToRead location =
      if present location then some ⟨location, false, registersRead ports bytesToRead location⟩ else none := by
  have registers : (List.range ((bytesToRead.toNat + 3) / 4)).map (fun register => ports (pciConfigRegister location register)) =
      registersRead ports bytesToRead location := by
    refine List.map_congr_left (fun register inside => ?_)
    rw [pciConfigRegister_eq device function (by have := List.mem_range.mp inside; omega)]
  have length : (bytesToRead.toNat + 3) / 4 = ((bytesToRead.toNat + 3) / 4 - 1) + 1 := by omega
  have later : 0 ∉ (List.range ((bytesToRead.toNat + 3) / 4 - 1)).map Nat.succ := by simp
  have first := connected location device function
  rw [← Nat.add_zero (portAddress location), ← Nat.mul_zero 4, ← pciConfigRegister_eq device function (by omega)] at first
  rw [pciRetrieveDevice, ← registers, length, List.range_succ_eq_map, readRegisters, readRegisters_later later]
  cases here : present location with
  | false =>
    have ones : ports (pciConfigRegister location 0) = maxDword := first.mpr here
    simp only [ones, true_and, if_true, Option.map_none, Bool.false_eq_true, if_false]
  | true =>
    have other : ¬ ports (pciConfigRegister location 0) = maxDword := fun ones => by
      rw [first.mp ones] at here
      cases here
    simp only [other, and_false, if_false, Option.map_some, if_true, List.map_cons]

theorem pciExpressRetrieveDevice_eq (connected : Connected (pageAddress rootComplex.baseAddress) present memory)
    (device : location.device.toNat < 32) (function : location.function.toNat < 8) :
    pciExpressRetrieveDevice memory rootComplex location =
      if present location then some ⟨location, true, pageAddress rootComplex.baseAddress location⟩ else none := by
  have first := connected location device function
  rw [pciExpressRetrieveDevice, pciExpressFormAddress_eq]
  cases here : present location with
  | false =>
    have ones : memory (pageAddress rootComplex.baseAddress location) = maxDword := first.mpr here
    simp only [ones, ne_eq, not_true_eq_false, if_false, Bool.false_eq_true]
  | true =>
    have other : memory (pageAddress rootComplex.baseAddress location) ≠ maxDword := fun ones => by
      rw [first.mp ones] at here
      cases here
    simp only [ne_eq, other, not_false_eq_true, if_true]

theorem devicesFrom_present {D : Type} {retrieve : PciDeviceLocation -> Option D} {describe : PciDeviceLocation -> D}
    {startBusNumber endBusNumber : Nat} (bound : endBusNumber < 256)
    (each : forall location, location.device.toNat < 32 -> location.function.toNat < 8 ->
      retrieve location = if present location then some (describe location) else none) :
    devicesFrom retrieve (256 * (endBusNumber + 1)) (256 * startBusNumber) =
      ((locationsOf startBusNumber endBusNumber).filter present).map describe := by
  refine filterMap_present (fun location inside => ?_)
  obtain ⟨_, device, function⟩ := (mem_locationsOf bound).mp inside
  exact each location device function

theorem pci_endsAt : EndsAt (fun bus => bus == 0) 0 65536 := by
  intro place _ inside
  dsimp only
  by_cases whole : (place + 1) % 256 = 0
  next =>
    have bus : (UInt8.ofNat ((place + 1) / 256) == 0) = decide (place + 1 = 65536) := by
      rw [beq_eq_decide, decide_eq_decide, ← UInt8.toNat_inj, UInt8.toNat_ofNat', UInt8.toNat_zero]
      omega
    rw [bus, decide_eq_true whole, Bool.true_and]
  next =>
    have further : ¬ place + 1 = 65536 := by omega
    rw [decide_eq_false whole, decide_eq_false further, Bool.false_and]

theorem pciExpress_endsAt (rootComplex : PciRootComplex) :
    EndsAt (fun bus => bus == 0 || rootComplex.endBusNumber.toNat + 1 == bus.toNat)
      (256 * rootComplex.startBusNumber.toNat) (256 * (rootComplex.endBusNumber.toNat + 1)) := by
  intro place beginning inside
  have small := rootComplex.endBusNumber.toNat_lt
  dsimp only
  by_cases whole : (place + 1) % 256 = 0
  next =>
    have bus : (UInt8.ofNat ((place + 1) / 256) == 0) = decide ((place + 1) / 256 % 256 = 0) := by
      rw [beq_eq_decide, decide_eq_decide, ← UInt8.toNat_inj, UInt8.toNat_ofNat', UInt8.toNat_zero]
    rw [decide_eq_true whole, Bool.true_and, bus, UInt8.toNat_ofNat', beq_eq_decide, ← Bool.decide_or, decide_eq_decide]
    omega
  next =>
    have further : ¬ place + 1 = 256 * (rootComplex.endBusNumber.toNat + 1) := by omega
    rw [decide_eq_false whole, decide_eq_false further, Bool.false_and]

theorem pciRetrieveNextDevice_visits (someBytes : 0 < bytesToRead.toNat) (within : bytesToRead.toNat ≤ 256) :
    PciVisits bytesToRead := by
  intro present ports fuel connected enough search count
  have valid : pciRetrieveNextDevice ports bytesToRead true fuel =
      retrieveNext (pciRetrieveDevice ports bytesToRead) (fun bus => bus == 0) 0 fuel := by
    funext reset search
    have fits : ¬ predefinedPciDeviceSpaceSize < bytesToRead.toNat := Nat.not_lt.mpr within
    rw [pciRetrieveNextDevice, if_neg fits, if_neg (by decide)]
  obtain ⟨search', run⟩ := @retrieveNext_calls _ (pciRetrieveDevice ports bytesToRead) _ 0 65536 fuel pci_endsAt
    (Nat.le_refl _) enough 0 rfl (by decide) search count
  have devices := @devicesFrom_present present _ (pciRetrieveDevice ports bytesToRead) _ 0 255 (by decide)
    (fun _ device function => pciRetrieveDevice_eq connected someBytes within device function)
  rw [← devices, valid]
  exact ⟨search', run⟩

theorem pciExpressRetrieveNextDevice_visits (range : rootComplex.startBusNumber ≤ rootComplex.endBusNumber) :
    PciExpressVisits rootComplex := by
  intro present memory fuel connected enough search count
  have small := rootComplex.endBusNumber.toNat_lt
  have ordered : rootComplex.startBusNumber.toNat ≤ rootComplex.endBusNumber.toNat := UInt8.le_iff_toNat_le.mp range
  obtain ⟨search', run⟩ := @retrieveNext_calls _ (pciExpressRetrieveDevice memory rootComplex) _ _ _ fuel
    (pciExpress_endsAt rootComplex) (by omega) enough rootComplex.startBusNumber rfl (by omega) search count
  have devices := @devicesFrom_present present _ (pciExpressRetrieveDevice memory rootComplex) _
    rootComplex.startBusNumber.toNat _ small (fun _ device function => pciExpressRetrieveDevice_eq connected device function)
  rw [← devices]
  exact ⟨search', run⟩

theorem not_visits {D : Type} {next : Bool -> Search -> Access (Search × Status × Option D)} {startBusNumber endBusNumber : Nat}
    {describe : PciDeviceLocation -> D} {search search' : Search} {result : Status × Option D}
    (first : next true search = .ok (search', result)) (other : result ≠ (.deviceNoMoreDevices, none)) :
    ¬ Visits next startBusNumber endBusNumber (fun _ => false) describe := by
  intro visits
  obtain ⟨last, run⟩ := visits search 0
  have single : calls next [true] search = .ok (search', [result]) := calls_cons first rfl
  have none_ : (locationsOf startBusNumber endBusNumber).filter (fun _ => false) = [] := by simp
  rw [none_, List.map_nil, answers_nil, List.replicate_zero, single] at run
  injection run with same
  injection same with _ results
  injection results with here
  exact other here

theorem connected_none (address : PciDeviceLocation -> Nat) : Connected address (fun _ => false) (fun _ => maxDword) :=
  fun _ _ _ => iff_of_true rfl rfl

theorem pciRetrieveNextDevice_no_bytes (search : Search) :
    pciRetrieveNextDevice (fun _ => maxDword) 0 true 65536 true search =
      .ok (⟨⟨0, 0, 1⟩, false⟩, .success, some ⟨⟨0, 0, 0⟩, false, []⟩) := rfl

end Devices

theorem enumeration_visits :
    (forall startBusNumber endBusNumber, endBusNumber < 256 ->
      (locationsOf startBusNumber endBusNumber).Pairwise Before ∧
      forall location, location ∈ locationsOf startBusNumber endBusNumber ↔
        (startBusNumber ≤ location.bus.toNat ∧ location.bus.toNat ≤ endBusNumber) ∧ location.device.toNat < 32 ∧
          location.function.toNat < 8) ∧
    (forall bytesToRead : UInt16, PciVisits bytesToRead ↔ 0 < bytesToRead.toNat ∧ bytesToRead.toNat ≤ 256) ∧
    forall rootComplex : PciRootComplex, rootComplex.startBusNumber ≤ rootComplex.endBusNumber ->
      PciExpressVisits rootComplex := by
  refine ⟨fun _ _ bound => ⟨locationsOf_sorted bound, fun _ => mem_locationsOf bound⟩, fun bytesToRead => ?_,
    fun rootComplex range => pciExpressRetrieveNextDevice_visits range⟩
  refine ⟨fun visits => ?_, fun both => pciRetrieveNextDevice_visits both.1 both.2⟩
  have none_ := visits (fun _ => false) (fun _ => maxDword) 65536 (connected_none portAddress) (Nat.le_refl _)
  by_contra outside
  by_cases large : predefinedPciDeviceSpaceSize < bytesToRead.toNat
  next =>
    have refused : pciRetrieveNextDevice (fun _ => maxDword) bytesToRead true 65536 true ⟨⟨0, 0, 0⟩, false⟩ =
        .ok (⟨⟨0, 0, 0⟩, false⟩, .invalidParameter2, none) := if_pos large
    exact not_visits refused (by decide) none_
  next =>
    rw [predefinedPciDeviceSpaceSize] at large
    have zero : bytesToRead = 0 := UInt16.toNat_inj.mp (show bytesToRead.toNat = 0 by omega)
    rw [zero] at none_
    exact not_visits (pciRetrieveNextDevice_no_bytes ⟨⟨0, 0, 0⟩, false⟩) (by simp) none_

theorem enumeration_of_no_bytes :
    Connected portAddress (fun _ => false) (fun _ => maxDword) ∧
    pciRetrieveNextDevice (fun _ => maxDword) 0 true 65536 true ⟨⟨0, 0, 0⟩, false⟩ =
      .ok (⟨⟨0, 0, 1⟩, false⟩, .success, some ⟨⟨0, 0, 0⟩, false, []⟩) ∧
    ¬ PciVisits 0 := by
  have first := pciRetrieveNextDevice_no_bytes ⟨⟨0, 0, 0⟩, false⟩
  refine ⟨connected_none portAddress, first, fun visits => ?_⟩
  exact not_visits first (by simp) (visits _ _ 65536 (connected_none portAddress) (Nat.le_refl _))

theorem filter_only {only : PciDeviceLocation} {startBusNumber endBusNumber : Nat} (bound : endBusNumber < 256)
    (inside : only ∈ locationsOf startBusNumber endBusNumber) :
    (locationsOf startBusNumber endBusNumber).filter (· == only) = [only] := by
  have distinct : (locationsOf startBusNumber endBusNumber).Nodup :=
    (locationsOf_sorted bound).imp (fun before same => by
      subst same
      simp only [Before, UInt8.lt_iff_toNat_lt] at before
      omega)
  rw [List.filter_beq, distinct.count, if_pos inside]
  rfl

theorem connected_only {address : PciDeviceLocation -> Nat} {only : PciDeviceLocation} {value : UInt32}
    (other : value ≠ 0xFFFFFFFF) (apart : forall location, location.device.toNat < 32 -> location.function.toNat < 8 ->
      (address location = address only ↔ location = only)) :
    Connected address (· == only) (fun place => if place = address only then value else 0xFFFFFFFF) := by
  intro location device function
  rw [beq_eq_false_iff_ne, ne_eq, ← apart location device function]
  by_cases here : address location = address only
  next => simp only [here, if_true, other, not_true_eq_false]
  next => simp only [here, if_false, not_false_eq_true]

theorem enumeration_visits_last :
    let ports : Nat -> UInt32 := fun address => if address = 0x80001900 then 0x12348086 else 0xFFFFFFFF
    let memory : Nat -> UInt32 := fun address => if address = 0x50_0000 + 0xF_F000 then 0 else 0xFFFFFFFF
    (∃ search', calls (pciRetrieveNextDevice ports 4 true 65536) [true, false, false] ⟨⟨0, 0, 0⟩, true⟩ =
      .ok (search', [(.success, some ⟨⟨0, 3, 1⟩, false, [0x12348086]⟩), (.deviceNoMoreDevices, none),
        (.deviceNoMoreDevices, none)])) ∧
    ∃ search', calls (pciExpressRetrieveNextDevice memory (some ⟨5, 5, 0⟩) true 65536) [true, false, false]
        ⟨⟨0, 0, 0⟩, true⟩ =
      .ok (search', [(.success, some ⟨⟨5, 31, 7⟩, true, 0x5F_F000⟩), (.deviceNoMoreDevices, none),
        (.deviceNoMoreDevices, none)]) := by
  obtain ⟨range, pci, pciExpress⟩ := enumeration_visits
  constructor
  next =>
    have inside : (⟨0, 3, 1⟩ : PciDeviceLocation) ∈ locationsOf 0 255 := ((range 0 255 (by decide)).2 _).mpr (by decide)
    have connected := @connected_only portAddress ⟨0, 3, 1⟩ 0x12348086 (by decide) (by
      rintro ⟨bus, device, function⟩ small less
      have := bus.toNat_lt
      simp only [portAddress, PciDeviceLocation.mk.injEq, ← UInt8.toNat_inj] at small less ⊢
      simp only [show (0 : UInt8).toNat = 0 from rfl, show (3 : UInt8).toNat = 3 from rfl,
        show (1 : UInt8).toNat = 1 from rfl]
      omega)
    obtain ⟨search', run⟩ := (pci 4).mpr ⟨by decide, by decide⟩ _ _ 65536 connected (Nat.le_refl _) ⟨⟨0, 0, 0⟩, true⟩ 2
    rw [filter_only (by decide) inside] at run
    exact ⟨search', run⟩
  next =>
    have inside : (⟨5, 31, 7⟩ : PciDeviceLocation) ∈ locationsOf 5 5 := ((range 5 5 (by decide)).2 _).mpr (by decide)
    have connected := @connected_only (pageAddress 0) ⟨5, 31, 7⟩ 0 (by decide) (by
      rintro ⟨bus, device, function⟩ small less
      have := bus.toNat_lt
      simp only [pageAddress, PciDeviceLocation.mk.injEq, ← UInt8.toNat_inj] at small less ⊢
      simp only [show (5 : UInt8).toNat = 5 from rfl, show (31 : UInt8).toNat = 31 from rfl,
        show (7 : UInt8).toNat = 7 from rfl]
      omega)
    obtain ⟨search', run⟩ := pciExpress ⟨5, 5, 0⟩ (by decide) _ _ 65536 connected (Nat.le_refl _) ⟨⟨0, 0, 0⟩, true⟩ 2
    have only : (locationsOf (5 : UInt8).toNat (5 : UInt8).toNat).filter (· == ⟨5, 31, 7⟩) = [⟨5, 31, 7⟩] :=
      filter_only (by decide) inside
    rw [only] at run
    exact ⟨search', run⟩

end Hal9000.Pci
