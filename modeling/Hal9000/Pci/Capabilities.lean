import Hal9000.Pci.Device

set_option autoImplicit false

namespace Hal9000.Pci

open Lib (Access)

-- A PCI_CAPABILITY_HEADER is known by its offset; the identifier is its first byte, NextPointer the second.
def capabilityId (device : PciDevice) (capability : UInt8) : Access UInt8 := device.read capability.toNat
def nextPointer (device : PciDevice) (capability : UInt8) : Access UInt8 := device.read (capability.toNat + 1)

def capabilityLoop (device : PciDevice) (id : UInt8) : (fuel : Nat) -> UInt8 -> Access (Status × Option UInt8)
  | 0, _ => .error .unfinished
  | fuel + 1, capPtr =>
    if capPtr = 0 then pure (.deviceCapabilityDoesNotExist, none)
    else do
      let found <- capabilityId device capPtr
      if found = id then pure (.success, some capPtr)
      else do
        let capPtr <- nextPointer device capPtr
        capabilityLoop device id fuel capPtr

def pciDevRetrieveCapabilityById (fuel : Nat) (device : Option PciDevice) (id : UInt8) (capability : Bool) :
    Access (Status × Option UInt8) :=
  match device with
  | none => pure (.invalidParameter1, none)
  | some device =>
    if capability = false then pure (.invalidParameter3, none)
    else if device.capabilitiesList = false then pure (.deviceCapabilitiesNotSupported, none)
    else capabilityLoop device id fuel device.capabilitiesPointer

def pointerBehind (device : PciDevice) : (previousCapability : Option UInt8) -> Access UInt8
  | some previous => nextPointer device previous
  | none => pure device.capabilitiesPointer

def pciDevRetrieveNextCapability (device : Option PciDevice) (previousCapability : Option UInt8) (nextCapability : Bool) :
    Access (Status × Option UInt8) :=
  match device with
  | none => pure (.invalidParameter1, none)
  | some device =>
    if nextCapability = false then pure (.invalidParameter3, none)
    else if device.capabilitiesList = false then pure (.deviceCapabilitiesNotSupported, none)
    else do
      let capPtr <- pointerBehind device previousCapability
      if capPtr ≠ 0 then pure (.success, some capPtr) else pure (.deviceCapabilityDoesNotExist, none)

def dumpPciCapabilities (device : PciDevice) : (fuel : Nat) -> Option UInt8 -> Access (List UInt8 × Status)
  | 0, _ => .error .unfinished
  | fuel + 1, pciCap => do
    let (status, next) <- pciDevRetrieveNextCapability (some device) pciCap true
    if status = .success then do
      let (behind, status) <- dumpPciCapabilities device fuel next
      pure (next.toList ++ behind, status)
    else pure ([], status)

inductive Chain (device : PciDevice) : UInt8 -> List UInt8 -> Prop
  | ends : Chain device 0 []
  | link {capability next : UInt8} {behind : List UInt8} (some_ : capability ≠ 0)
      (leads : nextPointer device capability = .ok next) (rest : Chain device next behind) :
      Chain device capability (capability :: behind)

inductive First (device : PciDevice) (id : UInt8) : UInt8 -> Option UInt8 -> Prop
  | ends : First device id 0 none
  | here {capability : UInt8} (some_ : capability ≠ 0) (found : device.byte capability = id) :
      First device id capability (some capability)
  | further {capability next : UInt8} {result : Option UInt8} (some_ : capability ≠ 0)
      (differs : device.byte capability ≠ id)
      (leads : nextPointer device capability = .ok next) (rest : First device id next result) :
      First device id capability result

def outcome : Option UInt8 -> Status × Option UInt8
  | some capability => (.success, some capability)
  | none => (.deviceCapabilityDoesNotExist, none)

def Finds (device : PciDevice) (id : UInt8) : Prop :=
  ∃ result, First device id device.capabilitiesPointer result ∧
    Access.Returns (fun fuel => pciDevRetrieveCapabilityById fuel (some device) id true) (outcome result)

def Enumerates (device : PciDevice) : Prop :=
  ∃ path status, Chain device device.capabilitiesPointer path ∧ status ≠ .success ∧
    Access.Returns (fun fuel => dumpPciCapabilities device fuel none) (path, status)

variable {device : PciDevice} {id pointer : UInt8} {path : List UInt8} {result : Option UInt8}

theorem Chain.first (chain : Chain device pointer path) : First device id pointer (path.find? (device.byte · == id)) := by
  induction chain with
  | ends => exact .ends
  | @link capability _ _ some_ leads _ ih =>
    by_cases same : device.byte capability = id
    · simp only [List.find?_cons, beq_iff_eq.mpr same]
      exact .here some_ same
    · simp only [List.find?_cons, beq_eq_false_iff_ne.mpr same]
      exact .further some_ same leads ih

section Search

theorem capabilityLoop_returns (first : First device id pointer result) :
    ∃ enough, forall fuel, enough ≤ fuel -> capabilityLoop device id fuel pointer = .ok (outcome result) := by
  induction first with
  | ends =>
    refine ⟨1, fun fuel enough => ?_⟩
    obtain ⟨fuel, rfl⟩ := Nat.exists_eq_add_of_le' enough
    rfl
  | here some_ found =>
    refine ⟨1, fun fuel enough => ?_⟩
    obtain ⟨fuel, rfl⟩ := Nat.exists_eq_add_of_le' enough
    rw [capabilityLoop, if_neg some_, capabilityId, device.read_byte, Access.ok_bind, if_pos found]
    rfl
  | further some_ differs leads _ ih =>
    obtain ⟨least, returns⟩ := ih
    refine ⟨least + 1, fun fuel enough => ?_⟩
    obtain ⟨fuel, rfl⟩ := Nat.exists_eq_add_of_le' (Nat.le_of_add_left_le enough)
    rw [capabilityLoop, if_neg some_, capabilityId, device.read_byte, Access.ok_bind, if_neg differs, leads, Access.ok_bind]
    exact returns fuel (by omega)

theorem finds_iff (device : PciDevice) (id : UInt8) :
    Finds device id ↔ device.capabilitiesList = true ∧ ∃ result, First device id device.capabilitiesPointer result := by
  cases listed : device.capabilitiesList with
  | false =>
    refine iff_of_false ?_ (fun both => Bool.false_ne_true both.1)
    rintro ⟨result, _, enough, returns⟩
    have run := returns enough (Nat.le_refl _)
    simp only [pciDevRetrieveCapabilityById, listed, Bool.true_eq_false, if_true, if_false] at run
    cases result with
    | none => cases run
    | some capability => cases run
  | true =>
    have run (fuel : Nat) : pciDevRetrieveCapabilityById fuel (some device) id true =
        capabilityLoop device id fuel device.capabilitiesPointer := by
      simp only [pciDevRetrieveCapabilityById, listed, Bool.true_eq_false, if_false]
    constructor
    · rintro ⟨result, first, _⟩
      exact ⟨rfl, result, first⟩
    · rintro ⟨_, result, first⟩
      obtain ⟨enough, returns⟩ := capabilityLoop_returns first
      exact ⟨result, first, enough, fun fuel more => (run fuel).trans (returns fuel more)⟩

end Search

section Enumeration

variable {previous : Option UInt8}

theorem retrieveNext_eq (listed : device.capabilitiesList = true) (leads : pointerBehind device previous = .ok pointer) :
    pciDevRetrieveNextCapability (some device) previous true =
      if pointer ≠ 0 then .ok (.success, some pointer) else .ok (.deviceCapabilityDoesNotExist, none) := by
  simp only [pciDevRetrieveNextCapability, listed, Bool.true_eq_false, if_false, leads]
  rfl

theorem dumpPciCapabilities_returns (listed : device.capabilitiesList = true) (chain : Chain device pointer path)
    (leads : pointerBehind device previous = .ok pointer) :
    ∃ enough, forall fuel, enough ≤ fuel ->
      dumpPciCapabilities device fuel previous = .ok (path, .deviceCapabilityDoesNotExist) := by
  induction chain generalizing previous with
  | ends =>
    refine ⟨1, fun fuel enough => ?_⟩
    obtain ⟨fuel, rfl⟩ := Nat.exists_eq_add_of_le' enough
    rw [dumpPciCapabilities, retrieveNext_eq listed leads]
    rfl
  | link some_ behind _ ih =>
    obtain ⟨least, returns⟩ := @ih (some _) behind
    refine ⟨least + 1, fun fuel enough => ?_⟩
    obtain ⟨fuel, rfl⟩ := Nat.exists_eq_add_of_le' (Nat.le_of_add_left_le enough)
    rw [dumpPciCapabilities, retrieveNext_eq listed leads, if_pos some_, Access.ok_bind]
    simp only [if_true]
    rw [returns fuel (by omega)]
    rfl

theorem enumerates_iff (device : PciDevice) :
    Enumerates device ↔ ∃ path, Chain device device.capabilitiesPointer path ∧
      (device.capabilitiesList = true ∨ path = []) := by
  cases listed : device.capabilitiesList with
  | false =>
    have run (fuel : Nat) : dumpPciCapabilities device (fuel + 1) none = .ok ([], .deviceCapabilitiesNotSupported) := by
      simp only [dumpPciCapabilities, pciDevRetrieveNextCapability, listed, Bool.true_eq_false, if_true, if_false]
      rfl
    constructor
    · rintro ⟨path, status, chain, _, enough, returns⟩
      have same := (run enough).symm.trans (returns (enough + 1) (Nat.le_succ _))
      cases same
      exact ⟨[], chain, .inr rfl⟩
    · rintro ⟨path, chain, none_ | rfl⟩
      · cases none_
      · refine ⟨[], .deviceCapabilitiesNotSupported, chain, by decide, 1, fun fuel enough => ?_⟩
        obtain ⟨fuel, rfl⟩ := Nat.exists_eq_add_of_le' enough
        exact run fuel
  | true =>
    constructor
    · rintro ⟨path, status, chain, _⟩
      exact ⟨path, chain, .inl rfl⟩
    · rintro ⟨path, chain, _⟩
      exact ⟨path, .deviceCapabilityDoesNotExist, chain, by decide, dumpPciCapabilities_returns listed chain rfl⟩

end Enumeration

theorem capabilities_walked_iff (device : PciDevice) :
    (forall id, Finds device id ↔
      device.capabilitiesList = true ∧ ∃ result, First device id device.capabilitiesPointer result) ∧
    (Enumerates device ↔ ∃ path, Chain device device.capabilitiesPointer path ∧
      (device.capabilitiesList = true ∨ path = [])) :=
  ⟨finds_iff device, enumerates_iff device⟩

def chainedDevice (capability next : UInt8) : PciDevice where
  data offset :=
    if offset.val = 0x06 then 0x10
    else if offset.val = 0x34 then capability
    else if offset.val = capability.toNat then 1
    else if offset.val = capability.toNat + 1 then next
    else 0

theorem chainedDevice_loops (fuel : Nat) : capabilityLoop (chainedDevice 0x40 0x40) 5 fuel 0x40 = .error .unfinished := by
  induction fuel with
  | zero => rfl
  | succ fuel ih =>
    have differs : (chainedDevice 0x40 0x40).byte 0x40 ≠ 5 := by decide
    have leads : nextPointer (chainedDevice 0x40 0x40) 0x40 = .ok 0x40 := by decide
    rw [capabilityLoop, if_neg (by decide), capabilityId, PciDevice.read_byte, Access.ok_bind, if_neg differs, leads,
      Access.ok_bind, ih]

-- A capability that is linked to itself, and one in the last byte of the space.
theorem capabilities_run_away :
    (forall fuel, pciDevRetrieveCapabilityById fuel (some (chainedDevice 0x40 0x40)) 5 true = .error .unfinished) ∧
      ¬ Finds (chainedDevice 0x40 0x40) 5 ∧
      pciDevRetrieveCapabilityById 2 (some (chainedDevice 0xFF 0)) 5 true = .error (.outOfBounds 256) ∧
      ¬ Finds (chainedDevice 0xFF 0) 5 := by
  refine ⟨chainedDevice_loops, ?_, by decide, ?_⟩
  · rintro ⟨result, _, enough, returns⟩
    have same := (chainedDevice_loops enough).symm.trans (returns enough (Nat.le_refl _))
    cases same
  · rintro ⟨result, _, enough, returns⟩
    have same : pciDevRetrieveCapabilityById (enough + 1) (some (chainedDevice 0xFF 0)) 5 true = .error (.outOfBounds 256) := rfl
    exact absurd (same.symm.trans (returns (enough + 1) (Nat.le_succ _))) (by simp)

end Hal9000.Pci
