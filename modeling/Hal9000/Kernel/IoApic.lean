import Hal9000.CommonLib.Bitmap
import Mathlib.Logic.Relation

set_option autoImplicit false

namespace Hal9000.IoApic

open Relation (ReflTransGen)

inductive ApicTriggerMode where
  | edge
  | level
  deriving DecidableEq, Repr

inductive ApicPinPolarity where
  | activeHigh
  | activeLow
  deriving DecidableEq, Repr

inductive ApicDestinationMode where
  | physical
  | logical
  deriving DecidableEq, Repr

inductive ApicDeliveryMode where
  | fixed
  | lowest
  | smi
  | nmi
  | init
  | sipi
  | extInt
  deriving DecidableEq, Repr

inductive Status where
  | success
  | deviceDoesNotExist
  | deviceInterruptNotAvailable
  | deviceInterruptNotConfigured
  deriving DecidableEq, Repr

structure AcpiIoApic where
  id : Nat
  globalIrqBase : Nat
  apicId : Nat
  apicVersion : Nat
  maximumRedirectionEntry : UInt8
  deriving DecidableEq, Repr

structure AcpiInterruptOverride where
  bus : Nat
  sourceIrq : UInt8
  globalIrq : Nat
  intiFlags : Nat
  deriving DecidableEq, Repr

structure AcpiPrtEntry where
  busNumber : Nat
  segmentNumber : Nat
  address : Nat
  pin : Nat
  sourceIndex : Nat
  source : Nat
  deriving DecidableEq, Repr

structure InterruptOverride where
  sourceIrq : UInt8
  destinationIrq : UInt8
  triggerMode : ApicTriggerMode
  pinPolarity : ApicPinPolarity
  deriving DecidableEq, Repr

structure PrtEntry where
  bus : Nat
  device : Nat
  function : Nat
  ioApicLine : Nat
  interruptPin : Nat
  deriving DecidableEq, Repr

structure RedirectionEntry where
  vector : Nat
  deliveryMode : ApicDeliveryMode
  destinationMode : ApicDestinationMode
  destination : Nat
  pinPolarity : ApicPinPolarity
  triggerMode : ApicTriggerMode
  masked : Bool
  deriving DecidableEq, Repr

structure IoApicEntry where
  apicId : Nat
  version : Nat
  irqBase : UInt8
  maximumRedirectionEntry : UInt8
  interruptsWritten : UInt8 -> Bool
  redirectionTable : UInt8 -> RedirectionEntry

structure IoApicSystemData where
  apicList : List IoApicEntry
  maskInterrupts : Bool
  version : Nat
  noOfInterruptOverrides : Nat
  interruptOverrides : Option (List InterruptOverride)
  noOfPrtEntries : Nat
  prtEntries : Option (List PrtEntry)

def ioApicSystemPreinit : IoApicSystemData where
  apicList := []
  maskInterrupts := true
  version := 0
  noOfInterruptOverrides := 0
  interruptOverrides := none
  noOfPrtEntries := 0
  prtEntries := none

-- A redirection entry after reset, masked by _IoApicSystemInitEntry.
def maskedEntry : RedirectionEntry where
  vector := 0
  deliveryMode := .fixed
  destinationMode := .physical
  destination := 0
  pinPolarity := .activeHigh
  triggerMode := .edge
  masked := true

def ioApicSystemInitEntry (entry : AcpiIoApic) : Kernel IoApicEntry := do
  assert (decide (entry.globalIrqBase ≤ 255)) "AcpiEntry->GlobalIrqBase <= MAX_BYTE"
  assert (entry.apicId == entry.id) "IoApicGetId( pIoApic->MappedAddress) == pIoApic->ApicId"
  let bitmap <- Bitmap.preinit (entry.maximumRedirectionEntry.toNat + 1)
  assert (decide (bitmap.bufferSize ≤ 4)) "bitmapSize <= sizeof(DWORD)"
  pure
    { apicId := entry.id
      version := entry.apicVersion
      irqBase := UInt8.ofNat entry.globalIrqBase
      maximumRedirectionEntry := entry.maximumRedirectionEntry
      interruptsWritten := fun _ => false
      redirectionTable := fun _ => maskedEntry }

def ioApicSystemRetrieveIoApics (s : IoApicSystemData) : List AcpiIoApic -> Kernel IoApicSystemData
  | [] => pure s
  | entry :: rest => do
    let ioApic <- ioApicSystemInitEntry entry
    let version := if s.apicList.isEmpty then ioApic.version else s.version
    assert (ioApic.version == version) "pIoApic->Version == m_ioApicData.Version"
    ioApicSystemRetrieveIoApics { s with apicList := s.apicList ++ [ioApic], version := version } rest

def toInterruptOverride (entry : AcpiInterruptOverride) : InterruptOverride where
  sourceIrq := entry.sourceIrq
  destinationIrq := UInt8.ofNat entry.globalIrq
  triggerMode := if isBooleanFlagOn entry.intiFlags 0b1000 then .level else .edge
  pinPolarity := if isBooleanFlagOn entry.intiFlags 0b10 then .activeLow else .activeHigh

def fillOverrides : List AcpiInterruptOverride -> Kernel (List InterruptOverride)
  | [] => pure []
  | entry :: rest => do
    assert (decide (entry.globalIrq ≤ 255)) "pEntry->GlobalIrq <= MAX_BYTE"
    assert (entry.bus == 0) "0 == pEntry->Bus"
    let filled <- fillOverrides rest
    pure (toInterruptOverride entry :: filled)

def ioApicSystemRetrieveInterruptOverrides (entries : List AcpiInterruptOverride) (s : IoApicSystemData) :
    Kernel IoApicSystemData := do
  let s := { s with noOfInterruptOverrides := entries.length }
  if entries.length = 0 then
    pure { s with noOfInterruptOverrides := 0, interruptOverrides := none }
  else
    let interruptOverrides <- fillOverrides entries
    assert (interruptOverrides.length == s.noOfInterruptOverrides)
      "noOfInterruptOverrides == m_ioApicData.NoOfInterruptOverrides"
    pure { s with
      noOfInterruptOverrides := interruptOverrides.length, interruptOverrides := some interruptOverrides }

def ioApicSystemInit (ioApics : List AcpiIoApic) (overrides : List AcpiInterruptOverride) : Kernel IoApicSystemData := do
  let s <- ioApicSystemRetrieveIoApics ioApicSystemPreinit ioApics
  ioApicSystemRetrieveInterruptOverrides overrides s

def toPrtEntry (entry : AcpiPrtEntry) : PrtEntry where
  bus := entry.busNumber
  device := entry.address / 2 ^ 16 % 2 ^ 8
  function := entry.address % 2 ^ 8
  ioApicLine := entry.sourceIndex
  interruptPin := (entry.pin % 2 ^ 8 + 1) % 2 ^ 8

def fillPrtEntries : List AcpiPrtEntry -> Kernel (List PrtEntry)
  | [] => pure []
  | entry :: rest => do
    assert (entry.segmentNumber == 0) "0 == segmentNumber"
    assert (entry.source == 0) "0 == *((DWORD*)pEntry->Source)"
    let filled <- fillPrtEntries rest
    pure (toPrtEntry entry :: filled)

-- The passes count in NoOfInterruptOverrides here, too.
def ioApicSystemRetrievePrtEntries (entries : List AcpiPrtEntry) (s : IoApicSystemData) :
    Kernel IoApicSystemData := do
  let s := { s with noOfInterruptOverrides := entries.length }
  if entries.length = 0 then
    pure { s with noOfPrtEntries := 0, prtEntries := none }
  else
    let prtEntries <- fillPrtEntries entries
    assert (prtEntries.length == s.noOfInterruptOverrides) "noOfPrtEntries == m_ioApicData.NoOfInterruptOverrides"
    pure { s with noOfPrtEntries := prtEntries.length, prtEntries := some prtEntries }

def ioApicLateSystemInit (prt : List AcpiPrtEntry) (s : IoApicSystemData) : Kernel IoApicSystemData :=
  ioApicSystemRetrievePrtEntries prt s

-- The loop of _IoApicReturnInterruptOverrideForIrq from index `i`, with `left` turns to go.
def overrideLoop (interruptOverrides : Option (List InterruptOverride)) (irq : UInt8)
    (result : Option InterruptOverride) (i : Nat) : (left : Nat) -> Kernel (Option InterruptOverride)
  | 0 => pure result
  | left + 1 =>
    match interruptOverrides with
    | none => .error "NULL != m_ioApicData.InterruptOverrides"
    | some entries =>
      match entries[i]? with
      -- it reads memory behind the array
      | none => .error "InterruptOverrides[i]"
      | some entry =>
        overrideLoop interruptOverrides irq (if entry.sourceIrq = irq then some entry else result) (i + 1) left

def ioApicReturnInterruptOverrideForIrq (s : IoApicSystemData) (irq : UInt8) : Kernel (Option InterruptOverride) :=
  overrideLoop s.interruptOverrides irq none 0 s.noOfInterruptOverrides

-- The loop over ApicList: the position of the IO APIC and the offset of the entry in it.
def findIoApic (irq : UInt8) (index : Nat) : List IoApicEntry -> Option (Nat × UInt8)
  | [] => none
  | ioApic :: rest =>
    if checkBounds irq.toNat 1 ioApic.irqBase.toNat (ioApic.maximumRedirectionEntry.toNat + 1) then
      some (index, irq - ioApic.irqBase)
    else findIoApic irq (index + 1) rest

def finalIrq (irq : UInt8) : Option InterruptOverride -> UInt8
  | some interruptOverride => interruptOverride.destinationIrq
  | none => irq

def ioApicSystemGetIoApicForIrq (s : IoApicSystemData) (irq : UInt8) :
    Kernel (Option (Nat × UInt8) × Option InterruptOverride) := do
  let interruptOverride <- ioApicReturnInterruptOverrideForIrq s irq
  pure (findIoApic (finalIrq irq interruptOverride) 0 s.apicList, interruptOverride)

-- The arguments of IoApicSystemSetInterrupt after the IRQ.
structure InterruptRequest where
  vector : Nat
  destinationMode : ApicDestinationMode
  deliveryMode : ApicDeliveryMode
  pinPolarity : ApicPinPolarity
  triggerMode : ApicTriggerMode
  destination : Nat
  overwrite : Bool
  deriving DecidableEq, Repr

def IoApicEntry.setRedirectionTableEntry (ioApic : IoApicEntry) (offset : UInt8) (entry : RedirectionEntry) :
    IoApicEntry :=
  { ioApic with redirectionTable := Function.update ioApic.redirectionTable offset entry }

def IoApicEntry.setRedirectionTableEntryMask (ioApic : IoApicEntry) (offset : UInt8) (masked : Bool) : IoApicEntry :=
  ioApic.setRedirectionTableEntry offset { ioApic.redirectionTable offset with masked := masked }

-- A step on the IO APIC at a position of ApicList.
def IoApicSystemData.modify (s : IoApicSystemData) (index : Nat) (f : IoApicEntry -> IoApicEntry) :
    IoApicSystemData :=
  { s with apicList := s.apicList.modify index f }

-- What IoApicSystemSetInterrupt does once it has its entry; the LAPIC is on.
def setEntry (s : IoApicSystemData) (interruptOverride : Option InterruptOverride) (irq : UInt8)
    (request : InterruptRequest) : Option (Nat × UInt8) -> Status × IoApicSystemData
  | none => (.deviceDoesNotExist, s)
  | some (index, offset) =>
    if (s.apicList[index]?.any fun ioApic => ioApic.interruptsWritten offset) && !request.overwrite then
      (.deviceInterruptNotAvailable, s)
    else
      let triggerMode := (interruptOverride.map InterruptOverride.triggerMode).getD request.triggerMode
      (.success, s.modify index fun ioApic =>
        { ioApic.setRedirectionTableEntry offset
            { vector := request.vector
              deliveryMode := request.deliveryMode
              destinationMode := request.destinationMode
              destination := request.destination
              pinPolarity := (interruptOverride.map InterruptOverride.pinPolarity).getD request.pinPolarity
              triggerMode := if irq = 8 then .level else triggerMode
              masked := s.maskInterrupts } with
          interruptsWritten := Function.update ioApic.interruptsWritten offset true })

def ioApicSystemSetInterrupt (s : IoApicSystemData) (irq : UInt8) (request : InterruptRequest) :
    Kernel (Status × IoApicSystemData) := do
  let (found, interruptOverride) <- ioApicSystemGetIoApicForIrq s irq
  pure (setEntry s interruptOverride irq request found)

def maskEntry (s : IoApicSystemData) (masked : Bool) : Option (Nat × UInt8) -> Kernel IoApicSystemData
  | none => .error "NULL != pIoApic"
  | some (index, offset) => pure (s.modify index fun ioApic => ioApic.setRedirectionTableEntryMask offset masked)

def ioApicSystemMaskInterrupt (s : IoApicSystemData) (irq : UInt8) (masked : Bool) : Kernel IoApicSystemData := do
  let (found, _) <- ioApicSystemGetIoApicForIrq s irq
  maskEntry s masked found

def entryVector (s : IoApicSystemData) : Option (Nat × UInt8) -> Status × Option Nat
  | none => (.deviceDoesNotExist, none)
  | some (index, offset) =>
    match s.apicList[index]? with
    | none => (.deviceDoesNotExist, none)
    | some ioApic =>
      if ioApic.interruptsWritten offset then (.success, some (ioApic.redirectionTable offset).vector)
      else (.deviceInterruptNotConfigured, none)

def ioApicSystemGetVectorForIrq (s : IoApicSystemData) (irq : UInt8) : Kernel (Status × Option Nat) := do
  let (found, _) <- ioApicSystemGetIoApicForIrq s irq
  pure (entryVector s found)

def ioApicSystemEnableRegisteredInterrupts (s : IoApicSystemData) : IoApicSystemData :=
  { s with
    maskInterrupts := false
    apicList := s.apicList.map fun ioApic => { ioApic with
      redirectionTable := fun offset =>
        if ioApic.interruptsWritten offset ∧ offset ≤ ioApic.maximumRedirectionEntry then
          { ioApic.redirectionTable offset with masked := false }
        else ioApic.redirectionTable offset } }

inductive Operates (s : IoApicSystemData) : IoApicSystemData -> Prop where
  | set (irq : UInt8) (request : InterruptRequest) (status : Status) (after : IoApicSystemData)
      (result : ioApicSystemSetInterrupt s irq request = .ok (status, after)) : Operates s after
  | mask (irq : UInt8) (masked : Bool) (after : IoApicSystemData)
      (result : ioApicSystemMaskInterrupt s irq masked = .ok after) : Operates s after
  | enable : Operates s (ioApicSystemEnableRegisteredInterrupts s)

def IoApicEntry.Contains (ioApic : IoApicEntry) (globalIrq : Nat) : Prop :=
  ioApic.irqBase.toNat ≤ globalIrq ∧ globalIrq ≤ ioApic.irqBase.toNat + ioApic.maximumRedirectionEntry.toNat

def IsEntry (ioApics : List IoApicEntry) (globalIrq : Nat) : Option (Nat × UInt8) -> Prop
  | some (index, offset) => ∃ ioApic, ioApics[index]? = some ioApic ∧ ioApic.Contains globalIrq ∧
    ioApic.irqBase.toNat + offset.toNat = globalIrq
  | none => forall ioApic, ioApic ∈ ioApics -> ¬ ioApic.Contains globalIrq

def destination (overrides : List AcpiInterruptOverride) (irq : UInt8) : Nat :=
  match overrides.reverse.find? (fun entry => entry.sourceIrq == irq) with
  | some entry => entry.globalIrq
  | none => irq.toNat

def entryAt (s : IoApicSystemData) (place : Nat × UInt8) : Option RedirectionEntry :=
  (s.apicList[place.1]?).map fun ioApic => ioApic.redirectionTable place.2

-- All interrupt functions work on one entry, and leave the others alone.
structure ActsOn (s : IoApicSystemData) (irq : UInt8) (target : Option (Nat × UInt8)) : Prop where
  found : ∃ interruptOverride, ioApicSystemGetIoApicForIrq s irq = .ok (target, interruptOverride)
  set : forall request, ∃ interruptOverride,
    ioApicSystemSetInterrupt s irq request = .ok (setEntry s interruptOverride irq request target)
  vector : ioApicSystemGetVectorForIrq s irq = .ok (entryVector s target)
  mask : forall masked, ioApicSystemMaskInterrupt s irq masked = maskEntry s masked target
  setOthers : forall request status after place, ioApicSystemSetInterrupt s irq request = .ok (status, after) ->
    some place ≠ target -> entryAt after place = entryAt s place
  maskOthers : forall masked after place, ioApicSystemMaskInterrupt s irq masked = .ok after ->
    some place ≠ target -> entryAt after place = entryAt s place

theorem modify_others (s : IoApicSystemData) {index : Nat} {offset : UInt8} {f : IoApicEntry -> IoApicEntry}
    (kept : forall ioApic other, other ≠ offset -> (f ioApic).redirectionTable other = ioApic.redirectionTable other)
    {place : Nat × UInt8} (elsewhere : some place ≠ some (index, offset)) :
    entryAt (s.modify index f) place = entryAt s place := by
  simp only [entryAt, IoApicSystemData.modify, List.getElem?_modify]
  cases s.apicList[place.1]? with
  | none => rfl
  | some ioApic =>
    by_cases same : index = place.1
    · have differs : place.2 ≠ offset := fun equal => elsewhere (by rw [same, ← equal])
      simp [same, kept ioApic place.2 differs]
    · simp [same]

theorem setEntry_others {s : IoApicSystemData} {interruptOverride : Option InterruptOverride} {irq : UInt8}
    {request : InterruptRequest} {target : Option (Nat × UInt8)} {place : Nat × UInt8}
    (elsewhere : some place ≠ target) :
    entryAt (setEntry s interruptOverride irq request target).2 place = entryAt s place := by
  match target with
  | none => rfl
  | some (index, offset) =>
    simp only [setEntry]
    split
    · rfl
    · refine modify_others s (fun ioApic other differs => ?_) elsewhere
      exact Function.update_of_ne differs _ _

theorem maskEntry_others {s after : IoApicSystemData} {masked : Bool} {target : Option (Nat × UInt8)}
    {place : Nat × UInt8} (result : maskEntry s masked target = .ok after) (elsewhere : some place ≠ target) :
    entryAt after place = entryAt s place := by
  match target with
  | none => cases result
  | some (index, offset) =>
    cases result
    exact modify_others s (fun ioApic other differs => Function.update_of_ne differs _ _) elsewhere

theorem actsOn_iff {s : IoApicSystemData} {irq : UInt8} {target : Option (Nat × UInt8)} :
    ActsOn s irq target ↔ ∃ interruptOverride, ioApicSystemGetIoApicForIrq s irq = .ok (target, interruptOverride) := by
  constructor
  · exact ActsOn.found
  · rintro ⟨interruptOverride, found⟩
    have set : forall request,
        ioApicSystemSetInterrupt s irq request = .ok (setEntry s interruptOverride irq request target) := fun request => by
      simp only [ioApicSystemSetInterrupt, found]
      rfl
    have mask : forall masked, ioApicSystemMaskInterrupt s irq masked = maskEntry s masked target := fun masked => by
      simp only [ioApicSystemMaskInterrupt, found]
      rfl
    refine ⟨⟨_, found⟩, fun request => ⟨_, set request⟩, ?_, mask, ?_, ?_⟩
    · simp only [ioApicSystemGetVectorForIrq, found]
      rfl
    · intro request status after place result elsewhere
      rw [set request] at result
      have equal : (setEntry s interruptOverride irq request target).2 = after :=
        congrArg Prod.snd (Except.ok.inj result)
      rw [← equal]
      exact setEntry_others elsewhere
    · intro masked after place result elsewhere
      rw [mask masked] at result
      exact maskEntry_others result elsewhere

def lastOverride (entries : List InterruptOverride) (irq : UInt8) : Option InterruptOverride :=
  entries.reverse.find? fun entry => entry.sourceIrq == irq

theorem lastOverride_cons (entry : InterruptOverride) (rest : List InterruptOverride) (irq : UInt8) :
    lastOverride (entry :: rest) irq =
      (lastOverride rest irq).or (if entry.sourceIrq = irq then some entry else none) := by
  simp only [lastOverride, List.reverse_cons, List.find?_append, List.find?_cons, List.find?_nil]
  by_cases same : entry.sourceIrq = irq
  · simp [same]
  · have differs : (entry.sourceIrq == irq) = false := by simpa using same
    simp [same, differs]

attribute [local simp] overrideLoop in
theorem overrideLoop_ok {entries : List InterruptOverride} {irq : UInt8} {result : Option InterruptOverride}
    {i left : Nat} (within : i + left ≤ entries.length) :
    overrideLoop (some entries) irq result i left = .ok ((lastOverride ((entries.drop i).take left) irq).or result) := by
  induction left generalizing i result with
  | zero => simp [overrideLoop, lastOverride, Kernel.pure_eq]
  | succ left ih =>
    have here : i < entries.length := by omega
    rw [List.drop_eq_getElem_cons here, List.take_succ_cons, lastOverride_cons]
    simp only [overrideLoop, List.getElem?_eq_getElem here]
    rw [ih (by omega)]
    by_cases same : entries[i].sourceIrq = irq
    · simp only [if_pos same, Option.or_assoc]
      rfl
    · simp only [if_neg same, Option.or_none]

theorem overrideLoop_error {entries : List InterruptOverride} {irq : UInt8} {result : Option InterruptOverride}
    {i left : Nat} (inside : i ≤ entries.length) (beyond : entries.length < i + left) :
    ∃ text, overrideLoop (some entries) irq result i left = .error text := by
  induction left generalizing i result with
  | zero => omega
  | succ left ih =>
    simp only [overrideLoop]
    by_cases here : i < entries.length
    · rw [List.getElem?_eq_getElem here]
      exact ih here (by omega)
    · rw [List.getElem?_eq_none (by omega)]
      exact ⟨_, rfl⟩

-- The look-up with a count that need not be the length of the array; no array is like an empty one.
theorem override_ok {s : IoApicSystemData} {irq : UInt8}
    (within : s.noOfInterruptOverrides ≤ (s.interruptOverrides.getD []).length) :
    ioApicReturnInterruptOverrideForIrq s irq =
      .ok (lastOverride ((s.interruptOverrides.getD []).take s.noOfInterruptOverrides) irq) := by
  rw [ioApicReturnInterruptOverrideForIrq]
  cases table : s.interruptOverrides with
  | none =>
    rw [table] at within
    rw [Nat.le_zero.mp within]
    rfl
  | some entries =>
    rw [table] at within
    rw [overrideLoop_ok (by simpa using within)]
    simp

theorem override_error {s : IoApicSystemData} {irq : UInt8}
    (beyond : (s.interruptOverrides.getD []).length < s.noOfInterruptOverrides) :
    ∃ text, ioApicReturnInterruptOverrideForIrq s irq = .error text := by
  rw [ioApicReturnInterruptOverrideForIrq]
  cases table : s.interruptOverrides with
  | none =>
    rw [table] at beyond
    obtain ⟨count, equal⟩ := Nat.exists_eq_succ_of_ne_zero (Nat.ne_of_gt (Nat.lt_of_le_of_lt (Nat.zero_le _) beyond))
    rw [equal]
    exact ⟨_, rfl⟩
  | some entries =>
    rw [table] at beyond
    exact overrideLoop_error (Nat.zero_le _) (by simpa using beyond)

theorem contains_iff {ioApic : IoApicEntry} {irq : UInt8} :
    checkBounds irq.toNat 1 ioApic.irqBase.toNat (ioApic.maximumRedirectionEntry.toNat + 1) = true ↔
      ioApic.Contains irq.toNat := by
  have small := irq.toNat_lt
  have base := ioApic.irqBase.toNat_lt
  have most := ioApic.maximumRedirectionEntry.toNat_lt
  rw [checkBounds, Bool.and_eq_true, decide_eq_true_iff, decide_eq_true_iff, qword_of_lt (by omega),
    qword_of_lt (by omega), qword_of_lt (by omega), qword_of_lt (by omega), IoApicEntry.Contains]
  omega

attribute [local simp] findIoApic in
theorem findIoApic_some {irq : UInt8} {start index : Nat} {offset : UInt8} {ioApics : List IoApicEntry}
    (found : findIoApic irq start ioApics = some (index, offset)) :
    ∃ i ioApic, index = start + i ∧ ioApics[i]? = some ioApic ∧ ioApic.Contains irq.toNat ∧
      offset = irq - ioApic.irqBase := by
  induction ioApics generalizing start with
  | nil => cases found
  | cons ioApic rest ih =>
    simp only [findIoApic] at found
    split at found
    · rename_i bounds
      cases found
      exact ⟨0, ioApic, rfl, rfl, contains_iff.mp bounds, rfl⟩
    · obtain ⟨i, other, position, member, contains, equal⟩ := ih found
      exact ⟨i + 1, other, by omega, by simpa using member, contains, equal⟩

theorem findIoApic_none {irq : UInt8} {start : Nat} {ioApics : List IoApicEntry}
    (missing : findIoApic irq start ioApics = none) :
    forall ioApic, ioApic ∈ ioApics -> ¬ ioApic.Contains irq.toNat := by
  induction ioApics generalizing start with
  | nil => nofun
  | cons ioApic rest ih =>
    simp only [findIoApic] at missing
    split at missing
    · cases missing
    · rename_i outside
      intro other member
      rcases List.mem_cons.mp member with rfl | later
      · exact fun contains => outside (contains_iff.mpr contains)
      · exact ih missing other later

theorem findIoApic_isEntry (irq : UInt8) (ioApics : List IoApicEntry) :
    IsEntry ioApics irq.toNat (findIoApic irq 0 ioApics) := by
  cases found : findIoApic irq 0 ioApics with
  | none => exact findIoApic_none found
  | some target =>
    obtain ⟨index, offset⟩ := target
    obtain ⟨i, ioApic, position, member, contains, equal⟩ := findIoApic_some found
    rw [Nat.zero_add] at position
    subst position
    refine ⟨ioApic, member, contains, ?_⟩
    have order : ioApic.irqBase ≤ irq := UInt8.le_iff_toNat_le.mpr contains.1
    rw [equal, UInt8.toNat_sub_of_le _ _ order]
    have below := contains.1
    omega

attribute [local simp] fillOverrides in
theorem fillOverrides_ok {entries : List AcpiInterruptOverride} {filled : List InterruptOverride}
    (result : fillOverrides entries = .ok filled) :
    filled = entries.map toInterruptOverride ∧ forall entry, entry ∈ entries -> entry.globalIrq ≤ 255 := by
  induction entries generalizing filled with
  | nil =>
    cases result
    exact ⟨rfl, nofun⟩
  | cons entry rest ih =>
    simp only [fillOverrides] at result
    obtain ⟨small, result⟩ := Kernel.assert_bind_eq_ok.mp result
    obtain ⟨_, result⟩ := Kernel.assert_bind_eq_ok.mp result
    obtain ⟨others, filledRest, result⟩ := Kernel.bind_eq_ok.mp result
    obtain ⟨equal, bounds⟩ := ih filledRest
    cases result
    refine ⟨by rw [equal, List.map_cons], fun other member => ?_⟩
    rcases List.mem_cons.mp member with rfl | later
    · exact of_decide_eq_true small
    · exact bounds other later

structure Tabled (overrides : List AcpiInterruptOverride) (s : IoApicSystemData) : Prop where
  table : s.interruptOverrides.getD [] = overrides.map toInterruptOverride
  small : forall entry, entry ∈ overrides -> entry.globalIrq ≤ 255

theorem init_tabled {ioApics : List AcpiIoApic} {overrides : List AcpiInterruptOverride} {early : IoApicSystemData}
    (init : ioApicSystemInit ioApics overrides = .ok early) : Tabled overrides early := by
  rw [ioApicSystemInit] at init
  obtain ⟨s, _, result⟩ := Kernel.bind_eq_ok.mp init
  simp only [ioApicSystemRetrieveInterruptOverrides] at result
  split at result
  · rename_i none
    cases result
    rw [List.length_eq_zero_iff.mp none]
    exact ⟨rfl, nofun⟩
  · obtain ⟨filled, fill, result⟩ := Kernel.bind_eq_ok.mp result
    obtain ⟨_, result⟩ := Kernel.assert_bind_eq_ok.mp result
    cases result
    obtain ⟨equal, small⟩ := fillOverrides_ok fill
    exact ⟨equal, small⟩

theorem late_counts {prt : List AcpiPrtEntry} {s late : IoApicSystemData}
    (result : ioApicLateSystemInit prt s = .ok late) :
    late.noOfInterruptOverrides = prt.length ∧ late.interruptOverrides = s.interruptOverrides ∧
      late.apicList = s.apicList := by
  simp only [ioApicLateSystemInit, ioApicSystemRetrievePrtEntries] at result
  split at result
  · cases result
    exact ⟨rfl, rfl, rfl⟩
  · obtain ⟨filled, _, result⟩ := Kernel.bind_eq_ok.mp result
    obtain ⟨_, result⟩ := Kernel.assert_bind_eq_ok.mp result
    cases result
    exact ⟨rfl, rfl, rfl⟩

def IoApicEntry.range (ioApic : IoApicEntry) : UInt8 × UInt8 := (ioApic.irqBase, ioApic.maximumRedirectionEntry)

structure SameRouting (s after : IoApicSystemData) : Prop where
  ranges : after.apicList.map IoApicEntry.range = s.apicList.map IoApicEntry.range
  count : after.noOfInterruptOverrides = s.noOfInterruptOverrides
  table : after.interruptOverrides = s.interruptOverrides

theorem SameRouting.refl (s : IoApicSystemData) : SameRouting s s := ⟨rfl, rfl, rfl⟩

theorem SameRouting.trans {s middle after : IoApicSystemData} (first : SameRouting s middle)
    (second : SameRouting middle after) : SameRouting s after :=
  ⟨second.ranges.trans first.ranges, second.count.trans first.count, second.table.trans first.table⟩

theorem modify_sameRouting (s : IoApicSystemData) (index : Nat) {f : IoApicEntry -> IoApicEntry}
    (kept : forall ioApic, (f ioApic).range = ioApic.range) : SameRouting s (s.modify index f) := by
  refine ⟨?_, rfl, rfl⟩
  simp only [IoApicSystemData.modify]
  refine List.ext_getElem? fun i => ?_
  simp only [List.getElem?_map, List.getElem?_modify]
  cases s.apicList[i]? with
  | none => rfl
  | some ioApic =>
    by_cases here : index = i
    · simp [here, kept]
    · simp [here]

theorem setEntry_sameRouting (s : IoApicSystemData) (interruptOverride : Option InterruptOverride) (irq : UInt8)
    (request : InterruptRequest) (target : Option (Nat × UInt8)) :
    SameRouting s (setEntry s interruptOverride irq request target).2 := by
  cases target with
  | none => exact .refl s
  | some entry =>
    obtain ⟨index, offset⟩ := entry
    simp only [setEntry]
    split
    · exact .refl s
    · exact modify_sameRouting s index fun _ => rfl

theorem operates_sameRouting {s after : IoApicSystemData} (operates : Operates s after) : SameRouting s after := by
  cases operates with
  | set irq request status _ result =>
    rw [ioApicSystemSetInterrupt] at result
    obtain ⟨⟨target, interruptOverride⟩, _, result⟩ := Kernel.bind_eq_ok.mp result
    have equal : (setEntry s interruptOverride irq request target).2 = after :=
      congrArg Prod.snd (Except.ok.inj result)
    rw [← equal]
    exact setEntry_sameRouting s interruptOverride irq request target
  | mask irq masked _ result =>
    rw [ioApicSystemMaskInterrupt] at result
    obtain ⟨⟨target, _⟩, _, result⟩ := Kernel.bind_eq_ok.mp result
    cases target with
    | none => cases result
    | some entry =>
      cases result
      exact modify_sameRouting s entry.1 fun _ => rfl
  | enable =>
    refine ⟨?_, rfl, rfl⟩
    simp only [ioApicSystemEnableRegisteredInterrupts, List.map_map]
    rfl

theorem run_sameRouting {s after : IoApicSystemData} (run : ReflTransGen Operates s after) : SameRouting s after := by
  induction run with
  | refl => exact .refl s
  | tail _ operates ih => exact ih.trans (operates_sameRouting operates)

theorem lastOverride_map (overrides : List AcpiInterruptOverride) (irq : UInt8) :
    lastOverride (overrides.map toInterruptOverride) irq =
      (overrides.reverse.find? fun entry => entry.sourceIrq == irq).map toInterruptOverride := by
  rw [lastOverride, ← List.map_reverse, List.find?_map]
  rfl

theorem toNat_destination {overrides : List AcpiInterruptOverride}
    (small : forall entry, entry ∈ overrides -> entry.globalIrq ≤ 255) (irq : UInt8) :
    (finalIrq irq (lastOverride (overrides.map toInterruptOverride) irq)).toNat = destination overrides irq := by
  rw [lastOverride_map, destination]
  cases found : overrides.reverse.find? fun entry => entry.sourceIrq == irq with
  | none => rfl
  | some entry =>
    have bound := small entry (List.mem_reverse.mp (List.mem_of_find?_eq_some found))
    exact UInt8.toNat_ofNat_of_lt' (Nat.lt_of_le_of_lt bound (by decide))

theorem route_ok {s : IoApicSystemData} {overrides : List AcpiInterruptOverride} (tabled : Tabled overrides s)
    (within : s.noOfInterruptOverrides ≤ overrides.length) (irq : UInt8) :
    ∃ final interruptOverride,
      ioApicSystemGetIoApicForIrq s irq = .ok (findIoApic final 0 s.apicList, interruptOverride) ∧
        final.toNat = destination (overrides.take s.noOfInterruptOverrides) irq := by
  have listed : s.noOfInterruptOverrides ≤ (s.interruptOverrides.getD []).length := by
    rw [tabled.table, List.length_map]
    exact within
  have found := @override_ok s irq listed
  rw [tabled.table, ← List.map_take] at found
  have small : forall entry, entry ∈ overrides.take s.noOfInterruptOverrides -> entry.globalIrq ≤ 255 :=
    fun entry member => tabled.small entry (List.mem_of_mem_take member)
  refine ⟨_, lastOverride ((overrides.take s.noOfInterruptOverrides).map toInterruptOverride) irq, ?_,
    toNat_destination small irq⟩
  simp only [ioApicSystemGetIoApicForIrq, found]
  rfl

theorem route_error {s : IoApicSystemData} {overrides : List AcpiInterruptOverride} (tabled : Tabled overrides s)
    (beyond : overrides.length < s.noOfInterruptOverrides) (irq : UInt8) :
    ∃ text, ioApicSystemGetIoApicForIrq s irq = .error text := by
  have unlisted : (s.interruptOverrides.getD []).length < s.noOfInterruptOverrides := by
    rw [tabled.table, List.length_map]
    exact beyond
  obtain ⟨text, failed⟩ := @override_error s irq unlisted
  refine ⟨text, ?_⟩
  simp only [ioApicSystemGetIoApicForIrq, failed]
  rfl

theorem contains_congr {ioApic other : IoApicEntry} (same : ioApic.range = other.range) {globalIrq : Nat} :
    ioApic.Contains globalIrq ↔ other.Contains globalIrq := by
  obtain ⟨base, most⟩ := Prod.mk.inj same
  rw [IoApicEntry.Contains, IoApicEntry.Contains, base, most]

theorem isEntry_ranges {ioApics others : List IoApicEntry}
    (same : ioApics.map IoApicEntry.range = others.map IoApicEntry.range) {globalIrq : Nat}
    {target : Option (Nat × UInt8)} (entry : IsEntry ioApics globalIrq target) : IsEntry others globalIrq target := by
  have related : forall i : Nat, (ioApics[i]?).map IoApicEntry.range = (others[i]?).map IoApicEntry.range := fun i => by
    rw [← List.getElem?_map, ← List.getElem?_map, same]
  cases target with
  | none =>
    intro other member contains
    obtain ⟨i, position⟩ := List.mem_iff_getElem?.mp member
    have pair := related i
    rw [position] at pair
    obtain ⟨ioApic, there, range⟩ := Option.map_eq_some_iff.mp pair
    exact entry ioApic (List.mem_of_getElem? there) ((contains_congr range).mpr contains)
  | some target =>
    obtain ⟨index, offset⟩ := target
    obtain ⟨ioApic, position, contains, equal⟩ := entry
    have pair := related index
    rw [position] at pair
    obtain ⟨other, there, range⟩ := Option.map_eq_some_iff.mp pair.symm
    have base := congrArg Prod.fst range
    exact ⟨other, there, (contains_congr range.symm).mp contains, by
      rw [← equal]
      exact congrArg (fun irq : UInt8 => irq.toNat + offset.toNat) base⟩

def Disjoint (ioApics : List IoApicEntry) : Prop :=
  ioApics.Pairwise fun ioApic other => forall globalIrq, ¬ (ioApic.Contains globalIrq ∧ other.Contains globalIrq)

theorem isEntry_unique {ioApics : List IoApicEntry} (disjoint : Disjoint ioApics) {globalIrq : Nat}
    {target other : Option (Nat × UInt8)} (entry : IsEntry ioApics globalIrq target)
    (entry' : IsEntry ioApics globalIrq other) : target = other := by
  match target, other with
  | none, none => rfl
  | none, some (_, _) =>
    obtain ⟨ioApic, position, contains, _⟩ := entry'
    exact absurd contains (entry ioApic (List.mem_of_getElem? position))
  | some (_, _), none =>
    obtain ⟨ioApic, position, contains, _⟩ := entry
    exact absurd contains (entry' ioApic (List.mem_of_getElem? position))
  | some (index, offset), some (index', offset') =>
    obtain ⟨ioApic, position, contains, equal⟩ := entry
    obtain ⟨ioApic', position', contains', equal'⟩ := entry'
    obtain ⟨within, here⟩ := List.getElem?_eq_some_iff.mp position
    obtain ⟨within', here'⟩ := List.getElem?_eq_some_iff.mp position'
    have same : index = index' := by
      rcases Nat.lt_trichotomy index index' with before | same | after
      · refine absurd ⟨?_, ?_⟩ (List.pairwise_iff_getElem.mp disjoint index index' within within' before globalIrq)
        · rwa [here]
        · rwa [here']
      · exact same
      · refine absurd ⟨?_, ?_⟩ (List.pairwise_iff_getElem.mp disjoint index' index within' within after globalIrq)
        · rwa [here']
        · rwa [here]
    subst same
    have one : ioApic = ioApic' := here.symm.trans here'
    subst one
    have offsets : offset = offset' := UInt8.toNat_inj.mp (by omega)
    rw [offsets]

def SameEntry (ioApics : List IoApicEntry) (globalIrq other : Nat) : Prop :=
  globalIrq = other ∨ forall ioApic, ioApic ∈ ioApics -> ¬ ioApic.Contains globalIrq ∧ ¬ ioApic.Contains other

theorem sameEntry_isEntry {ioApics : List IoApicEntry} {globalIrq other : Nat}
    (same : SameEntry ioApics globalIrq other) {target : Option (Nat × UInt8)} (entry : IsEntry ioApics other target) :
    IsEntry ioApics globalIrq target := by
  rcases same with rfl | nowhere
  · exact entry
  · match target with
    | none => exact fun ioApic member => (nowhere ioApic member).1
    | some (_, _) =>
      obtain ⟨ioApic, position, contains, _⟩ := entry
      exact absurd contains (nowhere ioApic (List.mem_of_getElem? position)).2

theorem isEntry_sameEntry {ioApics : List IoApicEntry} {globalIrq other : Nat} {target : Option (Nat × UInt8)}
    (entry : IsEntry ioApics globalIrq target) (entry' : IsEntry ioApics other target) :
    SameEntry ioApics globalIrq other := by
  match target with
  | none => exact .inr fun ioApic member => ⟨entry ioApic member, entry' ioApic member⟩
  | some (_, _) =>
    obtain ⟨ioApic, position, _, equal⟩ := entry
    obtain ⟨ioApic', position', _, equal'⟩ := entry'
    have one : ioApic = ioApic' := Option.some.inj (position.symm.trans position')
    subst one
    exact .inl (equal.symm.trans equal')

-- There are no more PRT entries than overrides, and an override cut off at their number, the last one of its
-- IRQ, sends it where it goes without it.
structure Harmless (ioApics : List IoApicEntry) (overrides : List AcpiInterruptOverride) (count : Nat) : Prop where
  fits : count ≤ overrides.length
  cutOff : forall front entry rear, overrides.drop count = front ++ entry :: rear ->
    (forall later, later ∈ rear -> later.sourceIrq ≠ entry.sourceIrq) ->
    SameEntry ioApics entry.globalIrq (destination (overrides.take count) entry.sourceIrq)

theorem destination_append (front rear : List AcpiInterruptOverride) (irq : UInt8) :
    destination (front ++ rear) irq =
      match rear.reverse.find? (fun entry => entry.sourceIrq == irq) with
      | some entry => entry.globalIrq
      | none => destination front irq := by
  rw [destination, List.reverse_append, List.find?_append]
  cases rear.reverse.find? fun entry => entry.sourceIrq == irq with
  | none => rfl
  | some entry => rfl

theorem destination_last {overrides front rear : List AcpiInterruptOverride} {entry : AcpiInterruptOverride}
    (split : overrides = front ++ entry :: rear)
    (last : forall later, later ∈ rear -> later.sourceIrq ≠ entry.sourceIrq) :
    destination overrides entry.sourceIrq = entry.globalIrq := by
  have found : (entry :: rear).reverse.find? (fun other => other.sourceIrq == entry.sourceIrq) = some entry := by
    rw [List.reverse_cons, List.find?_append]
    have none : rear.reverse.find? (fun other => other.sourceIrq == entry.sourceIrq) = none :=
      List.find?_eq_none.mpr fun later member => by simpa using last later (List.mem_reverse.mp member)
    simp [none]
  rw [split, destination_append, found]

theorem harmless_same {ioApics : List IoApicEntry} {overrides : List AcpiInterruptOverride} {count : Nat}
    (harmless : Harmless ioApics overrides count) (irq : UInt8) :
    SameEntry ioApics (destination overrides irq) (destination (overrides.take count) irq) := by
  have split := destination_append (overrides.take count) (overrides.drop count) irq
  rw [List.take_append_drop] at split
  cases found : (overrides.drop count).reverse.find? fun entry => entry.sourceIrq == irq with
  | none =>
    rw [found] at split
    exact .inl split
  | some entry =>
    rw [found] at split
    obtain ⟨same, before, after, reversed, others⟩ := List.find?_eq_some_iff_append.mp found
    have source : entry.sourceIrq = irq := by simpa using same
    subst source
    have forwards : overrides.drop count = after.reverse ++ entry :: before.reverse := by
      have back := congrArg List.reverse reversed
      simpa using back
    rw [split]
    refine harmless.cutOff _ entry _ forwards fun later member => ?_
    simpa using others later (List.mem_reverse.mp member)

def Routes (ioApics : List IoApicEntry) (overrides : List AcpiInterruptOverride) (s : IoApicSystemData)
    (irq : UInt8) : Prop :=
  ∃ target, (forall other, IsEntry ioApics (destination overrides irq) other ↔ other = target) ∧ ActsOn s irq target

theorem irq_routing {ioApics : List AcpiIoApic} {overrides : List AcpiInterruptOverride} {prt : List AcpiPrtEntry}
    {early between late : IoApicSystemData} (init : ioApicSystemInit ioApics overrides = .ok early)
    (disjoint : Disjoint early.apicList) (used : ReflTransGen Operates early between)
    (lateInit : ioApicLateSystemInit prt between = .ok late) :
    (forall s, ReflTransGen Operates late s -> forall irq, Routes early.apicList overrides s irq) ↔
      Harmless early.apicList overrides prt.length := by
  have kept := run_sameRouting used
  obtain ⟨count, table, list⟩ := late_counts lateInit
  have tabled := init_tabled init
  constructor
  · intro routes
    have tabledLate : Tabled overrides late := ⟨by rw [table, kept.table, tabled.table], tabled.small⟩
    have fits : late.noOfInterruptOverrides ≤ overrides.length := by
      by_contra beyond
      obtain ⟨text, failed⟩ := route_error tabledLate (Nat.not_le.mp beyond) 0
      obtain ⟨target, _, acts⟩ := routes late .refl 0
      obtain ⟨_, found⟩ := acts.found
      rw [failed] at found
      cases found
    rw [count] at fits
    refine ⟨fits, fun front entry rear split last => ?_⟩
    obtain ⟨target, unique, acts⟩ := routes late .refl entry.sourceIrq
    obtain ⟨_, found⟩ := acts.found
    obtain ⟨irq, _, result, final⟩ := route_ok tabledLate (count ▸ fits) entry.sourceIrq
    rw [found] at result
    have here : target = findIoApic irq 0 late.apicList := congrArg Prod.fst (Except.ok.inj result)
    have whole : overrides = (overrides.take prt.length ++ front) ++ entry :: rear := by
      rw [List.append_assoc, ← split, List.take_append_drop]
    have first := (unique target).mpr rfl
    rw [destination_last whole last] at first
    have second := findIoApic_isEntry irq late.apicList
    rw [← here, final, count] at second
    exact isEntry_sameEntry first (isEntry_ranges (by rw [list, kept.ranges]) second)
  · intro harmless s run irq
    have same := run_sameRouting run
    have tabledAfter : Tabled overrides s := ⟨by rw [same.table, table, kept.table, tabled.table], tabled.small⟩
    have within : s.noOfInterruptOverrides ≤ overrides.length := by
      rw [same.count, count]
      exact harmless.fits
    obtain ⟨routed, interruptOverride, result, final⟩ := route_ok tabledAfter within irq
    rw [same.count, count] at final
    have entry := findIoApic_isEntry routed s.apicList
    rw [final] at entry
    have served := sameEntry_isEntry (harmless_same harmless irq)
      (isEntry_ranges (by rw [same.ranges, list, kept.ranges]) entry)
    refine ⟨_, fun other => ⟨fun otherEntry => isEntry_unique disjoint otherEntry served, ?_⟩,
      actsOn_iff.mpr ⟨interruptOverride, result⟩⟩
    rintro rfl
    exact served

def pcIoApic (id base : Nat) : AcpiIoApic where
  id := id
  globalIrqBase := base
  apicId := id
  apicVersion := 0x20
  maximumRedirectionEntry := 23

def isaOverride (sourceIrq : UInt8) (globalIrq : Nat) : AcpiInterruptOverride where
  bus := 0
  sourceIrq := sourceIrq
  globalIrq := globalIrq
  intiFlags := 0

def prtEntry (device pin : Nat) : AcpiPrtEntry where
  busNumber := 0
  segmentNumber := 0
  address := device * 2 ^ 16 + 0xFF
  pin := pin
  sourceIndex := 16 + pin
  source := 0

def ioApicEntry (id : Nat) (base : UInt8) : IoApicEntry where
  apicId := id
  version := 0x20
  irqBase := base
  maximumRedirectionEntry := 23
  interruptsWritten := fun _ => false
  redirectionTable := fun _ => maskedEntry

def pcOverrides : List AcpiInterruptOverride := [isaOverride 0 2, isaOverride 9 20]

def earlyData : IoApicSystemData := { ioApicSystemPreinit with
  apicList := [ioApicEntry 1 0, ioApicEntry 2 24]
  version := 0x20
  noOfInterruptOverrides := 2
  interruptOverrides := some (pcOverrides.map toInterruptOverride) }

def lateData (prt : List AcpiPrtEntry) : IoApicSystemData := { earlyData with
  noOfInterruptOverrides := prt.length
  noOfPrtEntries := prt.length
  prtEntries := some (prt.map toPrtEntry) }

theorem earlyData_init : ioApicSystemInit [pcIoApic 1 0, pcIoApic 2 24] pcOverrides = .ok earlyData := rfl

theorem earlyData_disjoint : Disjoint earlyData.apicList := by
  refine List.pairwise_pair.mpr fun globalIrq both => ?_
  have first : globalIrq ≤ 0 + 23 := both.1.2
  have second : 24 ≤ globalIrq := both.2.1
  omega

theorem pcOverrides_harmless : Harmless earlyData.apicList pcOverrides [prtEntry 1 0, prtEntry 2 1].length := by
  refine ⟨by decide, fun front entry rear split _ => ?_⟩
  have none : front ++ entry :: rear = [] := split.symm
  simp at none

theorem irq_routing_sample :
    ioApicLateSystemInit [prtEntry 1 0, prtEntry 2 1] earlyData = .ok (lateData [prtEntry 1 0, prtEntry 2 1]) ∧
      forall s, ReflTransGen Operates (lateData [prtEntry 1 0, prtEntry 2 1]) s ->
        forall irq, Routes earlyData.apicList pcOverrides s irq :=
  ⟨rfl, (irq_routing earlyData_init earlyData_disjoint .refl rfl).mpr pcOverrides_harmless⟩

theorem routes_cut : ¬ Routes earlyData.apicList pcOverrides (lateData [prtEntry 1 0]) 9 := by
  rintro ⟨target, unique, acts⟩
  obtain ⟨_, found⟩ := acts.found
  have here : ioApicSystemGetIoApicForIrq (lateData [prtEntry 1 0]) 9 = .ok (some (0, 9), none) := rfl
  rw [here] at found
  have target_eq : some (0, 9) = target := congrArg Prod.fst (Except.ok.inj found)
  obtain ⟨ioApic, position, _, equal⟩ := (unique target).mpr rfl |> target_eq.symm.subst
  have first : ioApicEntry 1 0 = ioApic := Option.some.inj position
  rw [← first] at equal
  exact absurd equal (by decide)

theorem routes_beyond :
    ¬ Routes earlyData.apicList pcOverrides (lateData [prtEntry 1 0, prtEntry 2 1, prtEntry 3 2]) 9 := by
  rintro ⟨target, _, acts⟩
  obtain ⟨_, found⟩ := acts.found
  have here : ioApicSystemGetIoApicForIrq (lateData [prtEntry 1 0, prtEntry 2 1, prtEntry 3 2]) 9 =
      .error "InterruptOverrides[i]" := rfl
  rw [here] at found
  cases found

-- One PRT entry cuts the override of IRQ 9 off; three of them make every look-up read behind the array.
theorem irq_misrouted : ioApicSystemInit [pcIoApic 1 0, pcIoApic 2 24] pcOverrides = .ok earlyData ∧
    Disjoint earlyData.apicList ∧
    (ioApicLateSystemInit [prtEntry 1 0] earlyData = .ok (lateData [prtEntry 1 0]) ∧
      ¬ Routes earlyData.apicList pcOverrides (lateData [prtEntry 1 0]) 9) ∧
    ioApicLateSystemInit [prtEntry 1 0, prtEntry 2 1, prtEntry 3 2] earlyData =
        .ok (lateData [prtEntry 1 0, prtEntry 2 1, prtEntry 3 2]) ∧
      ¬ Routes earlyData.apicList pcOverrides (lateData [prtEntry 1 0, prtEntry 2 1, prtEntry 3 2]) 9 :=
  ⟨earlyData_init, earlyData_disjoint, ⟨rfl, routes_cut⟩, rfl, routes_beyond⟩

end Hal9000.IoApic
