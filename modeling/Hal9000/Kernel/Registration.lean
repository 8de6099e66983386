import Hal9000.Kernel.Interrupts
import Hal9000.Lib.Transition

set_option autoImplicit false

namespace Hal9000.Interrupts

open Function (update)
open Lib (Program TransitionSystem)
open Lib.Program (Returns Fails Stops)
open IoApic

variable {Routine Device : Type}

def IomuData.used (s : IomuData Routine Device) (vector : Nat) : Bool :=
  Bitmap.getBit s.memory s.interruptBitmap.bitmapBuffer vector

def IomuData.freeVectors (s : IomuData Routine Device) (irql : Nat) : Set Nat :=
  { vector | irqlToVector irql ≤ vector ∧ vector < irqlToVector irql + vectorsPerIrql ∧ s.used vector = false }

def IomuData.handlers (s : IomuData Routine Device) (vector : Nat) : List (RegisteredInterruptEntry Routine Device) :=
  s.registeredInterrupts (vector - noOfReservedExceptions)

def lineOf (s : IomuData Routine Device) (interrupt : IoInterrupt Routine Device) : Option UInt8 :=
  match interrupt.type with
  | .legacy irq => some irq
  | .lapic => none
  | .pci device =>
    if device.msiCapable then none else some (UInt8.ofNat (ioApicGetInterruptLineForPciDevice s.ioApicData device))

structure Accepted (s : IomuData Routine Device) (interrupt : IoInterrupt Routine Device) (vector : Nat)
    (after : IomuData Routine Device) : Prop where
  range : noOfReservedExceptions ≤ vector ∧ vector < noOfTotalInterrupts
  exclusive : interrupt.exclusive = true -> s.handlers vector = []
  linked : ∃ device, interrupt.deviceObject.or s.systemDevice = some device ∧
    after.registeredInterrupts = update s.registeredInterrupts (vector - noOfReservedExceptions)
      (s.handlers vector ++ [⟨interrupt.serviceRoutine, device⟩])
  used : after.used vector = true
  installed : after.isrRoutines (vector - noOfReservedExceptions) = some .iomuGenericInterrupt
  priority : vectorToIrql vector = interrupt.irql
  programmed : forall line, lineOf s interrupt = some line ->
    ioApicSystemGetVectorForIrq after.ioApicData line = .ok (.success, some vector)

structure Unchanged (s after : IomuData Routine Device) : Prop where
  bitmap : forall vector, vector < noOfTotalInterrupts -> after.used vector = s.used vector
  lists : after.registeredInterrupts = s.registeredInterrupts
  routines : after.isrRoutines = s.isrRoutines
  contexts : after.isrContexts = s.isrContexts

def Outcome (s : IomuData Routine Device) (interrupt : IoInterrupt Routine Device) :
    Except String (Except Code Nat × IomuData Routine Device) -> Prop
  | .error _ => False
  | .ok (.ok vector, after) => Accepted s interrupt vector after
  | .ok (.error _, after) => Unchanged s after

def Behaves (s : IomuData Routine Device) (interrupt : IoInterrupt Routine Device) : Prop :=
  Outcome s interrupt (iomuRegisterInterrupt interrupt s)

-- The condition on a request whose line, if it has one, has no vector yet: it takes a new vector, and then every
-- step must succeed, or shares one, which gives a line no vector.
structure Serves (s : IomuData Routine Device) (interrupt : IoInterrupt Routine Device) (line : Option UInt8) : Prop where
  fresh : (∃ vector, vector ∈ s.freeVectors interrupt.irql) -> noOfReservedExceptions ∉ s.freeVectors interrupt.irql ∧
    interrupt.allocates = true ∧ (usesMsi interrupt = true -> interrupt.programs = true) ∧
    (line.isSome = true -> interrupt.lapicState = true)
  shared : (¬ ∃ vector, vector ∈ s.freeVectors interrupt.irql) -> interrupt.exclusive = true ∨ interrupt.allocates = false ∨
    (line = none ∧ (usesMsi interrupt = true -> interrupt.programs = true))

structure Fits (s : IomuData Routine Device) (interrupt : IoInterrupt Routine Device) : Prop where
  device : (interrupt.deviceObject.or s.systemDevice).isSome = true
  line : forall device, interrupt.type = .pci device -> device.msiCapable = false ->
    ioApicGetInterruptLineForPciDevice s.ioApicData device ≤ 0xFF
  plain : lineOf s interrupt = none -> Serves s interrupt none
  routed : forall line, lineOf s interrupt = some line -> ∃ target interruptOverride,
    ioApicSystemGetIoApicForIrq s.ioApicData line = .ok (target, interruptOverride) ∧
      (entryVector s.ioApicData target = (.deviceInterruptNotConfigured, none) -> Serves s interrupt (some line))

structure Consistent (s : IomuData Routine Device) : Prop where
  bitCount : s.interruptBitmap.bitCount = noOfTotalInterrupts
  linked : forall vector, noOfReservedExceptions ≤ vector -> vector < noOfTotalInterrupts ->
    (s.used vector = true ↔ s.handlers vector ≠ [])
  installed : forall vector, noOfReservedExceptions ≤ vector -> vector < noOfTotalInterrupts ->
    s.isrRoutines (vector - noOfReservedExceptions) = if s.handlers vector = [] then none else some .iomuGenericInterrupt
  routed : forall target vector, entryVector s.ioApicData target = (.success, some vector) ->
    noOfReservedExceptions ≤ vector ∧ vector < noOfTotalInterrupts ∧ s.handlers vector ≠ []

-- Requests after IomuPreinitSystem and the initialisation of the IO APICs.
def registrationSystem (Routine Device : Type) :
    TransitionSystem (IomuData Routine Device) (IoInterrupt Routine Device) where
  initial s := (∃ memory bitmapBuffer, interruptBitmapInit memory bitmapBuffer = .ok (s.memory, s.interruptBitmap)) ∧
    (s.registeredInterrupts = fun _ => []) ∧ (s.isrRoutines = fun _ => none) ∧
    forall ioApic, ioApic ∈ s.ioApicData.apicList -> forall offset, ioApic.interruptsWritten offset = false
  step s interrupt after := ∃ result, iomuRegisterInterrupt interrupt s = .ok (result, after)

section Lines

variable {s : IoApicSystemData} {line : UInt8} {target : Option (Nat × UInt8)} {interruptOverride : Option InterruptOverride}

theorem findIoApic_ranges {ioApics others : List IoApicEntry}
    (same : others.map IoApicEntry.range = ioApics.map IoApicEntry.range) (irq : UInt8) (index : Nat) :
    findIoApic irq index others = findIoApic irq index ioApics := by
  induction ioApics generalizing others index with
  | nil => rw [List.map_eq_nil_iff.mp same]
  | cons ioApic rest ih =>
    cases others with
    | nil => cases same
    | cons other others =>
      obtain ⟨range, behind⟩ := List.cons.inj same
      obtain ⟨base, most⟩ := Prod.mk.inj range
      rw [findIoApic, findIoApic, base, most, ih behind]

theorem getIoApic_routing {after : IoApicSystemData} (same : SameRouting s after) (irq : UInt8) :
    ioApicSystemGetIoApicForIrq after irq = ioApicSystemGetIoApicForIrq s irq := by
  rw [ioApicSystemGetIoApicForIrq, ioApicSystemGetIoApicForIrq, ioApicReturnInterruptOverrideForIrq,
    ioApicReturnInterruptOverrideForIrq, same.table, same.count]
  simp only [findIoApic_ranges same.ranges]

theorem getVector_eq (found : ioApicSystemGetIoApicForIrq s line = .ok (target, interruptOverride)) :
    ioApicSystemGetVectorForIrq s line = .ok (entryVector s target) := by
  rw [ioApicSystemGetVectorForIrq, found]
  rfl

theorem entryVector_none (free : entryVector s target = (.deviceInterruptNotConfigured, none)) :
    ∃ index offset ioApic, target = some (index, offset) ∧ s.apicList[index]? = some ioApic ∧
      ioApic.interruptsWritten offset = false := by
  match target with
  | none => cases free
  | some (index, offset) =>
    simp only [entryVector] at free
    cases here : s.apicList[index]? with
    | none =>
      rw [here] at free
      cases free
    | some ioApic =>
      rw [here] at free
      cases written : ioApic.interruptsWritten offset with
      | false => exact ⟨index, offset, ioApic, rfl, here, written⟩
      | true =>
        simp only [written, if_true] at free
        cases free

theorem setInterrupt_vector (found : ioApicSystemGetIoApicForIrq s line = .ok (target, interruptOverride))
    (free : entryVector s target = (.deviceInterruptNotConfigured, none)) (request : InterruptRequest) :
    ∃ after, ioApicSystemSetInterrupt s line request = .ok (.success, after) ∧
      ioApicSystemGetVectorForIrq after line = .ok (.success, some request.vector) ∧
      forall place vector, entryVector after place = (.success, some vector) ->
        vector = request.vector ∨ entryVector s place = (.success, some vector) := by
  obtain ⟨index, offset, ioApic, rfl, here, clear⟩ := entryVector_none free
  have same := setEntry_sameRouting s interruptOverride line request (some (index, offset))
  have open_ : ((s.apicList[index]?.any fun ioApic => ioApic.interruptsWritten offset) && !request.overwrite) = false := by
    rw [here, Option.any_some, clear, Bool.false_and]
  refine ⟨(setEntry s interruptOverride line request (some (index, offset))).2, ?_, ?_, ?_⟩
  · rw [ioApicSystemSetInterrupt, found]
    simp only [Kernel.ok_bind, setEntry, open_]
    rfl
  · rw [ioApicSystemGetVectorForIrq, getIoApic_routing same, found]
    simp only [Kernel.ok_bind, setEntry, open_, entryVector, IoApicSystemData.modify]
    simp [here, IoApicEntry.setRedirectionTableEntry, Kernel.pure_eq]
  · intro place vector result
    cases place with
    | none => cases result
    | some entry =>
      obtain ⟨other, place⟩ := entry
      simp only [setEntry, open_, entryVector, IoApicSystemData.modify] at result
      by_cases position : index = other
      · subst position
        by_cases entry : place = offset
        · subst entry
          simp [here, IoApicEntry.setRedirectionTableEntry] at result
          exact .inl result.symm
        · right
          simpa [here, entryVector, IoApicEntry.setRedirectionTableEntry, Function.update_of_ne entry] using result
      · right
        simpa [position, entryVector] using result

theorem entryVector_cases (s : IoApicSystemData) (target : Option (Nat × UInt8)) :
    entryVector s target = (.deviceDoesNotExist, none) ∨ (∃ vector, entryVector s target = (.success, some vector)) ∨
      entryVector s target = (.deviceInterruptNotConfigured, none) := by
  match target with
  | none => exact .inl rfl
  | some (index, offset) =>
    simp only [entryVector]
    split
    · exact .inl rfl
    · split
      · exact .inr (.inl ⟨_, rfl⟩)
      · exact .inr (.inr rfl)

end Lines

section Parts

variable {s : IomuData Routine Device} {interrupt : IoInterrupt Routine Device} {device : Device} {vector : Nat}

theorem irqlToVector_eq (interrupt : IoInterrupt Routine Device) : irqlToVector interrupt.irql = interrupt.irql * 16 := by
  have usable := interrupt.usable
  rw [irqlToVector]
  omega

theorem interruptLine_returns (fits : forall device, interrupt.type = .pci device -> device.msiCapable = false ->
      ioApicGetInterruptLineForPciDevice s.ioApicData device ≤ 0xFF) :
    Returns (interruptLine interrupt) s (lineOf s interrupt) s := by
  rw [interruptLine, lineOf]
  cases type : interrupt.type with
  | legacy irq => rfl
  | lapic => rfl
  | pci device =>
    cases msi : device.msiCapable with
    | true =>
      simp only [msi, if_true]
      rfl
    | false =>
      have small := fits device type msi
      simp only [msi, Bool.false_eq_true, if_false]
      change (Program.require _ _ >>= _) s = _
      rw [decide_eq_true small]
      rfl

theorem interruptLine_stops {device : PciDevice} (type : interrupt.type = .pci device) (msi : device.msiCapable = false)
    (large : ¬ ioApicGetInterruptLineForPciDevice s.ioApicData device ≤ 0xFF) :
    Stops (interruptLine interrupt) s "temp <= MAX_BYTE" := by
  rw [interruptLine, type]
  simp only [msi, Bool.false_eq_true, if_false]
  change (Program.require _ _ >>= _) s = _
  rw [decide_eq_false large]
  rfl

theorem scan_vectors (consistent : Consistent s) (interrupt : IoInterrupt Routine Device) :
    ∃ result memory, Bitmap.scanFromToAndFlip s.memory s.interruptBitmap (irqlToVector interrupt.irql)
        (irqlToVector interrupt.irql + vectorsPerIrql) 1 false = .ok (result, memory) ∧
      (result = maxDword ↔ ¬ ∃ vector, vector ∈ s.freeVectors interrupt.irql) ∧ (result = maxDword -> memory = s.memory) ∧
      (result ≠ maxDword -> IsLeast (s.freeVectors interrupt.irql) result ∧
        forall other, Bitmap.getBit memory s.interruptBitmap.bitmapBuffer other = (decide (other = result) || s.used other)) := by
  have base := irqlToVector_eq interrupt
  have usable := interrupt.usable
  have count := consistent.bitCount
  have total : noOfTotalInterrupts = 256 := rfl
  have perIrql : vectorsPerIrql = 16 := rfl
  have admitted : Bitmap.Admitted s.interruptBitmap (irqlToVector interrupt.irql) (irqlToVector interrupt.irql + vectorsPerIrql) 1 :=
    ⟨by decide, Nat.le_add_right _ _, by omega⟩
  obtain ⟨result, memory, _, flip, finds, missing, found⟩ := @Bitmap.scans_eq s.memory s.interruptBitmap _ _ 1 false
    (by rw [count]; decide) admitted
  have same : Bitmap.places s.memory s.interruptBitmap (irqlToVector interrupt.irql)
      (irqlToVector interrupt.irql + vectorsPerIrql) 1 false = s.freeVectors interrupt.irql := by
    ext vector
    constructor
    · rintro ⟨low, high, clear⟩
      exact ⟨low, high, clear vector (Nat.le_refl _) (Nat.lt_succ_self _)⟩
    · rintro ⟨low, high, clear⟩
      refine ⟨low, high, fun other least most => ?_⟩
      obtain rfl : other = vector := by omega
      exact clear
  rw [same] at finds
  refine ⟨result, memory, flip, finds.none_, missing, fun hit => ⟨finds.least hit, fun other => ?_⟩⟩
  have least := finds.least hit
  by_cases here : other = result
  · rw [(found hit).inside other (by omega) (by omega), decide_eq_true here, here]
    have clear : s.used result = false := least.1.2.2
    rw [IomuData.used] at clear
    rw [clear]
    rfl
  · rw [(found hit).outside other (by omega), decide_eq_false here, Bool.false_or]
    rfl

theorem chooseVector_fresh (consistent : Consistent s) (free : ∃ vector, vector ∈ s.freeVectors interrupt.irql) :
    ∃ vector memory, IsLeast (s.freeVectors interrupt.irql) vector ∧
      (forall other, Bitmap.getBit memory s.interruptBitmap.bitmapBuffer other = (decide (other = vector) || s.used other)) ∧
      Returns (chooseVector interrupt none) s vector { s with memory := memory } := by
  obtain ⟨result, memory, scan, none_, _, found⟩ := scan_vectors consistent interrupt
  have hit : result ≠ maxDword := fun missing => none_.mp missing free
  obtain ⟨least, bits⟩ := found hit
  have base := irqlToVector_eq interrupt
  have usable := interrupt.usable
  have perIrql : vectorsPerIrql = 16 := rfl
  have high := least.1.2.1
  have small : result % 2 ^ 8 = result := Nat.mod_eq_of_lt (by omega)
  refine ⟨result, memory, least, bits, ?_⟩
  change (call (Bitmap.scanFromToAndFlip s.memory s.interruptBitmap _ _ 1 false) >>= _) s = _
  rw [scan]
  change (if maxDword = result then _ else _ : Iomu Routine Device Nat) { s with memory := memory } = _
  rw [if_neg (Ne.symm hit), small]
  rfl

theorem chooseVector_taken (consistent : Consistent s) (taken : ¬ ∃ vector, vector ∈ s.freeVectors interrupt.irql) :
    chooseVector interrupt none s =
      .ok (if interrupt.exclusive then .error .deviceInterruptNotAvailable else .ok (irqlToVector interrupt.irql), s) := by
  obtain ⟨result, memory, scan, none_, kept, _⟩ := scan_vectors consistent interrupt
  have missing := none_.mpr taken
  change (call (Bitmap.scanFromToAndFlip s.memory s.interruptBitmap _ _ 1 false) >>= _) s = _
  rw [scan, kept missing]
  change (if maxDword = result then _ else _ : Iomu Routine Device Nat) s = _
  rw [if_pos missing.symm]
  cases interrupt.exclusive <;> rfl

theorem isrInstallEx_returns (reserved : vector > noOfReservedExceptions)
    (none_ : s.isrRoutines (vector - noOfReservedExceptions) = none) (context : Nat) :
    Returns (isrInstallEx vector .iomuGenericInterrupt context) s () { s with
      isrRoutines := update s.isrRoutines (vector - noOfReservedExceptions) (some .iomuGenericInterrupt)
      isrContexts := update s.isrContexts (vector - noOfReservedExceptions) context } := by
  rw [isrInstallEx, decide_eq_true reserved]
  change (if (s.isrRoutines (vector - noOfReservedExceptions)).isSome then _ else _ : Iomu Routine Device Unit) s = _
  rw [none_]
  rfl

theorem linkEntry_fresh (range : noOfReservedExceptions < vector ∧ vector < noOfTotalInterrupts)
    (empty : s.handlers vector = []) (none_ : s.isrRoutines (vector - noOfReservedExceptions) = none) :
    linkEntry interrupt device vector s =
      let installed := { s with
        isrRoutines := update s.isrRoutines (vector - noOfReservedExceptions) (some .iomuGenericInterrupt)
        isrContexts := update s.isrContexts (vector - noOfReservedExceptions) (vector - noOfReservedExceptions) }
      if interrupt.allocates then .ok (.ok true, { installed with
        registeredInterrupts := update s.registeredInterrupts (vector - noOfReservedExceptions)
          (s.handlers vector ++ [⟨interrupt.serviceRoutine, device⟩]) })
      else .ok (.error .heapInsufficientResources, installed) := by
  have first : (s.registeredInterrupts (vector - noOfReservedExceptions)).isEmpty = true := List.isEmpty_iff.mpr empty
  have open_ : ((s.registeredInterrupts (vector - noOfReservedExceptions)).isEmpty || !interrupt.exclusive) = true := by
    rw [first, Bool.true_or]
  rw [linkEntry, decide_eq_true (Nat.le_of_lt range.1), decide_eq_true range.2]
  change (Program.require ((s.registeredInterrupts (vector - noOfReservedExceptions)).isEmpty || !interrupt.exclusive) _ >>= _) s = _
  rw [open_, first]
  change (isrInstallEx vector .iomuGenericInterrupt (vector - noOfReservedExceptions) >>= _) s = _
  rw [(isrInstallEx_returns range.1 none_ _).bind]
  cases interrupt.allocates <;> rfl

theorem linkEntry_shared (range : noOfReservedExceptions ≤ vector ∧ vector < noOfTotalInterrupts)
    (some_ : s.handlers vector ≠ []) (shared : interrupt.exclusive = false) :
    linkEntry interrupt device vector s =
      if interrupt.allocates then .ok (.ok false, { s with
        registeredInterrupts := update s.registeredInterrupts (vector - noOfReservedExceptions)
          (s.handlers vector ++ [⟨interrupt.serviceRoutine, device⟩]) })
      else .ok (.error .heapInsufficientResources, s) := by
  have open_ : ((s.registeredInterrupts (vector - noOfReservedExceptions)).isEmpty || !interrupt.exclusive) = true := by
    rw [shared, Bool.not_false, Bool.or_true]
  have further : (s.registeredInterrupts (vector - noOfReservedExceptions)).isEmpty = false := List.isEmpty_eq_false_iff.mpr some_
  rw [linkEntry, decide_eq_true range.1, decide_eq_true range.2]
  change (Program.require ((s.registeredInterrupts (vector - noOfReservedExceptions)).isEmpty || !interrupt.exclusive) _ >>= _) s = _
  rw [open_, further]
  cases interrupt.allocates <;> rfl

theorem linkEntry_reserved (empty : s.handlers noOfReservedExceptions = []) :
    Stops (linkEntry interrupt device noOfReservedExceptions) s "Vector > NO_OF_RESERVED_EXCEPTIONS" := by
  have first : (s.registeredInterrupts (noOfReservedExceptions - noOfReservedExceptions)).isEmpty = true :=
    List.isEmpty_iff.mpr empty
  rw [Stops, linkEntry, decide_eq_true (Nat.le_refl _), decide_eq_true (by decide)]
  change (Program.require ((s.registeredInterrupts (noOfReservedExceptions - noOfReservedExceptions)).isEmpty || !interrupt.exclusive) _ >>= _) s = _
  rw [first]
  rfl

theorem entryRegistered_eq {line : UInt8} {target : Option (Nat × UInt8)} {interruptOverride : Option InterruptOverride}
    (found : ioApicSystemGetIoApicForIrq s.ioApicData line = .ok (target, interruptOverride)) (irql : Nat) :
    entryRegistered irql (some line) s =
      match entryVector s.ioApicData target with
      | (.success, some vector) =>
        .ok (if vectorToIrql vector ≠ irql then .error .deviceInterruptPriorityNotAvailable else .ok (some vector), s)
      | (.deviceInterruptNotConfigured, _) => .ok (.ok none, s)
      | (status, _) => .ok (.error (.ioApic status), s) := by
  change (call (ioApicSystemGetVectorForIrq s.ioApicData line) >>= _) s = _
  rw [getVector_eq found]
  rcases entryVector_cases s.ioApicData target with missing | ⟨vector, taken⟩ | free
  · rw [missing]
    rfl
  · rw [taken]
    by_cases differs : vectorToIrql vector ≠ irql
    · simp only [if_pos differs]
      change (if vectorToIrql vector ≠ irql then _ else _ : Iomu Routine Device (Option Nat)) s = _
      rw [if_pos differs]
      rfl
    · simp only [if_neg differs]
      change (if vectorToIrql vector ≠ irql then _ else _ : Iomu Routine Device (Option Nat)) s = _
      rw [if_neg differs]
      rfl
  · rw [free]
    rfl

end Parts

section States

variable {s : IomuData Routine Device} {interrupt : IoInterrupt Routine Device} {device : Device} {vector : Nat}

def IomuData.link (s : IomuData Routine Device) (interrupt : IoInterrupt Routine Device) (device : Device) (vector : Nat) :
    IomuData Routine Device :=
  { s with
    registeredInterrupts := update s.registeredInterrupts (vector - noOfReservedExceptions)
      (s.handlers vector ++ [⟨interrupt.serviceRoutine, device⟩]) }

def IomuData.install (s : IomuData Routine Device) (memory : Memory) (vector : Nat) : IomuData Routine Device :=
  { s with
    memory := memory
    isrRoutines := update s.isrRoutines (vector - noOfReservedExceptions) (some .iomuGenericInterrupt)
    isrContexts := update s.isrContexts (vector - noOfReservedExceptions) (vector - noOfReservedExceptions) }

theorem handlers_link {other : Nat} (range : noOfReservedExceptions ≤ vector) (same : noOfReservedExceptions ≤ other) :
    (s.link interrupt device vector).handlers other =
      if other = vector then s.handlers vector ++ [⟨interrupt.serviceRoutine, device⟩] else s.handlers other := by
  change update s.registeredInterrupts _ _ (other - noOfReservedExceptions) = _
  rw [Function.update_apply]
  by_cases here : other = vector
  · rw [if_pos here, if_pos (by rw [here])]
  · rw [if_neg here, if_neg (by omega)]
    rfl

theorem link_accepted (consistent : Consistent s) (range : noOfReservedExceptions ≤ vector ∧ vector < noOfTotalInterrupts)
    (some_ : s.handlers vector ≠ []) (shared : interrupt.exclusive = false) (priority : vectorToIrql vector = interrupt.irql)
    (here : interrupt.deviceObject.or s.systemDevice = some device)
    (programmed : forall line, lineOf s interrupt = some line ->
      ioApicSystemGetVectorForIrq s.ioApicData line = .ok (.success, some vector)) :
    Accepted s interrupt vector (s.link interrupt device vector) := by
  refine ⟨range, fun exclusive => ?_, ⟨device, here, rfl⟩, (consistent.linked vector range.1 range.2).mpr some_, ?_, priority,
    programmed⟩
  · rw [shared] at exclusive
    cases exclusive
  · have installed := consistent.installed vector range.1 range.2
    rwa [if_neg some_] at installed

theorem link_consistent (consistent : Consistent s) (range : noOfReservedExceptions ≤ vector ∧ vector < noOfTotalInterrupts)
    (some_ : s.handlers vector ≠ []) : Consistent (s.link interrupt device vector) := by
  have more : forall other, noOfReservedExceptions ≤ other -> ((s.link interrupt device vector).handlers other = [] ↔
      s.handlers other = []) := by
    intro other low
    rw [handlers_link range.1 low]
    split
    next same => rw [same]; exact iff_of_false (List.append_ne_nil_of_right_ne_nil _ (List.cons_ne_nil _ _)) some_
    next => exact Iff.rfl
  refine ⟨consistent.bitCount, fun other low high => ?_, fun other low high => ?_, fun target other routed => ?_⟩
  · rw [ne_eq, more other low]
    exact consistent.linked other low high
  · simp only [more other low]
    exact consistent.installed other low high
  · obtain ⟨low, high, linked⟩ := consistent.routed target other routed
    exact ⟨low, high, fun empty => linked ((more other low).mp empty)⟩

theorem free_range (interrupt : IoInterrupt Routine Device) (free : vector ∈ s.freeVectors interrupt.irql) :
    (noOfReservedExceptions ≤ vector ∧ vector < noOfTotalInterrupts) ∧ vectorToIrql vector = interrupt.irql := by
  have usable := interrupt.usable
  have base := irqlToVector_eq interrupt
  have reserved : noOfReservedExceptions = 32 := rfl
  have total : noOfTotalInterrupts = 256 := rfl
  have perIrql : vectorsPerIrql = 16 := rfl
  obtain ⟨low, high, _⟩ := free
  rw [vectorToIrql]
  omega

theorem free_handlers (consistent : Consistent s) (free : vector ∈ s.freeVectors interrupt.irql) :
    s.handlers vector = [] ∧ s.isrRoutines (vector - noOfReservedExceptions) = none := by
  obtain ⟨⟨low, high⟩, _⟩ := free_range interrupt free
  have empty : s.handlers vector = [] := by
    by_contra some_
    have used := (consistent.linked vector low high).mpr some_
    have clear := free.2.2
    rw [used] at clear
    cases clear
  refine ⟨empty, ?_⟩
  have installed := consistent.installed vector low high
  rwa [if_pos empty] at installed

section Fresh

variable {memory : Memory} {ioApicData : IoApicSystemData}

def IomuData.serve (s : IomuData Routine Device) (interrupt : IoInterrupt Routine Device) (device : Device) (vector : Nat)
    (memory : Memory) (ioApicData : IoApicSystemData) : IomuData Routine Device :=
  { (s.install memory vector).link interrupt device vector with ioApicData := ioApicData }

theorem serve_accepted (consistent : Consistent s) (free : vector ∈ s.freeVectors interrupt.irql)
    (bits : forall other, Bitmap.getBit memory s.interruptBitmap.bitmapBuffer other = (decide (other = vector) || s.used other))
    (here : interrupt.deviceObject.or s.systemDevice = some device)
    (programmed : forall line, lineOf s interrupt = some line ->
      ioApicSystemGetVectorForIrq ioApicData line = .ok (.success, some vector)) :
    Accepted s interrupt vector (s.serve interrupt device vector memory ioApicData) := by
  obtain ⟨range, priority⟩ := free_range interrupt free
  refine ⟨range, fun _ => (free_handlers consistent free).1, ⟨device, here, rfl⟩, ?_, Function.update_self .., priority, programmed⟩
  change Bitmap.getBit memory s.interruptBitmap.bitmapBuffer vector = true
  rw [bits, decide_eq_true rfl, Bool.true_or]

theorem serve_consistent (consistent : Consistent s) (free : vector ∈ s.freeVectors interrupt.irql)
    (bits : forall other, Bitmap.getBit memory s.interruptBitmap.bitmapBuffer other = (decide (other = vector) || s.used other))
    (routed : forall target other, entryVector ioApicData target = (.success, some other) ->
      other = vector ∨ entryVector s.ioApicData target = (.success, some other)) :
    Consistent (s.serve interrupt device vector memory ioApicData) := by
  obtain ⟨range, _⟩ := free_range interrupt free
  have handlers : forall other, noOfReservedExceptions ≤ other ->
      ((s.serve interrupt device vector memory ioApicData).handlers other ≠ [] ↔ other = vector ∨ s.handlers other ≠ []) := by
    intro other low
    have linked := @handlers_link _ _ (s.install memory vector) interrupt device vector other range.1 low
    change (s.serve interrupt device vector memory ioApicData).handlers other = _ at linked
    rw [linked]
    by_cases same : other = vector
    · rw [if_pos same]
      exact iff_of_true (List.append_ne_nil_of_right_ne_nil _ (List.cons_ne_nil _ _)) (.inl same)
    · rw [if_neg same]
      exact ⟨.inr, fun either => either.resolve_left same⟩
  refine ⟨consistent.bitCount, fun other low high => ?_, fun other low high => ?_, fun target other result => ?_⟩
  · rw [handlers other low, ← consistent.linked other low high]
    change Bitmap.getBit memory s.interruptBitmap.bitmapBuffer other = true ↔ _
    rw [bits, Bool.or_eq_true, decide_eq_true_iff]
  · have some_ := handlers other low
    change update s.isrRoutines _ _ (other - noOfReservedExceptions) = _
    rw [Function.update_apply]
    by_cases same : other = vector
    · rw [if_pos (by rw [same]), if_neg (some_.mpr (.inl same))]
    · rw [if_neg (by omega), consistent.installed other low high]
      by_cases empty : s.handlers other = []
      · rw [if_pos empty, if_pos]
        by_contra linked
        exact (some_.mp linked).elim same (fun linked => linked empty)
      · rw [if_neg empty, if_neg (some_.mpr (.inr empty))]
  · rcases routed target other result with rfl | before
    · exact ⟨range.1, range.2, (handlers other range.1).mpr (.inl rfl)⟩
    · obtain ⟨low, high, linked⟩ := consistent.routed target other before
      exact ⟨low, high, (handlers other low).mpr (.inr linked)⟩

end Fresh

end States

section Runs

variable {s : IomuData Routine Device} {interrupt : IoInterrupt Routine Device} {device : Device} {vector : Nat}

theorem programVector_returns (programs : usesMsi interrupt = true -> interrupt.programs = true) {line : Option UInt8}
    {setup : Bool} (done_ : setup = false ∨ line = none) : Returns (programVector interrupt line vector setup) s vector s := by
  have open_ : (usesMsi interrupt && !interrupt.programs) = false := by
    cases msi : usesMsi interrupt with
    | false => rfl
    | true => rw [programs msi]; rfl
  rw [programVector, open_]
  cases line with
  | none => rfl
  | some line =>
    rcases done_ with rfl | none_
    · rfl
    · cases none_

theorem programVector_fails (msi : usesMsi interrupt = true) (fails : interrupt.programs = false) (line : Option UInt8)
    (setup : Bool) : Fails (programVector interrupt line vector setup) s .pciInterrupt s := by
  rw [programVector, msi, fails]
  rfl

theorem programVector_line {line : UInt8} (routed : usesMsi interrupt = false) {ioApicData : IoApicSystemData}
    (set : ioApicSystemSetInterrupt s.ioApicData line (lineRequest interrupt vector) = .ok (.success, ioApicData)) :
    programVector interrupt (some line) vector true s =
      if interrupt.lapicState then .ok (.ok vector, { s with ioApicData := ioApicData })
      else .error "TRUE == LapicSystemGetState()" := by
  rw [programVector, routed]
  change (setLine interrupt vector line >>= _) s = _
  have run : setLine interrupt vector line s =
      if interrupt.lapicState then .ok (.ok (), { s with ioApicData := ioApicData })
      else .error "TRUE == LapicSystemGetState()" := by
    change (call (ioApicSystemSetInterrupt s.ioApicData line (lineRequest interrupt vector)) >>= _) s = _
    rw [set]
    cases interrupt.lapicState <;> rfl
  cases on : interrupt.lapicState with
  | true =>
    rw [on, if_pos rfl] at run
    exact Returns.bind run
  | false =>
    rw [on, if_neg Bool.false_ne_true] at run
    exact Stops.bind run

theorem usesMsi_line {line : UInt8} (routed : lineOf s interrupt = some line) : usesMsi interrupt = false := by
  rw [lineOf] at routed
  rw [usesMsi]
  cases type : interrupt.type with
  | legacy irq => rfl
  | lapic => rfl
  | pci device =>
    simp only [type] at routed
    cases msi : device.msiCapable with
    | false => exact msi
    | true =>
      rw [msi, if_pos rfl] at routed
      cases routed

theorem registerVector_shared (range : noOfReservedExceptions ≤ vector ∧ vector < noOfTotalInterrupts)
    (some_ : s.handlers vector ≠ []) (shared : interrupt.exclusive = false) {line : Option UInt8} {registered : Option Nat}
    (chosen : Returns (chooseVector interrupt registered) s vector s) :
    registerVector interrupt device line registered s =
      if interrupt.allocates then programVector interrupt line vector false (s.link interrupt device vector)
      else .ok (.error .heapInsufficientResources, s) := by
  have linked := @linkEntry_shared _ _ s interrupt device vector range some_ shared
  rw [registerVector, chosen.bind]
  cases allocates : interrupt.allocates with
  | true =>
    rw [allocates, if_pos rfl] at linked
    exact Returns.bind linked
  | false =>
    rw [allocates, if_neg Bool.false_ne_true] at linked
    exact Fails.bind linked

theorem registerVector_fresh (consistent : Consistent s) {memory : Memory} (free : vector ∈ s.freeVectors interrupt.irql)
    (other : vector ≠ noOfReservedExceptions) {line : Option UInt8}
    (chosen : Returns (chooseVector interrupt none) s vector { s with memory := memory }) :
    registerVector interrupt device line none s =
      if interrupt.allocates then programVector interrupt line vector true (s.serve interrupt device vector memory s.ioApicData)
      else .ok (.error .heapInsufficientResources, s.install memory vector) := by
  obtain ⟨range, _⟩ := free_range interrupt free
  obtain ⟨empty, none_⟩ := free_handlers consistent free
  have linked := @linkEntry_fresh _ _ { s with memory := memory } interrupt device vector
    ⟨Nat.lt_of_le_of_ne range.1 (Ne.symm other), range.2⟩ empty none_
  rw [registerVector, chosen.bind]
  cases allocates : interrupt.allocates with
  | true =>
    simp only [allocates, if_true] at linked
    exact Returns.bind linked
  | false =>
    simp only [allocates, Bool.false_eq_true, if_false] at linked
    exact Fails.bind linked

theorem registerVector_reserved (consistent : Consistent s) {memory : Memory}
    (free : noOfReservedExceptions ∈ s.freeVectors interrupt.irql) {line : Option UInt8}
    (chosen : Returns (chooseVector interrupt none) s noOfReservedExceptions { s with memory := memory }) :
    registerVector interrupt device line none s = .error "Vector > NO_OF_RESERVED_EXCEPTIONS" := by
  have stops := @linkEntry_reserved _ _ { s with memory := memory } interrupt device (free_handlers consistent free).1
  rw [registerVector, chosen.bind]
  exact stops.bind

theorem least_reserved (interrupt : IoInterrupt Routine Device) (least : IsLeast (s.freeVectors interrupt.irql) vector) :
    noOfReservedExceptions ∈ s.freeVectors interrupt.irql ↔ vector = noOfReservedExceptions := by
  constructor
  · intro free
    obtain ⟨⟨low, _⟩, _⟩ := free_range interrupt least.1
    exact Nat.le_antisymm (least.2 free) low
  · rintro rfl
    exact least.1

theorem taken_vector (consistent : Consistent s) (interrupt : IoInterrupt Routine Device)
    (taken : ¬ ∃ vector, vector ∈ s.freeVectors interrupt.irql) :
    (noOfReservedExceptions ≤ irqlToVector interrupt.irql ∧ irqlToVector interrupt.irql < noOfTotalInterrupts) ∧
      vectorToIrql (irqlToVector interrupt.irql) = interrupt.irql ∧ s.handlers (irqlToVector interrupt.irql) ≠ [] := by
  have usable := interrupt.usable
  have base := irqlToVector_eq interrupt
  have reserved : noOfReservedExceptions = 32 := rfl
  have total : noOfTotalInterrupts = 256 := rfl
  have perIrql : vectorsPerIrql = 16 := rfl
  have range : noOfReservedExceptions ≤ irqlToVector interrupt.irql ∧ irqlToVector interrupt.irql < noOfTotalInterrupts := by
    omega
  refine ⟨range, by rw [vectorToIrql]; omega, (consistent.linked _ range.1 range.2).mp ?_⟩
  by_contra clear
  exact taken ⟨_, Nat.le_refl _, by omega, eq_false_of_ne_true clear⟩

def Kept (s : IomuData Routine Device) (interrupt : IoInterrupt Routine Device) :
    Except String (Except Code Nat × IomuData Routine Device) -> Prop
  | .error _ => False
  | .ok (.ok vector, after) => Accepted s interrupt vector after ∧ Consistent after
  | .ok (.error _, after) => after = s

theorem Kept.outcome {run : Except String (Except Code Nat × IomuData Routine Device)} (kept : Kept s interrupt run) :
    Outcome s interrupt run := by
  match run with
  | .error _ => exact kept
  | .ok (.ok vector, after) => exact kept.1
  | .ok (.error _, after) =>
    rw [show after = s from kept]
    exact ⟨fun _ _ => rfl, rfl, rfl, rfl⟩

-- A line for which the IO APIC has an entry without a vector.
def Unset (s : IomuData Routine Device) (line : Option UInt8) : Prop :=
  forall irq, line = some irq -> ∃ target interruptOverride,
    ioApicSystemGetIoApicForIrq s.ioApicData irq = .ok (target, interruptOverride) ∧
      entryVector s.ioApicData target = (.deviceInterruptNotConfigured, none)

theorem registerVector_kept (consistent : Consistent s) (here : interrupt.deviceObject.or s.systemDevice = some device)
    (unset : Unset s (lineOf s interrupt)) (serves : Serves s interrupt (lineOf s interrupt)) :
    Kept s interrupt (registerVector interrupt device (lineOf s interrupt) none s) := by
  by_cases free : ∃ vector, vector ∈ s.freeVectors interrupt.irql
  · obtain ⟨reserved, allocates, programs, lapic⟩ := serves.fresh free
    obtain ⟨vector, memory, least, bits, chosen⟩ := chooseVector_fresh consistent free
    have other : vector ≠ noOfReservedExceptions := fun same => reserved ((least_reserved interrupt least).mpr same)
    rw [registerVector_fresh consistent least.1 other chosen, if_pos allocates]
    cases routed : lineOf s interrupt with
    | none =>
      rw [programVector_returns programs (.inr rfl)]
      refine ⟨serve_accepted consistent least.1 bits here (fun line some_ => ?_),
        serve_consistent consistent least.1 bits (fun _ _ result => .inr result)⟩
      rw [routed] at some_
      cases some_
    | some line =>
      obtain ⟨target, interruptOverride, found, free⟩ := unset line routed
      rw [routed] at lapic
      obtain ⟨ioApicData, set, programmed, others⟩ := setInterrupt_vector found free (lineRequest interrupt vector)
      have run := @programVector_line _ _ (s.serve interrupt device vector memory s.ioApicData) interrupt vector line
        (usesMsi_line routed) ioApicData set
      rw [run, if_pos (lapic rfl)]
      refine ⟨serve_accepted consistent least.1 bits here (fun other some_ => ?_),
        serve_consistent consistent least.1 bits others⟩
      rw [routed] at some_
      cases some_
      exact programmed
  · obtain ⟨range, priority, some_⟩ := taken_vector consistent interrupt free
    have chosen := chooseVector_taken consistent free
    cases exclusive : interrupt.exclusive with
    | true =>
      rw [exclusive, if_pos rfl] at chosen
      rw [registerVector, Fails.bind chosen]
      rfl
    | false =>
      rw [exclusive, if_neg Bool.false_ne_true] at chosen
      rw [registerVector_shared range some_ exclusive chosen]
      cases allocates : interrupt.allocates with
      | false => rfl
      | true =>
        obtain ⟨none_, programs⟩ := ((serves.shared free).resolve_left (by rw [exclusive]; exact Bool.false_ne_true)).resolve_left
          (by rw [allocates]; decide)
        rw [if_pos rfl, none_, programVector_returns programs (.inr rfl)]
        refine ⟨link_accepted consistent range some_ exclusive priority here (fun line routed => ?_),
          link_consistent consistent range some_⟩
        rw [none_] at routed
        cases routed

theorem marked_changed {after : IomuData Routine Device} {memory : Memory} (free : vector ∈ s.freeVectors interrupt.irql)
    (bits : forall other, Bitmap.getBit memory s.interruptBitmap.bitmapBuffer other = (decide (other = vector) || s.used other))
    (left : after.memory = memory) (same : after.interruptBitmap = s.interruptBitmap) : ¬ Unchanged s after := by
  intro unchanged
  obtain ⟨⟨_, high⟩, _⟩ := free_range interrupt free
  have kept := unchanged.bitmap vector high
  have clear : s.used vector = false := free.2.2
  rw [clear, IomuData.used, left, same, bits, decide_eq_true rfl] at kept
  cases kept

theorem serves_of_outcome (consistent : Consistent s) (unset : Unset s (lineOf s interrupt))
    (outcome : Outcome s interrupt (registerVector interrupt device (lineOf s interrupt) none s)) :
    Serves s interrupt (lineOf s interrupt) := by
  constructor
  · intro free
    obtain ⟨vector, memory, least, bits, chosen⟩ := chooseVector_fresh consistent free
    have reserved : noOfReservedExceptions ∉ s.freeVectors interrupt.irql := by
      intro free
      rw [(least_reserved interrupt least).mp free] at chosen
      rw [registerVector_reserved consistent free chosen] at outcome
      exact outcome
    have other : vector ≠ noOfReservedExceptions := fun same => reserved ((least_reserved interrupt least).mpr same)
    rw [registerVector_fresh consistent least.1 other chosen] at outcome
    have allocates : interrupt.allocates = true := by
      by_contra fails
      rw [if_neg fails] at outcome
      exact @marked_changed _ _ s interrupt vector (s.install memory vector) memory least.1 bits rfl rfl outcome
    rw [if_pos allocates] at outcome
    refine ⟨reserved, allocates, fun msi => ?_, fun some_ => ?_⟩
    · by_contra fails
      rw [programVector_fails msi (eq_false_of_ne_true fails)] at outcome
      exact @marked_changed _ _ s interrupt vector (s.serve interrupt device vector memory s.ioApicData) memory least.1 bits
        rfl rfl outcome
    · obtain ⟨line, routed⟩ := Option.isSome_iff_exists.mp some_
      obtain ⟨target, interruptOverride, found, free⟩ := unset line routed
      obtain ⟨ioApicData, set, _⟩ := setInterrupt_vector found free (lineRequest interrupt vector)
      have run := @programVector_line _ _ (s.serve interrupt device vector memory s.ioApicData) interrupt vector line
        (usesMsi_line routed) ioApicData set
      rw [routed, run] at outcome
      by_contra off
      rw [if_neg off] at outcome
      exact outcome
  · intro taken
    obtain ⟨range, _, some_⟩ := taken_vector consistent interrupt taken
    have chosen := chooseVector_taken consistent taken
    by_contra neither
    obtain ⟨shared, allocates, last⟩ := not_or.mp neither |>.imp_right not_or.mp
    have shared := eq_false_of_ne_true shared
    have allocates := eq_true_of_ne_false allocates
    rw [shared, if_neg Bool.false_ne_true] at chosen
    rw [registerVector_shared range some_ shared chosen, if_pos allocates] at outcome
    cases routed : lineOf s interrupt with
    | some line =>
      obtain ⟨target, interruptOverride, found, free⟩ := unset line routed
      have programs : usesMsi interrupt = true -> interrupt.programs = true := by
        rw [usesMsi_line routed]
        exact fun msi => absurd msi Bool.false_ne_true
      rw [programVector_returns programs (.inl rfl)] at outcome
      have programmed := outcome.programmed line routed
      change ioApicSystemGetVectorForIrq s.ioApicData line = _ at programmed
      rw [getVector_eq found, free] at programmed
      cases programmed
    | none =>
      have msi : usesMsi interrupt = true := by
        by_contra plain
        exact last ⟨routed, fun msi => absurd msi plain⟩
      have fails : interrupt.programs = false := by
        by_contra programs
        exact last ⟨routed, fun _ => eq_true_of_ne_false programs⟩
      rw [programVector_fails msi fails] at outcome
      have same := congrFun outcome.lists (irqlToVector interrupt.irql - noOfReservedExceptions)
      change update _ _ _ _ = _ at same
      rw [Function.update_self] at same
      exact absurd (congrArg List.length same) (by rw [IomuData.handlers, List.length_append]; simp)

end Runs

section Requests

variable {s : IomuData Routine Device} {interrupt : IoInterrupt Routine Device} {device : Device} {line : UInt8}
variable {target : Option (Nat × UInt8)} {interruptOverride : Option InterruptOverride}

theorem registerVector_routed (consistent : Consistent s) (here : interrupt.deviceObject.or s.systemDevice = some device)
    (routed : lineOf s interrupt = some line)
    (found : ioApicSystemGetIoApicForIrq s.ioApicData line = .ok (target, interruptOverride)) {vector : Nat}
    (taken : entryVector s.ioApicData target = (.success, some vector)) (priority : vectorToIrql vector = interrupt.irql) :
    Kept s interrupt (registerVector interrupt device (some line) (some vector) s) := by
  obtain ⟨low, high, some_⟩ := consistent.routed target vector taken
  cases exclusive : interrupt.exclusive with
  | true =>
    have chosen : Fails (chooseVector interrupt (some vector)) s .deviceInterruptNotAvailable s := by
      rw [Fails, chooseVector, exclusive]
      rfl
    rw [registerVector, chosen.bind]
    rfl
  | false =>
    have chosen : Returns (chooseVector interrupt (some vector)) s vector s := by
      rw [Returns, chooseVector, exclusive]
      rfl
    rw [registerVector_shared ⟨low, high⟩ some_ exclusive chosen]
    cases allocates : interrupt.allocates with
    | false => rfl
    | true =>
      have programs : usesMsi interrupt = true -> interrupt.programs = true := by
        rw [usesMsi_line routed]
        exact fun msi => absurd msi Bool.false_ne_true
      rw [if_pos rfl, programVector_returns programs (.inl rfl)]
      refine ⟨link_accepted consistent ⟨low, high⟩ some_ exclusive priority here (fun other line => ?_),
        link_consistent consistent ⟨low, high⟩ some_⟩
      rw [routed] at line
      cases line
      rw [getVector_eq found, taken]

theorem iomuRegisterInterrupt_device (here : interrupt.deviceObject.or s.systemDevice = some device) :
    iomuRegisterInterrupt interrupt s = (interruptLine interrupt >>= fun line =>
      entryRegistered interrupt.irql line >>= fun registered => registerVector interrupt device line registered) s := by
  rw [iomuRegisterInterrupt, Program.get_bind_apply, here]

variable (lines : forall device, interrupt.type = .pci device -> device.msiCapable = false ->
  ioApicGetInterruptLineForPciDevice s.ioApicData device ≤ 0xFF)

include lines

theorem iomuRegisterInterrupt_eq (here : interrupt.deviceObject.or s.systemDevice = some device) :
    iomuRegisterInterrupt interrupt s = (entryRegistered interrupt.irql (lineOf s interrupt) >>= fun registered =>
      registerVector interrupt device (lineOf s interrupt) registered) s := by
  rw [iomuRegisterInterrupt_device here]
  exact (interruptLine_returns lines).bind

theorem iomuRegisterInterrupt_plain (here : interrupt.deviceObject.or s.systemDevice = some device)
    (plain : lineOf s interrupt = none) :
    iomuRegisterInterrupt interrupt s = registerVector interrupt device (lineOf s interrupt) none s := by
  rw [iomuRegisterInterrupt_eq lines here, plain]
  rfl

theorem iomuRegisterInterrupt_unset (here : interrupt.deviceObject.or s.systemDevice = some device)
    (routed : lineOf s interrupt = some line)
    (found : ioApicSystemGetIoApicForIrq s.ioApicData line = .ok (target, interruptOverride))
    (free : entryVector s.ioApicData target = (.deviceInterruptNotConfigured, none)) :
    iomuRegisterInterrupt interrupt s = registerVector interrupt device (lineOf s interrupt) none s := by
  have entry := entryRegistered_eq found interrupt.irql
  simp only [free] at entry
  rw [iomuRegisterInterrupt_eq lines here, routed]
  exact Returns.bind entry

theorem iomuRegisterInterrupt_set (consistent : Consistent s) (here : interrupt.deviceObject.or s.systemDevice = some device)
    (routed : lineOf s interrupt = some line)
    (found : ioApicSystemGetIoApicForIrq s.ioApicData line = .ok (target, interruptOverride))
    (set : entryVector s.ioApicData target ≠ (.deviceInterruptNotConfigured, none)) :
    Kept s interrupt (iomuRegisterInterrupt interrupt s) := by
  have entry := entryRegistered_eq found interrupt.irql
  rw [iomuRegisterInterrupt_eq lines here, routed]
  rcases entryVector_cases s.ioApicData target with missing | ⟨vector, taken⟩ | free
  · simp only [missing] at entry
    rw [Fails.bind entry]
    rfl
  · simp only [taken] at entry
    by_cases differs : vectorToIrql vector ≠ interrupt.irql
    · rw [if_pos differs] at entry
      rw [Fails.bind entry]
      rfl
    · rw [if_neg differs] at entry
      rw [Returns.bind entry]
      exact registerVector_routed consistent here routed found taken (not_not.mp differs)
  · exact absurd free set

omit lines

theorem register_kept (consistent : Consistent s) (fits : Fits s interrupt) :
    Kept s interrupt (iomuRegisterInterrupt interrupt s) := by
  obtain ⟨device, here⟩ := Option.isSome_iff_exists.mp fits.device
  cases routed : lineOf s interrupt with
  | none =>
    have unset : Unset s (lineOf s interrupt) := by
      intro irq line
      rw [routed] at line
      cases line
    have serves := fits.plain routed
    rw [iomuRegisterInterrupt_plain fits.line here routed]
    exact registerVector_kept consistent here unset (by rwa [routed])
  | some line =>
    obtain ⟨target, interruptOverride, found, serves⟩ := fits.routed line routed
    by_cases free : entryVector s.ioApicData target = (.deviceInterruptNotConfigured, none)
    · have unset : Unset s (lineOf s interrupt) := by
        intro irq same
        rw [routed] at same
        cases same
        exact ⟨target, interruptOverride, found, free⟩
      rw [iomuRegisterInterrupt_unset fits.line here routed found free]
      exact registerVector_kept consistent here unset (by rw [routed]; exact serves free)
    · exact iomuRegisterInterrupt_set fits.line consistent here routed found free

theorem fits_of_behaves (consistent : Consistent s) (behaves : Behaves s interrupt) : Fits s interrupt := by
  rw [Behaves] at behaves
  cases here : interrupt.deviceObject.or s.systemDevice with
  | none =>
    have stops : iomuRegisterInterrupt interrupt s = .error "NULL != pDevObj" := by
      rw [iomuRegisterInterrupt, Program.get_bind_apply, here]
      rfl
    rw [stops] at behaves
    exact behaves.elim
  | some device =>
    have lines : forall device, interrupt.type = .pci device -> device.msiCapable = false ->
        ioApicGetInterruptLineForPciDevice s.ioApicData device ≤ 0xFF := by
      intro pciDevice type msi
      by_contra large
      have stops : iomuRegisterInterrupt interrupt s = .error "temp <= MAX_BYTE" := by
        rw [iomuRegisterInterrupt_device here]
        exact (interruptLine_stops type msi large).bind
      rw [stops] at behaves
      exact behaves
    refine ⟨by rw [here]; rfl, lines, fun routed => ?_, fun line routed => ?_⟩
    · have unset : Unset s (lineOf s interrupt) := by
        intro irq line
        rw [routed] at line
        cases line
      rw [iomuRegisterInterrupt_plain lines here routed] at behaves
      have serves := serves_of_outcome consistent unset behaves
      rwa [routed] at serves
    · cases found : ioApicSystemGetIoApicForIrq s.ioApicData line with
      | error text =>
        have stops : entryRegistered interrupt.irql (some line) s = .error text := by
          change (call (ioApicSystemGetVectorForIrq s.ioApicData line) >>= _) s = _
          rw [ioApicSystemGetVectorForIrq, found]
          rfl
        rw [iomuRegisterInterrupt_eq lines here, routed, Stops.bind stops] at behaves
        exact behaves.elim
      | ok result =>
        obtain ⟨target, interruptOverride⟩ := result
        refine ⟨target, interruptOverride, rfl, fun free => ?_⟩
        have unset : Unset s (lineOf s interrupt) := by
          intro irq same
          rw [routed] at same
          cases same
          exact ⟨target, interruptOverride, found, free⟩
        rw [iomuRegisterInterrupt_unset lines here routed found free] at behaves
        have serves := serves_of_outcome consistent unset behaves
        rwa [routed] at serves

end Requests

section Histories

variable {s : IomuData Routine Device}

theorem interruptBitmapInit_bits {before memory : Memory} {bitmap : Bitmap} {bitmapBuffer : Nat}
    (init : interruptBitmapInit before bitmapBuffer = .ok (memory, bitmap)) :
    bitmap.bitCount = noOfTotalInterrupts ∧ forall vector, noOfReservedExceptions ≤ vector -> vector < noOfTotalInterrupts ->
      Bitmap.getBit memory bitmap.bitmapBuffer vector = false := by
  obtain ⟨fresh, counted, init⟩ := Kernel.bind_eq_ok.mp init
  obtain ⟨_, init⟩ := Kernel.assert_bind_eq_ok.mp init
  obtain ⟨⟨filled, placed⟩, place, init⟩ := Kernel.bind_eq_ok.mp init
  obtain ⟨marked, set, init⟩ := Kernel.bind_eq_ok.mp init
  obtain ⟨rfl, rfl⟩ := Prod.mk.inj (Except.ok.inj init)
  have count : placed.bitCount = noOfTotalInterrupts := by
    obtain ⟨_, counted⟩ := Kernel.assert_bind_eq_ok.mp counted
    obtain ⟨_, place⟩ := Kernel.assert_bind_eq_ok.mp place
    rw [← (Prod.mk.inj (Except.ok.inj place)).2, ← Except.ok.inj counted]
  refine ⟨count, fun vector low high => ?_⟩
  obtain ⟨_, set⟩ := Kernel.assert_bind_eq_ok.mp set
  obtain ⟨_, set⟩ := Kernel.assert_bind_eq_ok.mp set
  have first : Bitmap.Initialised placed false filled := ⟨before, fresh, bitmapBuffer, by rw [count]; exact counted, place⟩
  rw [← Except.ok.inj set, Bitmap.getBit_changeBits _ _ _ _ _ _ (by decide), if_neg (by omega)]
  exact Bitmap.initialised_bits (by rw [count]; decide) first (by rwa [count])

theorem initial_consistent (initial : (registrationSystem Routine Device).initial s) : Consistent s := by
  obtain ⟨⟨before, bitmapBuffer, init⟩, lists, routines, clear⟩ := initial
  obtain ⟨count, bits⟩ := interruptBitmapInit_bits init
  have handlers : forall vector, s.handlers vector = [] := by
    intro vector
    rw [IomuData.handlers, lists]
  refine ⟨count, fun vector low high => ?_, fun vector _ _ => ?_, fun target vector routed => ?_⟩
  · rw [IomuData.used, bits vector low high, handlers]
    exact iff_of_false Bool.false_ne_true (fun some_ => some_ rfl)
  · rw [handlers, if_pos rfl, routines]
  · match target with
    | none => cases routed
    | some (index, offset) =>
      simp only [entryVector] at routed
      cases here : s.ioApicData.apicList[index]? with
      | none =>
        rw [here] at routed
        cases routed
      | some ioApic =>
        rw [here] at routed
        simp only [clear ioApic (List.mem_of_getElem? here) offset] at routed
        cases routed

theorem reached_consistent (reached : (registrationSystem Routine Device).ReachableUnder Fits s) : Consistent s := by
  refine reached.invariant (fun _ => initial_consistent) (fun before interrupt after consistent fits taken => ?_)
  obtain ⟨result, run⟩ := taken
  have kept := register_kept consistent fits
  rw [run] at kept
  cases result with
  | ok vector => exact kept.2
  | error code =>
    rw [show after = before from kept]
    exact consistent

theorem registration_exact (reached : (registrationSystem Routine Device).ReachableUnder Fits s)
    (interrupt : IoInterrupt Routine Device) : Behaves s interrupt ↔ Fits s interrupt :=
  ⟨fits_of_behaves (reached_consistent reached), fun fits => (register_kept (reached_consistent reached) fits).outcome⟩

def startedData : IomuData Unit Unit where
  systemDevice := some ()
  interruptBitmap := { bitmapBuffer := 1, bufferSize := 32, bitCount := 256 }
  memory := Bitmap.changeBits (fun _ => 0) 1 0 true 32
  registeredInterrupts := fun _ => []
  isrRoutines := fun _ => none
  isrContexts := fun _ => 0
  ioApicData := ioApicSystemPreinit

theorem startedData_initial : (registrationSystem Unit Unit).initial startedData := by
  refine ⟨⟨fun _ => 0, 1, ?_⟩, rfl, rfl, fun _ none_ => by cases none_⟩
  have clear : (fun address => if 1 ≤ address ∧ address < 1 + 32 then 0 else 0 : Memory) = fun _ => 0 := by
    ext1 address
    exact ite_self 0
  change Except.ok (Bitmap.changeBits (fun address => if 1 ≤ address ∧ address < 1 + 32 then 0 else 0) 1 0 true 32, _) = _
  rw [clear]
  rfl

def plainRequest (allocates : Bool) : IoInterrupt Unit Unit where
  type := .lapic
  irql := 3
  usable := by decide
  exclusive := false
  serviceRoutine := ()
  broadcastInterrupt := false
  deviceObject := none
  allocates := allocates
  programs := true
  lapicState := true

theorem startedData_free : 48 ∈ startedData.freeVectors 3 := ⟨by decide, by decide, by decide +kernel⟩

theorem registration_exact_sample : Behaves startedData (plainRequest true) := by
  refine (registration_exact (.start _ startedData_initial) (plainRequest true)).mpr ⟨rfl, ?_, fun _ => ⟨fun _ => ?_, ?_⟩, ?_⟩
  · intro device type
    cases type
  · refine ⟨fun reserved => absurd reserved.1 (by decide), rfl, fun msi => ?_, fun some_ => ?_⟩
    · cases msi
    · cases some_
  · intro taken
    exact absurd ⟨48, startedData_free⟩ taken
  · intro line routed
    cases routed

-- The mark and the routine stay when the entry of the list can not be allocated.
theorem registration_leaks :
    (registrationSystem Unit Unit).Reachable startedData ∧ ¬ Behaves startedData (plainRequest false) ∧
      ∃ after, iomuRegisterInterrupt (plainRequest false) startedData = .ok (.error .heapInsufficientResources, after) ∧
        startedData.used 48 = false ∧ after.used 48 = true ∧ after.handlers 48 = [] ∧
        after.isrRoutines 16 = some .iomuGenericInterrupt := by
  have consistent := initial_consistent startedData_initial
  refine ⟨.start startedData_initial, fun behaves => ?_, _, rfl, by decide +kernel, by decide +kernel, rfl, rfl⟩
  have fits := fits_of_behaves consistent behaves
  exact Bool.false_ne_true ((fits.plain rfl).fresh ⟨48, startedData_free⟩).2.1

end Histories

end Hal9000.Interrupts
