import Hal9000.Lib.Census
import Hal9000.Lib.Transition
import Mathlib.Algebra.Group.Nat.Defs

set_option autoImplicit false

namespace Hal9000.Smp

open Function (update)
open Lib (census TransitionSystem)

structure Pcpu where
  apicId : Nat
  logicalApicId : Nat
  deriving DecidableEq, Repr

-- SMP_IPI_SEND_MODE with the part of SMP_DESTINATION that the mode uses.
inductive SendMode where
  | toCpu (apicId : Nat)
  | toSelf
  | toAllIncludingSelf
  | toAllExcludingSelf
  | toGroup (affinity : Nat)
  deriving DecidableEq, Repr

-- `self` is what CpuGetApicId returns.
def smpDoesCpuMatchDestination (self : Nat) (cpu : Pcpu) : SendMode -> Bool
  | .toAllExcludingSelf => cpu.apicId != self
  | .toAllIncludingSelf => true
  | .toSelf => cpu.apicId == self
  | .toCpu apicId => cpu.apicId == apicId
  | .toGroup affinity => affinity &&& cpu.logicalApicId == cpu.logicalApicId

def smpRetrieveMatchingCpus (cpus : List Pcpu) (self : Nat) (sendMode : SendMode) : List Nat :=
  (cpus.filter fun cpu => smpDoesCpuMatchDestination self cpu sendMode).map Pcpu.apicId

-- Whether the local APIC of `cpu` takes the interrupt that _SmpSendIpcIpi sends on the CPU `self`.
def takesIpi (self : Nat) (cpu : Pcpu) : SendMode -> Bool
  | .toAllExcludingSelf => cpu.apicId != self
  | .toAllIncludingSelf => true
  | .toSelf => cpu.apicId == self
  -- the physical destination 0xFF is a broadcast
  | .toCpu apicId => cpu.apicId == apicId || apicId == 0xFF
  -- flat model
  | .toGroup affinity => affinity &&& cpu.logicalApicId != 0

def ipiTargets (cpus : List Pcpu) (self : Nat) (sendMode : SendMode) : List Nat :=
  (cpus.filter fun cpu => takesIpi self cpu sendMode).map Pcpu.apicId

-- The local variables of a call of SmpSendGenericIpiEx. The CPU events of the call share its number.
structure Call where
  event : Nat
  sendMode : SendMode
  waitForHandling : Bool
  deriving DecidableEq, Repr

-- Where a call stands: in the loop over the matching CPUs (those done, those left), before _SmpSendIpcIpi, and
-- in IpcWaitForEventHandling.
inductive SenderPoint where
  | idle
  | inserting (call : Call) (done rest : List Nat)
  | sending (call : Call) (matching : List Nat)
  | waiting (call : Call) (matching : List Nat)
  deriving DecidableEq, Repr

-- Where _SmpIpcIpiIsr stands on a CPU: before the section of EventListLock, in IpcProcessEvent, or after an ASSERT
-- that did not hold.
inductive IsrPoint where
  | idle
  | entered
  | processing (event : Nat)
  | failed
  deriving DecidableEq, Repr

structure State (Sender : Type) where
  cpuList : List Pcpu
  eventList : Nat -> List Nat
  noOfEventsInList : Nat -> Nat
  -- IPC interrupts that the local APIC has taken and not delivered
  pending : Nat -> Nat
  isr : Nat -> IsrPoint
  sender : Sender -> SenderPoint
  nextEvent : Nat
  handled : Nat -> List Nat

inductive Label (Sender : Type) where
  | smpSendGenericIpiEx (sender : Sender) (self : Nat) (sendMode : SendMode) (waitForHandling generated : Bool)
  | insert (sender : Sender)
  -- the call runs on the CPU `self` now; `merged` says where an interrupt goes under in one that is pending
  | sendIpi (sender : Sender) (self : Nat) (merged : Nat -> Bool)
  | resume (sender : Sender)
  | deliver (cpu : Nat)
  | isr (cpu : Nat)

variable {Sender : Type} [DecidableEq Sender]

def dword (value : Nat) : Nat := value % 2 ^ 32

-- InsertTailList and NoOfEventsInList++ under EventListLock.
def State.insert (s : State Sender) (cpu event : Nat) : State Sender :=
  { s with
    eventList := update s.eventList cpu (s.eventList cpu ++ [event])
    noOfEventsInList := update s.noOfEventsInList cpu (dword (s.noOfEventsInList cpu + 1)) }

def raise (targets : List Nat) (merged : Nat -> Bool) (pending : Nat -> Nat) (cpu : Nat) : Nat :=
  if cpu ∈ targets ∧ ¬ (0 < pending cpu ∧ merged cpu = true) then pending cpu + 1 else pending cpu

-- RemoveHeadList and NoOfEventsInList-- under EventListLock, with the assertions.
def State.takeEvent (s : State Sender) (cpu : Nat) : State Sender :=
  if s.noOfEventsInList cpu = 0 then { s with isr := update s.isr cpu .failed }
  else match s.eventList cpu with
    | [] => { s with isr := update s.isr cpu .failed }
    | event :: rest => { s with
        eventList := update s.eventList cpu rest
        noOfEventsInList := update s.noOfEventsInList cpu (s.noOfEventsInList cpu - 1)
        isr := update s.isr cpu (.processing event) }

def step (s : State Sender) : Label Sender -> Option (State Sender)
  | .smpSendGenericIpiEx sender self sendMode waitForHandling generated =>
    match s.sender sender with
    | .idle =>
      let matching := smpRetrieveMatchingCpus s.cpuList self sendMode
      -- STATUS_CPU_NO_MATCHES, or IpcGenerateEvent fails
      if matching = [] ∨ generated = false then some s
      else some { s with
        nextEvent := s.nextEvent + 1
        sender := update s.sender sender (.inserting
          { event := s.nextEvent, sendMode := sendMode, waitForHandling := waitForHandling } [] matching) }
    | _ => none
  | .insert sender =>
    match s.sender sender with
    | .inserting call done [] => some { s with sender := update s.sender sender (.sending call done) }
    | .inserting call done (cpu :: rest) =>
      some { s.insert cpu call.event with
        sender := update s.sender sender (.inserting call (done ++ [cpu]) rest) }
    | _ => none
  | .sendIpi sender self merged =>
    match s.sender sender with
    | .sending call matching => some { s with
        pending := raise (ipiTargets s.cpuList self call.sendMode) merged s.pending
        sender := update s.sender sender (if call.waitForHandling then .waiting call matching else .idle) }
    | _ => none
  | .resume sender =>
    match s.sender sender with
    | .waiting call matching =>
      if forall cpu, cpu ∈ matching -> call.event ∈ s.handled cpu then
        some { s with sender := update s.sender sender .idle }
      else none
    | _ => none
  | .deliver cpu =>
    if 0 < s.pending cpu ∧ s.isr cpu = .idle then
      some { s with pending := update s.pending cpu (s.pending cpu - 1), isr := update s.isr cpu .entered }
    else none
  | .isr cpu =>
    match s.isr cpu with
    | .entered => some (s.takeEvent cpu)
    | .processing event => some { s with
        handled := update s.handled cpu (s.handled cpu ++ [event])
        isr := update s.isr cpu .idle }
    | _ => none

-- The CPUs after SmpInit, before the first event.
structure Started (s : State Sender) : Prop where
  cpuList : (s.cpuList.map Pcpu.apicId).Nodup
  eventList : forall cpu, s.eventList cpu = []
  noOfEventsInList : forall cpu, s.noOfEventsInList cpu = 0
  pending : forall cpu, s.pending cpu = 0
  isr : forall cpu, s.isr cpu = .idle
  sender : forall sender, s.sender sender = .idle

def ipiSystem (Sender : Type) [DecidableEq Sender] : TransitionSystem (State Sender) (Label Sender) where
  initial := Started
  step s label after := step s label = some after

-- NoOfEventsInList does not wrap around when the call inserts its next event.
def HasRoom (s : State Sender) : SenderPoint -> Prop
  | .inserting _ _ (cpu :: _) => s.noOfEventsInList cpu + 1 < 2 ^ 32
  | _ => True

def Reaches (s : State Sender) (self : Nat) (merged : Nat -> Bool) : SenderPoint -> Prop
  | .sending call matching => ipiTargets s.cpuList self call.sendMode = matching ∧
    forall cpu, cpu ∈ matching -> 0 < s.pending cpu -> merged cpu = false
  | _ => True

def SentInTime (s : State Sender) : Label Sender -> Prop
  | .insert sender => HasRoom s (s.sender sender)
  | .sendIpi sender self merged => Reaches s self merged (s.sender sender)
  | _ => True

def owes (cpu : Nat) : SenderPoint -> Bool
  | .inserting _ done _ => decide (cpu ∈ done)
  | .sending _ matching => decide (cpu ∈ matching)
  | _ => false

def IsrPoint.takes : IsrPoint -> Nat
  | .entered => 1
  | _ => 0

def Accounted (s : State Sender) (cpu event : Nat) : Prop :=
  event ∈ s.eventList cpu ∨ s.isr cpu = .processing event ∨ event ∈ s.handled cpu

def SenderPoint.Follows (s : State Sender) : SenderPoint -> Prop
  | .idle => True
  | .inserting call done rest => (done ++ rest).Nodup ∧ forall cpu, cpu ∈ done -> Accounted s cpu call.event
  | .sending call matching => matching.Nodup ∧ forall cpu, cpu ∈ matching -> Accounted s cpu call.event
  | .waiting call matching => forall cpu, cpu ∈ matching -> Accounted s cpu call.event

variable [Fintype Sender]

structure Invariant (s : State Sender) : Prop where
  cpuList : (s.cpuList.map Pcpu.apicId).Nodup
  counted : forall cpu, s.noOfEventsInList cpu = (s.eventList cpu).length
  balanced : forall cpu, (s.eventList cpu).length =
    s.pending cpu + (s.isr cpu).takes + census (owes cpu) s.sender
  asserted : forall cpu, s.isr cpu ≠ .failed
  follows : forall sender, (s.sender sender).Follows s

omit [DecidableEq Sender] in
theorem Started.invariant {s : State Sender} (started : Started s) : Invariant s := by
  obtain ⟨cpuList, eventList, count, pending, isr, sender⟩ := started
  refine ⟨cpuList, fun cpu => ?_, fun cpu => ?_, fun cpu => ?_, fun caller => ?_⟩
  · rw [count, eventList]
    rfl
  · have none : census (owes cpu) s.sender = 0 := Lib.census_eq_zero.mpr fun caller => by rw [sender]; rfl
    rw [eventList, pending, isr, none]
    rfl
  · rw [isr]
    nofun
  · rw [sender]
    trivial

omit [DecidableEq Sender] [Fintype Sender] in
theorem follows_mono {s after : State Sender} {point : SenderPoint}
    (kept : forall cpu event, Accounted s cpu event -> Accounted after cpu event) (follows : point.Follows s) :
    point.Follows after := by
  cases point with
  | idle => trivial
  | inserting call done rest => exact ⟨follows.1, fun cpu member => kept cpu _ (follows.2 cpu member)⟩
  | sending call matching => exact ⟨follows.1, fun cpu member => kept cpu _ (follows.2 cpu member)⟩
  | waiting call matching => exact fun cpu member => kept cpu _ (follows cpu member)

omit [Fintype Sender] in
theorem moved_follows {s after : State Sender} {sender : Sender} {point : SenderPoint}
    (follows : forall other, (s.sender other).Follows s) (moved : after.sender = update s.sender sender point)
    (kept : forall cpu event, Accounted s cpu event -> Accounted after cpu event) (here : point.Follows after)
    (other : Sender) : (after.sender other).Follows after := by
  rw [moved]
  by_cases same : other = sender
  · rw [same, Function.update_self]
    exact here
  · rw [Function.update_of_ne same]
    exact follows_mono kept (follows other)

theorem moved_owes {s : State Sender} {sender : Sender} {point : SenderPoint} {cpu : Nat}
    (same : owes cpu point = owes cpu (s.sender sender)) :
    census (owes cpu) (update s.sender sender point) = census (owes cpu) s.sender := by
  have count := Lib.census_update (owes cpu) s.sender sender point
  rw [same] at count
  exact Nat.add_right_cancel count

theorem call_invariant {s after : State Sender} {sender : Sender} {self : Nat} {sendMode : SendMode}
    {waitForHandling generated : Bool} (invariant : Invariant s)
    (taken : step s (.smpSendGenericIpiEx sender self sendMode waitForHandling generated) = some after) :
    Invariant after := by
  simp only [step] at taken
  split at taken
  · rename_i idle
    split at taken <;> rw [← Option.some.inj taken]
    · exact invariant
    · refine { invariant with balanced := fun cpu => ?_, follows := ?_ }
      · rw [invariant.balanced cpu, moved_owes (by rw [idle]; simp [owes])]
      · refine moved_follows invariant.follows rfl (fun _ _ => id) ⟨?_, nofun⟩
        exact invariant.cpuList.sublist (List.filter_sublist.map _)
  · cases taken

omit [DecidableEq Sender] [Fintype Sender] in
theorem insert_accounted (s : State Sender) (cpu new other event : Nat) (held : Accounted s other event) :
    Accounted (s.insert cpu new) other event := by
  rcases held with queued | rest
  · refine .inl ?_
    by_cases same : other = cpu
    · subst same
      simp [State.insert, queued]
    · simpa [State.insert, same] using queued
  · exact .inr rest

theorem insert_invariant {s after : State Sender} {sender : Sender} (invariant : Invariant s)
    (inTime : SentInTime s (.insert sender)) (taken : step s (.insert sender) = some after) : Invariant after := by
  have follows := invariant.follows sender
  simp only [step] at taken
  simp only [SentInTime] at inTime
  split at taken <;> rename_i here
  · rw [here] at follows
    rw [← Option.some.inj taken]
    refine { invariant with balanced := fun cpu => ?_, follows := ?_ }
    · rw [invariant.balanced cpu, moved_owes (by rw [here]; rfl)]
    · refine moved_follows invariant.follows rfl (fun _ _ => id) ⟨?_, follows.2⟩
      simpa using follows.1
  · rename_i call done cpu rest
    rw [here] at follows inTime
    obtain ⟨nodup, accounted⟩ := follows
    have new : cpu ∉ done := by
      have apart := (List.nodup_append.mp nodup).2.2
      exact fun member => apart cpu member cpu (by simp) rfl
    rw [← Option.some.inj taken]
    refine ⟨invariant.cpuList, fun other => ?_, fun other => ?_, invariant.asserted, ?_⟩
    · by_cases same : other = cpu
      · subst same
        simp only [State.insert, Function.update_self, List.length_append, List.length_singleton]
        rw [← invariant.counted other]
        exact Nat.mod_eq_of_lt inTime
      · simp only [State.insert, Function.update_of_ne same]
        exact invariant.counted other
    · have balanced := invariant.balanced other
      have count := Lib.census_update (owes other) s.sender sender (.inserting call (done ++ [cpu]) rest)
      rw [here] at count
      simp only [owes] at count
      by_cases same : other = cpu
      · subst same
        simp only [State.insert, Function.update_self, List.length_append, List.length_singleton]
        simp [new] at count
        omega
      · simp only [State.insert, Function.update_of_ne same]
        simp [same] at count
        omega
    · have kept := insert_accounted s cpu call.event
      refine moved_follows invariant.follows rfl kept ⟨by simpa using nodup, fun other member => ?_⟩
      rcases List.mem_append.mp member with earlier | last
      · exact kept other call.event (accounted other earlier)
      · rw [List.mem_singleton.mp last]
        exact .inl (by simp [State.insert])
  · cases taken

theorem send_invariant {s after : State Sender} {sender : Sender} {self : Nat} {merged : Nat -> Bool}
    (invariant : Invariant s) (inTime : SentInTime s (.sendIpi sender self merged))
    (taken : step s (.sendIpi sender self merged) = some after) : Invariant after := by
  have follows := invariant.follows sender
  simp only [step] at taken
  simp only [SentInTime] at inTime
  split at taken <;> rename_i here
  · rename_i call matching
    rw [here] at follows inTime
    obtain ⟨targets, alone⟩ := inTime
    rw [targets] at taken
    rw [← Option.some.inj taken]
    refine { invariant with balanced := fun cpu => ?_, follows := ?_ }
    · have balanced := invariant.balanced cpu
      have count := Lib.census_update (owes cpu) s.sender sender
        (if call.waitForHandling then .waiting call matching else .idle)
      have settled : owes cpu (if call.waitForHandling then .waiting call matching else .idle) = false := by
        split <;> rfl
      rw [here, settled] at count
      dsimp only
      by_cases member : cpu ∈ matching
      · have raised : raise matching merged s.pending cpu = s.pending cpu + 1 := by
          refine if_pos ⟨member, fun both => ?_⟩
          rw [alone cpu member both.1] at both
          cases both.2
        rw [raised]
        simp [owes, member] at count
        omega
      · have kept : raise matching merged s.pending cpu = s.pending cpu := if_neg fun both => member both.1
        rw [kept]
        simp [owes, member] at count
        omega
    · refine moved_follows invariant.follows rfl (fun _ _ => id) ?_
      split
      · exact follows.2
      · trivial
  · cases taken

theorem resume_invariant {s after : State Sender} {sender : Sender} (invariant : Invariant s)
    (taken : step s (.resume sender) = some after) : Invariant after := by
  simp only [step] at taken
  split at taken <;> rename_i here
  · split at taken
    · rw [← Option.some.inj taken]
      refine { invariant with balanced := fun cpu => ?_, follows := ?_ }
      · rw [invariant.balanced cpu, moved_owes (by rw [here]; rfl)]
      · exact moved_follows invariant.follows rfl (fun _ _ => id) trivial
    · cases taken
  · cases taken

omit [DecidableEq Sender] in
theorem deliver_invariant {s : State Sender} {cpu : Nat} (invariant : Invariant s) (pending : 0 < s.pending cpu)
    (idle : s.isr cpu = .idle) :
    Invariant { s with pending := update s.pending cpu (s.pending cpu - 1), isr := update s.isr cpu .entered } := by
  have kept : forall other event, Accounted s other event -> Accounted
      { s with pending := update s.pending cpu (s.pending cpu - 1), isr := update s.isr cpu .entered } other event := by
    intro other event held
    rcases held with queued | running | handled
    · exact .inl queued
    · by_cases same : other = cpu
      · rw [same, idle] at running
        cases running
      · exact .inr (.inl (by simpa [same] using running))
    · exact .inr (.inr handled)
  refine { invariant with
    balanced := fun other => ?_, asserted := fun other => ?_, follows := fun sender => ?_ }
  · have balanced := invariant.balanced other
    by_cases same : other = cpu
    · subst same
      rw [idle] at balanced
      simp only [Function.update_self]
      simp only [IsrPoint.takes] at balanced ⊢
      omega
    · simpa [same] using balanced
  · by_cases same : other = cpu
    · simp [same]
    · simpa [same] using invariant.asserted other
  · exact follows_mono kept (invariant.follows sender)

omit [DecidableEq Sender] in
theorem takeEvent_invariant {s : State Sender} {cpu : Nat} (invariant : Invariant s) (entered : s.isr cpu = .entered) :
    Invariant (s.takeEvent cpu) := by
  have balanced := invariant.balanced cpu
  have counted := invariant.counted cpu
  rw [entered] at balanced
  simp only [IsrPoint.takes] at balanced
  have some : s.noOfEventsInList cpu ≠ 0 := by omega
  cases list : s.eventList cpu with
  | nil =>
    rw [list, List.length_nil] at counted
    exact absurd counted some
  | cons event rest =>
    rw [list, List.length_cons] at balanced counted
    simp only [State.takeEvent, if_neg some, list]
    refine { invariant with
      counted := fun other => ?_, balanced := fun other => ?_, asserted := fun other => ?_, follows := fun sender => ?_ }
    · by_cases same : other = cpu
      · simp [same, counted]
      · simpa [same] using invariant.counted other
    · by_cases same : other = cpu
      · subst same
        simp only [Function.update_self, IsrPoint.takes]
        omega
      · simpa [same] using invariant.balanced other
    · by_cases same : other = cpu
      · simp [same]
      · simpa [same] using invariant.asserted other
    · refine follows_mono (fun other waiting held => ?_) (invariant.follows sender)
      by_cases same : other = cpu
      · subst same
        rcases held with queued | running | handled
        · rw [list] at queued
          rcases List.mem_cons.mp queued with rfl | later
          · exact .inr (.inl (by simp))
          · exact .inl (by simpa using later)
        · rw [entered] at running
          cases running
        · exact .inr (.inr handled)
      · rcases held with queued | running | handled
        · exact .inl (by simpa [same] using queued)
        · exact .inr (.inl (by simpa [same] using running))
        · exact .inr (.inr handled)

omit [DecidableEq Sender] in
theorem handled_invariant {s : State Sender} {cpu event : Nat} (invariant : Invariant s)
    (processing : s.isr cpu = .processing event) :
    Invariant { s with
      handled := update s.handled cpu (s.handled cpu ++ [event]), isr := update s.isr cpu .idle } := by
  refine { invariant with
    balanced := fun other => ?_, asserted := fun other => ?_, follows := fun sender => ?_ }
  · have balanced := invariant.balanced other
    by_cases same : other = cpu
    · subst same
      rw [processing] at balanced
      simpa [IsrPoint.takes] using balanced
    · simpa [same] using balanced
  · by_cases same : other = cpu
    · simp [same]
    · simpa [same] using invariant.asserted other
  · refine follows_mono (fun other waiting held => ?_) (invariant.follows sender)
    by_cases same : other = cpu
    · subst same
      rcases held with queued | running | handled
      · exact .inl queued
      · rw [processing] at running
        cases running
        exact .inr (.inr (by simp))
      · exact .inr (.inr (by simp [handled]))
    · rcases held with queued | running | handled
      · exact .inl queued
      · exact .inr (.inl (by simpa [same] using running))
      · exact .inr (.inr (by simpa [same] using handled))

theorem step_invariant {s after : State Sender} {label : Label Sender} (invariant : Invariant s)
    (inTime : SentInTime s label) (taken : step s label = some after) : Invariant after := by
  cases label with
  | smpSendGenericIpiEx sender self sendMode waitForHandling generated => exact call_invariant invariant taken
  | insert sender => exact insert_invariant invariant inTime taken
  | sendIpi sender self merged => exact send_invariant invariant inTime taken
  | resume sender => exact resume_invariant invariant taken
  | deliver cpu =>
    simp only [step] at taken
    split at taken
    · rename_i ready
      rw [← Option.some.inj taken]
      exact deliver_invariant invariant ready.1 ready.2
    · cases taken
  | isr cpu =>
    simp only [step] at taken
    split at taken
    · rename_i entered
      rw [← Option.some.inj taken]
      exact takeEvent_invariant invariant entered
    · rename_i processing
      rw [← Option.some.inj taken]
      exact handled_invariant invariant processing
    · cases taken

theorem reachable_invariant {s : State Sender} (reached : (ipiSystem Sender).ReachableUnder SentInTime s) :
    Invariant s := by
  induction reached with
  | start s started => exact started.invariant
  | next s label after _ inTime taken ih => exact step_invariant ih inTime taken

def SenderPoint.finished : SenderPoint -> Bool
  | .idle | .waiting _ _ => true
  | _ => false

structure Quiet (s : State Sender) (cpu : Nat) : Prop where
  senders : forall sender, (s.sender sender).finished = true
  pending : s.pending cpu = 0
  isr : s.isr cpu = .idle

structure Delivered (s : State Sender) : Prop where
  emptied : forall cpu, Quiet s cpu -> s.eventList cpu = []
  handled : forall cpu, Quiet s cpu -> forall sender call matching, s.sender sender = .waiting call matching ->
    cpu ∈ matching -> call.event ∈ s.handled cpu
  counted : forall cpu, s.noOfEventsInList cpu = (s.eventList cpu).length
  asserted : forall cpu, s.isr cpu ≠ .failed

omit [DecidableEq Sender] in
theorem quiet_emptied {s : State Sender} {cpu : Nat} (invariant : Invariant s) (quiet : Quiet s cpu) :
    s.eventList cpu = [] := by
  have settled : census (owes cpu) s.sender = 0 := by
    refine Lib.census_eq_zero.mpr fun sender => ?_
    have finished := quiet.senders sender
    cases here : s.sender sender with
    | idle => rfl
    | waiting call matching => rfl
    | inserting call done rest =>
      rw [here] at finished
      cases finished
    | sending call matching =>
      rw [here] at finished
      cases finished
  have balanced := invariant.balanced cpu
  rw [quiet.pending, quiet.isr, settled] at balanced
  exact List.length_eq_zero_iff.mp balanced

theorem events_delivered {s : State Sender} (reached : (ipiSystem Sender).ReachableUnder SentInTime s) :
    Delivered s := by
  have invariant := reachable_invariant reached
  refine ⟨fun cpu => quiet_emptied invariant, ?_, invariant.counted, invariant.asserted⟩
  intro cpu quiet sender call matching waiting member
  have follows := invariant.follows sender
  rw [waiting] at follows
  rcases follows cpu member with queued | running | handled
  · rw [quiet_emptied invariant quiet] at queued
    cases queued
  · rw [quiet.isr] at running
    cases running
  · exact handled

instance (s : State (Fin 2)) (point : SenderPoint) : Decidable (HasRoom s point) :=
  match point with
  | .inserting _ _ (_ :: _) => inferInstanceAs (Decidable (_ < _))
  | .inserting _ _ [] | .idle | .sending _ _ | .waiting _ _ => .isTrue trivial

instance (s : State (Fin 2)) (self : Nat) (merged : Nat -> Bool) (point : SenderPoint) :
    Decidable (Reaches s self merged point) :=
  match point with
  | .sending _ _ => inferInstanceAs (Decidable (_ ∧ _))
  | .inserting _ _ _ | .idle | .waiting _ _ => .isTrue trivial

instance (s : State (Fin 2)) (label : Label (Fin 2)) : Decidable (SentInTime s label) :=
  match label with
  | .insert sender => inferInstanceAs (Decidable (HasRoom s (s.sender sender)))
  | .sendIpi sender self merged => inferInstanceAs (Decidable (Reaches s self merged (s.sender sender)))
  | .smpSendGenericIpiEx _ _ _ _ _ | .resume _ | .deliver _ | .isr _ => .isTrue trivial

def twoCpus : State (Fin 2) where
  cpuList := [{ apicId := 0, logicalApicId := 1 }, { apicId := 1, logicalApicId := 2 }]
  eventList := fun _ => []
  noOfEventsInList := fun _ => 0
  pending := fun _ => 0
  isr := fun _ => .idle
  sender := fun _ => .idle
  nextEvent := 0
  handled := fun _ => []

theorem twoCpus_started : Started twoCpus :=
  ⟨by decide, fun _ => rfl, fun _ => rfl, fun _ => rfl, fun _ => rfl, fun _ => rfl⟩

def serve (cpu : Nat) : List (Label (Fin 2)) := [.deliver cpu, .isr cpu, .isr cpu]

def sampleSchedule : List (Label (Fin 2)) :=
  [.smpSendGenericIpiEx 0 0 .toAllExcludingSelf true true, .insert 0, .insert 0,
    .smpSendGenericIpiEx 1 0 (.toGroup 3) true true, .insert 1, .insert 1, .insert 1,
    .sendIpi 0 0 (fun _ => true), .deliver 1, .sendIpi 1 0 (fun _ => true), .isr 1, .isr 1] ++ serve 0 ++ serve 1 ++
  [.resume 0, .resume 1]

theorem sampleSchedule_result : (TransitionSystem.runUnder (fun s label => decide (SentInTime s label)) step
    twoCpus sampleSchedule).any (fun s => decide (s.handled 0 = [1] ∧ s.handled 1 = [0, 1])) = true := by
  decide +kernel

theorem events_delivered_sample : ∃ s : State (Fin 2), (ipiSystem (Fin 2)).ReachableUnder SentInTime s ∧
    (s.handled 0 = [1] ∧ s.handled 1 = [0, 1]) ∧ Delivered s := by
  have run : ∃ s : State (Fin 2), (ipiSystem (Fin 2)).ReachableUnder SentInTime s ∧
      (s.handled 0 = [1] ∧ s.handled 1 = [0, 1]) :=
    TransitionSystem.ReachableUnder.of_run (fun _ _ _ result => result) (.start _ twoCpus_started) sampleSchedule
      sampleSchedule_result
  obtain ⟨s, reached, done⟩ := run
  exact ⟨s, reached, done, events_delivered reached⟩

-- The second interrupt goes under in the first one, and the interrupt routine takes one event only.
def mergedSchedule : List (Label (Fin 2)) :=
  [.smpSendGenericIpiEx 0 0 (.toCpu 1) true true, .insert 0, .insert 0, .sendIpi 0 0 (fun _ => true),
    .smpSendGenericIpiEx 1 0 (.toCpu 1) true true, .insert 1, .insert 1, .sendIpi 1 0 (fun _ => true)] ++ serve 1 ++
  [.resume 0]

theorem mergedSchedule_result : (TransitionSystem.runUnder (fun _ _ => decide True) step twoCpus
    mergedSchedule).any (fun s => decide ((forall sender, (s.sender sender).finished = true) ∧ s.pending 1 = 0 ∧
      s.isr 1 = .idle ∧ s.eventList 1 = [1] ∧ s.handled 1 = [0] ∧
      s.sender 1 = .waiting { event := 1, sendMode := .toCpu 1, waitForHandling := true } [1])) = true := by
  decide +kernel

theorem event_left : ∃ s : State (Fin 2), (ipiSystem (Fin 2)).Reachable s ∧ Quiet s 1 ∧ s.eventList 1 = [1] ∧
    ∃ call, s.sender 1 = .waiting call [1] ∧ call.event ∉ s.handled 1 := by
  have start : (ipiSystem (Fin 2)).Reachable twoCpus := .start twoCpus_started
  have run : ∃ s : State (Fin 2), (ipiSystem (Fin 2)).Reachable s ∧
      ((forall sender, (s.sender sender).finished = true) ∧ s.pending 1 = 0 ∧ s.isr 1 = .idle ∧ s.eventList 1 = [1] ∧
        s.handled 1 = [0] ∧
        s.sender 1 = .waiting { event := 1, sendMode := .toCpu 1, waitForHandling := true } [1]) :=
    TransitionSystem.ReachableUnder.of_run (fun _ _ _ result => result) start mergedSchedule mergedSchedule_result
  obtain ⟨s, reached, senders, pending, isr, list, handled, waiting⟩ := run
  exact ⟨s, reached, ⟨senders, pending, isr⟩, list, _, waiting, by rw [handled]; decide⟩

end Hal9000.Smp
