import Hal9000.CommonLib.RefCount
import Hal9000.Lib.Census
import Hal9000.Lib.Transition

set_option autoImplicit false

namespace Hal9000.Ipc

open Function (update)
open Lib (census TransitionSystem)

-- IPC_EVENT, with what its fields are used for: FreeFunction only matters as being there or not.
structure Event where
  refCnt : Nat
  signalTermination : Bool
  -- TerminationEvent.State
  signaled : Bool
  freeFunction : Bool
  deriving DecidableEq, Repr

-- The loop of RfcReference calls.
def takeReferences : (count : Nat) -> (refCnt : Nat) -> Kernel Nat
  | 0, refCnt => pure refCnt
  | count + 1, refCnt => do
    let refCnt <- rfcReference refCnt
    takeReferences count refCnt

-- `allocated` is whether ExAllocatePoolWithTag returns memory.
def ipcGenerateEvent (allocated broadcastFunction freeFunction waitForHandling : Bool) (numberOfCpus : Nat) :
    Kernel (Option Event) :=
  if !broadcastFunction then pure none
  else if numberOfCpus = 0 then pure none
  else
    let noOfAdditionalReferences := if waitForHandling then numberOfCpus else numberOfCpus - 1
    if !allocated then pure none
    else do
      let refCnt <- takeReferences noOfAdditionalReferences rfcInit
      return some {
        refCnt := refCnt
        signalTermination := waitForHandling
        signaled := false
        freeFunction := freeFunction }

-- Where a call of IpcProcessEvent stands.
inductive HandlerPoint where
  | entry
  -- inside the broadcast function
  | running
  | returned
  | dereferencing (signalTermination : Bool)
  -- newRefCount is 1: before EvtSignal
  | signalling
  -- newRefCount is 0: before FreeFunction and before ExFreePoolWithTag in _IpcFreeEvent
  | freeing
  | releasing
  | done
  deriving DecidableEq, Repr

-- Where the call of IpcWaitForEventHandling stands.
inductive WaiterPoint where
  | absent
  | entry
  | waiting
  | dereferencing
  | freeing
  | releasing
  | done
  deriving DecidableEq, Repr

structure State (n : Nat) where
  event : Event
  handler : Fin n -> HandlerPoint
  waiter : WaiterPoint
  functionRuns : Nat
  freeFunctionCalls : Nat
  frees : Nat
  touchedAfterFree : Bool
  assertFailed : Bool

variable {n : Nat}

-- An access to the memory of the event.
def State.touch (s : State n) : State n :=
  { s with touchedAfterFree := s.touchedAfterFree || decide (0 < s.frees) }

def State.at (s : State n) (i : Fin n) (point : HandlerPoint) : State n :=
  { s with handler := update s.handler i point }

def State.dereference (s : State n) : Kernel (State n × Nat) := do
  let newRefCount <- rfcDereference s.event.refCnt
  return ({ s with event := { s.event with refCnt := newRefCount } }, newRefCount)

def State.callFreeFunction (s : State n) : State n :=
  { s with freeFunctionCalls := s.freeFunctionCalls + s.event.freeFunction.toNat }

def State.free (s : State n) : State n := { s with frees := s.frees + 1 }

def State.handlerDereferenced (s : State n) (i : Fin n) (signalTermination : Bool) :
    Kernel (State n × Nat) -> State n
  | .ok (dropped, newRefCount) =>
    dropped.at i (if newRefCount = 0 then .freeing
      else if signalTermination && newRefCount == 1 then .signalling else .done)
  | .error _ => { s with assertFailed := true }

def State.waiterDereferenced (s : State n) : Kernel (State n × Nat) -> State n
  | .ok (dropped, newRefCount) => { dropped with waiter := if newRefCount = 0 then .freeing else .done }
  | .error _ => { s with assertFailed := true }

def ipcProcessEvent (s : State n) (i : Fin n) : State n :=
  match s.handler i with
  | .entry => { s.touch.at i .running with functionRuns := s.functionRuns + 1 }
  | .running => s.at i .returned
  | .returned => s.touch.at i (.dereferencing s.event.signalTermination)
  | .dereferencing signalTermination => s.handlerDereferenced i signalTermination s.touch.dereference
  | .signalling => { s.touch.at i .done with event := { s.event with signaled := true } }
  | .freeing => s.touch.callFreeFunction.at i .releasing
  | .releasing => s.touch.free.at i .done
  | .done => s

def ipcWaitForEventHandling (s : State n) : State n :=
  match s.waiter with
  | .absent => s
  | .entry =>
    if s.event.signalTermination then { s.touch with waiter := .waiting } else { s with assertFailed := true }
  | .waiting =>
    if s.event.signaled then
      { s.touch with event := { s.event with signaled := false }, waiter := .dereferencing }
    else s.touch
  | .dereferencing => s.waiterDereferenced s.touch.dereference
  | .freeing => { s.touch.callFreeFunction with waiter := .releasing }
  | .releasing => { s.touch.free with waiter := .done }
  | .done => s

def step (s : State n) : Option (Fin n) -> State n
  | some i => ipcProcessEvent s i
  | none => ipcWaitForEventHandling s

structure Started (s : State n) : Prop where
  handlers : forall i, s.handler i = .entry
  waiter : s.waiter = if s.event.signalTermination then .entry else .absent
  functionRuns : s.functionRuns = 0
  freeFunctionCalls : s.freeFunctionCalls = 0
  frees : s.frees = 0
  touchedAfterFree : s.touchedAfterFree = false
  assertFailed : s.assertFailed = false

def eventSystem (n : Nat) : TransitionSystem (State n) (Option (Fin n)) where
  initial s := Started s ∧ ∃ allocated broadcastFunction freeFunction waitForHandling,
    ipcGenerateEvent allocated broadcastFunction freeFunction waitForHandling n = .ok (some s.event)
  step s label after := after = step s label

theorem takeReferences_eq_ok {count refCnt result : Nat} (small : refCnt < maxDword)
    (taken : takeReferences count refCnt = .ok result) : result = refCnt + count ∧ result < maxDword := by
  induction count generalizing refCnt with
  | zero =>
    have same : refCnt = result := Except.ok.inj taken
    omega
  | succ count ih =>
    obtain ⟨next, referenced, rest⟩ := Kernel.bind_eq_ok.mp taken
    obtain ⟨rfl, below⟩ := (rfcReference_eq_ok small).mp referenced
    have := ih below rest
    omega

theorem ipcGenerateEvent_some {allocated broadcastFunction freeFunction waitForHandling : Bool} {event : Event}
    (made : ipcGenerateEvent allocated broadcastFunction freeFunction waitForHandling n = .ok (some event)) :
    0 < n ∧ event.refCnt = n + event.signalTermination.toNat ∧ event.refCnt ≤ maxDword ∧
      event.signaled = false := by
  unfold ipcGenerateEvent at made
  split at made
  · simp [Kernel.pure_eq] at made
  split at made
  · simp [Kernel.pure_eq] at made
  rename_i positive
  dsimp only at made
  split at made
  · simp [Kernel.pure_eq] at made
  obtain ⟨refCnt, taken, rest⟩ := Kernel.bind_eq_ok.mp made
  obtain rfl := Option.some.inj (Except.ok.inj rest)
  have count := takeReferences_eq_ok (by decide) taken
  refine ⟨by omega, ?_, count.2.le, rfl⟩
  dsimp only
  rw [count.1, rfcInit]
  cases waitForHandling with
  | false =>
    simp only [Bool.false_eq_true, if_false, Bool.toNat_false]
    omega
  | true =>
    simp only [if_true, Bool.toNat_true]
    omega

def holding : HandlerPoint -> Bool
  | .entry | .running | .returned | .dereferencing _ => true
  | _ => false

def called : HandlerPoint -> Bool
  | .entry => false
  | _ => true

def handled : HandlerPoint -> Bool
  | .entry | .running => false
  | _ => true

def isSignalling : HandlerPoint -> Bool
  | .signalling => true
  | _ => false

def disposing : HandlerPoint -> Bool
  | .freeing | .releasing => true
  | _ => false

def isReleasing : HandlerPoint -> Bool
  | .releasing => true
  | _ => false

def waiterHolding : WaiterPoint -> Bool
  | .entry | .waiting | .dereferencing => true
  | _ => false

def waiterSignalled : WaiterPoint -> Bool
  | .absent | .entry | .waiting => false
  | _ => true

def waiterDisposing : WaiterPoint -> Bool
  | .freeing | .releasing => true
  | _ => false

def waiterReleasing : WaiterPoint -> Bool
  | .releasing => true
  | _ => false

-- Every reference has an owner, the one who drops the last disposes of the event, and the handler who leaves
-- only the waiter's reference owes it the signal.
structure Invariant (s : State n) : Prop where
  references : s.event.refCnt = census holding s.handler + (waiterHolding s.waiter).toNat
  small : s.event.refCnt ≤ maxDword
  runs : s.functionRuns = census called s.handler
  disposal : census disposing s.handler + (waiterDisposing s.waiter).toNat + s.frees =
    if s.event.refCnt = 0 then 1 else 0
  freeCalls : s.freeFunctionCalls =
    s.event.freeFunction.toNat * (census isReleasing s.handler + (waiterReleasing s.waiter).toNat + s.frees)
  read : forall i signalTermination, s.handler i = .dereferencing signalTermination ->
    signalTermination = s.event.signalTermination
  unwaited : s.event.signalTermination = false ->
    s.waiter = .absent ∧ census isSignalling s.handler = 0 ∧ s.event.signaled = false
  waited : s.event.signalTermination = true -> s.waiter ≠ .absent ∧
    census isSignalling s.handler + s.event.signaled.toNat + (waiterSignalled s.waiter).toNat =
      if census holding s.handler = 0 then 1 else 0
  untouched : s.touchedAfterFree = false
  sound : s.assertFailed = false

theorem initial_invariant {s : State n} (initial : (eventSystem n).initial s) : Invariant s := by
  obtain ⟨started, allocated, broadcastFunction, freeFunction, waitForHandling, made⟩ := initial
  obtain ⟨positive, refCnt, small, signaled⟩ := ipcGenerateEvent_some made
  have none (kind : HandlerPoint -> Bool) (excluded : kind .entry = false) : census kind s.handler = 0 :=
    Lib.census_eq_zero.mpr fun i => by rw [started.handlers i, excluded]
  have all : census holding s.handler = n := by
    have every : (Finset.univ.filter fun i => holding (s.handler i) = true) = Finset.univ :=
      Finset.filter_true_of_mem fun i _ => by rw [started.handlers i]; rfl
    rw [census, every, Finset.card_univ, Fintype.card_fin]
  have waiter := started.waiter
  have frees := started.frees
  cases wait : s.event.signalTermination with
  | true =>
    rw [wait, if_pos rfl] at waiter
    rw [wait, Bool.toNat_true] at refCnt
    refine ⟨?_, small, ?_, ?_, ?_, ?_, ?_, ?_, started.touchedAfterFree, started.assertFailed⟩
    · rw [refCnt, all, waiter]
      rfl
    · rw [started.functionRuns, none called rfl]
    · rw [none disposing rfl, waiter, frees, if_neg (by omega)]
      rfl
    · rw [started.freeFunctionCalls, none isReleasing rfl, waiter, frees]
      rfl
    · intro i signalTermination here
      rw [started.handlers i] at here
      cases here
    · simp [wait]
    · intro _
      rw [none isSignalling rfl, signaled, waiter, all, if_neg (by omega)]
      refine ⟨?_, rfl⟩
      intro absent
      cases absent
  | false =>
    rw [wait, if_neg (by decide)] at waiter
    rw [wait, Bool.toNat_false] at refCnt
    refine ⟨?_, small, ?_, ?_, ?_, ?_, ?_, ?_, started.touchedAfterFree, started.assertFailed⟩
    · rw [refCnt, all, waiter]
      rfl
    · rw [started.functionRuns, none called rfl]
    · rw [none disposing rfl, waiter, frees, if_neg (by omega)]
      rfl
    · rw [started.freeFunctionCalls, none isReleasing rfl, waiter, frees]
      rfl
    · intro i signalTermination here
      rw [started.handlers i] at here
      cases here
    · intro _
      exact ⟨waiter, none isSignalling rfl, signaled⟩
    · simp [wait]

theorem waiter_shares {w : WaiterPoint} (present : w ≠ .absent) (unsignalled : (waiterSignalled w).toNat = 0) :
    (waiterHolding w).toNat = 1 := by
  cases w <;> simp_all [waiterHolding, waiterSignalled]

theorem census_here (kind : HandlerPoint -> Bool) (s : State n) (i : Fin n) :
    (kind (s.handler i)).toNat ≤ census kind s.handler := by
  cases here : kind (s.handler i) with
  | false => exact Nat.zero_le _
  | true => exact Lib.census_pos here

namespace Invariant

variable {s : State n} {i : Fin n}

theorem alive_holding (invariant : Invariant s) (here : holding (s.handler i) = true) : s.frees = 0 := by
  have owner := census_here holding s i
  have references := invariant.references
  have disposal := invariant.disposal
  rw [here, Bool.toNat_true] at owner
  rw [if_neg (by omega)] at disposal
  omega

theorem alive_disposing (invariant : Invariant s) (here : disposing (s.handler i) = true) : s.frees = 0 := by
  have disposer := census_here disposing s i
  have disposal := invariant.disposal
  rw [here, Bool.toNat_true] at disposer
  split at disposal <;> omega

theorem alive_signalling (invariant : Invariant s) (here : s.handler i = .signalling) : s.frees = 0 := by
  have debtor := census_here isSignalling s i
  rw [here] at debtor
  simp only [isSignalling, Bool.toNat_true] at debtor
  cases wait : s.event.signalTermination with
  | false =>
    have := (invariant.unwaited wait).2.1
    omega
  | true =>
    obtain ⟨present, signal⟩ := invariant.waited wait
    have shares : (waiterHolding s.waiter).toNat = 1 := by
      apply waiter_shares present
      split at signal <;> omega
    have references := invariant.references
    have disposal := invariant.disposal
    rw [if_neg (by omega)] at disposal
    omega

end Invariant

theorem touch_eq {s : State n} (alive : s.frees = 0) : s.touch = s := by
  have unfreed : decide (0 < s.frees) = false := by simp [alive]
  rw [State.touch, unfreed, Bool.or_false]

-- The counters of a state in which one handler has moved on to `p`.
structure Moved (s after : State n) (i : Fin n) (p : HandlerPoint) : Prop where
  handler : after.handler = update s.handler i p
  waiter : after.waiter = s.waiter
  signalTermination : after.event.signalTermination = s.event.signalTermination
  freeFunction : after.event.freeFunction = s.event.freeFunction
  touchedAfterFree : after.touchedAfterFree = s.touchedAfterFree
  assertFailed : after.assertFailed = s.assertFailed

theorem Invariant.moved {s after : State n} {i : Fin n} {p : HandlerPoint} (invariant : Invariant s)
    (moved : Moved s after i p)
    (references : after.event.refCnt + (holding (s.handler i)).toNat = s.event.refCnt + (holding p).toNat)
    (small : after.event.refCnt ≤ maxDword)
    (runs : after.functionRuns + (called (s.handler i)).toNat = s.functionRuns + (called p).toNat)
    (disposal : (disposing p).toNat + after.frees + (if s.event.refCnt = 0 then 1 else 0) =
      (disposing (s.handler i)).toNat + s.frees + if after.event.refCnt = 0 then 1 else 0)
    (freeCalls : after.freeFunctionCalls +
        s.event.freeFunction.toNat * ((isReleasing (s.handler i)).toNat + s.frees) =
      s.freeFunctionCalls + s.event.freeFunction.toNat * ((isReleasing p).toNat + after.frees))
    (read : forall signalTermination, p = .dereferencing signalTermination ->
      signalTermination = s.event.signalTermination)
    (unwaited : s.event.signalTermination = false -> isSignalling p = false ∧ after.event.signaled = false)
    (waited : s.event.signalTermination = true ->
      census isSignalling s.handler + (isSignalling p).toNat + after.event.signaled.toNat +
        (waiterSignalled s.waiter).toNat = (isSignalling (s.handler i)).toNat +
        if census holding s.handler + (holding p).toNat = (holding (s.handler i)).toNat then 1 else 0) :
    Invariant after := by
  have counted (kind : HandlerPoint -> Bool) := Lib.census_update kind s.handler i p
  have holds := counted holding
  have calls := counted called
  have disposes := counted disposing
  have releases := counted isReleasing
  have signals := counted isSignalling
  have here := census_here holding s i
  rw [← moved.handler] at holds calls disposes releases signals
  refine ⟨?_, small, ?_, ?_, ?_, ?_, ?_, ?_, moved.touchedAfterFree.trans invariant.untouched,
    moved.assertFailed.trans invariant.sound⟩
  · have := invariant.references
    rw [moved.waiter]
    omega
  · have := invariant.runs
    omega
  · have := invariant.disposal
    rw [moved.waiter]
    omega
  · have before := invariant.freeCalls
    rw [moved.waiter, moved.freeFunction]
    cases given : s.event.freeFunction with
    | false =>
      simp only [given, Bool.toNat_false, Nat.zero_mul, Nat.add_zero] at before freeCalls ⊢
      omega
    | true =>
      simp only [given, Bool.toNat_true, Nat.one_mul] at before freeCalls ⊢
      omega
  · intro j signalTermination there
    rw [moved.handler] at there
    rw [moved.signalTermination]
    by_cases same : j = i
    · subst same
      exact read signalTermination (by simpa using there)
    · exact invariant.read j signalTermination (by simpa [same] using there)
  · intro unwaiting
    rw [moved.signalTermination] at unwaiting
    obtain ⟨absent, silent, _⟩ := invariant.unwaited unwaiting
    obtain ⟨quiet, unset⟩ := unwaited unwaiting
    rw [quiet] at signals
    simp only [Bool.toNat_false] at signals
    exact ⟨moved.waiter.trans absent, by omega, unset⟩
  · intro waiting
    rw [moved.signalTermination] at waiting
    rw [moved.waiter]
    refine ⟨(invariant.waited waiting).1, ?_⟩
    have sum := waited waiting
    split at sum <;> split <;> omega

theorem dereference_eq {s : State n} (positive : 0 < s.event.refCnt) (small : s.event.refCnt ≤ maxDword) :
    ∃ newRefCount, newRefCount + 1 = s.event.refCnt ∧
      s.dereference = .ok ({ s with event := { s.event with refCnt := newRefCount } }, newRefCount) := by
  refine ⟨s.event.refCnt - 1, by omega, ?_⟩
  rw [State.dereference, rfcDereference_eq positive small, Kernel.ok_bind, Kernel.pure_eq]

theorem Invariant.moved_holding {s after : State n} {i : Fin n} {p : HandlerPoint} (invariant : Invariant s)
    (moved : Moved s after i p) (event : after.event = s.event) (frees : after.frees = s.frees)
    (freeCalls : after.freeFunctionCalls = s.freeFunctionCalls) (before : holding (s.handler i) = true)
    (still : holding p = true)
    (runs : after.functionRuns + (called (s.handler i)).toNat = s.functionRuns + (called p).toNat)
    (read : forall signalTermination, p = .dereferencing signalTermination ->
      signalTermination = s.event.signalTermination) : Invariant after := by
  have owner (q : HandlerPoint) (owns : holding q = true) :
      disposing q = false ∧ isReleasing q = false ∧ isSignalling q = false := by
    cases q <;> simp_all [holding, disposing, isReleasing, isSignalling]
  obtain ⟨disposing_i, releasing_i, signalling_i⟩ := owner _ before
  obtain ⟨disposing_p, releasing_p, signalling_p⟩ := owner _ still
  refine invariant.moved moved ?_ ?_ runs ?_ ?_ read ?_ ?_
  · rw [event, before, still]
  · rw [event]
    exact invariant.small
  · rw [event, frees, disposing_i, disposing_p]
  · rw [freeCalls, frees, releasing_i, releasing_p]
  · intro unwaiting
    rw [event]
    exact ⟨signalling_p, (invariant.unwaited unwaiting).2.2⟩
  · intro waiting
    have sum := (invariant.waited waiting).2
    rw [event, signalling_i, signalling_p, before, still]
    simp only [Bool.toNat_false, Bool.toNat_true, Nat.add_eq_right, Nat.add_zero, Nat.zero_add]
    exact sum

theorem ipcProcessEvent_invariant {s : State n} (invariant : Invariant s) (i : Fin n) :
    Invariant (ipcProcessEvent s i) := by
  unfold ipcProcessEvent
  cases here : s.handler i with
  | entry =>
    have owns : holding (s.handler i) = true := by rw [here]; rfl
    dsimp only
    rw [touch_eq (invariant.alive_holding owns)]
    refine invariant.moved_holding ⟨rfl, rfl, rfl, rfl, rfl, rfl⟩ rfl rfl rfl owns rfl ?_ nofun
    rw [here]
    rfl
  | running =>
    have owns : holding (s.handler i) = true := by rw [here]; rfl
    refine invariant.moved_holding ⟨rfl, rfl, rfl, rfl, rfl, rfl⟩ rfl rfl rfl owns rfl ?_ nofun
    rw [here]
    rfl
  | returned =>
    have owns : holding (s.handler i) = true := by rw [here]; rfl
    dsimp only
    rw [touch_eq (invariant.alive_holding owns)]
    refine invariant.moved_holding ⟨rfl, rfl, rfl, rfl, rfl, rfl⟩ rfl rfl rfl owns rfl ?_ ?_
    · rw [here]
      rfl
    · intro signalTermination same
      exact (HandlerPoint.dereferencing.inj same).symm
  | dereferencing signalTermination =>
    have owns : holding (s.handler i) = true := by rw [here]; rfl
    have references := invariant.references
    have owner := census_here holding s i
    rw [owns, Bool.toNat_true] at owner
    have read := invariant.read i _ here
    obtain ⟨newRefCount, count, dropped⟩ := dereference_eq (s := s) (by omega) invariant.small
    dsimp only
    rw [touch_eq (invariant.alive_holding owns), dropped, State.handlerDereferenced]
    have waited := invariant.waited
    have shares := @waiter_shares s.waiter
    have after : holding (if newRefCount = 0 then HandlerPoint.freeing
        else if signalTermination && newRefCount == 1 then .signalling else .done) = false := by
      split
      · rfl
      · split <;> rfl
    have bound := invariant.small
    refine invariant.moved ⟨rfl, rfl, rfl, rfl, rfl, rfl⟩ ?_ ?_ ?_ ?_ ?_ ?_ ?_ ?_
    · rw [owns, after]
      exact count
    · change newRefCount ≤ maxDword
      omega
    · rw [here]
      split
      · rfl
      · split <;> rfl
    · rw [here]
      have owned : s.event.refCnt ≠ 0 := by omega
      by_cases last : newRefCount = 0
      · simp only [State.at, owned, last, if_true, if_false, disposing, Bool.toNat_true, Bool.toNat_false]
        omega
      · simp only [State.at, owned, last, if_false]
        split <;> rfl
    · rw [here]
      split
      · rfl
      · split <;> rfl
    · split
      · nofun
      · split <;> nofun
    · intro unwaiting
      refine ⟨?_, (invariant.unwaited unwaiting).2.2⟩
      rw [read, unwaiting]
      split <;> rfl
    · intro waiting
      obtain ⟨present, sum⟩ := waited waiting
      have silent : (isSignalling (s.handler i)).toNat = 0 := by rw [here]; rfl
      rw [if_neg (by omega)] at sum
      have owed := shares present (by omega)
      rw [owns, after, silent, read, waiting]
      change _ + _ + s.event.signaled.toNat + _ = _
      simp only [Bool.true_and, Bool.toNat_true, Bool.toNat_false, beq_iff_eq]
      rw [if_neg (by omega)]
      split
      · simp only [isSignalling, Bool.toNat_true]
        rw [if_pos (by omega)]
        omega
      · simp only [isSignalling, Bool.toNat_false]
        rw [if_neg (by omega)]
        omega
  | signalling =>
    have debtor := census_here isSignalling s i
    rw [here] at debtor
    simp only [isSignalling, Bool.toNat_true] at debtor
    dsimp only
    rw [touch_eq (invariant.alive_signalling here)]
    refine invariant.moved ⟨rfl, rfl, rfl, rfl, rfl, rfl⟩ ?_ invariant.small ?_ ?_ ?_ nofun ?_ ?_
    · rw [here]
      rfl
    · rw [here]
      rfl
    · rw [here]
      rfl
    · rw [here]
      rfl
    · intro unwaiting
      have := (invariant.unwaited unwaiting).2.1
      omega
    · intro waiting
      have sum := (invariant.waited waiting).2
      rw [here]
      by_cases none : census holding s.handler = 0
      · rw [if_pos none] at sum
        rw [if_pos (by simp [holding, none])]
        simp only [isSignalling, Bool.toNat_true, Bool.toNat_false]
        omega
      · rw [if_neg none] at sum
        omega
  | freeing =>
    dsimp only
    rw [touch_eq (invariant.alive_disposing (i := i) (by rw [here]; rfl))]
    refine invariant.moved ⟨rfl, rfl, rfl, rfl, rfl, rfl⟩ ?_ invariant.small ?_ ?_ ?_ nofun ?_ ?_
    · rw [here]
      rfl
    · rw [here]
      rfl
    · rw [here]
      rfl
    · rw [here]
      simp only [State.at, State.callFreeFunction, isReleasing, Bool.toNat_true, Bool.toNat_false]
      rw [Nat.mul_add, Nat.mul_add, Nat.mul_one]
      omega
    · exact fun unwaiting => ⟨rfl, (invariant.unwaited unwaiting).2.2⟩
    · intro waiting
      have sum := (invariant.waited waiting).2
      rw [here]
      simp only [isSignalling, holding, Bool.toNat_false, Nat.add_zero, Nat.zero_add]
      exact sum
  | releasing =>
    dsimp only
    rw [touch_eq (invariant.alive_disposing (i := i) (by rw [here]; rfl))]
    refine invariant.moved ⟨rfl, rfl, rfl, rfl, rfl, rfl⟩ ?_ invariant.small ?_ ?_ ?_ nofun ?_ ?_
    · rw [here]
      rfl
    · rw [here]
      rfl
    · rw [here]
      simp only [State.at, State.free, disposing, Bool.toNat_true, Bool.toNat_false]
      rw [Nat.zero_add, Nat.add_comm 1]
      rfl
    · rw [here]
      simp only [State.at, State.free, isReleasing, Bool.toNat_true, Bool.toNat_false]
      rw [Nat.zero_add, Nat.add_comm 1]
    · exact fun unwaiting => ⟨rfl, (invariant.unwaited unwaiting).2.2⟩
    · intro waiting
      have sum := (invariant.waited waiting).2
      rw [here]
      simp only [isSignalling, holding, Bool.toNat_false, Nat.add_zero, Nat.zero_add]
      exact sum
  | done => exact invariant

namespace Invariant

variable {s after : State n} {w : WaiterPoint}

theorem alive_waiter_holding (invariant : Invariant s) (here : waiterHolding s.waiter = true) : s.frees = 0 := by
  have references := invariant.references
  have disposal := invariant.disposal
  rw [here, Bool.toNat_true] at references
  rw [if_neg (by omega)] at disposal
  omega

theorem alive_waiter_disposing (invariant : Invariant s) (here : waiterDisposing s.waiter = true) :
    s.frees = 0 := by
  have disposal := invariant.disposal
  rw [here, Bool.toNat_true] at disposal
  split at disposal <;> omega

theorem waiter_waited (invariant : Invariant s) (present : s.waiter ≠ .absent) :
    s.event.signalTermination = true := by
  cases wait : s.event.signalTermination with
  | true => rfl
  | false => exact absurd (invariant.unwaited wait).1 present

theorem waiterMoved (invariant : Invariant s) (present : s.waiter ≠ .absent) (still : w ≠ .absent)
    (waiter : after.waiter = w) (handler : after.handler = s.handler)
    (signalTermination : after.event.signalTermination = s.event.signalTermination)
    (freeFunction : after.event.freeFunction = s.event.freeFunction)
    (runs : after.functionRuns = s.functionRuns)
    (touched : after.touchedAfterFree = s.touchedAfterFree) (failed : after.assertFailed = s.assertFailed)
    (references : after.event.refCnt + (waiterHolding s.waiter).toNat = s.event.refCnt + (waiterHolding w).toNat)
    (small : after.event.refCnt ≤ maxDword)
    (disposal : (waiterDisposing w).toNat + after.frees + (if s.event.refCnt = 0 then 1 else 0) =
      (waiterDisposing s.waiter).toNat + s.frees + if after.event.refCnt = 0 then 1 else 0)
    (freeCalls : after.freeFunctionCalls +
        s.event.freeFunction.toNat * ((waiterReleasing s.waiter).toNat + s.frees) =
      s.freeFunctionCalls + s.event.freeFunction.toNat * ((waiterReleasing w).toNat + after.frees))
    (signal : after.event.signaled.toNat + (waiterSignalled w).toNat =
      s.event.signaled.toNat + (waiterSignalled s.waiter).toNat) : Invariant after := by
  have waited := invariant.waiter_waited present
  refine ⟨?_, small, ?_, ?_, ?_, ?_, ?_, ?_, touched.trans invariant.untouched, failed.trans invariant.sound⟩
  · have := invariant.references
    rw [handler, waiter]
    omega
  · rw [handler, runs]
    exact invariant.runs
  · have := invariant.disposal
    rw [handler, waiter]
    omega
  · have before := invariant.freeCalls
    rw [handler, waiter, freeFunction]
    cases given : s.event.freeFunction with
    | false =>
      simp only [given, Bool.toNat_false, Nat.zero_mul, Nat.add_zero] at before freeCalls ⊢
      omega
    | true =>
      simp only [given, Bool.toNat_true, Nat.one_mul] at before freeCalls ⊢
      omega
  · intro i read there
    rw [signalTermination]
    exact invariant.read i read (handler ▸ there)
  · intro unwaiting
    rw [signalTermination, waited] at unwaiting
    cases unwaiting
  · intro _
    have sum := (invariant.waited waited).2
    rw [handler, waiter]
    exact ⟨still, by omega⟩

end Invariant

theorem ipcWaitForEventHandling_invariant {s : State n} (invariant : Invariant s) :
    Invariant (ipcWaitForEventHandling s) := by
  have references := invariant.references
  unfold ipcWaitForEventHandling
  cases here : s.waiter with
  | absent => exact invariant
  | entry =>
    have present : s.waiter ≠ .absent := by simp [here]
    dsimp only
    rw [invariant.waiter_waited present, if_pos rfl, touch_eq (invariant.alive_waiter_holding (by rw [here]; rfl))]
    refine invariant.waiterMoved present (by simp) rfl rfl rfl rfl rfl rfl rfl ?_ invariant.small ?_ ?_ ?_
    all_goals
      rw [here]
      rfl
  | waiting =>
    have present : s.waiter ≠ .absent := by simp [here]
    dsimp only
    rw [touch_eq (invariant.alive_waiter_holding (by rw [here]; rfl))]
    split
    · rename_i set
      refine invariant.waiterMoved present (by simp) rfl rfl rfl rfl rfl rfl rfl ?_ invariant.small ?_ ?_ ?_
      · rw [here]
        rfl
      · rw [here]
        rfl
      · rw [here]
        rfl
      · rw [here, set]
        rfl
    · exact invariant
  | dereferencing =>
    have present : s.waiter ≠ .absent := by simp [here]
    have owns : waiterHolding s.waiter = true := by rw [here]; rfl
    have bound := invariant.small
    rw [owns, Bool.toNat_true] at references
    obtain ⟨newRefCount, count, dropped⟩ := dereference_eq (s := s) (by omega) bound
    dsimp only
    rw [touch_eq (invariant.alive_waiter_holding owns), dropped, State.waiterDereferenced]
    refine invariant.waiterMoved present ?_ rfl rfl rfl rfl rfl rfl rfl ?_ ?_ ?_ ?_ ?_
    · split <;> simp
    · rw [owns]
      split <;> exact count
    · change newRefCount ≤ maxDword
      omega
    · rw [here]
      have owned : s.event.refCnt ≠ 0 := by omega
      by_cases last : newRefCount = 0
      · simp only [owned, last, if_true, if_false, waiterDisposing, Bool.toNat_true, Bool.toNat_false]
        omega
      · simp only [owned, last, if_false]
        rfl
    · rw [here]
      split <;> rfl
    · rw [here]
      split <;> rfl
  | freeing =>
    have present : s.waiter ≠ .absent := by simp [here]
    dsimp only
    rw [touch_eq (invariant.alive_waiter_disposing (by rw [here]; rfl))]
    refine invariant.waiterMoved present (by simp) rfl rfl rfl rfl rfl rfl rfl ?_ invariant.small ?_ ?_ ?_
    · rw [here]
      rfl
    · rw [here]
      rfl
    · rw [here]
      simp only [State.callFreeFunction, waiterReleasing, Bool.toNat_true, Bool.toNat_false]
      rw [Nat.mul_add, Nat.mul_add, Nat.mul_one]
      omega
    · rw [here]
      rfl
  | releasing =>
    have present : s.waiter ≠ .absent := by simp [here]
    dsimp only
    rw [touch_eq (invariant.alive_waiter_disposing (by rw [here]; rfl))]
    refine invariant.waiterMoved present (by simp) rfl rfl rfl rfl rfl rfl rfl ?_ invariant.small ?_ ?_ ?_
    · rw [here]
      rfl
    · rw [here]
      simp only [State.free, waiterDisposing, Bool.toNat_true, Bool.toNat_false]
      rw [Nat.zero_add, Nat.add_comm 1]
      rfl
    · rw [here]
      simp only [State.free, waiterReleasing, Bool.toNat_true, Bool.toNat_false]
      rw [Nat.zero_add, Nat.add_comm 1]
    · rw [here]
      rfl
  | done => exact invariant

theorem reachable_invariant {s : State n} (reached : (eventSystem n).Reachable s) : Invariant s := by
  refine reached.invariant (fun state => initial_invariant) ?_
  rintro state label after invariant rfl
  cases label with
  | some i => exact ipcProcessEvent_invariant invariant i
  | none => exact ipcWaitForEventHandling_invariant invariant

structure LifeCycle (s : State n) : Prop where
  asserts : s.assertFailed = false
  untouched : s.touchedAfterFree = false
  atMostOnce : s.frees ≤ 1 ∧ s.freeFunctionCalls ≤ 1
  disposedLast : 0 < s.frees ∨ 0 < s.freeFunctionCalls -> (forall i, handled (s.handler i) = true) ∧
    (s.event.signalTermination = true -> waiterSignalled s.waiter = true)
  waiterLast : s.waiter = .done -> forall i, handled (s.handler i) = true
  woken : (forall i, s.handler i = .done) -> s.waiter = .waiting -> s.event.signaled = true
  complete : (forall i, s.handler i = .done) -> s.waiter = .absent ∨ s.waiter = .done ->
    s.functionRuns = n ∧ s.frees = 1 ∧ s.freeFunctionCalls = s.event.freeFunction.toNat

namespace Invariant

variable {s : State n}

theorem handled_of_dropped (dropped : census holding s.handler = 0) (i : Fin n) : handled (s.handler i) = true := by
  have free := Lib.census_eq_zero.mp dropped i
  cases here : s.handler i <;> simp_all [holding, handled]

theorem called_le_disposal (invariant : Invariant s) : s.freeFunctionCalls ≤
    census disposing s.handler + (waiterDisposing s.waiter).toNat + s.frees := by
  have releasing : census isReleasing s.handler ≤ census disposing s.handler :=
    Lib.census_mono fun p here => by cases p <;> simp_all [isReleasing, disposing]
  have waiter : (waiterReleasing s.waiter).toNat ≤ (waiterDisposing s.waiter).toNat := by
    cases s.waiter <;> simp [waiterReleasing, waiterDisposing]
  rw [invariant.freeCalls]
  cases s.event.freeFunction with
  | false =>
    rw [Bool.toNat_false, Nat.zero_mul]
    exact Nat.zero_le _
  | true =>
    rw [Bool.toNat_true, Nat.one_mul]
    omega

theorem dropped_of_disposed (invariant : Invariant s) (disposed : 0 < s.frees ∨ 0 < s.freeFunctionCalls) :
    s.event.refCnt = 0 := by
  have bound := invariant.called_le_disposal
  have disposal := invariant.disposal
  by_contra owned
  rw [if_neg owned] at disposal
  omega

theorem lifeCycle (invariant : Invariant s) : LifeCycle s := by
  have references := invariant.references
  have disposal := invariant.disposal
  have none (kind : HandlerPoint -> Bool) (excluded : kind .done = false) (finished : forall i, s.handler i = .done) :
      census kind s.handler = 0 :=
    Lib.census_eq_zero.mpr fun i => by rw [finished i, excluded]
  refine ⟨invariant.sound, invariant.untouched, ?_, ?_, ?_, ?_, ?_⟩
  · have bound := invariant.called_le_disposal
    split at disposal <;> omega
  · intro disposed
    have dropped := invariant.dropped_of_disposed disposed
    refine ⟨handled_of_dropped (by omega), fun waiting => ?_⟩
    have present := (invariant.waited waiting).1
    have free : (waiterHolding s.waiter).toNat = 0 := by omega
    cases here : s.waiter <;> simp_all [waiterHolding, waiterSignalled]
  · intro returned
    have waiting := invariant.waiter_waited (by simp [returned])
    have sum := (invariant.waited waiting).2
    rw [returned] at sum
    simp only [waiterSignalled, Bool.toNat_true] at sum
    apply handled_of_dropped
    by_contra held
    rw [if_neg held] at sum
    omega
  · intro finished waits
    have waiting := invariant.waiter_waited (by simp [waits])
    have sum := (invariant.waited waiting).2
    rw [none isSignalling rfl finished, none holding rfl finished, waits, if_pos rfl] at sum
    cases set : s.event.signaled with
    | true => rfl
    | false =>
      rw [set] at sum
      cases sum
  · intro finished returned
    have all : census called s.handler = n := by
      have every : (Finset.univ.filter fun i => called (s.handler i) = true) = Finset.univ :=
        Finset.filter_true_of_mem fun i _ => by rw [finished i]; rfl
      rw [census, every, Finset.card_univ, Fintype.card_fin]
    have waiter : waiterHolding s.waiter = false ∧ waiterDisposing s.waiter = false ∧
        waiterReleasing s.waiter = false := by
      rcases returned with here | here <;> rw [here] <;> exact ⟨rfl, rfl, rfl⟩
    obtain ⟨unheld, undisposed, unreleased⟩ := waiter
    rw [none holding rfl finished, unheld, Bool.toNat_false] at references
    rw [none disposing rfl finished, undisposed, if_pos references] at disposal
    have freed : s.frees = 1 := by simpa using disposal
    refine ⟨invariant.runs.trans all, freed, ?_⟩
    rw [invariant.freeCalls, none isReleasing rfl finished, unreleased, freed]
    exact Nat.mul_one _

end Invariant

theorem event_life_cycle {s : State n} (reached : (eventSystem n).Reachable s) : LifeCycle s :=
  (reachable_invariant reached).lifeCycle

def sampleStart : State 2 where
  event := { refCnt := 3, signalTermination := true, signaled := false, freeFunction := true }
  handler := fun _ => .entry
  waiter := .entry
  functionRuns := 0
  freeFunctionCalls := 0
  frees := 0
  touchedAfterFree := false
  assertFailed := false

def sampleSchedule : List (Option (Fin 2)) :=
  [none, some 0, some 1, some 1, some 0, some 0, some 1, some 0, some 1, none, some 1, none, none, none, none]

theorem sampleStart_reachable : (eventSystem 2).Reachable sampleStart :=
  .start ⟨⟨fun _ => rfl, rfl, rfl, rfl, rfl, rfl, rfl⟩, true, true, true, true, rfl⟩

theorem sampleSchedule_result : (TransitionSystem.runUnder (fun _ _ => decide True)
    (fun s label => some (step s label)) sampleStart sampleSchedule).any
      (fun s => decide ((forall i, s.handler i = .done) ∧ s.waiter = .done)) = true := by
  decide

theorem event_life_cycle_sample : ∃ s : State 2, (eventSystem 2).Reachable s ∧
    ((forall i, s.handler i = .done) ∧ s.waiter = .done) ∧ LifeCycle s := by
  have run : ∃ s : State 2, (eventSystem 2).Reachable s ∧ (forall i, s.handler i = .done) ∧ s.waiter = .done :=
    TransitionSystem.ReachableUnder.of_run (fun _ _ _ result => (Option.some.inj result).symm)
      sampleStart_reachable sampleSchedule sampleSchedule_result
  obtain ⟨s, reached, finished⟩ := run
  exact ⟨s, reached, finished, event_life_cycle reached⟩

end Hal9000.Ipc
