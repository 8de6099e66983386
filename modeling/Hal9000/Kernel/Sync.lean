import Hal9000.CommonLib.Base
import Hal9000.Lib.Transition
import Mathlib.Logic.Function.Basic

set_option autoImplicit false

namespace Hal9000.Kernel

open Function (update)

inductive ThreadState where
  | running
  | ready
  | blocked
  | dying
  deriving DecidableEq, Repr

def threadFlagForceTerminatePending : Nat := 0x1
def threadFlagForceTerminated : Nat := 0x2

inductive EventType where
  | notification
  | synchronization
  deriving DecidableEq, Repr

inductive Waitable (M E : Type) where
  | mutex (m : M)
  | event (e : E)
  deriving DecidableEq, Repr

inductive SignalCaller where
  | thread
  | exitThread
  | exitProcess
  deriving DecidableEq, Repr

inductive UnblockCaller (M E : Type) where
  | release (m : M)
  | signal (e : E) (caller : SignalCaller)
  deriving DecidableEq, Repr

def UnblockCaller.object {M E : Type} : UnblockCaller M E -> Waitable M E
  | release m => .mutex m
  | signal e _ => .event e

inductive Pc (T M E : Type) where
  | outside
  | acquireTestHolder (m : M)
  | acquireRecursive (m : M)
  | acquireLock (m : M)
  | acquireClaim (m : M)
  | acquireLoop (m : M)
  | acquireRelock (m : M)
  | acquireUnlock (m : M)
  | releaseTestDepth (m : M)
  | releaseDecrement (m : M)
  | releaseLock (m : M)
  | releaseHandOff (m : M)
  | releaseUnlock (m : M)
  -- ExEventWaitForSignal; `woken` tells a test after a wake-up from the first one.
  | waitTest (e : E) (woken : Bool)
  | waitLock (e : E)
  | waitInsert (e : E)
  | waitWoken (e : E)
  -- ThreadTakeBlockLock, LockRelease of the object, ThreadBlock
  | takeBlockLock (w : Waitable M E)
  | unlockObject (w : Waitable M E)
  | blockTestFlags (w : Waitable M E)
  | blockSetState (w : Waitable M E)
  | blockSchedule (w : Waitable M E)
  | blocked (w : Waitable M E)
  | signalLock (e : E) (caller : SignalCaller)
  | signalSet (e : E) (caller : SignalCaller)
  | signalNext (e : E) (caller : SignalCaller)
  | signalUnlock (e : E) (caller : SignalCaller)
  | unblockLock (thread : T) (caller : UnblockCaller M E)
  | unblockReady (thread : T) (caller : UnblockCaller M E)
  | unblockUnlock (thread : T) (caller : UnblockCaller M E)
  | exitBlockLock
  | exitSetState
  | exitNotify
  | exitSchedule
  | exited
  deriving DecidableEq, Repr

-- What the step of one thread can see of the others: spinlocks are named by the thread that runs on
-- the CPU holding them.
structure System (T M E P : Type) where
  pc : T -> Pc T M E
  state : T -> ThreadState
  flags : T -> Nat
  blockLock : T -> Option T
  terminationEvt : T -> E
  process : T -> P
  activeThreads : P -> Nat
  processTerminationEvt : P -> E
  lock : Waitable M E -> Option T
  waiting : Waitable M E -> List T
  holder : M -> Option T
  currentRecursivityDepth : M -> Nat
  maxRecursivityDepth : M -> Nat
  eventType : E -> EventType
  signaled : E -> Bool
  -- History: MutexAcquire calls that returned and are not yet undone by a MutexRelease, the threads
  -- in the order of their InsertTailList, and those taken off again by MutexRelease.
  acquired : T -> M -> Nat
  enqueued : M -> List T
  handedOff : M -> List T

inductive Call (M E : Type) where
  | mutexAcquire (m : M)
  | mutexRelease (m : M)
  | exEventWaitForSignal (e : E)
  | exEventSignal (e : E)
  | exEventClearSignal (e : E)
  | threadExit
  deriving DecidableEq, Repr

-- ThreadYield is called by the thread itself or on return from a timer interrupt. ThreadTerminate sets
-- a flag of any thread at any time; ProcessTerminate does so for every other thread of the process and
-- then calls ThreadExit.
inductive Label (T M E : Type) where
  | call (t : T) (function : Call M E)
  | run (t : T)
  | threadYield (t : T)
  | threadTerminate (t : T)
  deriving DecidableEq, Repr

namespace System

variable {T M E P : Type} [DecidableEq T] [DecidableEq M] [DecidableEq E] [DecidableEq P]

def goto (s : System T M E P) (t : T) (pc : Pc T M E) : System T M E P :=
  { s with pc := update s.pc t pc }

def lockAcquire (s : System T M E P) (t : T) (w : Waitable M E) (next : Pc T M E) :
    Option (System T M E P) :=
  if s.lock w = none then some { s.goto t next with lock := update s.lock w (some t) } else none

def lockRelease (s : System T M E P) (t : T) (w : Waitable M E) (next : Pc T M E) : System T M E P :=
  { s.goto t next with lock := update s.lock w none }

def blockLockAcquire (s : System T M E P) (t thread : T) (next : Pc T M E) : Option (System T M E P) :=
  if s.blockLock thread = none then
    some { s.goto t next with blockLock := update s.blockLock thread (some t) }
  else none

def blockLockRelease (s : System T M E P) (t thread : T) (next : Pc T M E) : System T M E P :=
  { s.goto t next with blockLock := update s.blockLock thread none }

def insertTail (s : System T M E P) (t : T) (w : Waitable M E) (next : Pc T M E) : System T M E P :=
  { s.goto t next with waiting := update s.waiting w (s.waiting w ++ [t]) }

def threadForcedExit (s : System T M E P) (t : T) : System T M E P :=
  { s.goto t .exitBlockLock with flags := update s.flags t (s.flags t ||| threadFlagForceTerminated) }

def acquireReturn (s : System T M E P) (t : T) (m : M) : T -> M -> Nat :=
  update s.acquired t (update (s.acquired t) m (s.acquired t m + 1))

def releaseDone (s : System T M E P) (t : T) (m : M) : T -> M -> Nat :=
  update s.acquired t (update (s.acquired t) m (s.acquired t m - 1))

def afterSignal : SignalCaller -> Pc T M E
  | .thread => .outside
  | .exitThread => .exitNotify
  | .exitProcess => .exitSchedule

def afterUnblock (s : System T M E P) : UnblockCaller M E -> Pc T M E
  | .release m => .releaseUnlock m
  | .signal e caller =>
    match s.eventType e with
    | .synchronization => .signalUnlock e caller
    | .notification => .signalNext e caller

def afterBlock : Waitable M E -> Pc T M E
  | .mutex m => .acquireRelock m
  | .event e => .waitWoken e

-- A failed ASSERT stops the kernel: there is no next state.
def runStep (s : System T M E P) (t : T) : Option (System T M E P) :=
  match s.pc t with
  | .outside | .exited => none
  | .acquireTestHolder m =>
    some (s.goto t (if s.holder m = some t then .acquireRecursive m else .acquireLock m))
  | .acquireRecursive m =>
    if s.currentRecursivityDepth m < s.maxRecursivityDepth m then
      some { s.goto t .outside with
        currentRecursivityDepth := update s.currentRecursivityDepth m (s.currentRecursivityDepth m + 1)
        acquired := s.acquireReturn t m }
    else none
  | .acquireLock m => s.lockAcquire t (.mutex m) (.acquireClaim m)
  | .acquireClaim m =>
    if s.holder m = none then
      some { s.goto t (.acquireLoop m) with
        holder := update s.holder m (some t)
        currentRecursivityDepth := update s.currentRecursivityDepth m 1 }
    else some (s.goto t (.acquireLoop m))
  | .acquireLoop m =>
    if s.holder m = some t then some (s.goto t (.acquireUnlock m))
    else some { s.insertTail t (.mutex m) (.takeBlockLock (.mutex m)) with
      enqueued := update s.enqueued m (s.enqueued m ++ [t]) }
  | .acquireRelock m => s.lockAcquire t (.mutex m) (.acquireLoop m)
  | .acquireUnlock m =>
    some { s.lockRelease t (.mutex m) .outside with acquired := s.acquireReturn t m }
  | .releaseTestDepth m =>
    if s.holder m = some t then
      some (s.goto t (if 1 < s.currentRecursivityDepth m then .releaseDecrement m else .releaseLock m))
    else none
  | .releaseDecrement m =>
    some { s.goto t .outside with
      currentRecursivityDepth := update s.currentRecursivityDepth m (s.currentRecursivityDepth m - 1)
      acquired := s.releaseDone t m }
  | .releaseLock m => s.lockAcquire t (.mutex m) (.releaseHandOff m)
  | .releaseHandOff m =>
    match s.waiting (.mutex m) with
    | [] => some { s.goto t (.releaseUnlock m) with
        holder := update s.holder m none
        acquired := s.releaseDone t m }
    | first :: rest => some { s.goto t (.unblockLock first (.release m)) with
        waiting := update s.waiting (.mutex m) rest
        holder := update s.holder m (some first)
        currentRecursivityDepth := update s.currentRecursivityDepth m 1
        acquired := s.releaseDone t m
        handedOff := update s.handedOff m (s.handedOff m ++ [first]) }
  | .releaseUnlock m => some (s.lockRelease t (.mutex m) .outside)
  | .waitTest e _ =>
    -- The value exchanged in is TRUE for a notification event and FALSE for a synchronization one.
    if s.signaled e = true then
      some { s.goto t .outside with
        signaled := update s.signaled e (s.eventType e == .notification) }
    else some (s.goto t (.waitLock e))
  | .waitLock e => s.lockAcquire t (.event e) (.waitInsert e)
  | .waitInsert e => some (s.insertTail t (.event e) (.takeBlockLock (.event e)))
  | .waitWoken e =>
    some (s.goto t (if s.eventType e = .notification then .outside else .waitTest e true))
  | .takeBlockLock w => s.blockLockAcquire t t (.unlockObject w)
  | .unlockObject w => some (s.lockRelease t w (.blockTestFlags w))
  | .blockTestFlags w =>
    if s.flags t = threadFlagForceTerminatePending then some (s.threadForcedExit t)
    else some (s.goto t (.blockSetState w))
  | .blockSetState w =>
    some { s.goto t (.blockSchedule w) with state := update s.state t .blocked }
  -- The next thread on the CPU releases the block lock once the switch is done.
  | .blockSchedule w => some (s.blockLockRelease t t (.blocked w))
  -- _ThreadSchedule picks the thread again when ThreadUnblock has put it in the ready list.
  | .blocked w => if s.state t = .ready then some (s.goto t (afterBlock w)) else none
  | .signalLock e caller => s.lockAcquire t (.event e) (.signalSet e caller)
  | .signalSet e caller =>
    some { s.goto t (.signalNext e caller) with signaled := update s.signaled e true }
  | .signalNext e caller =>
    match s.waiting (.event e) with
    | [] => some (s.goto t (.signalUnlock e caller))
    | first :: rest => some { s.goto t (.unblockLock first (.signal e caller)) with
        waiting := update s.waiting (.event e) rest }
  | .signalUnlock e caller => some (s.lockRelease t (.event e) (afterSignal caller))
  | .unblockLock thread caller => s.blockLockAcquire t thread (.unblockReady thread caller)
  | .unblockReady thread caller =>
    if s.state thread = .blocked then
      some { s.goto t (.unblockUnlock thread caller) with state := update s.state thread .ready }
    else none
  | .unblockUnlock thread caller => some (s.blockLockRelease t thread (s.afterUnblock caller))
  | .exitBlockLock =>
    if s.blockLock t = some t then some (s.blockLockRelease t t .exitSetState)
    else some (s.goto t .exitSetState)
  | .exitSetState =>
    some { s.goto t (.signalLock (s.terminationEvt t) .exitThread) with
      state := update s.state t .dying }
  | .exitNotify =>
    let active := dword (s.activeThreads (s.process t) + (2 ^ 32 - 1))
    some { s.goto t (if active = 0 then .signalLock (s.processTerminationEvt (s.process t)) .exitProcess
        else .exitSchedule) with
      activeThreads := update s.activeThreads (s.process t) active }
  | .exitSchedule => some (s.goto t .exited)

def callStep (s : System T M E P) (t : T) (function : Call M E) : System T M E P :=
  match function with
  | .mutexAcquire m => s.goto t (.acquireTestHolder m)
  | .mutexRelease m => s.goto t (.releaseTestDepth m)
  | .exEventWaitForSignal e => s.goto t (.waitTest e false)
  | .exEventSignal e => s.goto t (.signalLock e .thread)
  | .exEventClearSignal e => { s with signaled := update s.signaled e false }
  | .threadExit => s.goto t .exitBlockLock

-- Interrupts are off while a spinlock is held, from ExEventWaitForSignal's first test on, in
-- MutexAcquire from its LockAcquire on and in ThreadExit.
def interruptible : Pc T M E -> Bool
  | .outside | .acquireTestHolder _ | .acquireRecursive _ | .acquireLock _ | .releaseTestDepth _
  | .releaseDecrement _ | .releaseLock _ | .signalLock _ .thread => true
  | _ => false

def yieldStep (s : System T M E P) (t : T) : System T M E P :=
  if s.flags t = threadFlagForceTerminatePending then s.threadForcedExit t
  else { s with state := update s.state t .ready }

def step (s : System T M E P) : Label T M E -> Option (System T M E P)
  | .call t function => if s.pc t = .outside then some (s.callStep t function) else none
  | .run t => s.runStep t
  | .threadYield t => if interruptible (s.pc t) then some (s.yieldStep t) else none
  | .threadTerminate t =>
    some { s with flags := update s.flags t (s.flags t ||| threadFlagForceTerminatePending) }

structure Initial (s : System T M E P) : Prop where
  pc : forall t, s.pc t = .outside
  state : forall t, s.state t = .running ∨ s.state t = .ready
  flags : forall t, s.flags t = 0
  blockLock : forall t, s.blockLock t = none
  lock : forall w, s.lock w = none
  waiting : forall w, s.waiting w = []
  holder : forall m, s.holder m = none
  currentRecursivityDepth : forall m, s.currentRecursivityDepth m = 0
  maxRecursivityDepth : forall m, s.maxRecursivityDepth m = 1 ∨ s.maxRecursivityDepth m = 0xFF
  acquired : forall t m, s.acquired t m = 0
  enqueued : forall m, s.enqueued m = []
  handedOff : forall m, s.handedOff m = []

end System

def system (T M E P : Type) [DecidableEq T] [DecidableEq M] [DecidableEq E] [DecidableEq P] :
    Lib.TransitionSystem (System T M E P) (Label T M E) where
  initial := System.Initial
  step s label after := s.step label = some after

def sampleSystem (type : EventType) : System (Fin 2) Unit (Fin 4) Unit where
  pc _ := .outside
  state _ := .ready
  flags _ := 0
  blockLock _ := none
  terminationEvt t := if t = 0 then 1 else 2
  process _ := ()
  activeThreads _ := 2
  processTerminationEvt _ := 3
  lock _ := none
  waiting _ := []
  holder _ := none
  currentRecursivityDepth _ := 0
  maxRecursivityDepth _ := 1
  eventType e := if e = 0 then type else .notification
  signaled _ := false
  acquired _ _ := 0
  enqueued _ := []
  handedOff _ := []

theorem sampleSystem_initial (type : EventType) : (sampleSystem type).Initial := by
  constructor <;> simp [sampleSystem]

def runSample (condition : System (Fin 2) Unit (Fin 4) Unit -> Label (Fin 2) Unit (Fin 4) -> Prop)
    [forall s label, Decidable (condition s label)] (type : EventType)
    (labels : List (Label (Fin 2) Unit (Fin 4))) : Option (System (Fin 2) Unit (Fin 4) Unit) :=
  Lib.TransitionSystem.runUnder (fun s label => decide (condition s label)) System.step
    (sampleSystem type) labels

theorem runSample_reachable
    {condition : System (Fin 2) Unit (Fin 4) Unit -> Label (Fin 2) Unit (Fin 4) -> Prop}
    [forall s label, Decidable (condition s label)] (type : EventType)
    (labels : List (Label (Fin 2) Unit (Fin 4))) {holds : System (Fin 2) Unit (Fin 4) Unit -> Prop}
    [DecidablePred holds] (result : (runSample condition type labels).any (fun s => decide (holds s)) = true) :
    ∃ s, (system (Fin 2) Unit (Fin 4) Unit).ReachableUnder condition s ∧ holds s := by
  have started : (system (Fin 2) Unit (Fin 4) Unit).ReachableUnder condition (sampleSystem type) :=
    .start _ (sampleSystem_initial type)
  exact started.of_run (fun _ _ _ taken => taken) labels result

def mutexContended : List (Label (Fin 2) Unit (Fin 4)) :=
  [.call 0 (.mutexAcquire ()), .run 0, .run 0, .run 0, .run 0, .run 0,
    .call 1 (.mutexAcquire ()), .run 1, .run 1, .run 1, .run 1, .run 1, .run 1]

end Hal9000.Kernel
