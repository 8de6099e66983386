import Hal9000.Kernel.Sync

set_option autoImplicit false

namespace Hal9000.Kernel

open Function (update)

-- How the thread on a CPU came to call _ThreadSchedule.
inductive Leave where
  | yield
  | block
  | exit
  deriving DecidableEq, Repr

-- The next atomic step of a CPU. `how` is carried along for the proofs only; `exiting` tells the calls of
-- ThreadUnblock that ThreadExit makes through its events from the others.
inductive CpuPc (T : Type) where
  | running
  | yieldLock
  | yieldInsert
  | yieldSetState
  | blockSetState
  | blockLock
  | exitBlockLock
  | exitSetState
  | exitSignal
  | exitLock
  | scheduleSetPrevious (how : Leave)
  | scheduleGetReady (how : Leave)
  | scheduleSetCurrent (next : T) (how : Leave)
  | scheduleSwitch (next : T) (how : Leave)
  | cleanupReadPrevious (how : Leave)
  | cleanupUnlock (prev : Option T) (how : Leave)
  | cleanupTestOwner (prev : T) (how : Leave)
  | cleanupBlockLock (prev : T) (how : Leave)
  | cleanupTestState (prev : T) (how : Leave)
  | cleanupDereference (prev : T) (how : Leave)
  | unblockLock (thread : T) (exiting : Bool)
  | unblockTestState (thread : T) (exiting : Bool)
  | unblockReadyLock (thread : T) (exiting : Bool)
  | unblockInsert (thread : T) (exiting : Bool)
  | unblockSetState (thread : T) (exiting : Bool)
  | unblockReadyUnlock (thread : T) (exiting : Bool)
  | unblockUnlock (thread : T) (exiting : Bool)
  deriving DecidableEq, Repr

-- `current` is what SetCurrentThread wrote, `stack` the thread whose stack the CPU runs on: they differ
-- between SetCurrentThread and ThreadSwitch.
structure Scheduler (C T : Type) where
  pc : C -> CpuPc T
  current : C -> T
  stack : C -> T
  previous : C -> Option T
  idle : C -> T
  readyLock : Option C
  ready : List T
  waiting : List T
  state : T -> ThreadState
  blockLock : T -> Option C
  refCnt : T -> Nat
  handleOpen : T -> Bool
  -- History: dereferences by ThreadCleanupPostSchedule and calls of _ThreadDestroy.
  dropped : T -> Nat
  destroyed : T -> Nat

-- A thread waits by linking itself in a WaitingList and taking its block lock under the object's lock,
-- the idle thread only takes its block lock; threads not started yet are waiting for their creator.
inductive CpuLabel (C T : Type) where
  | run (c : C)
  | threadYield (c : C)
  | wait (c : C)
  | idle (c : C)
  | threadExit (c : C)
  | threadUnblock (c : C) (thread : T)
  | threadCloseHandle (thread : T)
  deriving DecidableEq, Repr

namespace Scheduler

variable {C T : Type} [DecidableEq C] [DecidableEq T]

def goto (s : Scheduler C T) (c : C) (pc : CpuPc T) : Scheduler C T :=
  { s with pc := update s.pc c pc }

def readyLockAcquire (s : Scheduler C T) (c : C) (next : CpuPc T) : Option (Scheduler C T) :=
  if s.readyLock = none then some { s.goto c next with readyLock := some c } else none

def setState (s : Scheduler C T) (c : C) (thread : T) (state : ThreadState) (next : CpuPc T) :
    Scheduler C T :=
  { s.goto c next with state := update s.state thread state }

-- _ThreadDereference: RfcDereference calls _ThreadDestroy for the last reference. Its ASSERT that there
-- is a reference left is made by the callers.
def dereference (s : Scheduler C T) (thread : T) : Scheduler C T :=
  { s with
    refCnt := update s.refCnt thread (s.refCnt thread - 1)
    destroyed := if s.refCnt thread = 1 then update s.destroyed thread (s.destroyed thread + 1)
      else s.destroyed }

def afterUnblock (exiting : Bool) : CpuPc T :=
  if exiting then .exitSignal else .running

def runStep (s : Scheduler C T) (c : C) : Option (Scheduler C T) :=
  match s.pc c with
  | .running => none
  | .yieldLock => s.readyLockAcquire c .yieldInsert
  | .yieldInsert =>
    if s.current c ≠ s.idle c then some { s.goto c .yieldSetState with ready := s.ready ++ [s.current c] }
    else some (s.goto c .yieldSetState)
  | .yieldSetState => some (s.setState c (s.current c) .ready (.scheduleSetPrevious .yield))
  | .blockSetState => some (s.setState c (s.current c) .blocked .blockLock)
  | .blockLock => s.readyLockAcquire c (.scheduleSetPrevious .block)
  | .exitBlockLock =>
    if s.blockLock (s.current c) = some c then
      some { s.goto c .exitSetState with blockLock := update s.blockLock (s.current c) none }
    else some (s.goto c .exitSetState)
  | .exitSetState => some (s.setState c (s.current c) .dying .exitSignal)
  | .exitSignal => some (s.goto c .exitLock)
  | .exitLock => s.readyLockAcquire c (.scheduleSetPrevious .exit)
  | .scheduleSetPrevious how =>
    some { s.goto c (.scheduleGetReady how) with previous := update s.previous c (some (s.current c)) }
  | .scheduleGetReady how =>
    match s.ready with
    | [] => some (s.goto c (if s.idle c ≠ s.current c then .scheduleSetCurrent (s.idle c) how
        else .cleanupReadPrevious how))
    | next :: rest =>
      if s.state next = .ready then
        some { s.goto c (if next ≠ s.current c then .scheduleSetCurrent next how
          else .cleanupReadPrevious how) with ready := rest }
      else none
  | .scheduleSetCurrent next how =>
    some { s.goto c (.scheduleSwitch next how) with current := update s.current c next }
  | .scheduleSwitch next how =>
    some { s.goto c (.cleanupReadPrevious how) with stack := update s.stack c next }
  | .cleanupReadPrevious how => some (s.goto c (.cleanupUnlock (s.previous c) how))
  | .cleanupUnlock none _ => some { s.goto c .running with readyLock := none }
  | .cleanupUnlock (some prev) how => some { s.goto c (.cleanupTestOwner prev how) with readyLock := none }
  | .cleanupTestOwner prev how =>
    some (s.goto c (if s.blockLock prev = some c then .cleanupBlockLock prev how
      else .cleanupTestState prev how))
  | .cleanupBlockLock prev _ =>
    if s.state prev = .blocked ∨ prev = s.idle c then
      some { s.goto c .running with blockLock := update s.blockLock prev none }
    else none
  | .cleanupTestState prev how =>
    some (s.goto c (if s.state prev = .dying then .cleanupDereference prev how else .running))
  | .cleanupDereference prev _ =>
    if s.refCnt prev = 0 then none
    else some { (s.dereference prev).goto c .running with
      previous := update s.previous c none
      dropped := update s.dropped prev (s.dropped prev + 1) }
  | .unblockLock thread exiting =>
    if s.blockLock thread = none then
      some { s.goto c (.unblockTestState thread exiting) with
        blockLock := update s.blockLock thread (some c) }
    else none
  | .unblockTestState thread exiting =>
    if s.state thread = .blocked then some (s.goto c (.unblockReadyLock thread exiting)) else none
  | .unblockReadyLock thread exiting => s.readyLockAcquire c (.unblockInsert thread exiting)
  | .unblockInsert thread exiting =>
    some { s.goto c (.unblockSetState thread exiting) with ready := s.ready ++ [thread] }
  | .unblockSetState thread exiting => some (s.setState c thread .ready (.unblockReadyUnlock thread exiting))
  | .unblockReadyUnlock thread exiting =>
    some { s.goto c (.unblockUnlock thread exiting) with readyLock := none }
  | .unblockUnlock thread exiting =>
    some { s.goto c (afterUnblock exiting) with blockLock := update s.blockLock thread none }

-- ThreadTakeBlockLock and then ThreadBlock.
def takeBlockLock (s : Scheduler C T) (c : C) : Option (Scheduler C T) :=
  if s.blockLock (s.current c) = none then
    some { s.goto c .blockSetState with blockLock := update s.blockLock (s.current c) (some c) }
  else none

def step (s : Scheduler C T) : CpuLabel C T -> Option (Scheduler C T)
  | .run c => s.runStep c
  | .threadYield c => if s.pc c = .running then some (s.goto c .yieldLock) else none
  | .wait c =>
    if s.pc c = .running ∧ s.current c ≠ s.idle c then
      ({ s with waiting := s.waiting ++ [s.current c] } : Scheduler C T).takeBlockLock c
    else none
  | .idle c => if s.pc c = .running ∧ s.current c = s.idle c then s.takeBlockLock c else none
  | .threadExit c =>
    if s.pc c = .running ∧ s.current c ≠ s.idle c then some (s.goto c .exitBlockLock) else none
  | .threadUnblock c thread =>
    if (s.pc c = .running ∨ s.pc c = .exitSignal) ∧ thread ∈ s.waiting then
      some { s.goto c (.unblockLock thread (decide (s.pc c = .exitSignal))) with
        waiting := s.waiting.erase thread }
    else none
  | .threadCloseHandle thread =>
    if s.handleOpen thread ∧ s.refCnt thread ≠ 0 then
      some { s.dereference thread with handleOpen := update s.handleOpen thread false }
    else none

structure Initial (s : Scheduler C T) : Prop where
  pc : forall c, s.pc c = .running
  current : forall c, s.current c = s.stack c
  stack_injective : forall c d, s.stack c = s.stack d -> c = d
  idle_injective : forall c d, s.idle c = s.idle d -> c = d
  idle_stack : forall c d, s.stack d = s.idle c -> d = c
  idle_state : forall c, s.state (s.idle c) = .ready ∨ s.state (s.idle c) = .running
  idle_ready : forall c, s.idle c ∉ s.ready
  idle_waiting : forall c, s.idle c ∉ s.waiting
  stack_state : forall c, s.state (s.stack c) = .running ∨ s.state (s.stack c) = .ready
  readyLock : s.readyLock = none
  blockLock : forall t, s.blockLock t = none
  ready_nodup : s.ready.Nodup
  ready_state : forall t, t ∈ s.ready -> s.state t = .ready ∧ forall c, s.stack c ≠ t
  waiting_nodup : s.waiting.Nodup
  waiting_state : forall t, t ∈ s.waiting -> s.state t = .blocked ∧ forall c, s.stack c ≠ t
  alive : forall t, s.state t ≠ .dying
  refCnt : forall t, s.refCnt t = (s.handleOpen t).toNat + 1
  dropped : forall t, s.dropped t = 0
  destroyed : forall t, s.destroyed t = 0

end Scheduler

def scheduler (C T : Type) [DecidableEq C] [DecidableEq T] :
    Lib.TransitionSystem (Scheduler C T) (CpuLabel C T) where
  initial := Scheduler.Initial
  step s label after := s.step label = some after

def sampleScheduler : Scheduler (Fin 2) (Fin 5) where
  pc _ := .running
  current c := if c = 0 then 2 else 4
  stack c := if c = 0 then 2 else 4
  previous _ := none
  idle c := if c = 0 then 0 else 1
  readyLock := none
  ready := [3]
  waiting := []
  state _ := .ready
  blockLock _ := none
  refCnt _ := 2
  handleOpen _ := true
  dropped _ := 0
  destroyed _ := 0

theorem sampleScheduler_initial : sampleScheduler.Initial := by
  constructor <;> decide

theorem sampleScheduler_run {condition : Scheduler (Fin 2) (Fin 5) -> CpuLabel (Fin 2) (Fin 5) -> Prop}
    [forall s label, Decidable (condition s label)] (labels : List (CpuLabel (Fin 2) (Fin 5)))
    {holds : Scheduler (Fin 2) (Fin 5) -> Prop} [DecidablePred holds]
    (result : (Lib.TransitionSystem.runUnder (fun s label => decide (condition s label)) Scheduler.step
      sampleScheduler labels).any (fun s => decide (holds s)) = true) :
    ∃ s, (scheduler (Fin 2) (Fin 5)).ReachableUnder condition s ∧ holds s := by
  have started : (scheduler (Fin 2) (Fin 5)).ReachableUnder condition sampleScheduler :=
    .start _ sampleScheduler_initial
  exact started.of_run (fun _ _ _ taken => taken) labels result

end Hal9000.Kernel
