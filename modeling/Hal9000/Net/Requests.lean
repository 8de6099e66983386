import Hal9000.Lib.HandoffLock
import Hal9000.Lib.Transition
import Hal9000.Lib.Wakeup

set_option autoImplicit false

namespace Hal9000.Requests

open Function (update)
open Lib (Attended HandoffLock.Consistent HandoffLock.Phase TransitionSystem)

abbrev Frame := List UInt8

inductive Status where
  | success
  | bufferTooSmall
  | bufferTooLarge
  | deviceNotConnected
  | deviceDisabled
  | heapInsufficientResources
  deriving DecidableEq, Repr

-- The device control requests that _NetDispatchReceiveFrame and _NetDispatchSendFrame serve.
inductive Request where
  | receive (outputBufferSize : Nat)
  | send (sendBuffer : Frame) (allocated : Bool)
  deriving DecidableEq, Repr

-- Where a thread stands in IoCallDriver and below it.
inductive Point where
  | idle
  | calling (request : Request)
  | waiting (request : Request)
  | dispatching (request : Request)
  -- in _NetDispatchReceiveFrame: before LockAcquire(FramesLock), ExEventClearSignal, LockRelease(FramesLock),
  -- the tests of the link and of RX, and ExEventWaitForSignal
  | receiving (outputBufferSize : Nat)
  | clearing (outputBufferSize : Nat)
  | unlocking (outputBufferSize : Nat)
  | checking (outputBufferSize : Nat)
  | awaiting (outputBufferSize : Nat)
  -- in _NetDispatchSendFrame: before the section of the transmit FramesLock, and ExEventSignal
  | inserting (frame : Frame)
  | signalling
  -- after the dispatch routine: before MutexRelease(DeviceLock)
  | releasing (status : Status)
  deriving DecidableEq, Repr

-- Where NetworkPortNotifyReceiveBuffer stands.
inductive ArrivalPoint where
  | idle
  | inserting (frame : Frame)
  | signalling
  deriving DecidableEq, Repr

structure State (Thread : Type) where
  linkUp : Bool
  rxEnabled : Bool
  txEnabled : Bool
  rxFramesList : List Frame
  rxFramesListNotEmptyEvent : Bool
  txBufferSize : Nat
  txFramesList : List Frame
  txFramesListNotEmptyEvent : Bool
  holder : Option Thread
  waitingList : List Thread
  point : Thread -> Point
  arrival : ArrivalPoint

inductive Label (Thread : Type) where
  | ioCallDriver (thread : Thread) (request : Request)
  | thread (thread : Thread)
  | frameArrives (frame : Frame)
  | arrival
  -- NetPortTransmitFunction takes the first frame, or clears its event
  | transmit
  | linkStatus (linkUp rxEnabled txEnabled : Bool)
  deriving DecidableEq

variable {Thread : Type} [DecidableEq Thread]

def State.goto (s : State Thread) (thread : Thread) (point : Point) : State Thread :=
  { s with point := update s.point thread point }

-- The receive FramesLock is held.
def Point.locked : Point -> Bool
  | .clearing _ | .unlocking _ => true
  | _ => false

-- The thread that holds the receive FramesLock is inside the dispatch routine, so it is the holder of DeviceLock.
def State.rxLocked (s : State Thread) : Bool :=
  match s.holder with
  | some thread => (s.point thread).locked
  | none => false

def checkSend (s : State Thread) (sendBuffer : Frame) (allocated : Bool) : Option Status :=
  if s.linkUp = false then some .deviceNotConnected
  else if s.txEnabled = false then some .deviceDisabled
  else if s.txBufferSize < sendBuffer.length then some .bufferTooLarge
  else if allocated = false then some .heapInsufficientResources
  else none

-- sizeof(NET_RECEIVE_FRAME_OUTPUT), which is ETHERNET_FRAME_SIZE.
def sizeofReceiveFrameOutput : Nat := 14

def threadStep (s : State Thread) (thread : Thread) : Option (State Thread) :=
  match s.point thread with
  | .idle => none
  | .calling request =>
    match s.holder with
    | none => some { s.goto thread (.dispatching request) with holder := some thread }
    | some _ => some { s.goto thread (.waiting request) with waitingList := s.waitingList ++ [thread] }
  | .waiting request =>
    if s.holder = some thread then some (s.goto thread (.dispatching request)) else none
  | .dispatching (.receive outputBufferSize) =>
    if outputBufferSize < sizeofReceiveFrameOutput then some (s.goto thread (.releasing .bufferTooSmall))
    else some (s.goto thread (.receiving outputBufferSize))
  | .dispatching (.send sendBuffer allocated) =>
    match checkSend s sendBuffer allocated with
    | some status => some (s.goto thread (.releasing status))
    | none => some (s.goto thread (.inserting sendBuffer))
  | .receiving outputBufferSize =>
    match s.rxFramesList with
    | [] => some (s.goto thread (.clearing outputBufferSize))
    | frame :: rest =>
      if outputBufferSize < frame.length then some (s.goto thread (.releasing .bufferTooSmall))
      else some { s.goto thread (.releasing .success) with rxFramesList := rest }
  | .clearing outputBufferSize =>
    some { s.goto thread (.unlocking outputBufferSize) with rxFramesListNotEmptyEvent := false }
  | .unlocking outputBufferSize => some (s.goto thread (.checking outputBufferSize))
  | .checking outputBufferSize =>
    if s.linkUp = false then some (s.goto thread (.releasing .deviceNotConnected))
    else if s.rxEnabled = false then some (s.goto thread (.releasing .deviceDisabled))
    else some (s.goto thread (.awaiting outputBufferSize))
  | .awaiting outputBufferSize =>
    if s.rxFramesListNotEmptyEvent then some (s.goto thread (.receiving outputBufferSize)) else none
  | .inserting frame => some { s.goto thread (if s.txFramesList.isEmpty then .signalling else .releasing .success) with
      txFramesList := s.txFramesList ++ [frame] }
  | .signalling => some { s.goto thread (.releasing .success) with txFramesListNotEmptyEvent := true }
  | .releasing _ => some { s.goto thread .idle with holder := s.waitingList.head?, waitingList := s.waitingList.tail }

def arrivalStep (s : State Thread) : Option (State Thread) :=
  match s.arrival with
  | .idle => none
  | .inserting frame =>
    if s.rxLocked then none
    else some { s with
      rxFramesList := s.rxFramesList ++ [frame]
      arrival := if s.rxFramesList.isEmpty then .signalling else .idle }
  | .signalling => some { s with rxFramesListNotEmptyEvent := true, arrival := .idle }

def step (s : State Thread) : Label Thread -> Option (State Thread)
  | .ioCallDriver thread request =>
    match s.point thread with
    | .idle => some (s.goto thread (.calling request))
    | _ => none
  | .thread thread => threadStep s thread
  | .frameArrives frame =>
    match s.arrival with
    | .idle => some { s with arrival := .inserting frame }
    | _ => none
  | .arrival => arrivalStep s
  | .transmit =>
    match s.txFramesList with
    | [] => some { s with txFramesListNotEmptyEvent := false }
    | _ :: rest => some { s with txFramesList := rest }
  | .linkStatus linkUp rxEnabled txEnabled =>
    some { s with linkUp := linkUp, rxEnabled := rxEnabled, txEnabled := txEnabled }

-- The device after NetworkPortDeviceInit, before its first request.
structure Started (s : State Thread) : Prop where
  rxFramesList : s.rxFramesList = []
  holder : s.holder = none
  waitingList : s.waitingList = []
  point : forall thread, s.point thread = .idle
  arrival : s.arrival = .idle

def requestSystem (Thread : Type) [DecidableEq Thread] : TransitionSystem (State Thread) (Label Thread) where
  initial := Started
  step s label after := step s label = some after

def Point.phase : Point -> HandoffLock.Phase
  | .idle | .calling _ => .outside
  | .waiting _ => .waiting
  | _ => .inside

-- An arrival that found the list empty still owes the signal.
def Owes (s : State Thread) (_ : Unit) : Prop := s.arrival = .signalling

structure Invariant (s : State Thread) : Prop where
  lock : HandoffLock.Consistent s.holder s.waitingList (fun thread => (s.point thread).phase)
  attended : Attended s.rxFramesList s.rxFramesListNotEmptyEvent (Owes s)
  cleared : forall thread outputBufferSize, s.point thread = .clearing outputBufferSize -> s.rxFramesList = []

omit [DecidableEq Thread] in
theorem Started.invariant {s : State Thread} (started : Started s) : Invariant s := by
  obtain ⟨rxFramesList, holder, waitingList, point, arrival⟩ := started
  refine ⟨?_, ?_, ?_⟩
  · simp only [holder, waitingList, point]
    exact .initially
  · rw [rxFramesList]
    exact .empty
  · intro thread _ clearing
    rw [point] at clearing
    cases clearing

theorem goto_phase (s : State Thread) (thread : Thread) (point : Point) (phase : HandoffLock.Phase)
    (equal : point.phase = phase) : (fun other => ((s.goto thread point).point other).phase) =
      update (fun other => (s.point other).phase) thread phase := by
  subst equal
  funext other
  by_cases same : other = thread
  · simp [same, State.goto]
  · simp [same, State.goto]

theorem goto_lock {s : State Thread} {thread : Thread} {point : Point}
    (lock : HandoffLock.Consistent s.holder s.waitingList (fun other => (s.point other).phase))
    (same : point.phase = (s.point thread).phase) :
    HandoffLock.Consistent s.holder s.waitingList (fun other => ((s.goto thread point).point other).phase) := by
  rw [goto_phase s thread point _ same]
  have unchanged : update (fun other => (s.point other).phase) thread (s.point thread).phase =
      fun other => (s.point other).phase := Function.update_eq_self thread (fun other => (s.point other).phase)
  rwa [unchanged]

theorem goto_cleared {s : State Thread} {thread : Thread} {point : Point} {list : List Frame}
    (cleared : forall other size, other ≠ thread -> s.point other = .clearing size -> list = [])
    (here : forall size, point = .clearing size -> list = []) (other : Thread) (size : Nat)
    (clearing : (s.goto thread point).point other = .clearing size) : list = [] := by
  by_cases same : other = thread
  · subst same
    simp only [State.goto, Function.update_self] at clearing
    exact here size clearing
  · simp only [State.goto, Function.update_of_ne same] at clearing
    exact cleared other size same clearing

theorem moved_invariant {s : State Thread} {thread : Thread} {point : Point} (invariant : Invariant s)
    (same : point.phase = (s.point thread).phase) (elsewhere : forall size, point ≠ .clearing size) :
    Invariant (s.goto thread point) :=
  ⟨goto_lock invariant.lock same, invariant.attended,
    goto_cleared (fun other size _ => invariant.cleared other size) fun size clearing =>
      absurd clearing (elsewhere size)⟩

theorem thread_invariant {s after : State Thread} {thread : Thread} (invariant : Invariant s)
    (taken : step s (.thread thread) = some after) : Invariant after := by
  have lock := invariant.lock
  simp only [step, threadStep] at taken
  split at taken <;> rename_i here
  · cases taken
  · rename_i request
    split at taken <;> rename_i free <;> rw [← Option.some.inj taken]
    · refine ⟨?_, invariant.attended, ?_⟩
      · have outside : (s.point thread).phase = .outside := by rw [here]; rfl
        have taken := lock.take outside free
        rwa [← goto_phase s thread (.dispatching request) .inside rfl] at taken
      · exact goto_cleared (fun other size _ => invariant.cleared other size) nofun
    · refine ⟨?_, invariant.attended, ?_⟩
      · have outside : (s.point thread).phase = .outside := by rw [here]; rfl
        have queued := lock.enqueue outside (by rw [free]; nofun)
        rwa [← goto_phase s thread (.waiting request) .waiting rfl] at queued
      · exact goto_cleared (fun other size _ => invariant.cleared other size) nofun
  · rename_i request
    split at taken
    · rename_i given
      rw [← Option.some.inj taken]
      refine ⟨?_, invariant.attended, ?_⟩
      · have resumed := lock.resume given
        rwa [← goto_phase s thread (.dispatching request) .inside rfl] at resumed
      · exact goto_cleared (fun other size _ => invariant.cleared other size) nofun
    · cases taken
  · split at taken <;> rw [← Option.some.inj taken]
    · exact moved_invariant invariant (by rw [here]; rfl) nofun
    · exact moved_invariant invariant (by rw [here]; rfl) nofun
  · split at taken <;> rw [← Option.some.inj taken]
    · exact moved_invariant invariant (by rw [here]; rfl) nofun
    · exact moved_invariant invariant (by rw [here]; rfl) nofun
  · split at taken <;> rename_i list
    · rw [← Option.some.inj taken]
      exact ⟨goto_lock lock (by rw [here]; rfl), invariant.attended,
        goto_cleared (fun other size _ => invariant.cleared other size) fun _ _ => list⟩
    · split at taken <;> rw [← Option.some.inj taken]
      · exact moved_invariant invariant (by rw [here]; rfl) nofun
      · refine ⟨goto_lock lock (by rw [here]; rfl), ?_, ?_⟩
        · exact invariant.attended.shorter (by simp [list]) fun _ => id
        · -- Another thread cannot be in the same section.
          refine goto_cleared (fun other size different clearing => ?_) nofun
          exact absurd (lock.exclusive (by simp only [clearing]; rfl) (by simp only [here]; rfl)) different
  · rename_i outputBufferSize
    have empty := invariant.cleared thread outputBufferSize here
    rw [← Option.some.inj taken]
    refine ⟨goto_lock lock (by rw [here]; rfl), ?_, ?_⟩
    · exact fun nonempty => absurd empty nonempty
    · exact goto_cleared (fun other size _ => invariant.cleared other size) nofun
  · rw [← Option.some.inj taken]
    exact moved_invariant invariant (by rw [here]; rfl) nofun
  · split at taken
    · rw [← Option.some.inj taken]
      exact moved_invariant invariant (by rw [here]; rfl) nofun
    · split at taken <;> rw [← Option.some.inj taken]
      · exact moved_invariant invariant (by rw [here]; rfl) nofun
      · exact moved_invariant invariant (by rw [here]; rfl) nofun
  · split at taken
    · rw [← Option.some.inj taken]
      exact moved_invariant invariant (by rw [here]; rfl) nofun
    · cases taken
  · rw [← Option.some.inj taken]
    have moved : forall point : Point, point = .signalling ∨ point = .releasing .success ->
        Invariant (s.goto thread point) := fun point which => by
      rcases which with rfl | rfl
      · exact moved_invariant invariant (by rw [here]; rfl) nofun
      · exact moved_invariant invariant (by rw [here]; rfl) nofun
    have result := moved (if s.txFramesList.isEmpty then .signalling else .releasing .success)
      (by split <;> simp)
    exact ⟨result.lock, result.attended, result.cleared⟩
  · rw [← Option.some.inj taken]
    have result : Invariant (s.goto thread (.releasing .success)) :=
      moved_invariant invariant (by rw [here]; rfl) nofun
    exact ⟨result.lock, result.attended, result.cleared⟩
  · rw [← Option.some.inj taken]
    refine ⟨?_, invariant.attended, ?_⟩
    · have inside : (s.point thread).phase = .inside := by rw [here]; rfl
      have released := lock.release inside
      rwa [← goto_phase s thread .idle .outside rfl] at released
    · exact goto_cleared (fun other size _ => invariant.cleared other size) nofun

omit [DecidableEq Thread] in
-- The arrival's section and the receive's section of FramesLock exclude each other.
theorem rxLocked_of_clearing {s : State Thread} (invariant : Invariant s) {thread : Thread} {size : Nat}
    (clearing : s.point thread = .clearing size) : s.rxLocked = true := by
  have held := invariant.lock.inside thread (by rw [clearing]; rfl)
  rw [State.rxLocked, held]
  simp only [clearing]
  rfl

theorem arrival_invariant {s after : State Thread} (invariant : Invariant s)
    (taken : step s .arrival = some after) : Invariant after := by
  simp only [step, arrivalStep] at taken
  split at taken
  · cases taken
  · rename_i frame here
    split at taken
    · cases taken
    rename_i unlocked
    rw [← Option.some.inj taken]
    refine ⟨invariant.lock, ?_, fun thread size clearing => ?_⟩
    · cases list : s.rxFramesList with
      | nil => exact .owed () (by simp [Owes])
      | cons first rest =>
        refine invariant.attended.longer (by simp [list]) fun _ owes => ?_
        rw [Owes, here] at owes
        cases owes
    · exact absurd (rxLocked_of_clearing invariant clearing) unlocked
  · rw [← Option.some.inj taken]
    exact ⟨invariant.lock, .set, invariant.cleared⟩

theorem step_invariant {s after : State Thread} {label : Label Thread} (invariant : Invariant s)
    (taken : step s label = some after) : Invariant after := by
  cases label with
  | ioCallDriver thread request =>
    simp only [step] at taken
    split at taken
    · rename_i here
      rw [← Option.some.inj taken]
      exact moved_invariant invariant (by rw [here]; rfl) nofun
    · cases taken
  | thread thread => exact thread_invariant invariant taken
  | frameArrives frame =>
    simp only [step] at taken
    split at taken
    · rename_i here
      rw [← Option.some.inj taken]
      refine ⟨invariant.lock, invariant.attended.shorter id fun _ owes => ?_, invariant.cleared⟩
      rw [Owes, here] at owes
      cases owes
    · cases taken
  | arrival => exact arrival_invariant invariant taken
  | transmit =>
    simp only [step] at taken
    split at taken <;> rw [← Option.some.inj taken]
    · exact { invariant with }
    · exact { invariant with }
  | linkStatus linkUp rxEnabled txEnabled =>
    rw [← Option.some.inj taken]
    exact { invariant with }

theorem reachable_invariant {s : State Thread} (reached : (requestSystem Thread).Reachable s) : Invariant s :=
  reached.invariant (fun _ => Started.invariant) fun _ _ _ => step_invariant

def idleState : State (Fin 2) where
  linkUp := true
  rxEnabled := true
  txEnabled := true
  rxFramesList := []
  rxFramesListNotEmptyEvent := false
  txBufferSize := 0x1000
  txFramesList := []
  txFramesListNotEmptyEvent := false
  holder := none
  waitingList := []
  point := fun _ => .idle
  arrival := .idle

end Hal9000.Requests
