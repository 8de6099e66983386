import Hal9000.Lib.Transition
import Hal9000.Lib.Wakeup
import Mathlib.Algebra.Group.Nat.Defs

set_option autoImplicit false

namespace Hal9000.Transmit

open Function (update)
open Lib (Attended TransitionSystem)

-- The bytes of a FRAME_DESCRIPTOR; BufferSize is their number.
abbrev Frame := List UInt8

-- Where a call of _NetDispatchSendFrame stands: before it takes FramesLock and before ExEventSignal.
inductive CallerPoint where
  | idle
  | inserting (frame : Frame)
  | signalling
  deriving DecidableEq, Repr

-- Where NetPortTransmitFunction stands.
inductive WorkerPoint where
  | waiting
  | locking
  -- it holds FramesLock: before RemoveHeadList, ExEventClearSignal and LockRelease
  | removing
  | clearing
  | unlocking (frame : Option Frame)
  -- it has an entry: before the wait for DescriptorsAvailable, memcpy, MiniportSendBuffer and the new index
  | awaiting (frame : Frame) (curTxIndex : Nat)
  | copying (frame : Frame) (curTxIndex : Nat)
  | sending (frame : Frame) (curTxIndex : Nat)
  | advancing (curTxIndex : Nat)
  deriving DecidableEq, Repr

-- A call of MiniportSendBuffer, with the bytes that the buffer holds then.
structure Sent where
  descriptorIndex : Nat
  length : Nat
  bytes : Frame
  deriving DecidableEq, Repr

structure State (Thread : Type) where
  linkUp : Bool
  txEnabled : Bool
  numberOfBuffers : Nat
  bufferSize : Nat
  buffers : Nat -> Frame
  framesList : List Frame
  framesListNotEmptyEvent : Bool
  descriptorsAvailable : Bool
  currentTxIndex : Nat
  caller : Thread -> CallerPoint
  worker : WorkerPoint
  accepted : List Frame
  sent : List Sent

inductive Label (Thread : Type) where
  | send (thread : Thread) (sendBuffer : Frame) (allocated : Bool)
  | caller (thread : Thread)
  | worker
  | notifyTx (available : Bool)
  | linkStatus (linkUp txEnabled : Bool)
  deriving DecidableEq

variable {Thread : Type} [DecidableEq Thread]

def word (value : Nat) : Nat := value % 2 ^ 16

def WorkerPoint.locked : WorkerPoint -> Bool
  | .removing | .clearing | .unlocking _ => true
  | _ => false

-- The checks of _NetDispatchSendFrame; a call that fails one of them returns at once.
def accepts (s : State Thread) (sendBuffer : Frame) (allocated : Bool) : Bool :=
  s.linkUp && s.txEnabled && decide (sendBuffer.length ≤ s.bufferSize) && allocated

def callerStep (s : State Thread) (thread : Thread) : Option (State Thread) :=
  match s.caller thread with
  | .idle => none
  | .inserting frame =>
    if s.worker.locked then none
    else some { s with
      framesList := s.framesList ++ [frame]
      accepted := s.accepted ++ [frame]
      caller := update s.caller thread (if s.framesList.isEmpty then .signalling else .idle) }
  | .signalling => some { s with framesListNotEmptyEvent := true, caller := update s.caller thread .idle }

def workerStep (s : State Thread) : Option (State Thread) :=
  match s.worker with
  | .waiting => if s.framesListNotEmptyEvent then some { s with worker := .locking } else none
  | .locking => some { s with worker := .removing }
  | .removing =>
    match s.framesList with
    | [] => some { s with worker := .clearing }
    | frame :: rest => some { s with framesList := rest, worker := .unlocking (some frame) }
  | .clearing => some { s with framesListNotEmptyEvent := false, worker := .unlocking none }
  | .unlocking none => some { s with worker := .waiting }
  | .unlocking (some frame) => some { s with worker := .awaiting frame s.currentTxIndex }
  | .awaiting frame curTxIndex =>
    if s.descriptorsAvailable then some { s with worker := .copying frame curTxIndex } else none
  | .copying frame curTxIndex => some { s with
      buffers := update s.buffers curTxIndex (frame ++ (s.buffers curTxIndex).drop frame.length)
      worker := .sending frame curTxIndex }
  | .sending frame curTxIndex => some { s with
      sent := s.sent ++ [{
        descriptorIndex := curTxIndex
        length := word frame.length
        bytes := (s.buffers curTxIndex).take (word frame.length) }]
      worker := .advancing curTxIndex }
  | .advancing curTxIndex => some { s with
      currentTxIndex := word ((curTxIndex + 1) % s.numberOfBuffers)
      worker := .waiting }

def step (s : State Thread) : Label Thread -> Option (State Thread)
  | .send thread sendBuffer allocated =>
    match s.caller thread with
    | .idle =>
      if accepts s sendBuffer allocated then some { s with caller := update s.caller thread (.inserting sendBuffer) }
      else some s
    | _ => none
  | .caller thread => callerStep s thread
  | .worker => workerStep s
  | .notifyTx available => some { s with descriptorsAvailable := available }
  | .linkStatus linkUp txEnabled => some { s with linkUp := linkUp, txEnabled := txEnabled }

-- The device after NetworkPortDeviceInit, with its worker before the first wait.
structure Started (s : State Thread) : Prop where
  numberOfBuffers : 0 < s.numberOfBuffers ∧ s.numberOfBuffers < 2 ^ 32
  bufferSize : 0 < s.bufferSize ∧ s.bufferSize < 2 ^ 16
  framesList : s.framesList = []
  currentTxIndex : s.currentTxIndex = 0
  caller : forall thread, s.caller thread = .idle
  worker : s.worker = .waiting
  accepted : s.accepted = []
  sent : s.sent = []

def transmitSystem (Thread : Type) [DecidableEq Thread] : TransitionSystem (State Thread) (Label Thread) where
  initial := Started
  step s label after := step s label = some after

def Owes (s : State Thread) (thread : Thread) : Prop := s.caller thread = .signalling

-- The frame the worker has taken and not sent yet.
def WorkerPoint.frames : WorkerPoint -> List Frame
  | .unlocking (some frame) | .awaiting frame _ | .copying frame _ | .sending frame _ => [frame]
  | _ => []

def slot (numberOfBuffers k : Nat) : Nat := k % min numberOfBuffers (2 ^ 16)

theorem slot_succ {numberOfBuffers k : Nat} (positive : 0 < numberOfBuffers) :
    word ((slot numberOfBuffers k + 1) % numberOfBuffers) = slot numberOfBuffers (k + 1) := by
  simp only [slot, word]
  by_cases few : numberOfBuffers ≤ 2 ^ 16
  · rw [Nat.min_eq_left few, Nat.mod_add_mod]
    exact Nat.mod_eq_of_lt (Nat.lt_of_lt_of_le (Nat.mod_lt _ positive) few)
  · have many : 2 ^ 16 < numberOfBuffers := Nat.not_le.mp few
    have below : k % 2 ^ 16 < 2 ^ 16 := Nat.mod_lt _ (by decide)
    have inner : (k % 2 ^ 16 + 1) % numberOfBuffers = k % 2 ^ 16 + 1 := Nat.mod_eq_of_lt (by omega)
    rw [Nat.min_eq_right (Nat.le_of_lt many), inner, Nat.mod_add_mod]

def WorkerPoint.Indexed (numberOfBuffers count current : Nat) (buffers : Nat -> Frame) : WorkerPoint -> Prop
  | .awaiting _ curTxIndex | .copying _ curTxIndex =>
    curTxIndex = slot numberOfBuffers count ∧ current = slot numberOfBuffers count
  | .sending frame curTxIndex => curTxIndex = slot numberOfBuffers count ∧
    current = slot numberOfBuffers count ∧ (buffers curTxIndex).take frame.length = frame
  | .advancing curTxIndex => word ((curTxIndex + 1) % numberOfBuffers) = slot numberOfBuffers count
  | _ => current = slot numberOfBuffers count

structure Invariant (s : State Thread) : Prop where
  positive : 0 < s.numberOfBuffers
  small : s.bufferSize < 2 ^ 16
  attended : Attended s.framesList s.framesListNotEmptyEvent (Owes s)
  cleared : s.worker = .clearing -> s.framesList = []
  order : s.sent.map Sent.bytes ++ s.worker.frames ++ s.framesList = s.accepted
  short : forall frame, frame ∈ s.worker.frames ++ s.framesList -> frame.length ≤ s.bufferSize
  asked : forall thread frame, s.caller thread = .inserting frame -> frame.length ≤ s.bufferSize
  lengths : forall message, message ∈ s.sent -> message.length = message.bytes.length
  indices : s.sent.map Sent.descriptorIndex = (List.range s.sent.length).map (slot s.numberOfBuffers)
  cursor : s.worker.Indexed s.numberOfBuffers s.sent.length s.currentTxIndex s.buffers

omit [DecidableEq Thread] in
theorem Started.invariant {s : State Thread} (started : Started s) : Invariant s := by
  obtain ⟨numberOfBuffers, bufferSize, framesList, currentTxIndex, caller, worker, accepted, sent⟩ := started
  refine ⟨numberOfBuffers.1, bufferSize.2, ?_, ?_, ?_, ?_, ?_, ?_, ?_, ?_⟩
  · rw [framesList]
    exact .empty
  · exact fun _ => framesList
  · rw [sent, worker, framesList, accepted]
    rfl
  · rw [worker, framesList]
    nofun
  · intro thread frame inserting
    rw [caller] at inserting
    cases inserting
  · rw [sent]
    nofun
  · rw [sent]
    rfl
  · rw [worker, currentTxIndex, sent]
    exact (Nat.zero_mod _).symm

theorem send_invariant {s after : State Thread} {thread : Thread} {sendBuffer : Frame} {allocated : Bool}
    (invariant : Invariant s) (taken : step s (.send thread sendBuffer allocated) = some after) :
    Invariant after := by
  simp only [step] at taken
  split at taken
  · rename_i idle
    split at taken
    · rename_i accepted
      simp only [accepts, Bool.and_eq_true, decide_eq_true_eq] at accepted
      rw [← Option.some.inj taken]
      refine { invariant with attended := ?_, asked := ?_ }
      · refine invariant.attended.shorter id fun other owes => ?_
        have different : other ≠ thread := fun same => by simp [Owes, same, idle] at owes
        simpa [Owes, different] using owes
      · intro other frame inserting
        by_cases same : other = thread
        · simp only [same, Function.update_self, CallerPoint.inserting.injEq] at inserting
          rw [← inserting]
          exact accepted.1.2
        · simp only [Function.update_of_ne same] at inserting
          exact invariant.asked other frame inserting
    · rw [← Option.some.inj taken]
      exact invariant
  · cases taken

theorem caller_invariant {s after : State Thread} {thread : Thread} (invariant : Invariant s)
    (taken : step s (.caller thread) = some after) : Invariant after := by
  simp only [step, callerStep] at taken
  split at taken
  · cases taken
  · rename_i frame inserting
    split at taken
    · cases taken
    rename_i unlocked
    rw [← Option.some.inj taken]
    refine { invariant with attended := ?_, cleared := ?_, order := ?_, short := ?_, asked := ?_ }
    · -- The caller that finds the list empty owes the signal.
      cases empty : s.framesList with
      | nil => exact .owed thread (by simp [Owes])
      | cons first rest =>
        refine invariant.attended.longer (by simp [empty]) fun other owes => ?_
        have different : other ≠ thread := fun same => by simp [Owes, same, inserting] at owes
        simpa [Owes, different] using owes
    · intro clearing
      rw [clearing] at unlocked
      exact absurd rfl unlocked
    · simp [← invariant.order]
    · intro other member
      simp only [List.mem_append, List.mem_singleton] at member
      rcases member with taken | listed | rfl
      · exact invariant.short other (List.mem_append_left _ taken)
      · exact invariant.short other (List.mem_append_right _ listed)
      · exact invariant.asked thread other inserting
    · intro other frame' there
      by_cases same : other = thread
      · simp only [same, Function.update_self] at there
        split at there <;> cases there
      · simp only [Function.update_of_ne same] at there
        exact invariant.asked other frame' there
  · rename_i signalling
    rw [← Option.some.inj taken]
    refine { invariant with attended := .set, asked := ?_ }
    intro other frame' there
    by_cases same : other = thread
    · simp [same] at there
    · simp only [Function.update_of_ne same] at there
      exact invariant.asked other frame' there

theorem worker_invariant {s after : State Thread} (invariant : Invariant s)
    (taken : step s .worker = some after) : Invariant after := by
  have order := invariant.order
  have short := invariant.short
  have cursor := invariant.cursor
  simp only [step, workerStep] at taken
  split at taken <;> rename_i here <;> rw [here] at order short cursor
  · split at taken
    · rw [← Option.some.inj taken]
      exact { invariant with cleared := nofun, order := order, short := short, cursor := cursor }
    · cases taken
  · rw [← Option.some.inj taken]
    exact { invariant with cleared := nofun, order := order, short := short, cursor := cursor }
  · split at taken <;> rename_i list <;> rw [← Option.some.inj taken]
    · exact { invariant with cleared := fun _ => list, order := order, short := short, cursor := cursor }
    · rw [list] at order short
      refine { invariant with attended := ?_, cleared := nofun, order := ?_, short := short, cursor := cursor }
      · exact invariant.attended.shorter (by simp [list]) fun _ => id
      · simpa [WorkerPoint.frames] using order
  · rw [← Option.some.inj taken]
    have empty := invariant.cleared here
    refine { invariant with attended := ?_, cleared := nofun, order := order, short := short, cursor := cursor }
    exact fun nonempty => absurd empty nonempty
  · rw [← Option.some.inj taken]
    exact { invariant with cleared := nofun, order := order, short := short, cursor := cursor }
  · rw [← Option.some.inj taken]
    exact { invariant with cleared := nofun, order := order, short := short, cursor := ⟨cursor, cursor⟩ }
  · split at taken
    · rw [← Option.some.inj taken]
      exact { invariant with cleared := nofun, order := order, short := short, cursor := cursor }
    · cases taken
  · rw [← Option.some.inj taken]
    refine { invariant with cleared := nofun, order := order, short := short, cursor := ?_ }
    exact ⟨cursor.1, cursor.2, by simp⟩
  · rename_i frame curTxIndex
    obtain ⟨index, current, copied⟩ := cursor
    have fits : frame.length ≤ s.bufferSize := short frame (by simp [WorkerPoint.frames])
    have length : word frame.length = frame.length :=
      Nat.mod_eq_of_lt (Nat.lt_of_le_of_lt fits invariant.small)
    rw [← Option.some.inj taken]
    refine { invariant with cleared := nofun, order := ?_, short := ?_, lengths := ?_, indices := ?_, cursor := ?_ }
    · simpa [WorkerPoint.frames, length, copied] using order
    · exact fun other member => short other (List.mem_append_right _ member)
    · intro message member
      rcases List.mem_append.mp member with earlier | new
      · exact invariant.lengths message earlier
      · rw [List.mem_singleton.mp new]
        simp only [length, copied]
    · simp [List.range_succ, invariant.indices, index]
    · simp only [WorkerPoint.Indexed, List.length_append, List.length_singleton]
      rw [index]
      exact slot_succ invariant.positive
  · rw [← Option.some.inj taken]
    exact { invariant with cleared := nofun, order := order, short := short, cursor := cursor }

theorem step_invariant {s after : State Thread} {label : Label Thread} (invariant : Invariant s)
    (taken : step s label = some after) : Invariant after := by
  cases label with
  | send thread sendBuffer allocated => exact send_invariant invariant taken
  | caller thread => exact caller_invariant invariant taken
  | worker => exact worker_invariant invariant taken
  | notifyTx available =>
    rw [← Option.some.inj taken]
    exact { invariant with }
  | linkStatus linkUp txEnabled =>
    rw [← Option.some.inj taken]
    exact { invariant with }

theorem reachable_invariant {s : State Thread} (reached : (transmitSystem Thread).Reachable s) : Invariant s :=
  reached.invariant (fun _ => Started.invariant) fun _ _ _ => step_invariant

-- A waiting frame has its wake-up, and the frames given to the miniport are the accepted ones, in order and
-- each once, then the one in the worker's hands, then those that wait.
structure Lossless (s : State Thread) : Prop where
  attended : s.framesList ≠ [] -> s.framesListNotEmptyEvent = true ∨ ∃ thread, s.caller thread = .signalling
  order : s.sent.map Sent.bytes ++ s.worker.frames ++ s.framesList = s.accepted
  complete : (forall thread, s.caller thread = .idle) -> s.worker = .waiting ->
    s.framesListNotEmptyEvent = false -> s.sent.map Sent.bytes = s.accepted
  lengths : forall message, message ∈ s.sent -> message.length = message.bytes.length
  indices : forall k (sent : k < s.sent.length),
    s.sent[k].descriptorIndex = k % min s.numberOfBuffers (2 ^ 16)

omit [DecidableEq Thread] in
theorem invariant_complete {s : State Thread} (invariant : Invariant s)
    (callers : forall thread, s.caller thread = .idle) (worker : s.worker = .waiting)
    (event : s.framesListNotEmptyEvent = false) : s.sent.map Sent.bytes = s.accepted := by
  have empty : s.framesList = [] := by
    by_contra nonempty
    rcases invariant.attended nonempty with set | ⟨thread, owes⟩
    · rw [event] at set
      cases set
    · have idle := callers thread
      rw [owes] at idle
      cases idle
  have order := invariant.order
  rw [worker, empty] at order
  simpa [WorkerPoint.frames] using order

omit [DecidableEq Thread] in
theorem invariant_index {s : State Thread} (invariant : Invariant s) {k : Nat} (sent : k < s.sent.length) :
    s.sent[k].descriptorIndex = slot s.numberOfBuffers k := by
  have index : (s.sent.map Sent.descriptorIndex)[k]? =
      ((List.range s.sent.length).map (slot s.numberOfBuffers))[k]? := congrArg (·[k]?) invariant.indices
  simpa [sent] using index

theorem transmit_lossless {s : State Thread} (reached : (transmitSystem Thread).Reachable s) : Lossless s :=
  have invariant := reachable_invariant reached
  ⟨invariant.attended, invariant.order, invariant_complete invariant, invariant.lengths,
    fun _ sent => invariant_index invariant sent⟩

def deviceState (numberOfBuffers : Nat) : State (Fin 2) where
  linkUp := true
  txEnabled := true
  numberOfBuffers := numberOfBuffers
  bufferSize := 0x1000
  buffers := fun _ => List.replicate 8 0
  framesList := []
  framesListNotEmptyEvent := false
  descriptorsAvailable := true
  currentTxIndex := 0
  caller := fun _ => .idle
  worker := .waiting
  accepted := []
  sent := []

theorem deviceState_started {numberOfBuffers : Nat} (positive : 0 < numberOfBuffers)
    (fits : numberOfBuffers < 2 ^ 32) : Started (deviceState numberOfBuffers) :=
  ⟨⟨positive, fits⟩, by simp [deviceState], rfl, rfl, fun _ => rfl, rfl, rfl, rfl⟩

def oneFrame : List (Label (Fin 2)) := List.replicate 8 .worker

def sampleSchedule : List (Label (Fin 2)) :=
  [.send 0 [1, 2, 3] true, .send 1 [4] true, .caller 0, .caller 1, .caller 0] ++ oneFrame ++ oneFrame ++
    [.send 1 [5, 6] true, .caller 1] ++ oneFrame

theorem sampleSchedule_result : (TransitionSystem.runUnder (fun _ _ => decide True) step (deviceState 2)
    sampleSchedule).any (fun s => decide (s.sent = [⟨0, 3, [1, 2, 3]⟩, ⟨1, 1, [4]⟩, ⟨0, 2, [5, 6]⟩])) = true := by
  decide +kernel

theorem transmit_lossless_sample : ∃ s : State (Fin 2), (transmitSystem (Fin 2)).Reachable s ∧
    s.sent = [⟨0, 3, [1, 2, 3]⟩, ⟨1, 1, [4]⟩, ⟨0, 2, [5, 6]⟩] ∧ Lossless s := by
  have start : (transmitSystem (Fin 2)).Reachable (deviceState 2) :=
    .start (deviceState_started (by decide) (by decide))
  have run : ∃ s : State (Fin 2), (transmitSystem (Fin 2)).Reachable s ∧
      s.sent = [⟨0, 3, [1, 2, 3]⟩, ⟨1, 1, [4]⟩, ⟨0, 2, [5, 6]⟩] :=
    TransitionSystem.ReachableUnder.of_run (fun _ _ _ result => result) start sampleSchedule sampleSchedule_result
  obtain ⟨s, reached, done⟩ := run
  exact ⟨s, reached, done, transmit_lossless reached⟩

structure Ready (numberOfBuffers count : Nat) (s : State (Fin 2)) : Prop where
  linkUp : s.linkUp = true
  txEnabled : s.txEnabled = true
  numberOfBuffers : s.numberOfBuffers = numberOfBuffers
  bufferSize : s.bufferSize = 0x1000
  framesList : s.framesList = []
  descriptorsAvailable : s.descriptorsAvailable = true
  caller : s.caller 0 = .idle
  worker : s.worker = .waiting
  sent : s.sent.length = count

theorem ready_next {numberOfBuffers count : Nat} {s : State (Fin 2)} (ready : Ready numberOfBuffers count s)
    (reached : (transmitSystem (Fin 2)).Reachable s) :
    ∃ after, (transmitSystem (Fin 2)).Reachable after ∧ Ready numberOfBuffers (count + 1) after := by
  obtain ⟨linkUp, txEnabled, numberOfBuffers, bufferSize, framesList, descriptors, caller, worker, sent⟩ := ready
  have run : ∃ after, TransitionSystem.runUnder (fun _ _ => decide True) step s
      ([.send 0 [1] true, .caller 0, .caller 0] ++ oneFrame) = some after ∧
      Ready s.numberOfBuffers (count + 1) after := by
    simp [oneFrame, List.replicate, TransitionSystem.runUnder, step, callerStep, workerStep, accepts, WorkerPoint.locked,
      linkUp, txEnabled, bufferSize, framesList, descriptors, caller, worker]
    exact ⟨rfl, rfl, rfl, rfl, rfl, rfl, by simp, rfl, by simp [sent]⟩
  obtain ⟨after, result, ready⟩ := run
  exact ⟨after, TransitionSystem.ReachableUnder.run (fun _ _ => of_decide_eq_true) (fun _ _ _ taken => taken)
    reached _ result, numberOfBuffers ▸ ready⟩

theorem ready_reachable {numberOfBuffers : Nat} (positive : 0 < numberOfBuffers) (fits : numberOfBuffers < 2 ^ 32)
    (count : Nat) : ∃ s, (transmitSystem (Fin 2)).Reachable s ∧ Ready numberOfBuffers count s := by
  induction count with
  | zero => exact ⟨_, .start (deviceState_started positive fits), ⟨rfl, rfl, rfl, rfl, rfl, rfl, rfl, rfl, rfl⟩⟩
  | succ count ih =>
    obtain ⟨s, reached, ready⟩ := ih
    exact ready_next ready reached

-- With 65537 buffers frame 65536 goes into buffer 0, since CurrentTxIndex is a WORD.
theorem index_wraps : ∃ s : State (Fin 2), (transmitSystem (Fin 2)).Reachable s ∧ s.numberOfBuffers = 65537 ∧
    ∃ sent : 65536 < s.sent.length, s.sent[65536].descriptorIndex ≠ 65536 % s.numberOfBuffers := by
  obtain ⟨s, reached, ready⟩ := ready_reachable (by decide : 0 < 65537) (by decide) 65537
  have sent : 65536 < s.sent.length := by
    rw [ready.sent]
    decide +kernel
  refine ⟨s, reached, ready.numberOfBuffers, sent, ?_⟩
  rw [invariant_index (reachable_invariant reached) sent, ready.numberOfBuffers]
  decide +kernel

end Hal9000.Transmit
