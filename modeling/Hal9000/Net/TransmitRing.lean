import Hal9000.Lib.Transition
import Hal9000.Lib.Window

set_option autoImplicit false

namespace Hal9000.TransmitRing

open Function (update)
open Lib (TransitionSystem Window)

structure TransmitDescriptor where
  length : Nat
  descriptorDone : Bool
  deriving DecidableEq, Repr

-- Where NetPortTransmitFunction and its call of EthSendFrame stand.
inductive WorkerPoint where
  | waiting
  -- in EthSendFrame: before the assertions, the descriptor and the new CurrentDescriptor
  | entered (curTxIndex length : Nat)
  | filling (curTxIndex length : Nat)
  | advancing (curTxIndex : Nat)
  -- in _EthSignalTxQueueFullIfNecessary
  | testing (curTxIndex : Nat)
  | locking (curTxIndex nextTxIndex : Nat)
  | retesting (curTxIndex nextTxIndex : Nat)
  | notifying (curTxIndex : Nat)
  | releasing (curTxIndex : Nat)
  -- before EthSetTxTail, and before the new CurrentTxIndex
  | tailing (curTxIndex : Nat)
  | finishing
  | failed
  deriving DecidableEq, Repr

-- Where EthHandleInterrupt stands after it has read TdWrittenBack.
inductive HandlerPoint where
  | idle
  | locking
  | signalling
  | releasing
  deriving DecidableEq, Repr

structure State where
  numberOfDescriptors : Nat
  bufferSize : Nat
  transmitBuffer : Nat -> TransmitDescriptor
  currentDescriptor : Nat
  numberOfBuffers : Nat
  currentTxIndex : Nat
  descriptorsAvailable : Bool
  head : Nat
  tail : Nat
  pending : Nat
  worker : WorkerPoint
  handler : HandlerPoint
  sent : Nat
  consumed : Nat

inductive Label where
  | card
  -- `merged` raised interrupts are delivered as one
  | interrupt (merged : Nat)
  | handler
  -- the worker has a frame of `length` bytes and gets past ExEventWaitForSignal
  | send (length : Nat)
  | worker
  deriving DecidableEq

def word (value : Nat) : Nat := value % 2 ^ 16

def WorkerPoint.locked : WorkerPoint -> Bool
  | .retesting _ _ | .notifying _ | .releasing _ => true
  | _ => false

def HandlerPoint.locked : HandlerPoint -> Bool
  | .signalling | .releasing => true
  | _ => false

def handlerStep (s : State) : Option State :=
  match s.handler with
  | .idle => none
  | .locking => if s.worker.locked then none else some { s with handler := .signalling }
  | .signalling => some { s with descriptorsAvailable := true, handler := .releasing }
  | .releasing => some { s with handler := .idle }

def workerStep (s : State) : Option State :=
  match s.worker with
  | .waiting | .failed => none
  | .entered curTxIndex length =>
    if length ≤ s.bufferSize ∧ curTxIndex = s.currentDescriptor ∧ curTxIndex < s.numberOfDescriptors ∧
        (s.transmitBuffer curTxIndex).descriptorDone = true then
      some { s with worker := .filling curTxIndex length }
    else some { s with worker := .failed }
  | .filling curTxIndex length => some { s with
      transmitBuffer := update s.transmitBuffer curTxIndex { length := length, descriptorDone := false }
      worker := .advancing (word ((curTxIndex + 1) % s.numberOfDescriptors)) }
  | .advancing curTxIndex => some { s with currentDescriptor := curTxIndex, worker := .testing curTxIndex }
  | .testing curTxIndex =>
    let nextTxIndex := word ((s.currentDescriptor + 1) % s.numberOfDescriptors)
    some { s with worker := if nextTxIndex = s.head then .locking curTxIndex nextTxIndex else .tailing curTxIndex }
  | .locking curTxIndex nextTxIndex =>
    if s.handler.locked then none else some { s with worker := .retesting curTxIndex nextTxIndex }
  | .retesting curTxIndex nextTxIndex =>
    some { s with worker := if nextTxIndex = s.head then .notifying curTxIndex else .releasing curTxIndex }
  | .notifying curTxIndex => some { s with descriptorsAvailable := false, worker := .releasing curTxIndex }
  | .releasing curTxIndex => some { s with worker := .tailing curTxIndex }
  | .tailing curTxIndex => some { s with tail := curTxIndex, sent := s.sent + 1, worker := .finishing }
  | .finishing => some { s with
      currentTxIndex := word ((s.currentTxIndex + 1) % s.numberOfBuffers)
      worker := .waiting }

def step (s : State) : Label -> Option State
  | .card =>
    if s.head = s.tail then none
    else some { s with
      transmitBuffer := update s.transmitBuffer s.head { s.transmitBuffer s.head with descriptorDone := true }
      head := (s.head + 1) % s.numberOfDescriptors
      pending := s.pending + 1
      consumed := s.consumed + 1 }
  | .interrupt merged =>
    if s.handler = .idle ∧ 0 < merged ∧ merged ≤ s.pending then
      some { s with pending := s.pending - merged, handler := .locking }
    else none
  | .handler => handlerStep s
  | .send length =>
    if s.worker = .waiting ∧ s.descriptorsAvailable = true ∧ length ≤ s.bufferSize then
      some { s with worker := .entered s.currentTxIndex length }
    else none
  | .worker => workerStep s

-- The device after _EthInitializeBuffers, _EthTxInit and _NetworkPortDeviceInitTx.
structure Started (s : State) : Prop where
  numberOfDescriptors : 2 ≤ s.numberOfDescriptors ∧ s.numberOfDescriptors < 2 ^ 16
  transmitBuffer : forall i, i < s.numberOfDescriptors -> (s.transmitBuffer i).descriptorDone = true
  currentDescriptor : s.currentDescriptor = 0
  numberOfBuffers : s.numberOfBuffers = s.numberOfDescriptors
  currentTxIndex : s.currentTxIndex = 0
  descriptorsAvailable : s.descriptorsAvailable = true
  head : s.head = 0
  tail : s.tail = 0
  pending : s.pending = 0
  worker : s.worker = .waiting
  handler : s.handler = .idle
  sent : s.sent = 0
  consumed : s.consumed = 0

def ringSystem : TransitionSystem State Label where
  initial := Started
  step s label after := step s label = some after

-- The ring is full for EthSendFrame: one more descriptor would bring the tail to the head.
def Full (s : State) : Prop := (s.currentDescriptor + 1) % s.numberOfDescriptors = s.head

def WaitsWhenFull (s : State) : Label -> Prop
  | .send _ => ¬ Full s
  | _ => True

-- A descriptor the worker has taken and not shown to the card yet, and whether CurrentDescriptor is past it.
def WorkerPoint.unsent : WorkerPoint -> Nat
  | .advancing _ | .testing _ | .locking _ _ | .retesting _ _ | .notifying _ | .releasing _ | .tailing _ => 1
  | _ => 0

def WorkerPoint.advanced : WorkerPoint -> Nat
  | .testing _ | .locking _ _ | .retesting _ _ | .notifying _ | .releasing _ | .tailing _ => 1
  | _ => 0

-- Descriptors that EthSendFrame has taken and the card has not written back.
def State.inFlight (s : State) : Nat := s.sent + s.worker.unsent - s.consumed

def RingEmpty (s : State) : Prop := forall i, i < s.numberOfDescriptors -> (s.transmitBuffer i).descriptorDone = true

-- What the worker knows at each point after `sent` calls of EthSetTxTail.
def WorkerPoint.Follows (s : State) : WorkerPoint -> Prop
  | .waiting => s.currentTxIndex = s.sent % s.numberOfDescriptors
  | .entered curTxIndex length => s.currentTxIndex = s.sent % s.numberOfDescriptors ∧
    curTxIndex = s.currentTxIndex ∧ length ≤ s.bufferSize ∧ s.sent + 1 ≤ s.consumed + (s.numberOfDescriptors - 1)
  | .filling curTxIndex _ => s.currentTxIndex = s.sent % s.numberOfDescriptors ∧
    curTxIndex = s.currentTxIndex ∧ s.sent + 1 ≤ s.consumed + (s.numberOfDescriptors - 1)
  | .advancing curTxIndex | .testing curTxIndex | .locking curTxIndex _ | .retesting curTxIndex _
  | .notifying curTxIndex | .releasing curTxIndex | .tailing curTxIndex =>
    s.currentTxIndex = s.sent % s.numberOfDescriptors ∧ curTxIndex = (s.sent + 1) % s.numberOfDescriptors
  | .finishing => word ((s.currentTxIndex + 1) % s.numberOfBuffers) = s.sent % s.numberOfDescriptors
  | .failed => False

structure Invariant (s : State) : Prop where
  many : 2 ≤ s.numberOfDescriptors ∧ s.numberOfDescriptors < 2 ^ 16
  sizes : s.numberOfBuffers = s.numberOfDescriptors
  head : s.head = s.consumed % s.numberOfDescriptors
  tail : s.tail = s.sent % s.numberOfDescriptors
  current : s.currentDescriptor = (s.sent + s.worker.advanced) % s.numberOfDescriptors
  behind : s.consumed ≤ s.sent
  room : s.sent + s.worker.unsent ≤ s.consumed + (s.numberOfDescriptors - 1)
  window : Window s.numberOfDescriptors s.consumed (fun i (_ : Unit) => (s.transmitBuffer i).descriptorDone = false)
    (fun i => (s.transmitBuffer i).descriptorDone = true) (List.replicate s.inFlight ())
  follows : s.worker.Follows s

-- No signal is lost: the event is set, or a signal is on its way, or a descriptor in the ring will cause one.
def Attended (s : State) : Prop :=
  s.descriptorsAvailable = false -> s.pending = 0 -> s.handler ≠ .locking -> s.handler ≠ .signalling ->
    s.consumed < s.sent + s.worker.unsent

theorem Started.invariant {s : State} (started : Started s) : Invariant s := by
  obtain ⟨many, buffer, current, buffers, index, available, head, tail, pending, worker, handler, sent, consumed⟩ := started
  refine ⟨many, buffers, ?_, ?_, ?_, ?_, ?_, ?_, ?_⟩
  · rw [head, consumed]
    exact (Nat.zero_mod _).symm
  · rw [tail, sent]
    exact (Nat.zero_mod _).symm
  · rw [current, sent, worker]
    exact (Nat.zero_mod _).symm
  · rw [consumed]
    exact Nat.zero_le _
  · rw [sent, worker]
    exact Nat.zero_le _
  · have none : s.inFlight = 0 := by simp [State.inFlight, sent, worker, WorkerPoint.unsent]
    rw [none]
    exact .empty buffer (by omega)
  · rw [worker]
    simp only [WorkerPoint.Follows, index, sent]
    exact (Nat.zero_mod _).symm

theorem word_mod {n k : Nat} (many : 2 ≤ n ∧ n < 2 ^ 16) : word ((k % n + 1) % n) = (k + 1) % n := by
  rw [word, Nat.mod_add_mod]
  exact Nat.mod_eq_of_lt (Nat.lt_trans (Nat.mod_lt _ (by omega)) many.2)

theorem card_invariant {s after : State} (invariant : Invariant s) (taken : step s .card = some after) :
    Invariant after := by
  simp only [step] at taken
  split at taken
  · cases taken
  rename_i moves
  rw [← Option.some.inj taken]
  have shown : s.consumed < s.sent := by
    refine Nat.lt_of_le_of_ne invariant.behind fun same => moves ?_
    rw [invariant.head, invariant.tail, same]
  have count : s.inFlight = (s.sent + s.worker.unsent - (s.consumed + 1)) + 1 := by
    simp only [State.inFlight]
    omega
  have window := invariant.window
  rw [count, List.replicate_succ] at window
  refine { invariant with head := ?_, behind := shown, room := ?_, window := ?_, follows := ?_ }
  · rw [invariant.head, Nat.mod_add_mod]
  · have room := invariant.room
    dsimp only
    omega
  · refine window.pop ?_ fun i away => ?_
    · rw [← invariant.head]
      simp
    · rw [← invariant.head] at away
      exact ⟨fun _ held => by simpa [away] using held, fun free => by simpa [away] using free⟩
  · have follows := invariant.follows
    match worker : s.worker with
    | .entered _ _ =>
      rw [worker] at follows
      exact ⟨follows.1, follows.2.1, follows.2.2.1, by have room := follows.2.2.2; dsimp only; omega⟩
    | .filling _ _ =>
      rw [worker] at follows
      exact ⟨follows.1, follows.2.1, by have room := follows.2.2; dsimp only; omega⟩
    | .waiting | .advancing _ | .testing _ | .locking _ _ | .retesting _ _ | .notifying _ | .releasing _ | .tailing _
    | .finishing | .failed =>
      rw [worker] at follows
      exact follows

theorem send_invariant {s after : State} {length : Nat} (invariant : Invariant s) (waits : ¬ Full s)
    (taken : step s (.send length) = some after) : Invariant after := by
  have current := invariant.current
  have room := invariant.room
  have window := invariant.window
  have follows := invariant.follows
  simp only [step] at taken
  split at taken
  · rename_i ready
    obtain ⟨here, _, fits⟩ := ready
    rw [here] at current room follows
    simp only [State.inFlight, here] at window
    rw [← Option.some.inj taken]
    refine { invariant with
      current := current, room := room, window := window, follows := ⟨follows, rfl, fits, ?_⟩ }
    simp only [WorkerPoint.unsent, Nat.add_zero] at room
    refine Nat.lt_of_le_of_ne room fun full => waits ?_
    simp only [WorkerPoint.advanced, Nat.add_zero] at current
    dsimp only at full
    have lap : s.sent + 1 = s.consumed + s.numberOfDescriptors := by
      have many := invariant.many
      omega
    rw [Full, current, Nat.mod_add_mod, lap, Nat.add_mod_right, invariant.head]
  · cases taken

theorem handler_invariant {s after : State} (invariant : Invariant s) (taken : step s .handler = some after) :
    Invariant after := by
  simp only [step, handlerStep] at taken
  split at taken
  · cases taken
  · split at taken
    · cases taken
    · rw [← Option.some.inj taken]
      exact { invariant with }
  · rw [← Option.some.inj taken]
    exact { invariant with }
  · rw [← Option.some.inj taken]
    exact { invariant with }

theorem next_done {s : State} (invariant : Invariant s) (idle : s.worker.unsent = 0) :
    (s.transmitBuffer (s.sent % s.numberOfDescriptors)).descriptorDone = true := by
  have behind := invariant.behind
  have room := invariant.room
  have many := invariant.many
  have free := invariant.window.free (s.sent - s.consumed)
    (by rw [List.length_replicate, State.inFlight, idle]; exact Nat.le_refl _) (by omega)
  have index : s.consumed + (s.sent - s.consumed) = s.sent := by omega
  rwa [index] at free

theorem moved_invariant {s : State} {worker : WorkerPoint} {event : Bool} {current : Nat} (invariant : Invariant s)
    (unsent : worker.unsent = s.worker.unsent)
    (follows : worker.Follows { s with currentDescriptor := current, descriptorsAvailable := event, worker := worker })
    (index : current = (s.sent + worker.advanced) % s.numberOfDescriptors) :
    Invariant { s with currentDescriptor := current, descriptorsAvailable := event, worker := worker } := by
  have room := invariant.room
  have window := invariant.window
  simp only [State.inFlight, ← unsent] at room window
  exact { invariant with current := index, room := room, window := window, follows := follows }

theorem worker_invariant {s after : State} (invariant : Invariant s) (taken : step s .worker = some after) :
    Invariant after := by
  have many := invariant.many
  have current := invariant.current
  have room := invariant.room
  have window := invariant.window
  have follows := invariant.follows
  simp only [step, workerStep] at taken
  split at taken <;> rename_i here <;> rw [here] at current room follows <;> simp only [State.inFlight, here] at window
  · cases taken
  · cases taken
  · obtain ⟨port, index, fits, free⟩ := follows
    have done := next_done invariant (by rw [here]; rfl)
    rw [if_pos ⟨fits, by rw [index, port, current]; rfl, by rw [index, port]; exact Nat.mod_lt _ (by omega),
      by rw [index, port]; exact done⟩] at taken
    rw [← Option.some.inj taken]
    exact moved_invariant invariant (by rw [here]; rfl) ⟨port, index, free⟩ current
  · rename_i curTxIndex length
    obtain ⟨port, index, free⟩ := follows
    rw [← Option.some.inj taken]
    have behind := invariant.behind
    have count : s.sent + 1 - s.consumed = (s.sent - s.consumed) + 1 := by omega
    refine { invariant with
      current := current, room := free, window := ?_, follows := ⟨port, ?_⟩ }
    · simp only [State.inFlight, WorkerPoint.unsent, Nat.add_zero] at window ⊢
      have slot : curTxIndex = (s.consumed + (List.replicate (s.sent - s.consumed) ()).length) %
          s.numberOfDescriptors := by
        rw [List.length_replicate, index, port]
        congr 1
        omega
      rw [count, List.replicate_succ']
      refine window.push (by rw [List.length_replicate]; omega) ?_ fun i away => ?_
      · rw [← slot]
        simp
      · rw [← slot] at away
        exact ⟨fun _ held => by simpa [away] using held, fun free => by simpa [away] using free⟩
    · rw [index, port]
      exact word_mod many
  · obtain ⟨port, index⟩ := follows
    rw [← Option.some.inj taken]
    exact moved_invariant invariant (by rw [here]; rfl) ⟨port, index⟩ index
  · rw [← Option.some.inj taken]
    split
    · exact moved_invariant invariant (by rw [here]; rfl) follows current
    · exact moved_invariant invariant (by rw [here]; rfl) follows current
  · split at taken
    · cases taken
    · rw [← Option.some.inj taken]
      exact moved_invariant invariant (by rw [here]; rfl) follows current
  · rw [← Option.some.inj taken]
    split
    · exact moved_invariant invariant (by rw [here]; rfl) follows current
    · exact moved_invariant invariant (by rw [here]; rfl) follows current
  · rw [← Option.some.inj taken]
    exact moved_invariant invariant (by rw [here]; rfl) follows current
  · rw [← Option.some.inj taken]
    exact moved_invariant invariant (by rw [here]; rfl) follows current
  · obtain ⟨port, index⟩ := follows
    rw [← Option.some.inj taken]
    refine { invariant with
      tail := index, current := current, behind := ?_, room := room, window := window, follows := ?_ }
    · exact Nat.le_succ_of_le invariant.behind
    · simp only [WorkerPoint.Follows]
      rw [port, invariant.sizes]
      exact word_mod many
  · rw [← Option.some.inj taken]
    exact { invariant with current := current, room := room, window := window, follows := follows }

theorem step_invariant {s after : State} {label : Label} (invariant : Invariant s) (waits : WaitsWhenFull s label)
    (taken : step s label = some after) : Invariant after := by
  cases label with
  | card => exact card_invariant invariant taken
  | interrupt merged =>
    simp only [step] at taken
    split at taken
    · rw [← Option.some.inj taken]
      exact { invariant with }
    · cases taken
  | handler => exact handler_invariant invariant taken
  | send length => exact send_invariant invariant waits taken
  | worker => exact worker_invariant invariant taken

-- Neither the clear nor the signal loses anything, whatever the order.
theorem step_attended {s after : State} {label : Label} (invariant : Invariant s) (attended : Attended s)
    (taken : step s label = some after) : Attended after := by
  have behind := invariant.behind
  cases label with
  | card =>
    simp only [step] at taken
    split at taken
    · cases taken
    · rw [← Option.some.inj taken]
      exact fun _ none => absurd none (Nat.succ_ne_zero _)
  | interrupt merged =>
    simp only [step] at taken
    split at taken
    · rw [← Option.some.inj taken]
      exact fun _ _ unlocked => absurd rfl unlocked
    · cases taken
  | handler =>
    simp only [step, handlerStep] at taken
    split at taken
    · cases taken
    · split at taken
      · cases taken
      · rw [← Option.some.inj taken]
        exact fun _ _ _ silent => absurd rfl silent
    · rw [← Option.some.inj taken]
      nofun
    · rename_i here
      rw [← Option.some.inj taken]
      exact fun clear none _ _ => attended clear none (by rw [here]; nofun) (by rw [here]; nofun)
  | send length =>
    simp only [step] at taken
    split at taken
    · rename_i ready
      rw [← Option.some.inj taken]
      exact fun clear => absurd (ready.2.1.symm.trans clear) (by decide)
    · cases taken
  | worker =>
    simp only [step, workerStep] at taken
    split at taken <;> rename_i here <;> rw [Attended, here] at attended
    · cases taken
    · cases taken
    · split at taken <;> rw [← Option.some.inj taken] <;> exact attended
    · rw [← Option.some.inj taken]
      exact fun _ _ _ _ => Nat.lt_succ_of_le behind
    · rw [← Option.some.inj taken]
      exact attended
    · rw [← Option.some.inj taken]
      split <;> exact attended
    · split at taken
      · cases taken
      · rw [← Option.some.inj taken]
        exact attended
    · rw [← Option.some.inj taken]
      split <;> exact attended
    · rw [← Option.some.inj taken]
      exact fun _ _ _ _ => Nat.lt_succ_of_le behind
    · rw [← Option.some.inj taken]
      exact attended
    · rw [← Option.some.inj taken]
      exact attended
    · rw [← Option.some.inj taken]
      exact attended

theorem reachable_invariant {s : State} (reached : ringSystem.ReachableUnder WaitsWhenFull s) :
    Invariant s ∧ Attended s := by
  induction reached with
  | start s started =>
    refine ⟨started.invariant, fun clear => ?_⟩
    rw [started.descriptorsAvailable] at clear
    cases clear
  | next s label after _ waits taken ih =>
    exact ⟨step_invariant ih.1 waits taken, step_attended ih.1 ih.2 taken⟩

structure NeverOverrun (s : State) : Prop where
  inFlight : s.inFlight ≤ s.numberOfDescriptors - 1
  shown : forall curTxIndex, s.worker = .tailing curTxIndex -> curTxIndex ≠ s.head
  asserted : s.worker ≠ .failed
  notLost : ¬ (s.descriptorsAvailable = false ∧ RingEmpty s ∧ s.pending = 0 ∧ s.handler = .idle)
  moves : s.descriptorsAvailable = false -> s.pending = 0 -> s.handler = .idle -> s.worker = .waiting -> s.head ≠ s.tail

theorem tail_ne_head {s : State} (invariant : Invariant s) {curTxIndex : Nat} (here : s.worker = .tailing curTxIndex) :
    curTxIndex ≠ s.head := by
  have follows := invariant.follows
  have room := invariant.room
  have behind := invariant.behind
  have many := invariant.many
  rw [here] at follows room
  simp only [WorkerPoint.unsent] at room
  rw [follows.2, invariant.head]
  have apart : (s.consumed + (s.sent + 1 - s.consumed)) % s.numberOfDescriptors ≠
      (s.consumed + 0) % s.numberOfDescriptors := Lib.slot_ne (by omega) (by omega) (by omega)
  have left : s.consumed + (s.sent + 1 - s.consumed) = s.sent + 1 := by omega
  rwa [left, Nat.add_zero] at apart

theorem attended_not_lost {s : State} (invariant : Invariant s) (attended : Attended s) :
    ¬ (s.descriptorsAvailable = false ∧ RingEmpty s ∧ s.pending = 0 ∧ s.handler = .idle) := by
  rintro ⟨clear, empty, none, idle⟩
  have some := attended clear none (by rw [idle]; nofun) (by rw [idle]; nofun)
  have many := invariant.many
  have taken := invariant.window.filled 0 (by rw [List.length_replicate, State.inFlight]; omega)
  have done := empty (s.consumed % s.numberOfDescriptors) (Nat.mod_lt _ (by omega))
  rw [Nat.add_zero, done] at taken
  cases taken

theorem attended_moves {s : State} (invariant : Invariant s) (attended : Attended s)
    (clear : s.descriptorsAvailable = false) (none : s.pending = 0) (idle : s.handler = .idle)
    (waiting : s.worker = .waiting) : s.head ≠ s.tail := by
  have some := attended clear none (by rw [idle]; nofun) (by rw [idle]; nofun)
  have room := invariant.room
  have many := invariant.many
  rw [waiting] at some room
  simp only [WorkerPoint.unsent, Nat.add_zero] at some room
  have apart : (s.consumed + 0) % s.numberOfDescriptors ≠
      (s.consumed + (s.sent - s.consumed)) % s.numberOfDescriptors := Lib.slot_ne (by omega) (by omega) (by omega)
  have right : s.consumed + (s.sent - s.consumed) = s.sent := by omega
  rw [right, Nat.add_zero] at apart
  rwa [invariant.head, invariant.tail]

theorem ring_never_overrun {s : State} (reached : ringSystem.ReachableUnder WaitsWhenFull s) : NeverOverrun s := by
  obtain ⟨invariant, attended⟩ := reachable_invariant reached
  refine ⟨?_, fun _ here => tail_ne_head invariant here, ?_, attended_not_lost invariant attended,
    attended_moves invariant attended⟩
  · have room := invariant.room
    rw [State.inFlight]
    omega
  · intro failed
    have follows := invariant.follows
    rw [failed] at follows
    exact follows

def startedState (numberOfDescriptors : Nat) : State where
  numberOfDescriptors := numberOfDescriptors
  bufferSize := 0x1000
  transmitBuffer := fun _ => { length := 0, descriptorDone := true }
  currentDescriptor := 0
  numberOfBuffers := numberOfDescriptors
  currentTxIndex := 0
  descriptorsAvailable := true
  head := 0
  tail := 0
  pending := 0
  worker := .waiting
  handler := .idle
  sent := 0
  consumed := 0

theorem startedState_started {numberOfDescriptors : Nat} (many : 2 ≤ numberOfDescriptors)
    (fits : numberOfDescriptors < 2 ^ 16) : Started (startedState numberOfDescriptors) :=
  ⟨⟨many, fits⟩, fun _ _ => rfl, rfl, rfl, rfl, rfl, rfl, rfl, rfl, rfl, rfl, rfl, rfl⟩

instance (s : State) : Decidable (Full s) := inferInstanceAs (Decidable (_ = _))

instance (s : State) (label : Label) : Decidable (WaitsWhenFull s label) :=
  match label with
  | .send _ => inferInstanceAs (Decidable (¬ _))
  | .card | .interrupt _ | .handler | .worker => .isTrue trivial

def sendOne : List Label := .send 60 :: List.replicate 6 .worker

def sendLast : List Label := .send 60 :: List.replicate 10 .worker

def serveInterrupt : List Label := .interrupt 1 :: List.replicate 3 .handler

def sampleSchedule : List Label :=
  sendOne ++ sendLast ++ [.card] ++ serveInterrupt ++ sendLast ++ [.card, .card, .interrupt 2]

theorem sampleSchedule_result : (TransitionSystem.runUnder (fun s label => decide (WaitsWhenFull s label)) step
    (startedState 3) sampleSchedule).any (fun s => decide (s.sent = 3 ∧ s.consumed = 3)) = true := by
  decide +kernel

theorem ring_never_overrun_sample : ∃ s, ringSystem.ReachableUnder WaitsWhenFull s ∧ (s.sent = 3 ∧ s.consumed = 3) ∧
    NeverOverrun s := by
  have run : ∃ s, ringSystem.ReachableUnder WaitsWhenFull s ∧ (s.sent = 3 ∧ s.consumed = 3) :=
    TransitionSystem.ReachableUnder.of_run (fun _ _ _ result => result)
      (.start _ (startedState_started (by decide) (by decide) : Started (startedState 3))) sampleSchedule
      sampleSchedule_result
  obtain ⟨s, reached, done⟩ := run
  exact ⟨s, reached, done, ring_never_overrun reached⟩

-- The interrupt for the first descriptor is served after the ring is full and the event is clear.
def overrunSchedule : List Label :=
  sendOne ++ [.card] ++ sendOne ++ sendLast ++ serveInterrupt ++ [.send 60, .worker, .worker, .worker, .worker]

theorem overrunSchedule_result : (TransitionSystem.runUnder (fun _ _ => decide True) step (startedState 3)
    overrunSchedule).any (fun s => decide (s.worker = .tailing s.head ∧ s.inFlight = s.numberOfDescriptors)) = true := by
  decide +kernel

theorem assertSchedule_result : (TransitionSystem.runUnder (fun _ _ => decide True) step (startedState 3)
    (overrunSchedule ++ [.worker, .worker, .send 60, .worker])).any (fun s => decide (s.worker = .failed)) = true := by
  decide +kernel

theorem ring_overrun :
    (∃ s, ringSystem.Reachable s ∧ s.worker = .tailing s.head ∧ s.inFlight = s.numberOfDescriptors) ∧
      ∃ s, ringSystem.Reachable s ∧ s.worker = .failed := by
  have start : ringSystem.Reachable (startedState 3) := .start (startedState_started (by decide) (by decide))
  exact ⟨TransitionSystem.ReachableUnder.of_run (fun _ _ _ result => result) start _ overrunSchedule_result,
    TransitionSystem.ReachableUnder.of_run (fun _ _ _ result => result) start _ assertSchedule_result⟩

end Hal9000.TransmitRing
