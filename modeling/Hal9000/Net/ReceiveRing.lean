import Hal9000.Lib.Transition
import Hal9000.Lib.Window

set_option autoImplicit false

namespace Hal9000.ReceiveRing

open Function (update)
open Lib (TransitionSystem Window)

abbrev Frame := List UInt8

structure ReceiveDescriptor where
  length : Nat
  descriptorDone : Bool
  eop : Bool
  deriving DecidableEq, Repr

-- The arguments and local variables of a call of EthReceiveFrame.
structure Call where
  maximumNumberOfFrames : Nat
  curRxIndex : Nat
  noOfFramesReceived : Nat
  deriving DecidableEq, Repr

-- Where the call of EthReceiveFrame stands.
inductive Point where
  | idle
  | entered (call : Call)
  -- before it reads DescriptorDone, and Length with the assertions on it
  | testing (call : Call)
  | measuring (call : Call)
  -- in NetworkPortNotifyReceiveBuffer: before memcpy, InsertTailList and ExEventSignal
  | copying (call : Call) (bufferSize : Nat)
  | inserting (call : Call) (frame : Frame)
  | signalling (call : Call) (listWasEmpty : Bool)
  -- before DescriptorDone = 0, EthSetRxTail(prevRxIndex) and the new CurrentDescriptor
  | clearing (call : Call)
  | tailing (call : Call) (prevRxIndex : Nat)
  | leaving (call : Call)
  | failed
  deriving DecidableEq, Repr

structure Stored where
  slot : Nat
  frame : Frame
  deriving DecidableEq, Repr

structure State where
  numberOfDescriptors : Nat
  bufferSize : Nat
  receiveBuffer : Nat -> ReceiveDescriptor
  currentDescriptor : Nat
  numberOfBuffers : Nat
  portBufferSize : Nat
  buffers : Nat -> Frame
  framesList : List Frame
  framesListNotEmptyEvent : Bool
  head : Nat
  tail : Nat
  point : Point
  stored : List Stored
  appended : List Frame

inductive Label where
  | store (frame : Frame)
  | ethReceiveFrame (maximumNumberOfFrames : Nat)
  | call
  | receiveFrame
  deriving DecidableEq

def word (value : Nat) : Nat := value % 2 ^ 16

def store (s : State) (frame : Frame) : Option State :=
  if s.head = s.tail ∨ frame.length = 0 ∨ s.bufferSize < frame.length then none
  else some { s with
    buffers := update s.buffers s.head (frame ++ (s.buffers s.head).drop frame.length)
    receiveBuffer := update s.receiveBuffer s.head
      { length := frame.length, descriptorDone := true, eop := true }
    head := (s.head + 1) % s.numberOfDescriptors
    stored := s.stored ++ [{ slot := s.head, frame := frame }] }

def callStep (s : State) : Option State :=
  match s.point with
  | .idle | .failed => none
  | .entered call =>
    if call.curRxIndex < s.numberOfDescriptors then some { s with point := .testing call }
    else some { s with point := .failed }
  | .testing call =>
    if (s.receiveBuffer call.curRxIndex).descriptorDone then some { s with point := .measuring call }
    else some { s with point := .leaving call }
  | .measuring call =>
    if (s.receiveBuffer call.curRxIndex).length ≤ s.bufferSize ∧ (s.receiveBuffer call.curRxIndex).eop = true ∧
        (s.receiveBuffer call.curRxIndex).length ≠ 0 then
      some { s with point := .copying call (s.receiveBuffer call.curRxIndex).length }
    else some { s with point := .failed }
  | .copying call bufferSize =>
    -- a status that is not a success fails the ASSERT of the caller
    if s.numberOfBuffers ≤ call.curRxIndex ∨ s.portBufferSize < bufferSize then some { s with point := .failed }
    else some { s with point := .inserting call ((s.buffers call.curRxIndex).take bufferSize) }
  | .inserting call frame => some { s with
      framesList := s.framesList ++ [frame]
      appended := s.appended ++ [frame]
      point := .signalling call s.framesList.isEmpty }
  | .signalling call listWasEmpty => some { s with
      framesListNotEmptyEvent := listWasEmpty || s.framesListNotEmptyEvent
      point := .clearing call }
  | .clearing call => some { s with
      receiveBuffer := update s.receiveBuffer call.curRxIndex
        { s.receiveBuffer call.curRxIndex with descriptorDone := false }
      point := .tailing { call with curRxIndex := word ((call.curRxIndex + 1) % s.numberOfDescriptors) }
        call.curRxIndex }
  | .tailing call prevRxIndex =>
    let after := { call with noOfFramesReceived := word (call.noOfFramesReceived + 1) }
    some { s with
      tail := prevRxIndex
      point := if after.noOfFramesReceived = after.maximumNumberOfFrames then .leaving after else .testing after }
  | .leaving call => some { s with currentDescriptor := call.curRxIndex, point := .idle }

def step (s : State) : Label -> Option State
  | .store frame => store s frame
  | .ethReceiveFrame maximumNumberOfFrames =>
    match s.point with
    | .idle => some { s with point := .entered {
        maximumNumberOfFrames := word maximumNumberOfFrames
        curRxIndex := s.currentDescriptor
        noOfFramesReceived := 0 } }
    | _ => none
  | .call => callStep s
  | .receiveFrame =>
    match s.framesList with
    | [] => some { s with framesListNotEmptyEvent := false }
    | _ :: rest => some { s with framesList := rest }

-- The device after _EthInitializeBuffers and _EthRxInit.
structure Started (s : State) : Prop where
  numberOfDescriptors : 2 ≤ s.numberOfDescriptors ∧ s.numberOfDescriptors < 2 ^ 16
  bufferSize : s.bufferSize < 2 ^ 16
  receiveBuffer : forall i, i < s.numberOfDescriptors -> (s.receiveBuffer i).descriptorDone = false
  currentDescriptor : s.currentDescriptor = 0
  numberOfBuffers : s.numberOfBuffers = s.numberOfDescriptors
  portBufferSize : s.portBufferSize = s.bufferSize
  framesList : s.framesList = []
  head : s.head = 0
  tail : s.tail = s.numberOfDescriptors - 1
  point : s.point = .idle
  stored : s.stored = []
  appended : s.appended = []

def receiveSystem : TransitionSystem State Label where
  initial := Started
  step s label after := step s label = some after

def Point.copied : Point -> Nat
  | .signalling _ _ | .clearing _ | .tailing _ _ => 1
  | _ => 0

def Point.cleared : Point -> Nat
  | .tailing _ _ => 1
  | _ => 0

def Filled (s : State) (i : Nat) (entry : Stored) : Prop :=
  s.receiveBuffer i = { length := entry.frame.length, descriptorDone := true, eop := true } ∧
    (s.buffers i).take entry.frame.length = entry.frame

def Free (s : State) (i : Nat) : Prop := (s.receiveBuffer i).descriptorDone = false

-- What the call knows at each point when `given` descriptors have been given back to the card.
def Point.Follows (s : State) (given : Nat) : Point -> Prop
  | .idle => s.currentDescriptor = given % s.numberOfDescriptors
  | .entered call | .testing call | .leaving call => call.curRxIndex = given % s.numberOfDescriptors
  | .measuring call | .signalling call _ | .clearing call =>
    call.curRxIndex = given % s.numberOfDescriptors ∧ given < s.stored.length
  | .copying call bufferSize => call.curRxIndex = given % s.numberOfDescriptors ∧
    ∃ within : given < s.stored.length, bufferSize = s.stored[given].frame.length
  | .inserting call frame => call.curRxIndex = given % s.numberOfDescriptors ∧
    ∃ within : given < s.stored.length, frame = s.stored[given].frame
  | .tailing call prevRxIndex => prevRxIndex = given % s.numberOfDescriptors ∧
    call.curRxIndex = (given + 1) % s.numberOfDescriptors ∧ given < s.stored.length
  | .failed => False

structure Invariant (given : Nat) (s : State) : Prop where
  many : 2 ≤ s.numberOfDescriptors ∧ s.numberOfDescriptors < 2 ^ 16
  sizes : s.numberOfBuffers = s.numberOfDescriptors ∧ s.portBufferSize = s.bufferSize
  head : s.head = s.stored.length % s.numberOfDescriptors
  tail : s.tail = (given + (s.numberOfDescriptors - 1)) % s.numberOfDescriptors
  behind : given ≤ s.stored.length
  room : s.stored.length ≤ given + (s.numberOfDescriptors - 1)
  short : forall entry, entry ∈ s.stored -> 0 < entry.frame.length ∧ entry.frame.length ≤ s.bufferSize
  slots : forall k (within : k < s.stored.length), s.stored[k].slot = k % s.numberOfDescriptors
  appended : s.appended = (s.stored.map Stored.frame).take (given + s.point.copied)
  listed : s.framesList <:+ s.appended
  window : Window s.numberOfDescriptors (given + s.point.cleared) (Filled s) (Free s)
    (s.stored.drop (given + s.point.cleared))
  follows : s.point.Follows s given

theorem Started.invariant {s : State} (started : Started s) : Invariant 0 s := by
  obtain ⟨many, bufferSize, receiveBuffer, current, buffers, port, framesList, head, tail, point, stored,
    appended⟩ := started
  refine ⟨many, ⟨buffers, port⟩, ?_, ?_, ?_, ?_, ?_, ?_, ?_, ?_, ?_, ?_⟩
  · rw [head, stored]
    exact (Nat.zero_mod _).symm
  · rw [tail, Nat.zero_add]
    exact (Nat.mod_eq_of_lt (by omega)).symm
  · exact Nat.zero_le _
  · rw [stored]
    exact Nat.zero_le _
  · rw [stored]
    nofun
  · rw [stored]
    nofun
  · rw [stored, appended, List.map_nil, List.take_nil]
  · rw [framesList]
    exact List.nil_suffix
  · rw [stored, point, List.drop_nil]
    exact .empty receiveBuffer (by omega)
  · rw [point]
    exact current.trans (Nat.zero_mod _).symm

theorem copied_stored {s : State} {given : Nat} (invariant : Invariant given s) :
    given + s.point.copied ≤ s.stored.length := by
  have behind := invariant.behind
  have follows := invariant.follows
  match point : s.point with
  | .signalling _ _ | .clearing _ =>
    rw [point] at follows
    exact follows.2
  | .tailing _ _ =>
    rw [point] at follows
    exact follows.2.2
  | .idle | .entered _ | .testing _ | .measuring _ | .copying _ _ | .inserting _ _ | .leaving _ | .failed =>
    exact behind

theorem cleared_copied (point : Point) : point.cleared ≤ point.copied := by
  cases point <;> simp [Point.cleared, Point.copied]

theorem head_room {s : State} {given : Nat} (invariant : Invariant given s) (moves : s.head ≠ s.tail) :
    s.stored.length < given + (s.numberOfDescriptors - 1) := by
  refine Nat.lt_of_le_of_ne invariant.room fun full => moves ?_
  rw [invariant.head, invariant.tail, full]

theorem follows_stored {s after : State} {given : Nat} {point : Point} {more : List Stored}
    (follows : point.Follows s given) (descriptors : after.numberOfDescriptors = s.numberOfDescriptors)
    (current : after.currentDescriptor = s.currentDescriptor) (stored : after.stored = s.stored ++ more) :
    point.Follows after given := by
  have longer : given < s.stored.length -> given < after.stored.length := fun within => by
    rw [stored, List.length_append]
    exact Nat.lt_add_right _ within
  have same : forall within : given < s.stored.length, ∃ within' : given < after.stored.length,
      after.stored[given] = s.stored[given] := fun within =>
    ⟨longer within, by simp only [stored, List.getElem_append_left within]⟩
  cases point with
  | idle => exact current.trans (descriptors ▸ follows)
  | entered call | testing call | leaving call =>
    simp only [Point.Follows] at follows ⊢
    rw [follows, descriptors]
  | measuring call | signalling call _ | clearing call => exact ⟨descriptors ▸ follows.1, longer follows.2⟩
  | copying call bufferSize =>
    obtain ⟨index, within, size⟩ := follows
    obtain ⟨within', equal⟩ := same within
    exact ⟨descriptors ▸ index, within', equal ▸ size⟩
  | inserting call frame =>
    obtain ⟨index, within, content⟩ := follows
    obtain ⟨within', equal⟩ := same within
    exact ⟨descriptors ▸ index, within', equal ▸ content⟩
  | tailing call prevRxIndex => exact ⟨descriptors ▸ follows.1, descriptors ▸ follows.2.1, longer follows.2.2⟩
  | failed => exact follows

theorem store_invariant {s after : State} {frame : Frame} {given : Nat} (invariant : Invariant given s)
    (taken : step s (.store frame) = some after) : Invariant given after := by
  simp only [step, store] at taken
  split at taken
  · cases taken
  rename_i possible
  rw [← Option.some.inj taken]
  simp only [not_or] at possible
  obtain ⟨moves, some, fits⟩ := possible
  have room := head_room invariant moves
  have many := invariant.many
  have copied := copied_stored invariant
  have reached : given + s.point.cleared ≤ s.stored.length := by
    have ahead := cleared_copied s.point
    omega
  have count : given + s.point.cleared + (s.stored.drop (given + s.point.cleared)).length = s.stored.length := by
    rw [List.length_drop]
    omega
  have slot : s.head = (given + s.point.cleared + (s.stored.drop (given + s.point.cleared)).length) %
      s.numberOfDescriptors := by rw [count, invariant.head]
  refine { invariant with
    head := ?_, behind := ?_, room := ?_, short := ?_, slots := ?_, appended := ?_, window := ?_, follows := ?_ }
  · simp only [List.length_append, List.length_singleton]
    rw [invariant.head, Nat.mod_add_mod]
  · simpa using Nat.le_succ_of_le invariant.behind
  · rw [List.length_append]
    exact room
  · intro entry member
    rcases List.mem_append.mp member with earlier | new
    · exact invariant.short entry earlier
    · rw [List.mem_singleton.mp new]
      exact ⟨Nat.pos_of_ne_zero some, Nat.not_lt.mp fits⟩
  · intro k within
    rcases Nat.lt_or_ge k s.stored.length with earlier | last
    · simp only [List.getElem_append_left earlier]
      exact invariant.slots k earlier
    · have equal : k = s.stored.length := by
        simp only [List.length_append, List.length_singleton] at within
        omega
      subst equal
      simpa using invariant.head
  · simp only [List.map_append]
    rw [List.take_append_of_le_length (by simpa using copied)]
    exact invariant.appended
  · rw [List.drop_append_of_le_length reached]
    refine invariant.window.push (by omega) ?_ fun i away => ?_
    · rw [← slot]
      exact ⟨by simp, by simp⟩
    · rw [← slot] at away
      exact ⟨fun entry held => ⟨by simpa [away] using held.1, by simpa [away] using held.2⟩,
        fun free => by simpa [Free, away] using free⟩
  · exact follows_stored invariant.follows rfl rfl rfl

theorem done_iff {s : State} {given : Nat} (invariant : Invariant given s) (open_ : s.point.cleared = 0) :
    (s.receiveBuffer (given % s.numberOfDescriptors)).descriptorDone = true ↔ given < s.stored.length := by
  have window := invariant.window
  rw [open_, Nat.add_zero] at window
  have many := invariant.many
  constructor
  · intro done
    by_contra none
    have free := window.free 0 (by rw [List.length_drop]; omega) (by omega)
    simp only [Nat.add_zero, Free, done] at free
    cases free
  · intro waiting
    rw [List.drop_eq_getElem_cons waiting] at window
    rw [window.head.1]

theorem filled_head {s : State} {given : Nat} (invariant : Invariant given s) (open_ : s.point.cleared = 0)
    (waiting : given < s.stored.length) : Filled s (given % s.numberOfDescriptors) s.stored[given] := by
  have window := invariant.window
  rw [open_, Nat.add_zero, List.drop_eq_getElem_cons waiting] at window
  exact window.head

theorem call_invariant {s after : State} {given : Nat} (invariant : Invariant given s)
    (taken : step s .call = some after) : ∃ given', Invariant given' after := by
  have appended := invariant.appended
  have window := invariant.window
  have follows := invariant.follows
  have many := invariant.many
  have current : given % s.numberOfDescriptors < s.numberOfDescriptors := Nat.mod_lt _ (by omega)
  simp only [step, callStep] at taken
  split at taken <;> rename_i here <;> rw [here] at appended window follows
  · cases taken
  · cases taken
  · rw [if_pos (by rw [follows]; exact current)] at taken
    rw [← Option.some.inj taken]
    exact ⟨given, { invariant with appended := appended, window := window, follows := follows }⟩
  · split at taken <;> rename_i done <;> rw [← Option.some.inj taken]
    · rw [follows, done_iff invariant (by rw [here]; rfl)] at done
      exact ⟨given, { invariant with appended := appended, window := window, follows := ⟨follows, done⟩ }⟩
    · exact ⟨given, { invariant with appended := appended, window := window, follows := follows }⟩
  · obtain ⟨index, waiting⟩ := follows
    have filled := filled_head invariant (by rw [here]; rfl) waiting
    have short := invariant.short _ (List.getElem_mem waiting)
    rw [index, filled.1, if_pos ⟨short.2, rfl, Nat.ne_of_gt short.1⟩] at taken
    rw [← Option.some.inj taken]
    exact ⟨given, { invariant with
      appended := appended, window := window, follows := ⟨index, waiting, rfl⟩ }⟩
  · rename_i call bufferSize
    obtain ⟨index, waiting, size⟩ := follows
    have filled := filled_head invariant (by rw [here]; rfl) waiting
    have short := invariant.short _ (List.getElem_mem waiting)
    have passes : ¬ (s.numberOfBuffers ≤ call.curRxIndex ∨ s.portBufferSize < bufferSize) := by
      rw [invariant.sizes.1, invariant.sizes.2, index, size]
      omega
    rw [if_neg passes] at taken
    rw [← Option.some.inj taken]
    refine ⟨given, { invariant with appended := appended, window := window, follows := ⟨index, waiting, ?_⟩ }⟩
    rw [index, size]
    exact filled.2
  · obtain ⟨index, waiting, content⟩ := follows
    rw [← Option.some.inj taken]
    refine ⟨given, { invariant with appended := ?_, listed := ?_, window := window, follows := ⟨index, waiting⟩ }⟩
    rotate_left
    · obtain ⟨removed, equal⟩ := invariant.listed
      exact ⟨removed, by rw [← List.append_assoc, equal]⟩
    have last : (s.stored.map Stored.frame).take (given + 1) =
        (s.stored.map Stored.frame).take given ++ [s.stored[given].frame] := by
      rw [List.take_succ_eq_append_getElem (by simpa using waiting), List.getElem_map]
    simp only [Point.copied, Nat.add_zero] at appended ⊢
    rw [last, appended, content]
  · rw [← Option.some.inj taken]
    exact ⟨given, { invariant with appended := appended, window := window, follows := follows }⟩
  · obtain ⟨index, waiting⟩ := follows
    rw [← Option.some.inj taken]
    refine ⟨given, { invariant with appended := appended, window := ?_, follows := ⟨index, ?_, waiting⟩ }⟩
    · -- The slot leaves the window, and it is not the card's yet.
      simp only [Point.cleared, Nat.add_zero] at window ⊢
      rw [List.drop_eq_getElem_cons waiting] at window
      refine window.pop ?_ fun i away => ?_
      · rw [← index]
        simp [Free]
      · rw [← index] at away
        exact ⟨fun entry held => ⟨by simpa [away] using held.1, held.2⟩, fun free => by simpa [Free, away] using free⟩
    · rw [index, Nat.mod_add_mod]
      exact Nat.mod_eq_of_lt (Nat.lt_trans (Nat.mod_lt _ (by omega)) many.2)
  · obtain ⟨prev, index, waiting⟩ := follows
    rw [← Option.some.inj taken]
    refine ⟨given + 1, { invariant with
      tail := ?_, behind := waiting, room := ?_, appended := ?_, window := ?_, follows := ?_ }⟩
    · have lap : given + 1 + (s.numberOfDescriptors - 1) = given + s.numberOfDescriptors := by omega
      rw [lap, Nat.add_mod_right]
      exact prev
    · have room := invariant.room
      exact Nat.le_trans room (Nat.add_le_add_right (Nat.le_succ _) _)
    · dsimp only
      split <;> exact appended
    · dsimp only
      split <;> exact window
    · dsimp only
      split <;> exact index
  · rw [← Option.some.inj taken]
    exact ⟨given, { invariant with appended := appended, window := window, follows := follows }⟩

theorem step_invariant {s after : State} {label : Label} {given : Nat} (invariant : Invariant given s)
    (taken : step s label = some after) : ∃ given', Invariant given' after := by
  cases label with
  | store frame => exact ⟨given, store_invariant invariant taken⟩
  | ethReceiveFrame maximumNumberOfFrames =>
    have appended := invariant.appended
    have window := invariant.window
    have follows := invariant.follows
    simp only [step] at taken
    split at taken
    · rename_i here
      rw [here] at appended window follows
      rw [← Option.some.inj taken]
      exact ⟨given, { invariant with appended := appended, window := window, follows := follows }⟩
    · cases taken
  | call => exact call_invariant invariant taken
  | receiveFrame =>
    simp only [step] at taken
    split at taken <;> rename_i list <;> rw [← Option.some.inj taken]
    · exact ⟨given, { invariant with }⟩
    · have listed := invariant.listed
      rw [list] at listed
      exact ⟨given, { invariant with listed := (List.suffix_cons _ _).trans listed }⟩

theorem reachable_invariant {s : State} (reached : receiveSystem.Reachable s) : ∃ given, Invariant given s := by
  induction reached with
  | start s started => exact ⟨0, started.invariant⟩
  | next s label after _ _ taken ih =>
    obtain ⟨given, invariant⟩ := ih
    exact step_invariant invariant taken

theorem appended_length {s : State} {given : Nat} (invariant : Invariant given s) :
    s.appended.length = given + s.point.copied := by
  rw [invariant.appended, List.length_take, List.length_map]
  exact Nat.min_eq_left (copied_stored invariant)

theorem uncopied_kept {s : State} {given : Nat} (invariant : Invariant given s) {k : Nat}
    (within : k < s.stored.length) (uncopied : s.appended.length ≤ k) :
    (s.buffers s.stored[k].slot).take s.stored[k].frame.length = s.stored[k].frame ∧
      (s.head ≠ s.tail -> s.head ≠ s.stored[k].slot) := by
  rw [appended_length invariant] at uncopied
  have ahead := cleared_copied s.point
  have many := invariant.many
  rw [invariant.slots k within]
  refine ⟨?_, fun moves => ?_⟩
  · have filled := invariant.window.filled (k - (given + s.point.cleared)) (by rw [List.length_drop]; omega)
    have index : given + s.point.cleared + (k - (given + s.point.cleared)) = k := by omega
    simp only [List.getElem_drop, index] at filled
    exact filled.2
  · have room := head_room invariant moves
    have apart : (given + (s.stored.length - given)) % s.numberOfDescriptors ≠
        (given + (k - given)) % s.numberOfDescriptors := Lib.slot_ne (by omega) (by omega) (by omega)
    have left : given + (s.stored.length - given) = s.stored.length := by omega
    have right : given + (k - given) = k := by omega
    rw [left, right] at apart
    rwa [invariant.head]

theorem copied_moves {s : State} {given : Nat} (invariant : Invariant given s)
    (copied : s.appended.length = s.stored.length) (apart : 3 ≤ s.numberOfDescriptors ∨ s.point.copied = 0) :
    s.head ≠ s.tail := by
  rw [appended_length invariant] at copied
  have many := invariant.many
  have small : s.point.copied ≤ 1 := by cases s.point <;> simp [Point.copied]
  rw [invariant.head, invariant.tail, ← copied]
  exact Lib.slot_ne (by omega) (by omega) (by omega)

structure Delivered (s : State) : Prop where
  order : s.appended <+: s.stored.map Stored.frame
  listed : s.framesList <:+ s.appended
  kept : forall k (within : k < s.stored.length), s.appended.length ≤ k ->
    (s.buffers s.stored[k].slot).take s.stored[k].frame.length = s.stored[k].frame ∧
      (s.head ≠ s.tail -> s.head ≠ s.stored[k].slot)
  moves : s.appended.length = s.stored.length -> 3 ≤ s.numberOfDescriptors ∨ s.point.copied = 0 -> s.head ≠ s.tail
  asserted : s.point ≠ .failed

theorem receive_delivers {s : State} (reached : receiveSystem.Reachable s) : Delivered s := by
  obtain ⟨given, invariant⟩ := reachable_invariant reached
  refine ⟨?_, invariant.listed, fun k within uncopied => uncopied_kept invariant within uncopied,
    copied_moves invariant, ?_⟩
  · rw [invariant.appended]
    exact List.take_prefix _ _
  · intro failed
    have follows := invariant.follows
    rw [failed] at follows
    exact follows

def startedState (numberOfDescriptors : Nat) : State where
  numberOfDescriptors := numberOfDescriptors
  bufferSize := 0x1000
  receiveBuffer := fun _ => { length := 0, descriptorDone := false, eop := false }
  currentDescriptor := 0
  numberOfBuffers := numberOfDescriptors
  portBufferSize := 0x1000
  buffers := fun _ => []
  framesList := []
  framesListNotEmptyEvent := false
  head := 0
  tail := numberOfDescriptors - 1
  point := .idle
  stored := []
  appended := []

theorem startedState_started {numberOfDescriptors : Nat} (many : 2 ≤ numberOfDescriptors)
    (fits : numberOfDescriptors < 2 ^ 16) : Started (startedState numberOfDescriptors) :=
  ⟨⟨many, fits⟩, by simp [startedState], fun _ _ => rfl, rfl, rfl, rfl, rfl, rfl, rfl, rfl, rfl, rfl⟩

def oneTurn : List Label := List.replicate 7 .call

def sampleSchedule : List Label :=
  [.store [1, 2], .ethReceiveFrame 2, .call, .call, .store [3], .call, .call, .call, .call, .call, .call] ++ oneTurn ++
    [.call, .store [4], .ethReceiveFrame 1, .call] ++ oneTurn

theorem sampleSchedule_result : (TransitionSystem.runUnder (fun _ _ => decide True) step (startedState 3)
    sampleSchedule).any (fun s => decide (s.appended = [[1, 2], [3], [4]])) = true := by
  decide +kernel

theorem receive_delivers_sample : ∃ s, receiveSystem.Reachable s ∧ s.appended = [[1, 2], [3], [4]] ∧ Delivered s := by
  have start : receiveSystem.Reachable (startedState 3) := .start (startedState_started (by decide) (by decide))
  have run : ∃ s, receiveSystem.Reachable s ∧ s.appended = [[1, 2], [3], [4]] :=
    TransitionSystem.ReachableUnder.of_run (fun _ _ _ result => result) start sampleSchedule sampleSchedule_result
  obtain ⟨s, reached, done⟩ := run
  exact ⟨s, reached, done, receive_delivers reached⟩

def waitingSchedule : List Label :=
  [.store [1], .ethReceiveFrame 0, .call, .call, .call, .call, .call]

theorem waitingSchedule_result : (TransitionSystem.runUnder (fun _ _ => decide True) step (startedState 2)
    waitingSchedule).any (fun s => decide (s.appended = s.stored.map Stored.frame ∧ s.head = s.tail)) = true := by
  decide +kernel

theorem card_waits : ∃ s, receiveSystem.Reachable s ∧ s.appended = s.stored.map Stored.frame ∧ s.head = s.tail := by
  have start : receiveSystem.Reachable (startedState 2) := .start (startedState_started (by decide) (by decide))
  exact TransitionSystem.ReachableUnder.of_run (fun _ _ _ result => result) start waitingSchedule
    waitingSchedule_result

end Hal9000.ReceiveRing
