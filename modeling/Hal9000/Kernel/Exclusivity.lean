import Hal9000.Kernel.Places
import Hal9000.Lib.LockTable

set_option autoImplicit false
set_option linter.unusedSectionVars false

namespace Hal9000.Kernel

open Function (update)
open Lib (OneLock LockTable)

variable {C T : Type} [DecidableEq C] [DecidableEq T]

namespace Scheduler

def leaving (s : Scheduler C T) (c : C) : Option Leave := (s.pc c).leaving
def picked (s : Scheduler C T) (c : C) : Option T := (s.pc c).picked
def wakes (s : Scheduler C T) (c : C) : Option T := (s.pc c).wakes
def mark (s : Scheduler C T) (c : C) : Mark T := (s.pc c).mark
def holdsReadyLock (s : Scheduler C T) (c : C) : Bool := (s.pc c).holdsReadyLock
def blockHeld (s : Scheduler C T) (c : C) : Option T := (s.pc c).blockHeld (s.stack c) (s.previous c)

end Scheduler

-- SetCurrentThread comes just before ThreadSwitch.
def CpuPc.currentThread (stack : T) : CpuPc T -> T
  | .scheduleSwitch next _ => next
  | _ => stack

def CpuPc.previousSet : CpuPc T -> Bool
  | .scheduleGetReady _ | .scheduleSetCurrent _ _ | .scheduleSwitch _ _ => true
  | _ => false

structure Placed (s : Scheduler C T) (spot : T -> Spot C) : Prop where
  readyLock : OneLock s.readyLock s.holdsReadyLock
  blockLock : LockTable s.blockLock s.blockHeld
  current : forall c, s.current c = (s.pc c).currentThread (s.stack c)
  previous : forall c, (s.pc c).previousSet = true -> s.previous c = some (s.stack c)
  spots : Spots s.leaving s.picked s.wakes s.stack s.idle s.ready s.waiting spot
  states : States s.leaving s.mark s.stack s.idle s.state spot

namespace Placed

variable {s after : Scheduler C T} {c : C} {before pc : CpuPc T} {spot spot' : T -> Spot C}

theorem view_move {A : Type} (view : CpuPc T -> A) (pcs : after.pc = update s.pc c pc) :
    (fun d => view (after.pc d)) = update (fun d => view (s.pc d)) c (view pc) := by
  funext d
  rw [pcs]
  exact Function.apply_update (fun _ => view) s.pc c pc d

theorem view_same {A : Type} (view : CpuPc T -> A) (here : s.pc c = before) (same : view before = view pc) :
    update (fun d => view (s.pc d)) c (view pc) = fun d => view (s.pc d) := by
  rw [Function.update_eq_self_iff, here]
  exact same.symm

variable {leaving' : C -> Option Leave} {picked' wakes' : C -> Option T} {mark' : C -> Mark T}

theorem moved (placed : Placed s spot) (pcs : after.pc = update s.pc c pc)
    (others : forall d, d ≠ c -> after.stack d = s.stack d ∧ after.previous d = s.previous d ∧
      after.current d = s.current d)
    (readyLock : OneLock after.readyLock (update s.holdsReadyLock c pc.holdsReadyLock))
    (blockLock : LockTable after.blockLock
      (update s.blockHeld c (pc.blockHeld (after.stack c) (after.previous c))))
    (current : after.current c = pc.currentThread (after.stack c))
    (previous : pc.previousSet = true -> after.previous c = some (after.stack c))
    (leaving : update s.leaving c pc.leaving = leaving') (picked : update s.picked c pc.picked = picked')
    (wakes : update s.wakes c pc.wakes = wakes') (mark : update s.mark c pc.mark = mark')
    (spots : Spots leaving' picked' wakes' after.stack after.idle after.ready after.waiting spot')
    (states : States leaving' mark' after.stack after.idle after.state spot') : Placed after spot' := by
  have held : after.blockHeld =
      update s.blockHeld c (pc.blockHeld (after.stack c) (after.previous c)) := by
    funext d
    by_cases same : d = c
    · subst same
      simp [Scheduler.blockHeld, pcs]
    · obtain ⟨stack, previous, _⟩ := others d same
      simp [Scheduler.blockHeld, pcs, same, stack, previous]
  have leaving := (view_move CpuPc.leaving pcs).trans leaving
  constructor
  · rw [show after.holdsReadyLock = _ from view_move CpuPc.holdsReadyLock pcs]
    exact readyLock
  · rw [held]
    exact blockLock
  · intro d
    by_cases same : d = c
    · subst same
      simp [pcs, current]
    · obtain ⟨stack, _, other⟩ := others d same
      simp [pcs, same, stack, other, placed.current d]
  · intro d set
    by_cases same : d = c
    · subst same
      exact previous (by simpa [pcs] using set)
    · obtain ⟨stack, other, _⟩ := others d same
      rw [stack, other]
      exact placed.previous d (by simpa [pcs, same] using set)
  · rw [show after.leaving = _ from leaving,
      show after.picked = _ from (view_move CpuPc.picked pcs).trans picked,
      show after.wakes = _ from (view_move CpuPc.wakes pcs).trans wakes]
    exact spots
  · rw [show after.leaving = _ from leaving, show after.mark = _ from (view_move CpuPc.mark pcs).trans mark]
    exact states

theorem current_stack (placed : Placed s spot) (here : s.pc c = before)
    (stays : forall stack, before.currentThread stack = stack) : s.current c = s.stack c := by
  rw [placed.current c, here]
  exact stays _

structure SameView (before next : CpuPc T) : Prop where
  leaving : before.leaving = next.leaving
  picked : before.picked = next.picked
  wakes : before.wakes = next.wakes
  mark : before.mark = next.mark

theorem stays (placed : Placed s spot) (pcs : after.pc = update s.pc c pc) (here : s.pc c = before)
    (same : SameView before pc)
    (others : forall d, d ≠ c -> after.previous d = s.previous d ∧ after.current d = s.current d)
    (readyLock : OneLock after.readyLock (update s.holdsReadyLock c pc.holdsReadyLock))
    (blockLock : LockTable after.blockLock (update s.blockHeld c (pc.blockHeld (s.stack c) (after.previous c))))
    (current : after.current c = pc.currentThread (s.stack c))
    (previous : pc.previousSet = true -> after.previous c = some (s.stack c))
    (stack : after.stack = s.stack) (idle : after.idle = s.idle) (ready : after.ready = s.ready)
    (waiting : after.waiting = s.waiting) (state : after.state = s.state) : Placed after spot := by
  refine placed.moved pcs ?_ readyLock ?_ ?_ ?_ (view_same CpuPc.leaving here same.leaving)
    (view_same CpuPc.picked here same.picked) (view_same CpuPc.wakes here same.wakes)
    (view_same CpuPc.mark here same.mark) ?_ ?_
  · intro d other
    rw [stack]
    exact ⟨rfl, others d other⟩
  · rw [stack]
    exact blockLock
  · rw [stack]
    exact current
  · rw [stack]
    exact previous
  · rw [stack, idle, ready, waiting]
    exact placed.spots
  · rw [stack, idle, state]
    exact placed.states

theorem keeps_readyLock (placed : Placed s spot) (here : s.pc c = before)
    (same : before.holdsReadyLock = pc.holdsReadyLock) :
    OneLock s.readyLock (update s.holdsReadyLock c pc.holdsReadyLock) := by
  apply placed.readyLock.keep
  rw [Scheduler.holdsReadyLock, here]
  exact same

theorem keeps_blockLock (placed : Placed s spot) (here : s.pc c = before) {stack : T} {previous : Option T}
    (same : before.blockHeld (s.stack c) (s.previous c) = pc.blockHeld stack previous) :
    LockTable s.blockLock (update s.blockHeld c (pc.blockHeld stack previous)) := by
  apply placed.blockLock.keep
  rw [Scheduler.blockHeld, here]
  exact same

theorem goto (placed : Placed s spot) (here : s.pc c = before) (same : SameView before pc)
    (readyLock : before.holdsReadyLock = pc.holdsReadyLock)
    (blockLock : before.blockHeld (s.stack c) (s.previous c) = pc.blockHeld (s.stack c) (s.previous c))
    (current : before.currentThread (s.stack c) = pc.currentThread (s.stack c))
    (previous : pc.previousSet = false) : Placed (s.goto c pc) spot := by
  refine placed.stays rfl here same (fun _ _ => ⟨rfl, rfl⟩) (placed.keeps_readyLock here readyLock)
    (placed.keeps_blockLock here blockLock) ?_ ?_ rfl rfl rfl rfl rfl
  · exact (placed.current c).trans (here ▸ current)
  · rw [previous]
    exact nofun

theorem readyLockAcquire (placed : Placed s spot) (taken : s.readyLockAcquire c pc = some after)
    (here : s.pc c = before) (same : SameView before pc) (locks : pc.holdsReadyLock = true)
    (blockLock : before.blockHeld (s.stack c) (s.previous c) = pc.blockHeld (s.stack c) (s.previous c))
    (current : before.currentThread (s.stack c) = pc.currentThread (s.stack c))
    (previous : pc.previousSet = false) : Placed after spot := by
  unfold Scheduler.readyLockAcquire at taken
  split at taken
  · rename_i free
    rw [← Option.some.inj taken]
    refine placed.stays rfl here same (fun _ _ => ⟨rfl, rfl⟩) ?_ (placed.keeps_blockLock here blockLock) ?_ ?_
      rfl rfl rfl rfl rfl
    · rw [locks]
      exact placed.readyLock.acquire free
    · exact (placed.current c).trans (here ▸ current)
    · rw [previous]
      exact nofun
  · simp at taken

theorem readyLockRelease (placed : Placed s spot) (here : s.pc c = before) (same : SameView before pc)
    (own : before.holdsReadyLock = true) (unlocks : pc.holdsReadyLock = false)
    (blockLock : before.blockHeld (s.stack c) (s.previous c) = pc.blockHeld (s.stack c) (s.previous c))
    (current : before.currentThread (s.stack c) = pc.currentThread (s.stack c))
    (previous : pc.previousSet = false) : Placed { s.goto c pc with readyLock := none } spot := by
  refine placed.stays rfl here same (fun _ _ => ⟨rfl, rfl⟩) ?_ (placed.keeps_blockLock here blockLock) ?_ ?_
    rfl rfl rfl rfl rfl
  · rw [unlocks]
    apply placed.readyLock.release
    rw [Scheduler.holdsReadyLock, here]
    exact own
  · exact (placed.current c).trans (here ▸ current)
  · rw [previous]
    exact nofun

theorem blockLockAcquire {thread : T} (placed : Placed s spot) (here : s.pc c = before)
    (same : SameView before pc) (readyLock : before.holdsReadyLock = pc.holdsReadyLock)
    (free : s.blockLock thread = none) (none_held : before.blockHeld (s.stack c) (s.previous c) = none)
    (locks : pc.blockHeld (s.stack c) (s.previous c) = some thread)
    (current : before.currentThread (s.stack c) = pc.currentThread (s.stack c))
    (previous : pc.previousSet = false) :
    Placed { s.goto c pc with blockLock := update s.blockLock thread (some c) } spot := by
  refine placed.stays rfl here same (fun _ _ => ⟨rfl, rfl⟩) (placed.keeps_readyLock here readyLock) ?_ ?_ ?_
    rfl rfl rfl rfl rfl
  · change LockTable (update s.blockLock thread (some c)) (update s.blockHeld c (pc.blockHeld (s.stack c) (s.previous c)))
    rw [locks]
    apply placed.blockLock.acquire free
    rw [Scheduler.blockHeld, here]
    exact none_held
  · exact (placed.current c).trans (here ▸ current)
  · rw [previous]
    exact nofun

theorem blockLockRelease {thread : T} (placed : Placed s spot) (here : s.pc c = before)
    (same : SameView before pc) (readyLock : before.holdsReadyLock = pc.holdsReadyLock)
    (own : before.blockHeld (s.stack c) (s.previous c) = some thread)
    (unlocks : pc.blockHeld (s.stack c) (s.previous c) = none)
    (current : before.currentThread (s.stack c) = pc.currentThread (s.stack c))
    (previous : pc.previousSet = false) :
    Placed { s.goto c pc with blockLock := update s.blockLock thread none } spot := by
  refine placed.stays rfl here same (fun _ _ => ⟨rfl, rfl⟩) (placed.keeps_readyLock here readyLock) ?_ ?_ ?_
    rfl rfl rfl rfl rfl
  · change LockTable (update s.blockLock thread none) (update s.blockHeld c (pc.blockHeld (s.stack c) (s.previous c)))
    rw [unlocks]
    apply placed.blockLock.release
    rw [Scheduler.blockHeld, here]
    exact own
  · exact (placed.current c).trans (here ▸ current)
  · rw [previous]
    exact nofun

theorem setState {thread : T} {state : ThreadState} (placed : Placed s spot) (here : s.pc c = before)
    (leaving : update s.leaving c pc.leaving = leaving') (mark : update s.mark c pc.mark = mark')
    (picked : before.picked = pc.picked) (wakes : before.wakes = pc.wakes)
    (readyLock : before.holdsReadyLock = pc.holdsReadyLock)
    (blockLock : before.blockHeld (s.stack c) (s.previous c) = pc.blockHeld (s.stack c) (s.previous c))
    (current : before.currentThread (s.stack c) = pc.currentThread (s.stack c))
    (previous : pc.previousSet = false)
    (spots : Spots leaving' s.picked s.wakes s.stack s.idle s.ready s.waiting spot)
    (states : States leaving' mark' s.stack s.idle (update s.state thread state) spot) :
    Placed (s.setState c thread state pc) spot := by
  refine placed.moved rfl (fun _ _ => ⟨rfl, rfl, rfl⟩) (placed.keeps_readyLock here readyLock)
    (placed.keeps_blockLock here blockLock) ?_ ?_ leaving (view_same CpuPc.picked here picked)
    (view_same CpuPc.wakes here wakes) mark spots states
  · exact (placed.current c).trans (here ▸ current)
  · rw [previous]
    exact nofun

theorem yieldSetState (placed : Placed s spot) (here : s.pc c = .yieldSetState) :
    Placed (s.setState c (s.current c) .ready (.scheduleSetPrevious .yield)) spot := by
  rw [placed.current_stack here fun _ => rfl]
  refine placed.setState here (view_same CpuPc.leaving here rfl) rfl rfl rfl rfl rfl rfl rfl placed.spots ?_
  apply placed.states.setReady placed.spots
  · rw [Scheduler.leaving, here]
    rfl
  · rw [Scheduler.mark, here]
    rfl

theorem blockSetState (placed : Placed s spot) (here : s.pc c = .blockSetState) :
    Placed (s.setState c (s.current c) .blocked .blockLock) spot := by
  rw [placed.current_stack here fun _ => rfl]
  refine placed.setState here (view_same CpuPc.leaving here rfl) rfl rfl rfl rfl rfl rfl rfl placed.spots ?_
  apply placed.states.setBlocked placed.spots
  · rw [Scheduler.leaving, here]
    rfl
  · rw [Scheduler.mark, here]
    rfl

theorem exitSetState (placed : Placed s spot) (here : s.pc c = .exitSetState) :
    Placed (s.setState c (s.current c) .dying .exitSignal) spot := by
  rw [placed.current_stack here fun _ => rfl]
  have running : s.leaving c = none := by
    rw [Scheduler.leaving, here]
    rfl
  refine placed.setState here rfl rfl rfl rfl rfl rfl rfl rfl (placed.spots.exit running) ?_
  apply placed.states.setDying placed.spots running
  rw [Scheduler.mark, here]
  rfl

theorem alone_yields (placed : Placed s spot) (own : s.holdsReadyLock c = true) (d : C)
    (yields : s.leaving d = some .yield) : d = c := by
  apply placed.readyLock.unique _ own
  rw [Scheduler.leaving] at yields
  rw [Scheduler.holdsReadyLock]
  cases there : s.pc d <;> simp_all [CpuPc.leaving, CpuPc.holdsReadyLock]

theorem alone_inserts (placed : Placed s spot) (own : s.holdsReadyLock c = true) (d : C) {t : T}
    (inserts : s.mark d = .unblock t) : d = c := by
  apply placed.readyLock.unique _ own
  rw [Scheduler.mark] at inserts
  rw [Scheduler.holdsReadyLock]
  cases there : s.pc d <;> simp_all [CpuPc.mark, CpuPc.holdsReadyLock]

theorem unblockSetState {thread : T} {exiting : Bool} (placed : Placed s spot)
    (here : s.pc c = .unblockSetState thread exiting) :
    Placed (s.setState c thread .ready (.unblockReadyUnlock thread exiting)) spot := by
  refine placed.setState here (view_same CpuPc.leaving here rfl) rfl rfl rfl rfl rfl rfl rfl placed.spots ?_
  apply placed.states.setUnblocked placed.spots
  · rw [Scheduler.mark, here]
    rfl
  · intro d
    apply placed.alone_inserts
    rw [Scheduler.holdsReadyLock, here]
    rfl

theorem yieldInsert (placed : Placed s spot) (here : s.pc c = .yieldInsert) (busy : s.current c ≠ s.idle c) :
    Placed { s.goto c .yieldSetState with ready := s.ready ++ [s.current c] }
      (update spot (s.stack c) .ready) := by
  rw [placed.current_stack here fun _ => rfl] at busy ⊢
  have running : s.leaving c = none := by
    rw [Scheduler.leaving, here]
    rfl
  have clear : s.mark c = .none := by
    rw [Scheduler.mark, here]
    rfl
  refine placed.moved rfl (fun _ _ => ⟨rfl, rfl, rfl⟩) (placed.keeps_readyLock here rfl)
    (placed.keeps_blockLock here rfl) (placed.current_stack here fun _ => rfl) nofun rfl
    (view_same CpuPc.picked here rfl) (view_same CpuPc.wakes here rfl) rfl
    (placed.spots.yield running busy) (placed.states.yield placed.spots running clear)

theorem yieldInsertIdle (placed : Placed s spot) (here : s.pc c = .yieldInsert)
    (idling : s.current c = s.idle c) : Placed (s.goto c .yieldSetState) spot := by
  rw [placed.current_stack here fun _ => rfl] at idling
  have running : s.leaving c = none := by
    rw [Scheduler.leaving, here]
    rfl
  have clear : s.mark c = .none := by
    rw [Scheduler.mark, here]
    rfl
  refine placed.moved rfl (fun _ _ => ⟨rfl, rfl, rfl⟩) (placed.keeps_readyLock here rfl)
    (placed.keeps_blockLock here rfl) (placed.current_stack here fun _ => rfl) nofun rfl
    (view_same CpuPc.picked here rfl) (view_same CpuPc.wakes here rfl) rfl
    (placed.spots.yieldIdle idling) (placed.states.yieldIdle placed.spots running clear idling)

-- Whoever still runs on a blocking thread's stack holds its block lock, and so does the one who inserts it.
theorem unblocked_off {thread : T} {exiting : Bool} (placed : Placed s spot)
    (here : s.pc c = .unblockInsert thread exiting) (d : C) : s.stack d ≠ thread := by
  intro same
  have waking : s.wakes c = some thread := by
    rw [Scheduler.wakes, here]
    rfl
  have woken := (placed.spots.woken_iff thread c).mp waking
  have held : s.blockHeld c = some thread := by
    rw [Scheduler.blockHeld, here]
    cases exiting <;> rfl
  subst same
  have blocking := placed.spots.woken_blocks woken
  have held' : s.blockHeld d = some (s.stack d) := by
    rw [Scheduler.leaving] at blocking
    rw [Scheduler.blockHeld, CpuPc.blockHeld, if_pos blocking]
  have same := placed.blockLock.unique held held'
  subst same
  rw [Scheduler.leaving, here] at blocking
  cases exiting <;> simp [CpuPc.leaving] at blocking

theorem unblockInsert {thread : T} {exiting : Bool} (placed : Placed s spot)
    (here : s.pc c = .unblockInsert thread exiting) :
    Placed { s.goto c (.unblockSetState thread exiting) with ready := s.ready ++ [thread] }
      (update spot thread .ready) := by
  have off := placed.unblocked_off here
  have clear : s.mark c = .none := by
    rw [Scheduler.mark, here]
    rfl
  have waking : s.wakes c = some thread := by
    rw [Scheduler.wakes, here]
    rfl
  refine placed.moved rfl (fun _ _ => ⟨rfl, rfl, rfl⟩) (placed.keeps_readyLock here rfl)
    (placed.keeps_blockLock here rfl) (placed.current_stack here fun _ => rfl) nofun
    (view_same CpuPc.leaving here rfl) (view_same CpuPc.picked here rfl) rfl rfl
    (placed.spots.insert waking off) (placed.states.insert placed.spots waking off clear)

theorem scheduleSetPrevious {how : Leave} (placed : Placed s spot) (here : s.pc c = .scheduleSetPrevious how) :
    Placed { s.goto c (.scheduleGetReady how) with previous := update s.previous c (some (s.current c)) }
      spot := by
  have current := placed.current_stack here fun _ => rfl
  refine placed.stays rfl here ⟨rfl, rfl, rfl, rfl⟩ ?_ (placed.keeps_readyLock here rfl)
    (placed.keeps_blockLock here rfl) current ?_ rfl rfl rfl rfl rfl
  · intro d other
    simp [other, Scheduler.goto]
  · intro _
    simp [current]

theorem scheduleSetCurrent {next : T} {how : Leave} (placed : Placed s spot)
    (here : s.pc c = .scheduleSetCurrent next how) :
    Placed { s.goto c (.scheduleSwitch next how) with current := update s.current c next } spot := by
  refine placed.stays rfl here ⟨rfl, rfl, rfl, rfl⟩ ?_ (placed.keeps_readyLock here rfl)
    (placed.keeps_blockLock here rfl) ?_ ?_ rfl rfl rfl rfl rfl
  · intro d other
    simp [other, Scheduler.goto]
  · simp [CpuPc.currentThread]
  · intro _
    exact placed.previous c (by rw [here]; rfl)

-- The block lock of a thread that blocks stays held when its CPU goes on to the clean-up.
theorem held_after {how : Leave} (placed : Placed s spot) (here : s.pc c = before)
    (set : before.previousSet = true) (leaves : before.leaving = some how)
    (other : before.otherHeld (s.previous c) = none) (stack : T) :
    before.blockHeld (s.stack c) (s.previous c) =
      (CpuPc.cleanupReadPrevious (T := T) how).blockHeld stack (s.previous c) := by
  rw [CpuPc.blockHeld, leaves]
  rw [placed.previous c (here ▸ set)] at other ⊢
  cases how with
  | yield => exact other
  | exit => exact other
  | block => rfl

theorem scheduleSwitch {next : T} {how : Leave} (placed : Placed s spot)
    (here : s.pc c = .scheduleSwitch next how) :
    Placed { s.goto c (.cleanupReadPrevious how) with stack := update s.stack c next }
      (update spot next .nowhere) := by
  have chosen : s.picked c = some next := by
    rw [Scheduler.picked, here]
    rfl
  have clear : s.mark c = .none := by
    rw [Scheduler.mark, here]
    rfl
  refine placed.moved rfl ?_ (placed.keeps_readyLock here rfl) ?_ ?_ nofun rfl rfl
    (view_same CpuPc.wakes here rfl) (view_same CpuPc.mark here rfl) (placed.spots.switch chosen)
    (placed.states.switch placed.spots chosen clear)
  · intro d other
    simp [other, Scheduler.goto]
  · exact placed.keeps_blockLock here (placed.held_after here rfl rfl rfl _)
  · have current : s.current c = next := (placed.current c).trans (by rw [here]; rfl)
    simp [CpuPc.currentThread, Scheduler.goto, current]

theorem scheduleGetReady {how : Leave} (placed : Placed s spot) (here : s.pc c = .scheduleGetReady how)
    (taken : s.runStep c = some after) : ∃ spot', Placed after spot' := by
  have current := placed.current_stack here fun _ => rfl
  have previous := placed.previous c (by rw [here]; rfl)
  have free : s.picked c = none := by
    rw [Scheduler.picked, here]
    rfl
  have own : s.holdsReadyLock c = true := by
    rw [Scheduler.holdsReadyLock, here]
    rfl
  have clear : s.mark c = .none := by
    rw [Scheduler.mark, here]
    rfl
  simp only [Scheduler.runStep, here, current] at taken
  split at taken
  · by_cases idling : s.idle c = s.stack c
    · rw [if_neg (not_not.mpr idling)] at taken
      rw [← Option.some.inj taken]
      refine ⟨spot, placed.moved rfl (fun _ _ => ⟨rfl, rfl, rfl⟩) (placed.keeps_readyLock here rfl)
        (placed.keeps_blockLock here (placed.held_after here rfl rfl rfl _)) current nofun rfl
        (view_same CpuPc.picked here rfl) (view_same CpuPc.wakes here rfl) (view_same CpuPc.mark here rfl)
        (placed.spots.keepIdle idling.symm) (placed.states.keepIdle placed.spots idling.symm)⟩
    · rw [if_pos idling] at taken
      rw [← Option.some.inj taken]
      refine ⟨_, placed.moved rfl (fun _ _ => ⟨rfl, rfl, rfl⟩) (placed.keeps_readyLock here rfl)
        (placed.keeps_blockLock here rfl) current (fun _ => previous) (view_same CpuPc.leaving here rfl)
        rfl (view_same CpuPc.wakes here rfl) (view_same CpuPc.mark here rfl)
        (placed.spots.pickIdle free idling) (placed.states.pickIdle placed.spots)⟩
  · rename_i next rest head
    split at taken
    · rename_i isReady
      by_cases same : next = s.stack c
      · subst same
        rw [if_neg (not_not.mpr rfl)] at taken
        rw [← Option.some.inj taken]
        refine ⟨_, placed.moved rfl (fun _ _ => ⟨rfl, rfl, rfl⟩) (placed.keeps_readyLock here rfl)
          (placed.keeps_blockLock here (placed.held_after here rfl rfl rfl _)) current nofun rfl
          (view_same CpuPc.picked here rfl) (view_same CpuPc.wakes here rfl)
          (view_same CpuPc.mark here rfl) (placed.spots.keep head)
          (placed.states.keep placed.spots isReady)⟩
      · rw [if_pos same] at taken
        rw [← Option.some.inj taken]
        have settled : forall d, s.mark d ≠ .unblock next := by
          intro d inserts
          rw [placed.alone_inserts own d inserts, clear] at inserts
          cases inserts
        refine ⟨_, placed.moved rfl (fun _ _ => ⟨rfl, rfl, rfl⟩) (placed.keeps_readyLock here rfl)
          (placed.keeps_blockLock here rfl) current (fun _ => previous) (view_same CpuPc.leaving here rfl)
          rfl (view_same CpuPc.wakes here rfl) (view_same CpuPc.mark here rfl)
          (placed.spots.pick free head (placed.alone_yields own) same)
          (placed.states.pick placed.spots isReady settled)⟩
    · simp at taken

end Placed

theorem runStep_placed {s after : Scheduler C T} {c : C} {spot : T -> Spot C} (placed : Placed s spot)
    (taken : s.runStep c = some after) : ∃ spot', Placed after spot' := by
  cases here : s.pc c with
  | running => simp [Scheduler.runStep, here] at taken
  | yieldLock =>
    simp only [Scheduler.runStep, here] at taken
    exact ⟨spot, placed.readyLockAcquire taken here ⟨rfl, rfl, rfl, rfl⟩ rfl rfl rfl rfl⟩
  | yieldInsert =>
    simp only [Scheduler.runStep, here] at taken
    split at taken
    · rename_i busy
      rw [← Option.some.inj taken]
      exact ⟨_, placed.yieldInsert here busy⟩
    · rename_i idling
      rw [← Option.some.inj taken]
      exact ⟨spot, placed.yieldInsertIdle here (not_not.mp idling)⟩
  | yieldSetState =>
    simp only [Scheduler.runStep, here, Option.some.injEq] at taken
    exact ⟨spot, taken ▸ placed.yieldSetState here⟩
  | blockSetState =>
    simp only [Scheduler.runStep, here, Option.some.injEq] at taken
    exact ⟨spot, taken ▸ placed.blockSetState here⟩
  | blockLock =>
    simp only [Scheduler.runStep, here] at taken
    exact ⟨spot, placed.readyLockAcquire taken here ⟨rfl, rfl, rfl, rfl⟩ rfl rfl rfl rfl⟩
  | exitBlockLock =>
    have unheld : s.blockLock (s.current c) ≠ some c := by
      rw [Ne, placed.blockLock, Scheduler.blockHeld, here]
      exact nofun
    simp only [Scheduler.runStep, here, if_neg unheld, Option.some.injEq] at taken
    exact ⟨spot, taken ▸ placed.goto here ⟨rfl, rfl, rfl, rfl⟩ rfl rfl rfl rfl⟩
  | exitSetState =>
    simp only [Scheduler.runStep, here, Option.some.injEq] at taken
    exact ⟨spot, taken ▸ placed.exitSetState here⟩
  | exitSignal =>
    simp only [Scheduler.runStep, here, Option.some.injEq] at taken
    exact ⟨spot, taken ▸ placed.goto here ⟨rfl, rfl, rfl, rfl⟩ rfl rfl rfl rfl⟩
  | exitLock =>
    simp only [Scheduler.runStep, here] at taken
    exact ⟨spot, placed.readyLockAcquire taken here ⟨rfl, rfl, rfl, rfl⟩ rfl rfl rfl rfl⟩
  | scheduleSetPrevious how =>
    simp only [Scheduler.runStep, here, Option.some.injEq] at taken
    exact ⟨spot, taken ▸ placed.scheduleSetPrevious here⟩
  | scheduleGetReady how => exact placed.scheduleGetReady here taken
  | scheduleSetCurrent next how =>
    simp only [Scheduler.runStep, here, Option.some.injEq] at taken
    exact ⟨spot, taken ▸ placed.scheduleSetCurrent here⟩
  | scheduleSwitch next how =>
    simp only [Scheduler.runStep, here, Option.some.injEq] at taken
    exact ⟨_, taken ▸ placed.scheduleSwitch here⟩
  | cleanupReadPrevious how =>
    simp only [Scheduler.runStep, here, Option.some.injEq] at taken
    have held : (CpuPc.cleanupReadPrevious (T := T) how).blockHeld (s.stack c) (s.previous c) =
        (CpuPc.cleanupUnlock (s.previous c) how).blockHeld (s.stack c) (s.previous c) := by
      cases how <;> rfl
    exact ⟨spot, taken ▸ placed.goto here ⟨rfl, rfl, rfl, rfl⟩ rfl held rfl rfl⟩
  | cleanupUnlock prev how =>
    cases prev with
    | none =>
      simp only [Scheduler.runStep, here, Option.some.injEq] at taken
      have held : (CpuPc.cleanupUnlock (T := T) none how).blockHeld (s.stack c) (s.previous c) =
          (CpuPc.running (T := T)).blockHeld (s.stack c) (s.previous c) := by
        cases how <;> rfl
      exact ⟨spot, taken ▸ placed.readyLockRelease here ⟨rfl, rfl, rfl, rfl⟩ rfl rfl held rfl rfl⟩
    | some prev =>
      simp only [Scheduler.runStep, here, Option.some.injEq] at taken
      have held : (CpuPc.cleanupUnlock (some prev) how).blockHeld (s.stack c) (s.previous c) =
          (CpuPc.cleanupTestOwner prev how).blockHeld (s.stack c) (s.previous c) := by
        cases how <;> rfl
      exact ⟨spot, taken ▸ placed.readyLockRelease here ⟨rfl, rfl, rfl, rfl⟩ rfl rfl held rfl rfl⟩
  | cleanupTestOwner prev how =>
    simp only [Scheduler.runStep, here, Option.some.injEq] at taken
    split at taken
    · rename_i own
      have held := (placed.blockLock prev c).mp own
      rw [Scheduler.blockHeld, here] at held
      exact ⟨spot, taken ▸ placed.goto here ⟨rfl, rfl, rfl, rfl⟩ rfl held rfl rfl⟩
    · rename_i other
      have unheld := fun held => other ((placed.blockLock prev c).mpr held)
      rw [Scheduler.blockHeld, here] at unheld
      have held : (CpuPc.cleanupTestOwner prev how).blockHeld (s.stack c) (s.previous c) =
          (CpuPc.cleanupTestState prev how).blockHeld (s.stack c) (s.previous c) := by
        cases how with
        | yield => rfl
        | exit => rfl
        | block => exact absurd rfl unheld
      exact ⟨spot, taken ▸ placed.goto here ⟨rfl, rfl, rfl, rfl⟩ rfl held rfl rfl⟩
  | cleanupBlockLock prev how =>
    simp only [Scheduler.runStep, here] at taken
    split at taken
    · rw [← Option.some.inj taken]
      exact ⟨spot, placed.blockLockRelease here ⟨rfl, rfl, rfl, rfl⟩ rfl rfl rfl rfl rfl⟩
    · simp at taken
  | cleanupTestState prev how =>
    simp only [Scheduler.runStep, here, Option.some.injEq] at taken
    split at taken
    · exact ⟨spot, taken ▸ placed.goto here ⟨rfl, rfl, rfl, rfl⟩ rfl rfl rfl rfl⟩
    · exact ⟨spot, taken ▸ placed.goto here ⟨rfl, rfl, rfl, rfl⟩ rfl rfl rfl rfl⟩
  | cleanupDereference prev how =>
    simp only [Scheduler.runStep, here] at taken
    split at taken
    · simp at taken
    · rw [← Option.some.inj taken]
      refine ⟨spot, placed.stays rfl here ⟨rfl, rfl, rfl, rfl⟩ ?_ (placed.keeps_readyLock here rfl)
        (placed.keeps_blockLock here rfl) (placed.current_stack here fun _ => rfl) nofun rfl rfl rfl rfl rfl⟩
      intro d other
      simp [other, Scheduler.goto, Scheduler.dereference]
  | unblockLock thread exiting =>
    simp only [Scheduler.runStep, here] at taken
    split at taken
    · rename_i free
      rw [← Option.some.inj taken]
      exact ⟨spot, placed.blockLockAcquire here ⟨rfl, rfl, rfl, rfl⟩ rfl free
        (by cases exiting <;> rfl) (by cases exiting <;> rfl) rfl rfl⟩
    · simp at taken
  | unblockTestState thread exiting =>
    simp only [Scheduler.runStep, here] at taken
    split at taken
    · rw [← Option.some.inj taken]
      exact ⟨spot, placed.goto here ⟨rfl, rfl, rfl, rfl⟩ rfl rfl rfl rfl⟩
    · simp at taken
  | unblockReadyLock thread exiting =>
    simp only [Scheduler.runStep, here] at taken
    exact ⟨spot, placed.readyLockAcquire taken here ⟨rfl, rfl, rfl, rfl⟩ rfl rfl rfl rfl⟩
  | unblockInsert thread exiting =>
    simp only [Scheduler.runStep, here, Option.some.injEq] at taken
    exact ⟨_, taken ▸ placed.unblockInsert here⟩
  | unblockSetState thread exiting =>
    simp only [Scheduler.runStep, here, Option.some.injEq] at taken
    exact ⟨spot, taken ▸ placed.unblockSetState here⟩
  | unblockReadyUnlock thread exiting =>
    simp only [Scheduler.runStep, here, Option.some.injEq] at taken
    exact ⟨spot, taken ▸ placed.readyLockRelease here ⟨rfl, rfl, rfl, rfl⟩ rfl rfl rfl rfl rfl⟩
  | unblockUnlock thread exiting =>
    simp only [Scheduler.runStep, here, Option.some.injEq] at taken
    cases exiting with
    | false => exact ⟨spot, taken ▸ placed.blockLockRelease here ⟨rfl, rfl, rfl, rfl⟩ rfl rfl rfl rfl rfl⟩
    | true => exact ⟨spot, taken ▸ placed.blockLockRelease here ⟨rfl, rfl, rfl, rfl⟩ rfl rfl rfl rfl rfl⟩

theorem takeBlockLock_placed {s after : Scheduler C T} {c : C} {spot spot' : T -> Spot C} {waiting : List T}
    (placed : Placed s spot) (here : s.pc c = .running)
    (spots : Spots (update s.leaving c (some .block)) s.picked s.wakes s.stack s.idle s.ready waiting spot')
    (states : States (update s.leaving c (some .block)) (update s.mark c .block) s.stack s.idle s.state spot')
    (taken : ({ s with waiting := waiting } : Scheduler C T).takeBlockLock c = some after) :
    Placed after spot' := by
  have current := placed.current_stack here fun _ => rfl
  unfold Scheduler.takeBlockLock at taken
  split at taken
  · rename_i free
    rw [← Option.some.inj taken]
    refine placed.moved (s := s) rfl (fun _ _ => ⟨rfl, rfl, rfl⟩) (placed.keeps_readyLock here rfl) ?_ current
      nofun rfl (Placed.view_same CpuPc.picked here rfl) (Placed.view_same CpuPc.wakes here rfl) rfl
      spots states
    change LockTable (update s.blockLock (s.current c) (some c)) (update s.blockHeld c (some (s.stack c)))
    rw [current]
    apply placed.blockLock.acquire (current ▸ free)
    rw [Scheduler.blockHeld, here]
    rfl
  · simp at taken

theorem threadExit_placed {s : Scheduler C T} {c : C} {spot : T -> Spot C} (placed : Placed s spot)
    (here : s.pc c = .running) (busy : s.current c ≠ s.idle c) : Placed (s.goto c .exitBlockLock) spot := by
  have current := placed.current_stack here fun _ => rfl
  refine placed.moved rfl (fun _ _ => ⟨rfl, rfl, rfl⟩) (placed.keeps_readyLock here rfl)
    (placed.keeps_blockLock here rfl) current nofun (Placed.view_same CpuPc.leaving here rfl)
    (Placed.view_same CpuPc.picked here rfl) (Placed.view_same CpuPc.wakes here rfl) rfl placed.spots ?_
  apply placed.states.startExit placed.spots
  · rw [Scheduler.mark, here]
    rfl
  · exact current ▸ busy

theorem threadUnblock_placed {s : Scheduler C T} {c : C} {thread : T} {spot : T -> Spot C}
    (placed : Placed s spot) {before : CpuPc T} {exiting : Bool} (here : s.pc c = before)
    (from_call : before = .running ∧ exiting = false ∨ before = .exitSignal ∧ exiting = true)
    (linked : thread ∈ s.waiting) :
    Placed { s.goto c (.unblockLock thread exiting) with waiting := s.waiting.erase thread }
      (update spot thread (.woken c)) := by
  have free : s.wakes c = none := by
    rw [Scheduler.wakes, here]
    rcases from_call with ⟨rfl, _⟩ | ⟨rfl, _⟩ <;> rfl
  have spots := placed.spots.take free linked
  have states := placed.states.take placed.spots (c := c) linked
  rcases from_call with ⟨rfl, rfl⟩ | ⟨rfl, rfl⟩
  all_goals
    exact placed.moved rfl (fun _ _ => ⟨rfl, rfl, rfl⟩) (placed.keeps_readyLock here rfl)
      (placed.keeps_blockLock here rfl) (placed.current_stack here fun _ => rfl) nofun
      (Placed.view_same CpuPc.leaving here rfl) (Placed.view_same CpuPc.picked here rfl) rfl
      (Placed.view_same CpuPc.mark here rfl) spots states

theorem step_placed {s after : Scheduler C T} {label : CpuLabel C T} {spot : T -> Spot C}
    (placed : Placed s spot) (taken : s.step label = some after) : ∃ spot', Placed after spot' := by
  have quiet {c : C} (here : s.pc c = .running) : s.leaving c = none ∧ s.mark c = .none := by
    rw [Scheduler.leaving, Scheduler.mark, here]
    exact ⟨rfl, rfl⟩
  cases label with
  | run c => exact runStep_placed placed taken
  | threadYield c =>
    simp only [Scheduler.step, Option.ite_none_right_eq_some, Option.some.injEq] at taken
    obtain ⟨here, rfl⟩ := taken
    exact ⟨spot, placed.goto here ⟨rfl, rfl, rfl, rfl⟩ rfl rfl rfl rfl⟩
  | wait c =>
    simp only [Scheduler.step, Option.ite_none_right_eq_some] at taken
    obtain ⟨⟨here, busy⟩, taken⟩ := taken
    rw [placed.current_stack here fun _ => rfl] at busy taken
    exact ⟨_, takeBlockLock_placed placed here (placed.spots.wait (quiet here).1 busy)
      (placed.states.wait placed.spots (quiet here).1 (quiet here).2) taken⟩
  | idle c =>
    simp only [Scheduler.step, Option.ite_none_right_eq_some] at taken
    obtain ⟨⟨here, idling⟩, taken⟩ := taken
    rw [placed.current_stack here fun _ => rfl] at idling
    exact ⟨_, takeBlockLock_placed placed here (placed.spots.blockIdle idling)
      (placed.states.blockIdle placed.spots (quiet here).1 (quiet here).2) taken⟩
  | threadExit c =>
    simp only [Scheduler.step, Option.ite_none_right_eq_some, Option.some.injEq] at taken
    obtain ⟨⟨here, busy⟩, rfl⟩ := taken
    exact ⟨spot, threadExit_placed placed here busy⟩
  | threadUnblock c thread =>
    simp only [Scheduler.step, Option.ite_none_right_eq_some, Option.some.injEq] at taken
    obtain ⟨⟨here, linked⟩, rfl⟩ := taken
    refine ⟨_, threadUnblock_placed placed rfl ?_ linked⟩
    rcases here with here | here
    · exact .inl ⟨here, by rw [here]; rfl⟩
    · exact .inr ⟨here, by rw [here]; rfl⟩
  | threadCloseHandle thread =>
    simp only [Scheduler.step, Option.ite_none_right_eq_some, Option.some.injEq] at taken
    obtain ⟨_, rfl⟩ := taken
    exact ⟨spot, placed.readyLock, placed.blockLock, placed.current, placed.previous, placed.spots,
      placed.states⟩

def initialSpot (s : Scheduler C T) (t : T) : Spot C :=
  if t ∈ s.ready then .ready else if t ∈ s.waiting then .waiting else .nowhere

theorem initial_placed {s : Scheduler C T} (initial : s.Initial) : Placed s (initialSpot s) := by
  have leaving : s.leaving = fun _ => none := funext fun c => by rw [Scheduler.leaving, initial.pc c]; rfl
  have picked : s.picked = fun _ => none := funext fun c => by rw [Scheduler.picked, initial.pc c]; rfl
  have wakes : s.wakes = fun _ => none := funext fun c => by rw [Scheduler.wakes, initial.pc c]; rfl
  have mark : s.mark = fun _ => .none := funext fun c => by rw [Scheduler.mark, initial.pc c]; rfl
  have ready_iff (t : T) : t ∈ s.ready ↔ initialSpot s t = .ready := by
    simp only [initialSpot]
    grind
  have waiting_iff (t : T) : t ∈ s.waiting ↔ initialSpot s t = .waiting := by
    have := initial.ready_state t
    have := initial.waiting_state t
    simp only [initialSpot]
    grind
  have off (t : T) (unlisted : t ∉ s.ready ∧ t ∉ s.waiting) : initialSpot s t = .nowhere := by
    simp [initialSpot, unlisted]
  have stack_off (c : C) : initialSpot s (s.stack c) = .nowhere :=
    off _ ⟨fun linked => (initial.ready_state _ linked).2 c rfl,
      fun linked => (initial.waiting_state _ linked).2 c rfl⟩
  have idle_off (c : C) : initialSpot s (s.idle c) = .nowhere :=
    off _ ⟨initial.idle_ready c, initial.idle_waiting c⟩
  have listed (t : T) : initialSpot s t = .nowhere ∨ initialSpot s t = .ready ∨ initialSpot s t = .waiting := by
    simp only [initialSpot]
    grind
  constructor
  · intro c
    simp [initial.readyLock, Scheduler.holdsReadyLock, initial.pc c, CpuPc.holdsReadyLock]
  · intro t c
    simp [initial.blockLock t, Scheduler.blockHeld, initial.pc c, CpuPc.blockHeld, CpuPc.leaving,
      CpuPc.otherHeld]
  · intro c
    rw [initial.current c, initial.pc c]
    rfl
  · intro c set
    rw [initial.pc c] at set
    cases set
  · rw [leaving, picked, wakes]
    refine ⟨initial.stack_injective, initial.idle_injective, initial.ready_nodup, initial.waiting_nodup,
      ready_iff, waiting_iff, ?_, ?_, fun c _ => stack_off c, nofun, nofun, nofun, fun c _ => stack_off c,
      fun c => .inl (idle_off c), initial.idle_stack⟩
    · intro t c
      rcases listed t with spot | spot | spot <;> simp [spot]
    · intro t c
      rcases listed t with spot | spot | spot <;> simp [spot]
  · rw [leaving, mark]
    refine ⟨?_, ?_, ?_, ?_, nofun, nofun, fun c => initial.alive _, ?_, ?_⟩
    · intro t spot
      exact .inl (initial.ready_state t ((ready_iff t).mpr spot)).1
    · intro t c spot
      rcases listed t with other | other | other <;> simp [other] at spot
    · intro t spot
      exact .inl (initial.waiting_state t ((waiting_iff t).mpr spot)).1
    · intro t c spot
      rcases listed t with other | other | other <;> simp [other] at spot
    · intro c blocked
      rcases initial.stack_state c with other | other <;> simp [other] at blocked
    · intro c
      simp [initial.alive]

theorem reachable_placed {s : Scheduler C T} (reached : (scheduler C T).Reachable s) :
    ∃ spot, Placed s spot := by
  induction reached with
  | start s initial => exact ⟨_, initial_placed initial⟩
  | next s label after _ _ taken ih =>
    obtain ⟨spot, placed⟩ := ih
    exact step_placed placed taken

namespace Placed

variable {s : Scheduler C T} {spot : T -> Spot C} {c : C}

theorem stack_or_picked (placed : Placed s spot) (c : C) :
    s.current c = s.stack c ∨ s.picked c = some (s.current c) := by
  rw [placed.current c, Scheduler.picked]
  cases s.pc c with
  | scheduleSwitch next how => exact .inr rfl
  | _ => exact .inl rfl

theorem current_unique (placed : Placed s spot) {c d : C} (same : s.current c = s.current d) : c = d := by
  rcases placed.stack_or_picked c with onC | pickC <;> rcases placed.stack_or_picked d with onD | pickD
  · exact placed.spots.stack_injective c d (by rw [← onC, ← onD, same])
  · exact absurd (onC ▸ same) (placed.spots.picked_off pickD c)
  · exact absurd (onD ▸ same.symm) (placed.spots.picked_off pickC d)
  · have spotC := (placed.spots.picked_iff _ c).mp pickC
    rw [same, (placed.spots.picked_iff _ d).mp pickD] at spotC
    exact (Spot.picked.inj spotC).symm

theorem holds_of_yielding (placed : Placed s spot) (yields : s.leaving c = some .yield) :
    s.readyLock = some c := by
  rw [placed.readyLock c]
  rw [Scheduler.leaving] at yields
  rw [Scheduler.holdsReadyLock]
  cases there : s.pc c <;> simp_all [CpuPc.leaving, CpuPc.holdsReadyLock]

theorem yielding_of_linked (placed : Placed s spot) (linked : s.stack c ∈ s.ready) :
    s.leaving c = some .yield := by
  have spotC := (placed.spots.ready_iff _).mp linked
  have busy : s.stack c ≠ s.idle c := by
    intro idling
    simp [placed.spots.idling c idling] at spotC
  cases how : s.leaving c with
  | none => simp [placed.spots.running c how] at spotC
  | some how' =>
    cases how' with
    | yield => rfl
    | exit => simp [placed.spots.exiting c how] at spotC
    | block =>
      rcases placed.spots.blocking c how busy with waits | ⟨d, woken⟩
      · simp [waits] at spotC
      · simp [woken] at spotC

theorem linked_current (placed : Placed s spot) (linked : s.current c ∈ s.ready) :
    s.current c = s.stack c ∧ s.leaving c = some .yield := by
  rcases placed.stack_or_picked c with onStack | chosen
  · rw [onStack] at linked
    exact ⟨onStack, placed.yielding_of_linked linked⟩
  · have spotC := (placed.spots.ready_iff _).mp linked
    simp [(placed.spots.picked_iff _ c).mp chosen] at spotC

theorem yieldSetState_of_mark (marked : s.mark c = .yield) : s.pc c = .yieldSetState := by
  rw [Scheduler.mark] at marked
  cases there : s.pc c <;> simp_all [CpuPc.mark]

theorem unblockSetState_of_mark {t : T} (marked : s.mark c = .unblock t) :
    ∃ exiting, s.pc c = .unblockSetState t exiting := by
  rw [Scheduler.mark] at marked
  cases there : s.pc c <;> simp_all [CpuPc.mark]

theorem linked_state (placed : Placed s spot) {t : T} (linked : t ∈ s.ready) :
    s.state t = .ready ∨
      (∃ c, s.pc c = .yieldSetState ∧ s.current c = t ∧ s.state t = .running) ∨
      ∃ c exiting, s.pc c = .unblockSetState t exiting ∧ s.state t = .blocked := by
  rcases placed.states.ready_state t ((placed.spots.ready_iff t).mp linked) with
    ready | ⟨c, marked, rfl⟩ | ⟨c, marked⟩
  · exact .inl ready
  · have here := yieldSetState_of_mark marked
    have yields := placed.yielding_of_linked linked
    have busy : s.stack c ≠ s.idle c := by
      intro idling
      simpa [placed.spots.idling c idling] using (placed.spots.ready_iff _).mp linked
    cases state : s.state (s.stack c) with
    | ready => exact .inl rfl
    | running => exact .inr (.inl ⟨c, here, placed.current_stack here fun _ => rfl, rfl⟩)
    | blocked =>
      rcases placed.states.blocked_stack c state with idling | blocks
      · exact absurd idling busy
      · simp [yields] at blocks
    | dying =>
      have exits := (placed.states.dying_stack c).mp state
      simp [yields] at exits
  · obtain ⟨exiting, here⟩ := unblockSetState_of_mark marked
    exact .inr (.inr ⟨c, exiting, here, (placed.states.inserted t c marked).2.1⟩)

theorem blocked_current (placed : Placed s spot) (blocked : s.state (s.current c) = .blocked) :
    s.blockLock (s.current c) = some c ∨ s.current c = s.idle c := by
  rcases placed.stack_or_picked c with onStack | chosen
  · rw [onStack] at blocked ⊢
    rcases placed.states.blocked_stack c blocked with idling | blocks
    · exact .inr idling
    · left
      rw [Scheduler.leaving] at blocks
      rw [placed.blockLock, Scheduler.blockHeld, CpuPc.blockHeld, if_pos blocks]
  · rcases placed.states.picked_state _ c ((placed.spots.picked_iff _ c).mp chosen) with ready | idling
    · simp [ready] at blocked
    · exact .inr idling

theorem dying_current (placed : Placed s spot) (dying : s.state (s.current c) = .dying) :
    s.current c = s.stack c ∧ s.leaving c = some .exit := by
  rcases placed.stack_or_picked c with onStack | chosen
  · exact ⟨onStack, (placed.states.dying_stack c).mp (onStack ▸ dying)⟩
  · rcases placed.states.picked_state _ c ((placed.spots.picked_iff _ c).mp chosen) with ready | idling
    · simp [ready] at dying
    · exact absurd (idling ▸ dying) (placed.states.idle_alive c)

theorem unblocks_blocked (placed : Placed s spot) {t : T} {exiting : Bool}
    (here : s.pc c = .unblockTestState t exiting) : s.state t = .blocked := by
  have waking : s.wakes c = some t := by
    rw [Scheduler.wakes, here]
    rfl
  have held : s.blockHeld c = some t := by
    rw [Scheduler.blockHeld, here]
    cases exiting <;> rfl
  rcases placed.states.woken_state t c ((placed.spots.woken_iff t c).mp waking) with blocked | ⟨d, rfl, marked⟩
  · exact blocked
  · have held' : s.blockHeld d = some (s.stack d) := by
      rw [Scheduler.mark] at marked
      cases there : s.pc d <;> simp_all [CpuPc.mark, Scheduler.blockHeld, CpuPc.blockHeld, CpuPc.leaving]
    rw [← placed.blockLock.unique held held', Scheduler.mark, here] at marked
    cases marked

theorem picks_ready (placed : Placed s spot) {how : Leave} (here : s.pc c = .scheduleGetReady how) {next : T}
    (linked : next ∈ s.ready) : s.state next = .ready := by
  have own : s.holdsReadyLock c = true := by
    rw [Scheduler.holdsReadyLock, here]
    rfl
  rcases placed.linked_state linked with ready | ⟨d, there, _, _⟩ | ⟨d, exiting, there, _⟩
  · exact ready
  all_goals
    have other : s.holdsReadyLock d = true := by
      rw [Scheduler.holdsReadyLock, there]
      rfl
    rw [placed.readyLock.unique other own, here] at there
    cases there

end Placed

-- The places of the threads, with the overlaps that the two locks protect.
structure Exclusive (s : Scheduler C T) : Prop where
  linked_once : s.ready.Nodup
  current_once : forall c d, s.current c = s.current d -> c = d
  linked_current : forall c, s.current c ∈ s.ready -> s.readyLock = some c
  linked_state : forall t, t ∈ s.ready -> s.state t = .ready ∨
    (∃ c, s.pc c = .yieldSetState ∧ s.current c = t ∧ s.state t = .running) ∨
    ∃ c exiting, s.pc c = .unblockSetState t exiting ∧ s.state t = .blocked
  blocked_current : forall c, s.state (s.current c) = .blocked ->
    s.blockLock (s.current c) = some c ∨ s.current c = s.idle c
  dying_current : forall c, s.state (s.current c) = .dying -> s.leaving c = some .exit
  picked_once : forall c t, s.picked c = some t -> forall d, s.stack d ≠ t ∧ (s.picked d = some t -> d = c)
  idle_unlinked : forall c, s.idle c ∉ s.ready
  unblock_assert : forall c t exiting, s.pc c = .unblockTestState t exiting -> s.state t = .blocked
  getReady_assert : forall c how next rest, s.pc c = .scheduleGetReady how -> s.ready = next :: rest ->
    s.state next = .ready

theorem scheduler_exclusive {s : Scheduler C T} (reached : (scheduler C T).Reachable s) : Exclusive s := by
  obtain ⟨spot, placed⟩ := reachable_placed reached
  constructor
  · exact placed.spots.ready_nodup
  · intro c d same
    exact placed.current_unique same
  · intro c linked
    exact placed.holds_of_yielding (placed.linked_current linked).2
  · intro t linked
    exact placed.linked_state linked
  · intro c blocked
    exact placed.blocked_current blocked
  · intro c dying
    exact (placed.dying_current dying).2
  · intro c t chosen d
    refine ⟨placed.spots.picked_off chosen d, ?_⟩
    intro again
    have spot_t := (placed.spots.picked_iff t c).mp chosen
    rw [(placed.spots.picked_iff t d).mp again] at spot_t
    exact Spot.picked.inj spot_t
  · intro c linked
    have spot_c := (placed.spots.ready_iff _).mp linked
    rcases placed.spots.idle_spot c with off | chosen
    · simp [off] at spot_c
    · simp [chosen] at spot_c
  · intro c t exiting here
    exact placed.unblocks_blocked here
  · intro c how next rest here head
    exact placed.picks_ready here (by rw [head]; exact List.mem_cons_self)

theorem scheduler_exclusive_sample :
    ∃ s, (scheduler (Fin 2) (Fin 5)).Reachable s ∧ s.pc 0 = .unblockTestState 2 false ∧
      s.pc 1 = .yieldSetState ∧ s.ready = [4] ∧ Exclusive s := by
  obtain ⟨s, reached, unblocks, yields, linked⟩ : ∃ s, (scheduler (Fin 2) (Fin 5)).Reachable s ∧
      s.pc 0 = .unblockTestState 2 false ∧ s.pc 1 = .yieldSetState ∧ s.ready = [4] :=
    sampleScheduler_run ([.wait 0] ++ List.replicate 10 (.run 0) ++ [.threadUnblock 0 2, .run 0,
      .threadYield 1, .run 1, .run 1]) (by decide +kernel)
  exact ⟨s, reached, unblocks, yields, linked, scheduler_exclusive reached⟩

def OnePlace (s : Scheduler C T) (t : T) : Prop :=
  (t ∈ s.ready -> forall c, s.current c ≠ t) ∧ (t ∈ s.ready -> s.state t ≠ .blocked ∧ s.state t ≠ .dying) ∧
    forall c, s.current c = t -> s.state t ≠ .blocked ∧ s.state t ≠ .dying

-- ThreadYield links the thread it is still running on.
theorem linked_while_current_sample :
    ¬ forall s, (scheduler (Fin 2) (Fin 5)).Reachable s -> forall t, OnePlace s t := by
  intro claim
  obtain ⟨s, reached, linked, current⟩ : ∃ s, (scheduler (Fin 2) (Fin 5)).Reachable s ∧
      2 ∈ s.ready ∧ s.current 0 = 2 :=
    sampleScheduler_run [.threadYield 0, .run 0, .run 0] (by decide +kernel)
  exact (claim s reached 2).1 linked 0 current

end Hal9000.Kernel
