import Hal9000.Kernel.Sync
import Hal9000.Lib.WaitQueue

set_option autoImplicit false
set_option linter.unusedSectionVars false

namespace Hal9000.Kernel

open Function (update)
open Lib (WaitQueue.State WaitQueue.Phase WaitQueue.Step WaitQueue.Consistent)

variable {T M E P : Type}

def Pc.phase : Pc T M E -> WaitQueue.Phase T (Waitable M E)
  | .acquireClaim m | .acquireLoop m | .acquireUnlock m | .releaseHandOff m | .releaseUnlock m =>
    .holding (.mutex m)
  | .waitInsert e | .signalSet e _ | .signalNext e _ | .signalUnlock e _ => .holding (.event e)
  | .takeBlockLock w => .linked w
  | .unlockObject w => .armed w
  | .blockTestFlags w | .blockSetState w => .falling w
  | .blockSchedule w => .stopped w
  | .blocked w => .asleep w
  | .unblockLock thread caller => .waking caller.object thread
  | .unblockReady thread caller => .rousing caller.object thread
  | .unblockUnlock thread caller => .roused caller.object thread
  | .outside | .acquireTestHolder _ | .acquireRecursive _ | .acquireLock _ | .acquireRelock _
  | .releaseTestDepth _ | .releaseDecrement _ | .releaseLock _ | .waitTest _ _ | .waitLock _
  | .waitWoken _ | .signalLock _ _ | .exitBlockLock | .exitSetState | .exitNotify | .exitSchedule
  | .exited => .free

def System.waitQueues (s : System T M E P) : WaitQueue.State T (Waitable M E) where
  phase t := (s.pc t).phase
  blocked t := s.state t == .blocked
  blockLock := s.blockLock
  lock := s.lock
  waiting := s.waiting

variable [DecidableEq T] [DecidableEq M] [DecidableEq E] [DecidableEq P]

-- ThreadBlock's test of the flags is where a thread that is already linked can still exit.
def Pc.testsBlockFlags : Pc T M E -> Bool
  | .blockTestFlags _ => true
  | _ => false

def NoForcedBlockExit (s : System T M E P) : Label T M E -> Prop
  | .run t => (s.pc t).testsBlockFlags = true -> s.flags t ≠ threadFlagForceTerminatePending
  | _ => True

instance (s : System T M E P) (label : Label T M E) : Decidable (NoForcedBlockExit s label) :=
  match label with
  | .run _ => inferInstanceAs (Decidable (_ = true -> _ ≠ _))
  | .call _ _ | .threadYield _ | .threadTerminate _ => inferInstanceAs (Decidable True)

def WaitQueueStep (s after : System T M E P) (t : T) : Prop :=
  after.waitQueues = s.waitQueues ∨ WaitQueue.Step s.waitQueues t after.waitQueues

section Views

variable {s after : System T M E P} {t : T} {pc : Pc T M E}

def waitQueuesAfter (s after : System T M E P) (t : T) (pc : Pc T M E) :
    WaitQueue.State T (Waitable M E) :=
  { s.waitQueues.goto t pc.phase with
    blocked := after.waitQueues.blocked
    blockLock := after.blockLock
    lock := after.lock
    waiting := after.waiting }

theorem waitQueues_eq (moved : after.pc = update s.pc t pc) :
    after.waitQueues = waitQueuesAfter s after t pc := by
  have phases : (fun u => (after.pc u).phase) = update (fun u => (s.pc u).phase) t pc.phase := by
    funext u
    rw [moved]
    exact Function.apply_update (fun _ => Pc.phase) s.pc t pc u
  simp only [System.waitQueues, waitQueuesAfter, phases, Lib.WaitQueue.State.goto]

theorem blocked_update (s : System T M E P) (t : T) (state : ThreadState) :
    (fun u => update s.state t state u == .blocked) =
      update s.waitQueues.blocked t (state == .blocked) := by
  funext u
  exact Function.apply_update (fun _ (state : ThreadState) => state == .blocked) s.state t state u

theorem waitQueues_moved (moved : after.pc = update s.pc t pc) (same : pc.phase = (s.pc t).phase)
    (state : after.waitQueues.blocked = s.waitQueues.blocked) (blockLock : after.blockLock = s.blockLock)
    (lock : after.lock = s.lock) (waiting : after.waiting = s.waiting) :
    after.waitQueues = s.waitQueues := by
  have phases : update s.waitQueues.phase t (s.waitQueues.phase t) = s.waitQueues.phase :=
    Function.update_eq_self t _
  rw [waitQueues_eq moved, waitQueuesAfter, same, state, blockLock, lock, waiting,
    show (s.pc t).phase = s.waitQueues.phase t from rfl, Lib.WaitQueue.State.goto, phases]
  rfl

end Views

section Steps

variable {s after : System T M E P} {t : T} {w : Waitable M E} {pc : Pc T M E}

theorem waitQueue_step (moved : after.pc = update s.pc t pc)
    (taken : WaitQueue.Step s.waitQueues t (waitQueuesAfter s after t pc)) : WaitQueueStep s after t := by
  right
  rw [waitQueues_eq moved]
  exact taken

theorem waitQueue_step_state {v : T} {state : ThreadState} (moved : after.pc = update s.pc t pc)
    (written : after.state = update s.state v state)
    (taken : WaitQueue.Step s.waitQueues t { waitQueuesAfter s after t pc with
      blocked := update s.waitQueues.blocked v (state == .blocked) }) : WaitQueueStep s after t := by
  apply waitQueue_step moved
  rw [← blocked_update s v state, ← written] at taken
  exact taken

theorem lockAcquire_eq_some (taken : s.lockAcquire t w pc = some after) :
    s.lock w = none ∧ after = { s.goto t pc with lock := update s.lock w (some t) } := by
  unfold System.lockAcquire at taken
  split at taken
  · exact ⟨by assumption, (Option.some.inj taken).symm⟩
  · simp at taken

theorem blockLockAcquire_eq_some {thread : T} (taken : s.blockLockAcquire t thread pc = some after) :
    s.blockLock thread = none ∧
      after = { s.goto t pc with blockLock := update s.blockLock thread (some t) } := by
  unfold System.blockLockAcquire at taken
  split at taken
  · exact ⟨by assumption, (Option.some.inj taken).symm⟩
  · simp at taken

theorem lockAcquire_waitQueues (here : (s.pc t).phase = .free) (target : pc.phase = .holding w)
    (taken : s.lockAcquire t w pc = some after) : WaitQueueStep s after t := by
  obtain ⟨unlocked, rfl⟩ := lockAcquire_eq_some taken
  apply waitQueue_step rfl
  rw [waitQueuesAfter, target]
  exact .enter w here unlocked

theorem lockRelease_waitQueues (here : (s.pc t).phase = .holding w) (target : pc.phase = .free) :
    WaitQueueStep s (s.lockRelease t w pc) t := by
  apply waitQueue_step rfl
  rw [waitQueuesAfter, target]
  exact .leave w here

theorem goto_waitQueues (same : pc.phase = (s.pc t).phase) : WaitQueueStep s (s.goto t pc) t :=
  .inl (waitQueues_moved rfl same rfl rfl rfl rfl)

end Steps

section Run

variable {s after : System T M E P} {t : T}

section Free

theorem not_blocked_of_free (consistent : WaitQueue.Consistent s.waitQueues)
    (free : (s.pc t).phase = .free) : s.waitQueues.blocked t = false := by
  by_contra blocked
  have resting := consistent.resting_of_blocked t (by simpa using blocked)
  simp [System.waitQueues, free, Lib.WaitQueue.Phase.resting] at resting

theorem blockLock_ne_self_of_free (consistent : WaitQueue.Consistent s.waitQueues)
    (free : (s.pc t).phase = .free) : s.blockLock t ≠ some t := by
  intro own
  have held := (consistent.blockLock_iff t t).mp own
  simp [System.waitQueues, free, Lib.WaitQueue.Phase.blockHeld] at held

theorem interruptible_free {pc : Pc T M E} (interruptible : System.interruptible pc = true) :
    pc.phase = .free := by
  cases pc <;> simp_all [System.interruptible, Pc.phase]

end Free

theorem blocked_update_of_free (consistent : WaitQueue.Consistent s.waitQueues)
    (free : (s.pc t).phase = .free) {state : ThreadState} (other : (state == .blocked) = false) :
    (fun u => update s.state t state u == .blocked) = s.waitQueues.blocked := by
  rw [blocked_update, other, ← not_blocked_of_free consistent free]
  exact Function.update_eq_self t _

theorem runStep_waitQueues (consistent : WaitQueue.Consistent s.waitQueues)
    (met : NoForcedBlockExit s (.run t)) (taken : s.runStep t = some after) : WaitQueueStep s after t := by
  cases here : s.pc t with
  | outside | exited => simp [System.runStep, here] at taken
  | acquireTestHolder m | waitWoken m | exitSchedule =>
    simp only [System.runStep, here, Option.some.injEq] at taken
    subst taken
    apply goto_waitQueues
    rw [here]
    first | rfl | split <;> rfl
  | acquireRecursive m =>
    simp only [System.runStep, here] at taken
    split at taken
    · rw [← Option.some.inj taken]
      exact .inl (waitQueues_moved rfl (by rw [here]; rfl) rfl rfl rfl rfl)
    · simp at taken
  | releaseTestDepth m =>
    simp only [System.runStep, here] at taken
    split at taken
    · rw [← Option.some.inj taken]
      apply goto_waitQueues
      rw [here]
      split <;> rfl
    · simp at taken
  | acquireClaim m | waitTest m woken =>
    simp only [System.runStep, here] at taken
    split at taken
    all_goals
      rw [← Option.some.inj taken]
      exact .inl (waitQueues_moved rfl (by rw [here]; rfl) rfl rfl rfl rfl)
  | releaseDecrement m | signalSet e caller =>
    simp only [System.runStep, here, Option.some.injEq] at taken
    subst taken
    exact .inl (waitQueues_moved rfl (by rw [here]; rfl) rfl rfl rfl rfl)
  | exitNotify =>
    simp only [System.runStep, here, Option.some.injEq] at taken
    subst taken
    refine .inl (waitQueues_moved rfl ?_ rfl rfl rfl rfl)
    rw [here]
    split <;> rfl
  | exitSetState =>
    simp only [System.runStep, here, Option.some.injEq] at taken
    subst taken
    exact .inl (waitQueues_moved rfl (by rw [here]; rfl)
      (blocked_update_of_free consistent (by rw [here]; rfl) rfl) rfl rfl rfl)
  | exitBlockLock =>
    have other := blockLock_ne_self_of_free consistent (t := t) (by rw [here]; rfl)
    simp only [System.runStep, here, if_neg other, Option.some.injEq] at taken
    subst taken
    exact goto_waitQueues (by rw [here]; rfl)
  | acquireLock m | acquireRelock m | releaseLock m | waitLock e | signalLock e caller =>
    simp only [System.runStep, here] at taken
    exact lockAcquire_waitQueues (by rw [here]; rfl) rfl taken
  | releaseUnlock m | signalUnlock e caller =>
    simp only [System.runStep, here, Option.some.injEq] at taken
    subst taken
    exact lockRelease_waitQueues (by rw [here]; rfl) (by first | rfl | cases caller <;> rfl)
  | acquireUnlock m =>
    simp only [System.runStep, here, Option.some.injEq] at taken
    subst taken
    exact (lockRelease_waitQueues (by rw [here]; rfl) rfl :
      WaitQueueStep s (s.lockRelease t (.mutex m) .outside) t)
  | acquireLoop m =>
    simp only [System.runStep, here] at taken
    split at taken
    · rw [← Option.some.inj taken]
      exact goto_waitQueues (by rw [here]; rfl)
    · rw [← Option.some.inj taken]
      exact waitQueue_step rfl (.link (Waitable.mutex m) (congrArg Pc.phase here))
  | waitInsert e =>
    simp only [System.runStep, here, Option.some.injEq] at taken
    subst taken
    exact waitQueue_step rfl (.link (Waitable.event e) (congrArg Pc.phase here))
  | takeBlockLock w =>
    simp only [System.runStep, here] at taken
    obtain ⟨unlocked, rfl⟩ := blockLockAcquire_eq_some taken
    exact waitQueue_step rfl (.arm w (congrArg Pc.phase here) unlocked)
  | unlockObject w =>
    simp only [System.runStep, here, Option.some.injEq] at taken
    subst taken
    exact waitQueue_step rfl (.fall w (congrArg Pc.phase here))
  | blockTestFlags w =>
    simp only [System.runStep, here, if_neg (met (by rw [here]; rfl)), Option.some.injEq] at taken
    subst taken
    exact goto_waitQueues (by rw [here]; rfl)
  | blockSetState w =>
    simp only [System.runStep, here, Option.some.injEq] at taken
    subst taken
    exact waitQueue_step_state rfl rfl (.stop w (congrArg Pc.phase here))
  | blockSchedule w =>
    simp only [System.runStep, here, Option.some.injEq] at taken
    subst taken
    exact waitQueue_step rfl (.sleep w (congrArg Pc.phase here))
  | blocked w =>
    simp only [System.runStep, here] at taken
    split at taken
    · rename_i ready
      have awake : s.waitQueues.blocked t = false := by
        simp only [System.waitQueues, ready]
        rfl
      rw [← Option.some.inj taken]
      cases w with
      | mutex m => exact waitQueue_step rfl (.resume (Waitable.mutex m) (congrArg Pc.phase here) awake)
      | event e => exact waitQueue_step rfl (.resume (Waitable.event e) (congrArg Pc.phase here) awake)
    · simp at taken
  | releaseHandOff m =>
    simp only [System.runStep, here] at taken
    split at taken
    · rw [← Option.some.inj taken]
      exact .inl (waitQueues_moved rfl (by rw [here]; rfl) rfl rfl rfl rfl)
    · rename_i first rest head
      rw [← Option.some.inj taken]
      exact waitQueue_step rfl (.pop (Waitable.mutex m) first rest (congrArg Pc.phase here) head)
  | signalNext e caller =>
    simp only [System.runStep, here] at taken
    split at taken
    · rw [← Option.some.inj taken]
      exact .inl (waitQueues_moved rfl (by rw [here]; rfl) rfl rfl rfl rfl)
    · rename_i first rest head
      rw [← Option.some.inj taken]
      exact waitQueue_step rfl (.pop (Waitable.event e) first rest (congrArg Pc.phase here) head)
  | unblockLock thread caller =>
    simp only [System.runStep, here] at taken
    obtain ⟨unlocked, rfl⟩ := blockLockAcquire_eq_some taken
    exact waitQueue_step rfl (.rouse caller.object thread (congrArg Pc.phase here) unlocked)
  | unblockReady thread caller =>
    simp only [System.runStep, here] at taken
    split at taken
    · rw [← Option.some.inj taken]
      exact waitQueue_step_state rfl rfl (.ready caller.object thread (congrArg Pc.phase here))
    · simp at taken
  | unblockUnlock thread caller =>
    have target : (s.afterUnblock caller).phase = .holding caller.object := by
      cases caller with
      | release m => rfl
      | signal e caller =>
        simp only [System.afterUnblock]
        split <;> rfl
    simp only [System.runStep, here, Option.some.injEq] at taken
    subst taken
    apply waitQueue_step rfl
    rw [waitQueuesAfter, target]
    exact .drop caller.object thread (congrArg Pc.phase here)

theorem step_waitQueues {label : Label T M E} (consistent : WaitQueue.Consistent s.waitQueues)
    (met : NoForcedBlockExit s label) (taken : s.step label = some after) : ∃ t, WaitQueueStep s after t := by
  cases label with
  | run t => exact ⟨t, runStep_waitQueues consistent met taken⟩
  | call t function =>
    refine ⟨t, ?_⟩
    simp only [System.step] at taken
    split at taken
    · rename_i here
      rw [← Option.some.inj taken]
      cases function with
      | exEventClearSignal e => exact .inl rfl
      | _ => exact goto_waitQueues (by rw [here]; rfl)
    · simp at taken
  | threadYield t =>
    refine ⟨t, ?_⟩
    simp only [System.step] at taken
    split at taken
    · rename_i interruptible
      have free := interruptible_free interruptible
      rw [← Option.some.inj taken, System.yieldStep]
      split
      · exact .inl (waitQueues_moved rfl (by rw [free]; rfl) rfl rfl rfl rfl)
      · have awake : (fun u => update s.state t .ready u == .blocked) = s.waitQueues.blocked :=
          blocked_update_of_free consistent free rfl
        left
        simp only [System.waitQueues] at awake ⊢
        rw [awake]
    · simp at taken
  | threadTerminate t =>
    refine ⟨t, .inl ?_⟩
    simp only [System.step, Option.some.injEq] at taken
    subst taken
    rfl

theorem step_consistent {label : Label T M E} (consistent : WaitQueue.Consistent s.waitQueues)
    (met : NoForcedBlockExit s label) (taken : s.step label = some after) :
    WaitQueue.Consistent after.waitQueues := by
  obtain ⟨t, same | step⟩ := step_waitQueues consistent met taken
  · rw [same]
    exact consistent
  · exact consistent.step step

end Run

theorem initial_consistent {s : System T M E P} (initial : s.Initial) : WaitQueue.Consistent s.waitQueues := by
  have blocked (t : T) : (s.state t == .blocked) = false := by
    rcases initial.state t with state | state <;> rw [state] <;> rfl
  constructor
  all_goals
    simp [System.waitQueues, initial.pc, initial.waiting, initial.lock, initial.blockLock, blocked, Pc.phase,
      Lib.WaitQueue.Phase.critical, Lib.WaitQueue.Phase.blockHeld, Lib.WaitQueue.Phase.sleeping,
      Lib.WaitQueue.Phase.wakes]

end Hal9000.Kernel
