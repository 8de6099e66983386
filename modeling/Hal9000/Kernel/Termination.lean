import Hal9000.Kernel.Waiting

set_option autoImplicit false
set_option linter.unusedSectionVars false

namespace Hal9000.Kernel

open Function (update)

variable {T M E P : Type}

def SignalCaller.exits : SignalCaller -> Bool
  | .thread => false
  | .exitThread | .exitProcess => true

-- After ThreadExit has written ThreadStateDying.
def Pc.exiting : Pc T M E -> Bool
  | .signalLock _ caller | .signalSet _ caller | .signalNext _ caller | .signalUnlock _ caller => caller.exits
  | .unblockLock _ (.signal _ caller) | .unblockReady _ (.signal _ caller)
  | .unblockUnlock _ (.signal _ caller) => caller.exits
  | .exitNotify | .exitSchedule | .exited => true
  | _ => false

def DyingExits (s : System T M E P) : Prop :=
  forall t, s.state t = .dying -> (s.pc t).exiting = true

variable [DecidableEq T] [DecidableEq M] [DecidableEq E] [DecidableEq P]

section Steps

variable {s after : System T M E P} {t : T}

theorem dyingExits_moved {pc : Pc T M E} (held : DyingExits s) (moved : after.pc = update s.pc t pc)
    (others : forall u, u ≠ t -> after.state u = .dying -> s.state u = .dying)
    (self : after.state t = .dying -> pc.exiting = true) : DyingExits after := by
  intro u dying
  rw [moved]
  by_cases same : u = t
  · subst same
    simpa using self dying
  · rw [Function.update_of_ne same]
    exact held u (others u same dying)

theorem dyingExits_goto {pc : Pc T M E} (held : DyingExits s) (moved : after.pc = update s.pc t pc)
    (state : after.state = s.state) (closed : (s.pc t).exiting = true -> pc.exiting = true) :
    DyingExits after := by
  apply dyingExits_moved held moved
  · intro u _ dying
    rwa [state] at dying
  · intro dying
    rw [state] at dying
    exact closed (held t dying)

theorem dyingExits_stays {pc : Pc T M E} (held : DyingExits s) (moved : after.pc = update s.pc t pc)
    (state : after.state = s.state) (stays : (s.pc t).exiting = false) : DyingExits after := by
  apply dyingExits_goto held moved state
  intro exiting
  rw [stays] at exiting
  cases exiting

theorem runStep_dyingExits (held : DyingExits s) (taken : s.runStep t = some after) : DyingExits after := by
  cases here : s.pc t with
  | outside | exited => simp [System.runStep, here] at taken
  | acquireTestHolder m | acquireUnlock m | releaseDecrement m | releaseUnlock m | waitInsert e
  | waitWoken e | unlockObject w | blockSchedule w =>
    simp only [System.runStep, here, Option.some.injEq] at taken
    subst taken
    exact dyingExits_stays held rfl rfl (by rw [here]; rfl)
  | acquireRecursive m | acquireClaim m | acquireLoop m | releaseTestDepth m | releaseHandOff m
  | waitTest e woken | blockTestFlags w | blocked w | exitBlockLock =>
    simp only [System.runStep, here] at taken
    split at taken
    all_goals first
      | rw [← Option.some.inj taken]
        exact dyingExits_stays held rfl rfl (by rw [here]; rfl)
      | simp at taken
  | acquireLock m | acquireRelock m | releaseLock m | waitLock e =>
    simp only [System.runStep, here] at taken
    obtain ⟨_, rfl⟩ := lockAcquire_eq_some taken
    exact dyingExits_stays held rfl rfl (by rw [here]; rfl)
  | takeBlockLock w =>
    simp only [System.runStep, here] at taken
    obtain ⟨_, rfl⟩ := blockLockAcquire_eq_some taken
    exact dyingExits_stays held rfl rfl (by rw [here]; rfl)
  | signalLock e caller =>
    simp only [System.runStep, here] at taken
    obtain ⟨_, rfl⟩ := lockAcquire_eq_some taken
    exact dyingExits_goto held rfl rfl (by rw [here]; exact id)
  | signalSet e caller | exitSchedule =>
    simp only [System.runStep, here, Option.some.injEq] at taken
    subst taken
    exact dyingExits_goto held rfl rfl (by rw [here]; exact id)
  | signalNext e caller =>
    simp only [System.runStep, here] at taken
    split at taken
    all_goals
      rw [← Option.some.inj taken]
      exact dyingExits_goto held rfl rfl (by rw [here]; exact id)
  | signalUnlock e caller =>
    simp only [System.runStep, here, Option.some.injEq] at taken
    subst taken
    refine dyingExits_goto held rfl rfl ?_
    rw [here]
    cases caller <;> simp [Pc.exiting, SignalCaller.exits, System.afterSignal]
  | unblockLock thread caller =>
    simp only [System.runStep, here] at taken
    obtain ⟨_, rfl⟩ := blockLockAcquire_eq_some taken
    refine dyingExits_goto held rfl rfl ?_
    rw [here]
    cases caller <;> exact id
  | unblockUnlock thread caller =>
    simp only [System.runStep, here, Option.some.injEq] at taken
    subst taken
    refine dyingExits_goto held rfl rfl ?_
    rw [here]
    cases caller with
    | release m =>
      intro exiting
      cases exiting
    | signal e caller =>
      simp only [System.afterUnblock]
      split <;> exact id
  | exitNotify =>
    simp only [System.runStep, here, Option.some.injEq] at taken
    subst taken
    refine dyingExits_goto held rfl rfl ?_
    intro _
    split <;> rfl
  | blockSetState w | exitSetState =>
    simp only [System.runStep, here, Option.some.injEq] at taken
    subst taken
    refine dyingExits_moved held rfl ?_ ?_
    · intro u other dying
      simpa [other] using dying
    · simp [Pc.exiting, SignalCaller.exits]
  | unblockReady thread caller =>
    simp only [System.runStep, here] at taken
    split at taken
    · rw [← Option.some.inj taken]
      have woken (u : T) (dying : update s.state thread .ready u = .dying) : s.state u = .dying := by
        by_cases same : u = thread
        · simp [same] at dying
        · simpa [same] using dying
      refine dyingExits_moved held rfl ?_ ?_
      · exact fun u _ => woken u
      · intro dying
        have exiting := held t (woken t dying)
        rw [here] at exiting
        cases caller <;> exact exiting
    · simp at taken

theorem step_dyingExits {label : Label T M E} (held : DyingExits s) (taken : s.step label = some after) :
    DyingExits after := by
  cases label with
  | run t => exact runStep_dyingExits held taken
  | call t function =>
    simp only [System.step] at taken
    split at taken
    · rename_i here
      rw [← Option.some.inj taken]
      cases function with
      | exEventClearSignal e => exact held
      | _ => exact dyingExits_stays held rfl rfl (by rw [here]; rfl)
    · simp at taken
  | threadYield t =>
    simp only [System.step] at taken
    split at taken
    · rename_i interruptible
      have alive : (s.pc t).exiting = false := by
        cases here : s.pc t with
        | signalLock e caller => cases caller <;> simp_all [System.interruptible, Pc.exiting, SignalCaller.exits]
        | _ => simp_all [System.interruptible, Pc.exiting]
      rw [← Option.some.inj taken, System.yieldStep]
      split
      · exact dyingExits_stays held rfl rfl alive
      · intro u dying
        by_cases same : u = t
        · simp [same] at dying
        · exact held u (by simpa [same] using dying)
    · simp at taken
  | threadTerminate t =>
    simp only [System.step, Option.some.injEq] at taken
    subst taken
    exact held

end Steps

theorem reachable_dyingExits {s : System T M E P} (reached : (system T M E P).Reachable s) : DyingExits s := by
  refine reached.invariant ?_ ?_
  · intro s initial t dying
    rcases initial.state t with state | state <;> simp [state] at dying
  · intro s label after held taken
    exact step_dyingExits held taken

theorem reachable_consistent {s : System T M E P}
    (reached : (system T M E P).ReachableUnder NoForcedBlockExit s) :
    Lib.WaitQueue.Consistent s.waitQueues := by
  induction reached with
  | start s initial => exact initial_consistent initial
  | next s label after _ met taken consistent => exact step_consistent consistent met taken

theorem not_exiting_of_sleeping {pc : Pc T M E} {w : Waitable M E} (sleeping : pc.phase.sleeping = some w) :
    pc.exiting = false := by
  cases pc <;> simp_all [Pc.phase, Lib.WaitQueue.Phase.sleeping, Pc.exiting]

theorem no_dead_waiter {s : System T M E P}
    (reached : (system T M E P).ReachableUnder NoForcedBlockExit s) :
    (forall w t, t ∈ s.waiting w -> s.state t ≠ .dying) ∧
      (forall t m after v, s.pc t = .releaseHandOff m -> s.step (.run t) = some after ->
        after.holder m = some v -> after.state v ≠ .dying) ∧
      (forall t v caller, s.pc t = .unblockReady v caller -> s.state v = .blocked) := by
  have consistent := reachable_consistent reached
  have dying := reachable_dyingExits reached.reachable
  have alive (w : Waitable M E) (t : T) (linked : t ∈ s.waiting w) : s.state t ≠ .dying := by
    intro dead
    have awake := not_exiting_of_sleeping (consistent.sleeping_of_mem w t linked)
    rw [dying t dead] at awake
    exact Bool.false_ne_true awake.symm
  refine ⟨alive, ?_, ?_⟩
  · intro t m after v here taken holder
    simp only [System.step, System.runStep, here] at taken
    split at taken
    · rw [← Option.some.inj taken] at holder
      simp at holder
    · rename_i first rest head
      rw [← Option.some.inj taken] at holder ⊢
      simp only [Function.update_self, Option.some.injEq] at holder
      subst holder
      exact alive (.mutex m) first (by rw [head]; exact List.mem_cons_self)
  · intro t v caller here
    have blocked := (consistent.asleep_of_rousing (t := t) (congrArg Pc.phase here)).2
    simpa [System.waitQueues] using blocked

theorem no_dead_waiter_sample :
    ∃ s, (system (Fin 2) Unit (Fin 4) Unit).ReachableUnder NoForcedBlockExit s ∧
      s.flags 1 = threadFlagForceTerminatePending ∧ 1 ∈ s.waiting (.mutex ()) ∧ s.state 1 ≠ .dying := by
  obtain ⟨s, reached, flags, linked⟩ : ∃ s,
      (system (Fin 2) Unit (Fin 4) Unit).ReachableUnder NoForcedBlockExit s ∧
        s.flags 1 = threadFlagForceTerminatePending ∧ 1 ∈ s.waiting (.mutex ()) :=
    runSample_reachable .notification (mutexContended ++ [.run 1, .threadTerminate 1]) (by decide)
  exact ⟨s, reached, flags, linked, (no_dead_waiter reached).1 _ _ linked⟩

-- The flag is set between the two steps of thread 1, which then exits without unlinking itself.
theorem dead_waiter_sample :
    ¬ forall s, (system (Fin 2) Unit (Fin 4) Unit).Reachable s ->
      forall w t, t ∈ s.waiting w -> s.state t ≠ .dying := by
  intro claim
  obtain ⟨s, reached, linked, dead⟩ : ∃ s, (system (Fin 2) Unit (Fin 4) Unit).Reachable s ∧
      1 ∈ s.waiting (.mutex ()) ∧ s.state 1 = .dying :=
    runSample_reachable .notification (mutexContended ++ [.threadTerminate 1, .run 1, .run 1, .run 1])
      (by decide)
  exact claim s reached (.mutex ()) 1 linked dead

end Hal9000.Kernel
