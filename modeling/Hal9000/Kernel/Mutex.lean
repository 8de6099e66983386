import Hal9000.Kernel.Waiting

set_option autoImplicit false
set_option linter.unusedSectionVars false

namespace Hal9000.Kernel

open Function (update)
open Lib (WaitQueue.Consistent)

variable {T M E P : Type}

inductive MutexRole where
  | recursing
  | contending
  | looping
  | sleeping
  | relocking
  | granted
  | releasing
  | decrementing
  | handing
  deriving DecidableEq, Repr

def Pc.mutexRole : Pc T M E -> Option (M × MutexRole)
  | .acquireRecursive m => some (m, .recursing)
  | .acquireLock m | .acquireClaim m => some (m, .contending)
  | .acquireLoop m => some (m, .looping)
  | .takeBlockLock (.mutex m) | .unlockObject (.mutex m) | .blockTestFlags (.mutex m)
  | .blockSetState (.mutex m) | .blockSchedule (.mutex m) | .blocked (.mutex m) => some (m, .sleeping)
  | .acquireRelock m => some (m, .relocking)
  | .acquireUnlock m => some (m, .granted)
  | .releaseTestDepth m => some (m, .releasing)
  | .releaseDecrement m => some (m, .decrementing)
  | .releaseLock m | .releaseHandOff m => some (m, .handing)
  | _ => none

-- Inside MutexAcquire, at or behind the loop: a thread that is the holder there has not returned yet.
def MutexRole.acquiring : MutexRole -> Bool
  | .looping | .sleeping | .relocking | .granted => true
  | .recursing | .contending | .releasing | .decrementing | .handing => false

structure Mutexes (T M : Type) where
  role : T -> Option (M × MutexRole)
  holder : M -> Option T
  depth : M -> Nat
  waiting : M -> List T
  acquired : T -> M -> Nat
  enqueued : M -> List T
  handedOff : M -> List T

def System.mutexes (s : System T M E P) : Mutexes T M where
  role t := (s.pc t).mutexRole
  holder := s.holder
  depth := s.currentRecursivityDepth
  waiting m := s.waiting (.mutex m)
  acquired := s.acquired
  enqueued := s.enqueued
  handedOff := s.handedOff

variable [DecidableEq T] [DecidableEq M] [DecidableEq E] [DecidableEq P]

def acquires (m : M) : Option (M × MutexRole) -> Bool
  | none => false
  | some (other, role) => decide (other = m) && role.acquiring

namespace Mutexes

structure Correct (s : Mutexes T M) : Prop where
  holder_of_acquired : forall t m, 0 < s.acquired t m -> s.holder m = some t
  depth_eq : forall t m, s.holder m = some t ->
    s.depth m = s.acquired t m + (acquires m (s.role t)).toNat
  none_of_acquires : forall t m, acquires m (s.role t) = true -> s.acquired t m = 0
  recursing : forall t m, s.role t = some (m, .recursing) -> s.holder m = some t
  contending : forall t m, s.role t = some (m, .contending) -> s.holder m ≠ some t
  looping : forall t m, s.role t = some (m, .looping) -> s.holder m ≠ none
  granted : forall t m, s.role t = some (m, .granted) -> s.holder m = some t
  relocking : forall t m, s.role t = some (m, .relocking) -> s.holder m = some t
  linked_iff : forall t m, s.role t = some (m, .sleeping) -> (t ∈ s.waiting m ↔ s.holder m ≠ some t)
  sleeping : forall t m, t ∈ s.waiting m -> s.role t = some (m, .sleeping)
  held_of_waiting : forall m, s.waiting m ≠ [] -> s.holder m ≠ none
  releasing : forall t m, s.role t = some (m, .releasing) -> 0 < s.acquired t m
  decrementing : forall t m, s.role t = some (m, .decrementing) -> s.holder m = some t ∧ 1 < s.depth m
  handing : forall t m, s.role t = some (m, .handing) -> s.holder m = some t ∧ s.depth m = 1
  history : forall m, s.enqueued m = s.handedOff m ++ s.waiting m

namespace Correct

variable {s : Mutexes T M} {t : T} {m : M}

attribute [local grind =] acquires MutexRole.acquiring

section Moves

variable (correct : s.Correct)
include correct

theorem testHolder (here : s.role t = none) :
    Correct { s with
      role := update s.role t
        (if s.holder m = some t then some (m, .recursing) else some (m, .contending)) } := by
  obtain ⟨_, _, _, _, _, _, _, _, _, _, _, _, _, _, _⟩ := correct
  constructor <;> simp only [Function.update_apply] <;> grind

theorem keepHolder (here : s.role t = some (m, .contending)) (held : s.holder m ≠ none) :
    Correct { s with role := update s.role t (some (m, .looping)) } := by
  obtain ⟨_, _, _, _, _, _, _, _, _, _, _, _, _, _, _⟩ := correct
  constructor <;> simp only [Function.update_apply] <;> grind

theorem leaveLoop (here : s.role t = some (m, .looping)) (own : s.holder m = some t) :
    Correct { s with role := update s.role t (some (m, .granted)) } := by
  obtain ⟨_, _, _, _, _, _, _, _, _, _, _, _, _, _, _⟩ := correct
  constructor <;> simp only [Function.update_apply] <;> grind

theorem wake (here : s.role t = some (m, .sleeping)) (unlinked : t ∉ s.waiting m) :
    Correct { s with role := update s.role t (some (m, .relocking)) } := by
  obtain ⟨_, _, _, _, _, _, _, _, _, _, _, _, _, _, _⟩ := correct
  constructor <;> simp only [Function.update_apply] <;> grind

theorem relock (here : s.role t = some (m, .relocking)) :
    Correct { s with role := update s.role t (some (m, .looping)) } := by
  obtain ⟨_, _, _, _, _, _, _, _, _, _, _, _, _, _, _⟩ := correct
  constructor <;> simp only [Function.update_apply] <;> grind

theorem startRelease (here : s.role t = none) (owned : 0 < s.acquired t m) :
    Correct { s with role := update s.role t (some (m, .releasing)) } := by
  obtain ⟨_, _, _, _, _, _, _, _, _, _, _, _, _, _, _⟩ := correct
  constructor <;> simp only [Function.update_apply] <;> grind

theorem testDepth (here : s.role t = some (m, .releasing)) (own : s.holder m = some t) :
    Correct { s with
      role := update s.role t
        (if 1 < s.depth m then some (m, .decrementing) else some (m, .handing)) } := by
  obtain ⟨_, _, _, _, _, _, _, _, _, _, _, _, _, _, _⟩ := correct
  constructor <;> simp only [Function.update_apply] <;> grind

end Moves

theorem recurse (correct : s.Correct) (here : s.role t = some (m, .recursing)) :
    Correct { s with
      role := update s.role t none
      depth := update s.depth m (s.depth m + 1)
      acquired := update s.acquired t (update (s.acquired t) m (s.acquired t m + 1)) } := by
  obtain ⟨_, _, _, _, _, _, _, _, _, _, _, _, _, _, _⟩ := correct
  constructor <;> simp only [Function.update_apply] <;> grind

theorem claim (correct : s.Correct) (here : s.role t = some (m, .contending)) (free : s.holder m = none) :
    Correct { s with
      role := update s.role t (some (m, .looping))
      holder := update s.holder m (some t)
      depth := update s.depth m 1 } := by
  obtain ⟨_, _, _, _, _, _, _, _, _, _, _, _, _, _, _⟩ := correct
  constructor <;> simp only [Function.update_apply] <;> grind

theorem enqueue (correct : s.Correct) (here : s.role t = some (m, .looping)) (other : s.holder m ≠ some t) :
    Correct { s with
      role := update s.role t (some (m, .sleeping))
      waiting := update s.waiting m (s.waiting m ++ [t])
      enqueued := update s.enqueued m (s.enqueued m ++ [t]) } := by
  obtain ⟨_, _, _, _, _, _, _, _, _, _, _, _, _, _, _⟩ := correct
  constructor <;> simp only [Function.update_apply] <;> grind

theorem acquireReturn (correct : s.Correct) (here : s.role t = some (m, .granted)) :
    Correct { s with
      role := update s.role t none
      acquired := update s.acquired t (update (s.acquired t) m (s.acquired t m + 1)) } := by
  obtain ⟨_, _, _, _, _, _, _, _, _, _, _, _, _, _, _⟩ := correct
  constructor <;> simp only [Function.update_apply] <;> grind

theorem decrement (correct : s.Correct) (here : s.role t = some (m, .decrementing)) :
    Correct { s with
      role := update s.role t none
      depth := update s.depth m (s.depth m - 1)
      acquired := update s.acquired t (update (s.acquired t) m (s.acquired t m - 1)) } := by
  obtain ⟨_, _, _, _, _, _, _, _, _, _, _, _, _, _, _⟩ := correct
  constructor <;> simp only [Function.update_apply] <;> grind

theorem acquired_of_handing (correct : s.Correct) (here : s.role t = some (m, .handing)) :
    s.acquired t m = 1 := by
  obtain ⟨own, depth⟩ := correct.handing t m here
  have count := correct.depth_eq t m own
  simp only [here, acquires, MutexRole.acquiring, Bool.and_false, Bool.toNat_false] at count
  omega

-- A thread at the loop would be left with a mutex nobody holds, but it has the mutex's lock.
theorem handOffNone (correct : s.Correct) (here : s.role t = some (m, .handing))
    (alone : forall u, s.role u ≠ some (m, .looping)) (empty : s.waiting m = []) :
    Correct { s with
      role := update s.role t none
      holder := update s.holder m none
      acquired := update s.acquired t (update (s.acquired t) m (s.acquired t m - 1)) } := by
  have one := correct.acquired_of_handing here
  obtain ⟨_, _, _, _, _, _, _, _, _, _, _, _, _, _, _⟩ := correct
  constructor <;> simp only [Function.update_apply] <;> grind

theorem handOff (correct : s.Correct) (here : s.role t = some (m, .handing)) {first : T} {rest : List T}
    (head : s.waiting m = first :: rest) (nodup : (s.waiting m).Nodup) :
    Correct { s with
      role := update s.role t none
      holder := update s.holder m (some first)
      depth := update s.depth m 1
      waiting := update s.waiting m rest
      acquired := update s.acquired t (update (s.acquired t) m (s.acquired t m - 1))
      handedOff := update s.handedOff m (s.handedOff m ++ [first]) } := by
  have one := correct.acquired_of_handing here
  have sleeping := correct.sleeping first m (by rw [head]; exact List.mem_cons_self)
  have fresh := correct.none_of_acquires first m (by rw [sleeping]; simp [acquires, MutexRole.acquiring])
  rw [head, List.nodup_cons] at nodup
  obtain ⟨_, _, _, _, _, _, _, _, _, _, _, _, _, _, _⟩ := correct
  constructor <;> simp only [Function.update_apply] <;> grind

end Correct

end Mutexes

section Views

variable {s after : System T M E P} {t : T} {pc : Pc T M E}

def mutexesAfter (s after : System T M E P) (t : T) (role : Option (M × MutexRole)) : Mutexes T M :=
  { after.mutexes with role := update s.mutexes.role t role }

theorem mutexes_eq (moved : after.pc = update s.pc t pc) :
    after.mutexes = mutexesAfter s after t pc.mutexRole := by
  have roles : (fun u => (after.pc u).mutexRole) = update (fun u => (s.pc u).mutexRole) t pc.mutexRole := by
    funext u
    rw [moved]
    exact Function.apply_update (fun _ => Pc.mutexRole) s.pc t pc u
  simp only [System.mutexes, mutexesAfter, roles]

theorem mutexes_step (moved : after.pc = update s.pc t pc)
    (correct : (mutexesAfter s after t pc.mutexRole).Correct) : after.mutexes.Correct := by
  rw [mutexes_eq moved]
  exact correct

theorem mutexes_moved (correct : s.mutexes.Correct) (moved : after.pc = update s.pc t pc)
    (same : pc.mutexRole = (s.pc t).mutexRole) (holder : after.holder = s.holder)
    (depth : after.currentRecursivityDepth = s.currentRecursivityDepth)
    (waiting : forall m, after.waiting (.mutex m) = s.waiting (.mutex m))
    (acquired : after.acquired = s.acquired) (enqueued : after.enqueued = s.enqueued)
    (handedOff : after.handedOff = s.handedOff) : after.mutexes.Correct := by
  have unchanged : after.mutexes = s.mutexes := by
    have roles : update s.mutexes.role t pc.mutexRole = s.mutexes.role := by
      rw [same]
      exact Function.update_eq_self t _
    rw [mutexes_eq moved, mutexesAfter, roles]
    simp only [System.mutexes, holder, depth, waiting, acquired, enqueued, handedOff]
  rw [unchanged]
  exact correct

end Views

def MutexDiscipline (s : System T M E P) : Label T M E -> Prop
  | .call t (.mutexAcquire m) => s.acquired t m < s.maxRecursivityDepth m
  | .call t (.mutexRelease m) => 0 < s.acquired t m
  | .threadTerminate _ => False
  | _ => True

instance (s : System T M E P) (label : Label T M E) : Decidable (MutexDiscipline s label) :=
  match label with
  | .call _ (.mutexAcquire _) | .call _ (.mutexRelease _) => inferInstanceAs (Decidable (_ < _))
  | .threadTerminate _ => inferInstanceAs (Decidable False)
  | .call _ (.exEventWaitForSignal _) | .call _ (.exEventSignal _) | .call _ (.exEventClearSignal _)
  | .call _ .threadExit | .run _ | .threadYield _ => inferInstanceAs (Decidable True)

section Run

variable {s after : System T M E P} {t : T}

theorem waiting_update (s : System T M E P) (m : M) (list : List T) :
    (fun other => update s.waiting (.mutex m) list (.mutex other)) = update s.mutexes.waiting m list := by
  funext other
  by_cases same : other = m
  · subst same
    simp
  · simp [same, System.mutexes]

theorem critical_of_looping {u : T} {m : M} (looping : s.mutexes.role u = some (m, .looping)) :
    (s.waitQueues.phase u).critical = some (.mutex m) := by
  simp only [System.mutexes] at looping
  simp only [System.waitQueues]
  cases here : s.pc u with
  | acquireLoop other =>
    rw [here] at looping
    simp only [Pc.mutexRole, Option.some.injEq, Prod.mk.injEq, and_true] at looping
    rw [looping]
    rfl
  | takeBlockLock w | unlockObject w | blockTestFlags w | blockSetState w | blockSchedule w | blocked w =>
    cases w <;> simp [here, Pc.mutexRole] at looping
  | _ => simp [here, Pc.mutexRole] at looping

theorem critical_of_handOff {m : M} (here : s.pc t = .releaseHandOff m) :
    (s.waitQueues.phase t).critical = some (.mutex m) := by
  simp only [System.waitQueues, here]
  rfl

theorem runStep_flags (running : s.flags t ≠ threadFlagForceTerminatePending)
    (taken : s.runStep t = some after) : after.flags = s.flags := by
  simp only [System.runStep, System.lockAcquire, System.blockLockAcquire, if_neg running] at taken
  split at taken
  all_goals
    (repeat' split at taken)
    all_goals first
      | (rw [← Option.some.inj taken]; rfl)
      | simp at taken

theorem runStep_mutexes (consistent : WaitQueue.Consistent s.waitQueues) (correct : s.mutexes.Correct)
    (flags : s.flags t = 0) (taken : s.runStep t = some after) : after.mutexes.Correct := by
  cases here : s.pc t with
  | outside | exited => simp [System.runStep, here] at taken
  | acquireTestHolder m =>
    simp only [System.runStep, here, Option.some.injEq] at taken
    subst taken
    refine mutexes_step rfl ?_
    rw [apply_ite Pc.mutexRole]
    exact correct.testHolder (congrArg Pc.mutexRole here)
  | acquireRecursive m =>
    simp only [System.runStep, here] at taken
    split at taken
    · rw [← Option.some.inj taken]
      exact mutexes_step rfl (correct.recurse (congrArg Pc.mutexRole here))
    · simp at taken
  | acquireClaim m =>
    simp only [System.runStep, here] at taken
    split at taken
    · rename_i free
      rw [← Option.some.inj taken]
      exact mutexes_step rfl (correct.claim (congrArg Pc.mutexRole here) free)
    · rename_i held
      rw [← Option.some.inj taken]
      exact mutexes_step rfl (correct.keepHolder (congrArg Pc.mutexRole here) held)
  | acquireLoop m =>
    simp only [System.runStep, here] at taken
    split at taken
    · rename_i own
      rw [← Option.some.inj taken]
      exact mutexes_step rfl (correct.leaveLoop (congrArg Pc.mutexRole here) own)
    · rename_i other
      rw [← Option.some.inj taken]
      refine mutexes_step rfl ?_
      have enqueued := correct.enqueue (congrArg Pc.mutexRole here) other
      rw [← waiting_update] at enqueued
      exact enqueued
  | acquireRelock m =>
    simp only [System.runStep, here] at taken
    obtain ⟨_, rfl⟩ := lockAcquire_eq_some taken
    exact mutexes_step rfl (correct.relock (congrArg Pc.mutexRole here))
  | acquireUnlock m =>
    simp only [System.runStep, here, Option.some.injEq] at taken
    subst taken
    exact mutexes_step rfl (correct.acquireReturn (congrArg Pc.mutexRole here))
  | releaseTestDepth m =>
    simp only [System.runStep, here] at taken
    split at taken
    · rename_i own
      rw [← Option.some.inj taken]
      refine mutexes_step rfl ?_
      rw [apply_ite Pc.mutexRole]
      exact correct.testDepth (congrArg Pc.mutexRole here) own
    · simp at taken
  | releaseDecrement m =>
    simp only [System.runStep, here, Option.some.injEq] at taken
    subst taken
    exact mutexes_step rfl (correct.decrement (congrArg Pc.mutexRole here))
  | releaseHandOff m =>
    have alone (u : T) : s.mutexes.role u ≠ some (m, .looping) := by
      intro looping
      have same := consistent.critical_unique (critical_of_looping looping) (critical_of_handOff here)
      subst same
      simp [System.mutexes, here, Pc.mutexRole] at looping
    simp only [System.runStep, here] at taken
    split at taken
    · rename_i empty
      rw [← Option.some.inj taken]
      exact mutexes_step rfl (correct.handOffNone (congrArg Pc.mutexRole here) alone empty)
    · rename_i first rest head
      rw [← Option.some.inj taken]
      refine mutexes_step rfl ?_
      have handed := correct.handOff (congrArg Pc.mutexRole here) head (consistent.nodup (.mutex m))
      rw [← waiting_update] at handed
      exact handed
  | blocked w =>
    simp only [System.runStep, here] at taken
    split at taken
    · rename_i ready
      rw [← Option.some.inj taken]
      cases w with
      | mutex m =>
        refine mutexes_step rfl (correct.wake (congrArg Pc.mutexRole here) ?_)
        intro linked
        have blocked := consistent.blocked_of_mem t (.mutex m) (congrArg Pc.phase here) linked
        simp [System.waitQueues, ready] at blocked
      | event e => exact mutexes_moved correct rfl (by rw [here]; rfl) rfl rfl (fun _ => rfl) rfl rfl rfl
    · simp at taken
  | acquireLock m | releaseLock m | waitLock e | signalLock e caller =>
    simp only [System.runStep, here] at taken
    obtain ⟨_, rfl⟩ := lockAcquire_eq_some taken
    exact mutexes_moved correct rfl (by rw [here]; rfl) rfl rfl (fun _ => rfl) rfl rfl rfl
  | releaseUnlock m | signalSet e caller | blockSetState w | blockSchedule w | unlockObject w
  | exitSetState | exitSchedule =>
    simp only [System.runStep, here, Option.some.injEq] at taken
    subst taken
    exact mutexes_moved correct rfl (by rw [here]; first | rfl | cases w <;> rfl) rfl rfl (fun _ => rfl) rfl rfl rfl
  | waitInsert e =>
    simp only [System.runStep, here, Option.some.injEq] at taken
    subst taken
    refine mutexes_moved correct rfl (by rw [here]; rfl) rfl rfl ?_ rfl rfl rfl
    intro m
    simp [System.insertTail]
  | waitWoken e =>
    simp only [System.runStep, here, Option.some.injEq] at taken
    subst taken
    exact mutexes_moved correct rfl (by rw [here]; split <;> rfl) rfl rfl (fun _ => rfl) rfl rfl rfl
  | signalUnlock e caller =>
    simp only [System.runStep, here, Option.some.injEq] at taken
    subst taken
    exact mutexes_moved correct rfl (by rw [here]; cases caller <;> rfl) rfl rfl (fun _ => rfl) rfl rfl rfl
  | exitNotify =>
    simp only [System.runStep, here, Option.some.injEq] at taken
    subst taken
    exact mutexes_moved correct rfl (by rw [here]; split <;> rfl) rfl rfl (fun _ => rfl) rfl rfl rfl
  | unblockUnlock thread caller =>
    simp only [System.runStep, here, Option.some.injEq] at taken
    subst taken
    refine mutexes_moved correct rfl ?_ rfl rfl (fun _ => rfl) rfl rfl rfl
    rw [here]
    cases caller with
    | release m => rfl
    | signal e caller =>
      simp only [System.afterUnblock]
      split <;> rfl
  | waitTest e woken | exitBlockLock =>
    simp only [System.runStep, here] at taken
    split at taken
    all_goals
      rw [← Option.some.inj taken]
      exact mutexes_moved correct rfl (by rw [here]; rfl) rfl rfl (fun _ => rfl) rfl rfl rfl
  | unblockReady thread caller =>
    simp only [System.runStep, here] at taken
    split at taken
    · rw [← Option.some.inj taken]
      exact mutexes_moved correct rfl (by rw [here]; rfl) rfl rfl (fun _ => rfl) rfl rfl rfl
    · simp at taken
  | blockTestFlags w =>
    have running : s.flags t ≠ threadFlagForceTerminatePending := by
      rw [flags]
      decide
    simp only [System.runStep, here, if_neg running, Option.some.injEq] at taken
    subst taken
    exact mutexes_moved correct rfl (by rw [here]; cases w <;> rfl) rfl rfl (fun _ => rfl) rfl rfl rfl
  | takeBlockLock w =>
    simp only [System.runStep, here] at taken
    obtain ⟨_, rfl⟩ := blockLockAcquire_eq_some taken
    exact mutexes_moved correct rfl (by rw [here]; cases w <;> rfl) rfl rfl (fun _ => rfl) rfl rfl rfl
  | unblockLock thread caller =>
    simp only [System.runStep, here] at taken
    obtain ⟨_, rfl⟩ := blockLockAcquire_eq_some taken
    exact mutexes_moved correct rfl (by rw [here]; rfl) rfl rfl (fun _ => rfl) rfl rfl rfl
  | signalNext e caller =>
    simp only [System.runStep, here] at taken
    split at taken
    · rw [← Option.some.inj taken]
      exact mutexes_moved correct rfl (by rw [here]; rfl) rfl rfl (fun _ => rfl) rfl rfl rfl
    · rw [← Option.some.inj taken]
      refine mutexes_moved correct rfl (by rw [here]; rfl) rfl rfl ?_ rfl rfl rfl
      intro m
      simp

structure MutexInvariant (s : System T M E P) : Prop where
  flags : forall t, s.flags t = 0
  consistent : WaitQueue.Consistent s.waitQueues
  correct : s.mutexes.Correct

theorem initial_mutexInvariant (initial : s.Initial) : MutexInvariant s := by
  refine ⟨initial.flags, initial_consistent initial, ?_⟩
  constructor
  all_goals
    simp [System.mutexes, initial.pc, initial.holder, initial.waiting, initial.acquired, initial.enqueued,
      initial.handedOff, Pc.mutexRole, acquires]

theorem callStep_mutexes {function : Call M E} (correct : s.mutexes.Correct)
    (met : MutexDiscipline s (.call t function)) (here : s.pc t = .outside) :
    (s.callStep t function).mutexes.Correct := by
  cases function with
  | exEventClearSignal e => exact correct
  | mutexRelease m => exact mutexes_step rfl (correct.startRelease (congrArg Pc.mutexRole here) met)
  | mutexAcquire _ | exEventWaitForSignal _ | exEventSignal _ | threadExit =>
    exact mutexes_moved correct rfl (by rw [here]; rfl) rfl rfl (fun _ => rfl) rfl rfl rfl

theorem not_terminated (flags : forall t, s.flags t = 0) (t : T) :
    s.flags t ≠ threadFlagForceTerminatePending := by
  rw [flags]
  decide

theorem step_flags {label : Label T M E} (flags : forall t, s.flags t = 0)
    (met : MutexDiscipline s label) (taken : s.step label = some after) : forall t, after.flags t = 0 := by
  cases label with
  | run t =>
    rw [runStep_flags (not_terminated flags t) taken]
    exact flags
  | call t function =>
    simp only [System.step] at taken
    split at taken
    · rw [← Option.some.inj taken]
      cases function <;> exact flags
    · simp at taken
  | threadYield t =>
    simp only [System.step, System.yieldStep, if_neg (not_terminated flags t)] at taken
    split at taken
    · rw [← Option.some.inj taken]
      exact flags
    · simp at taken
  | threadTerminate t => exact met.elim

theorem step_mutexes {label : Label T M E} (held : MutexInvariant s) (met : MutexDiscipline s label)
    (taken : s.step label = some after) : after.mutexes.Correct := by
  cases label with
  | run t => exact runStep_mutexes held.consistent held.correct (held.flags t) taken
  | call t function =>
    simp only [System.step] at taken
    split at taken
    · rename_i here
      rw [← Option.some.inj taken]
      exact callStep_mutexes held.correct met here
    · simp at taken
  | threadYield t =>
    simp only [System.step, System.yieldStep, if_neg (not_terminated held.flags t)] at taken
    split at taken
    · rw [← Option.some.inj taken]
      exact held.correct
    · simp at taken
  | threadTerminate t => exact met.elim

theorem step_mutexInvariant {label : Label T M E} (held : MutexInvariant s) (met : MutexDiscipline s label)
    (taken : s.step label = some after) : MutexInvariant after := by
  have noForcedExit : NoForcedBlockExit s label := by
    cases label with
    | run t => exact fun _ => not_terminated held.flags t
    | call _ _ | threadYield _ | threadTerminate _ => trivial
  exact ⟨step_flags held.flags met taken, step_consistent held.consistent noForcedExit taken,
    step_mutexes held met taken⟩

end Run

-- Between InsertTailList in MutexAcquire and the LockAcquire after ThreadBlock.
def Pc.waitsIn (m : M) : Pc T M E -> Bool
  | .takeBlockLock (.mutex other) | .unlockObject (.mutex other) | .blockTestFlags (.mutex other)
  | .blockSetState (.mutex other) | .blockSchedule (.mutex other) | .blocked (.mutex other)
  | .acquireRelock other => decide (other = m)
  | _ => false

-- MutexRelease has made the thread the holder; as long as it is not unblocked, the releasing thread is
-- inside ThreadUnblock and has the mutex's lock.
def HandedOver (s : System T M E P) (t : T) (m : M) : Prop :=
  s.holder m = some t ∧
    (s.state t ≠ .blocked ∨ ∃ u, s.lock (.mutex m) = some u ∧
      (s.pc u = .unblockLock t (.release m) ∨ s.pc u = .unblockReady t (.release m)))

structure MutexCorrect (s : System T M E P) (m : M) : Prop where
  owner_unique : forall t u, 0 < s.acquired t m -> 0 < s.acquired u m -> t = u
  owner_holder : forall t, 0 < s.acquired t m -> s.holder m = some t
  depth : forall t, s.holder m = some t ->
    s.currentRecursivityDepth m = s.acquired t m + (acquires m (s.pc t).mutexRole).toNat
  waiter : forall t, (s.pc t).waitsIn m = true ->
    (s.waiting (.mutex m)).count t = 1 ∨ ((s.waiting (.mutex m)).count t = 0 ∧ HandedOver s t m)
  held : s.waiting (.mutex m) ≠ [] -> s.holder m ≠ none
  order : s.handedOff m ++ s.waiting (.mutex m) = s.enqueued m

section Result

variable {s : System T M E P} {t : T} {m : M}

theorem pc_of_wakes_mutex {u : T} (wakes : (s.waitQueues.phase u).wakes = some (t, .mutex m)) :
    s.pc u = .unblockLock t (.release m) ∨ s.pc u = .unblockReady t (.release m) := by
  simp only [System.waitQueues] at wakes
  cases here : s.pc u with
  | unblockLock thread caller | unblockReady thread caller =>
    cases caller <;> simp_all [Pc.phase, UnblockCaller.object, Lib.WaitQueue.Phase.wakes]
  | _ => simp_all [Pc.phase, Lib.WaitQueue.Phase.wakes]

theorem sleeping_of_waitsIn {pc : Pc T M E} (waits : pc.waitsIn m = true) :
    (pc.phase.sleeping = some (.mutex m) ∧ pc.mutexRole = some (m, .sleeping)) ∨ pc = .acquireRelock m := by
  cases pc with
  | takeBlockLock w | unlockObject w | blockTestFlags w | blockSetState w | blockSchedule w | blocked w =>
    cases w <;> simp_all [Pc.waitsIn, Pc.phase, Pc.mutexRole, Lib.WaitQueue.Phase.sleeping]
  | _ => simp_all [Pc.waitsIn]

theorem MutexInvariant.waiter (held : MutexInvariant s) (waits : (s.pc t).waitsIn m = true) :
    (s.waiting (.mutex m)).count t = 1 ∨ ((s.waiting (.mutex m)).count t = 0 ∧ HandedOver s t m) := by
  obtain ⟨_, consistent, correct⟩ := held
  have nodup := consistent.nodup (.mutex m)
  by_cases linked : t ∈ s.waiting (.mutex m)
  · exact .inl (List.count_eq_one_of_mem nodup linked)
  · refine .inr ⟨List.count_eq_zero.mpr linked, ?_⟩
    rcases sleeping_of_waitsIn waits with ⟨sleeping, role⟩ | relock
    · have own : s.holder m = some t := by
        by_contra other
        exact linked ((correct.linked_iff t m role).mpr other)
      refine ⟨own, ?_⟩
      rcases consistent.pending t (.mutex m) sleeping with mem | ⟨u, wakes⟩ | ⟨_, awake⟩
      · exact absurd mem linked
      · have critical := Lib.WaitQueue.Phase.critical_of_wakes wakes
        exact .inr ⟨u, (consistent.lock_iff _ u).mpr critical, pc_of_wakes_mutex wakes⟩
      · left
        simpa [System.waitQueues] using awake
    · refine ⟨correct.relocking t m (congrArg Pc.mutexRole relock), .inl ?_⟩
      have awake := not_blocked_of_free consistent (t := t) (by rw [relock]; rfl)
      simpa [System.waitQueues] using awake

end Result

theorem mutex_correct {s : System T M E P} (reached : (system T M E P).ReachableUnder MutexDiscipline s)
    (m : M) : MutexCorrect s m := by
  have held : MutexInvariant s := by
    refine reached.invariant ?_ ?_
    · intro s initial
      exact initial_mutexInvariant initial
    · intro s label after held met taken
      exact step_mutexInvariant held met taken
  have correct := held.correct
  exact
    { owner_unique := by
        intro t u first second
        have mine := correct.holder_of_acquired t m first
        have other := correct.holder_of_acquired u m second
        exact Option.some.inj (mine.symm.trans other)
      owner_holder := fun t => correct.holder_of_acquired t m
      depth := fun t => correct.depth_eq t m
      waiter := fun t => held.waiter
      held := correct.held_of_waiting m
      order := (correct.history m).symm }

theorem mutex_correct_sample :
    ∃ s, (system (Fin 2) Unit (Fin 4) Unit).ReachableUnder MutexDiscipline s ∧
      s.holder () = some 1 ∧ s.acquired 1 () = 1 ∧ s.handedOff () = [1] ∧ MutexCorrect s () := by
  obtain ⟨s, reached, holder, acquired, handed⟩ : ∃ s,
      (system (Fin 2) Unit (Fin 4) Unit).ReachableUnder MutexDiscipline s ∧
        s.holder () = some 1 ∧ s.acquired 1 () = 1 ∧ s.handedOff () = [1] :=
    runSample_reachable .notification
      (mutexContended ++ [.run 1, .run 1, .run 1, .call 0 (.mutexRelease ()), .run 0, .run 0, .run 0, .run 0,
        .run 0, .run 0, .run 0, .run 1, .run 1, .run 1, .run 1])
      (by decide +kernel)
  exact ⟨s, reached, holder, acquired, handed, mutex_correct reached ()⟩

end Hal9000.Kernel
