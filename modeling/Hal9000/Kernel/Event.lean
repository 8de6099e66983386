import Hal9000.Kernel.Termination
import Mathlib.Data.Fintype.Basic

set_option autoImplicit false
set_option linter.unusedSectionVars false

namespace Hal9000.Kernel

open Function (update)
open Lib (WaitQueue.Consistent)

variable {T M E P : Type}

-- A thread inside ExEventSignal that has set the flag, or one that ExEventSignal has made ready.
inductive EventRole where
  | serving
  | finishing
  | woken
  deriving DecidableEq, Repr

def eventRole (state : ThreadState) : Pc T M E -> Option (E × EventRole)
  | .signalNext e _ | .unblockLock _ (.signal e _) | .unblockReady _ (.signal e _) => some (e, .serving)
  | .unblockUnlock _ (.signal e _) => some (e, .finishing)
  | .blocked (.event e) => if state = .ready then some (e, .woken) else none
  | .waitWoken e | .waitTest e true => some (e, .woken)
  | _ => none

def System.eventRole (s : System T M E P) (t : T) : Option (E × EventRole) :=
  Kernel.eventRole (s.state t) (s.pc t)

-- Whether somebody in that role will still wake a waiter or use the signal. One that only has to release
-- the block lock goes on with the next waiter of a notification event; of a synchronization event it
-- leaves that to the thread it has woken, whose test takes the signal or finds it taken.
def EventRole.attends (type : EventType) : EventRole -> Bool
  | .serving => true
  | .finishing => type == .notification
  | .woken => type == .synchronization

def Attended (s : System T M E P) (e : E) : Prop :=
  ∃ u role, s.eventRole u = some (e, role) ∧ role.attends (s.eventType e) = true

def SignalsAttended (s : System T M E P) : Prop :=
  forall e, s.signaled e = true -> s.waiting (.event e) ≠ [] -> Attended s e

variable [DecidableEq T] [DecidableEq M] [DecidableEq E] [DecidableEq P]

def Pc.insertsInto : Pc T M E -> Option E
  | .waitInsert e => some e
  | _ => none

-- InsertTailList on a test of Signaled that has become stale is where a wake-up is lost.
def NoStaleInsert (s : System T M E P) : Label T M E -> Prop
  | .run t => (s.pc t).insertsInto.any s.signaled = false
  | .call _ (.exEventClearSignal _) => False
  | _ => True

instance (s : System T M E P) (label : Label T M E) : Decidable (NoStaleInsert s label) :=
  match label with
  | .run _ => inferInstanceAs (Decidable (_ = false))
  | .call _ (.exEventClearSignal _) => inferInstanceAs (Decidable False)
  | .call _ (.mutexAcquire _) | .call _ (.mutexRelease _) | .call _ (.exEventWaitForSignal _)
  | .call _ (.exEventSignal _) | .call _ .threadExit | .threadYield _ | .threadTerminate _ =>
    inferInstanceAs (Decidable True)

section Steps

variable {s after : System T M E P} {t : T} {pc : Pc T M E}

theorem eventRole_of_ne (moved : after.pc = update s.pc t pc)
    (others : forall u, u ≠ t -> after.state u = s.state u) {u : T} (other : u ≠ t) :
    after.eventRole u = s.eventRole u := by
  simp only [System.eventRole, moved, Function.update_of_ne other, others u other]

theorem attended_kept {e : E} (roles : forall u, u ≠ t -> s.eventRole u ≠ none ->
      after.eventRole u = s.eventRole u) (type : after.eventType = s.eventType) (attended : Attended s e)
    (self : forall role, s.eventRole t = some (e, role) -> role.attends (s.eventType e) = true ->
      Attended after e) : Attended after e := by
  obtain ⟨u, role, here, attends⟩ := attended
  by_cases same : u = t
  · subst same
    exact self role here attends
  · refine ⟨u, role, (roles u same (by simp [here])).trans here, ?_⟩
    rw [type]
    exact attends

theorem attended_moved {e : E} (moved : after.pc = update s.pc t pc)
    (others : forall u, u ≠ t -> after.state u = s.state u) (type : after.eventType = s.eventType)
    (attended : Attended s e)
    (self : forall role, s.eventRole t = some (e, role) -> role.attends (s.eventType e) = true ->
      Attended after e) : Attended after e :=
  attended_kept (fun _ other _ => eventRole_of_ne moved others other) type attended self

theorem kept_step (held : SignalsAttended s) (moved : after.pc = update s.pc t pc)
    (others : forall u, u ≠ t -> after.state u = s.state u) (type : after.eventType = s.eventType)
    (signaled : forall e, after.signaled e = true -> s.signaled e = true)
    (waiting : forall e, after.waiting (.event e) ≠ [] -> s.waiting (.event e) ≠ [])
    (kept : s.eventRole t = none ∨ after.eventRole t = s.eventRole t) : SignalsAttended after := by
  intro e set nonempty
  refine attended_moved moved others type (held e (signaled e set) (waiting e nonempty)) ?_
  intro role here attends
  rcases kept with idle | same
  · rw [idle] at here
    cases here
  · refine ⟨t, role, same.trans here, ?_⟩
    rw [type]
    exact attends

theorem idle_step (held : SignalsAttended s) (idle : s.eventRole t = none)
    (moved : after.pc = update s.pc t pc) (others : forall u, u ≠ t -> after.state u = s.state u)
    (type : after.eventType = s.eventType)
    (signaled : forall e, after.signaled e = true -> s.signaled e = true)
    (waiting : forall e, after.waiting (.event e) ≠ [] -> s.waiting (.event e) ≠ []) :
    SignalsAttended after :=
  kept_step held moved others type signaled waiting (.inl idle)

theorem eventRole_self (moved : after.pc = update s.pc t pc) :
    after.eventRole t = Kernel.eventRole (after.state t) pc := by
  simp [System.eventRole, moved]

theorem pc_of_rousing (consistent : WaitQueue.Consistent s.waitQueues) {thread : T}
    {caller : UnblockCaller M E} (here : s.pc t = .unblockReady thread caller) :
    s.pc thread = .blocked caller.object := by
  have asleep := (consistent.asleep_of_rousing (t := t) (congrArg Pc.phase here)).1
  simp only [System.waitQueues] at asleep
  cases there : s.pc thread <;> simp_all [Pc.phase]

theorem role_of_waitTest {state : ThreadState} {e other : E} {woken : Bool} {role : EventRole}
    (here : Kernel.eventRole state (.waitTest e woken : Pc T M E) = some (other, role)) :
    e = other ∧ role = .woken := by
  cases woken with
  | false => simp [Kernel.eventRole] at here
  | true =>
    simp only [Kernel.eventRole, Option.some.injEq, Prod.mk.injEq] at here
    exact ⟨here.1, here.2.symm⟩

theorem runStep_signalsAttended (consistent : WaitQueue.Consistent s.waitQueues) (held : SignalsAttended s)
    (met : NoStaleInsert s (.run t)) (taken : s.runStep t = some after) : SignalsAttended after := by
  have role : s.eventRole t = Kernel.eventRole (s.state t) (s.pc t) := rfl
  cases here : s.pc t with
  | outside | exited => simp [System.runStep, here] at taken
  | acquireTestHolder m | acquireUnlock m | releaseDecrement m | releaseUnlock m | unlockObject w
  | blockSchedule w | signalUnlock e caller | exitNotify | exitSchedule =>
    simp only [System.runStep, here, Option.some.injEq] at taken
    subst taken
    exact idle_step held (by rw [role, here]; rfl) rfl (fun _ _ => rfl) rfl (fun _ => id) (fun _ => id)
  | acquireLock m | acquireRelock m | releaseLock m | waitLock e | signalLock e caller =>
    simp only [System.runStep, here] at taken
    obtain ⟨_, rfl⟩ := lockAcquire_eq_some taken
    exact idle_step held (by rw [role, here]; rfl) rfl (fun _ _ => rfl) rfl (fun _ => id) (fun _ => id)
  | takeBlockLock w =>
    simp only [System.runStep, here] at taken
    obtain ⟨_, rfl⟩ := blockLockAcquire_eq_some taken
    exact idle_step held (by rw [role, here]; rfl) rfl (fun _ _ => rfl) rfl (fun _ => id) (fun _ => id)
  | acquireRecursive m | acquireClaim m | releaseTestDepth m | blockTestFlags w | exitBlockLock =>
    simp only [System.runStep, here] at taken
    split at taken
    all_goals first
      | rw [← Option.some.inj taken]
        exact idle_step held (by rw [role, here]; rfl) rfl (fun _ _ => rfl) rfl (fun _ => id) (fun _ => id)
      | simp at taken
  | acquireLoop m | releaseHandOff m =>
    simp only [System.runStep, here] at taken
    split at taken
    all_goals
      rw [← Option.some.inj taken]
      refine idle_step held (by rw [role, here]; rfl) rfl (fun _ _ => rfl) rfl (fun _ => id) (fun e => ?_)
      simp [System.insertTail, System.goto]
  | blockSetState w | exitSetState =>
    simp only [System.runStep, here, Option.some.injEq] at taken
    subst taken
    refine idle_step held (by rw [role, here]; rfl) rfl ?_ rfl (fun _ => id) (fun _ => id)
    intro u other
    exact Function.update_of_ne other _ _
  | blocked w =>
    simp only [System.runStep, here] at taken
    split at taken
    · rename_i ready
      rw [← Option.some.inj taken]
      cases w with
      | mutex m =>
        exact idle_step held (by rw [role, here]; rfl) rfl (fun _ _ => rfl) rfl (fun _ => id) (fun _ => id)
      | event e =>
        refine kept_step held rfl (fun _ _ => rfl) rfl (fun _ => id) (fun _ => id) (.inr ?_)
        rw [role, here, Kernel.eventRole, if_pos ready, eventRole_self rfl]
        rfl
    · simp at taken
  | waitTest e woken =>
    simp only [System.runStep, here] at taken
    split at taken
    · rename_i set
      rw [← Option.some.inj taken]
      intro other signaled nonempty
      have before : s.signaled other = true := by
        by_cases same : other = e
        · rw [same]
          exact set
        · simpa [same] using signaled
      refine attended_moved rfl (fun _ _ => rfl) rfl (held other before nonempty) ?_
      intro mine woken attends
      rw [role, here] at woken
      obtain ⟨rfl, rfl⟩ := role_of_waitTest woken
      have synchronization : s.eventType e = .synchronization := by simpa [EventRole.attends] using attends
      simp [synchronization] at signaled
    · rename_i clear
      rw [← Option.some.inj taken]
      intro other set nonempty
      refine attended_moved rfl (fun _ _ => rfl) rfl (held other set nonempty) ?_
      intro mine woken _
      rw [role, here] at woken
      obtain ⟨rfl, _⟩ := role_of_waitTest woken
      exact absurd set clear
  | waitInsert e =>
    simp only [System.runStep, here, Option.some.injEq] at taken
    subst taken
    have clear : s.signaled e = false := by simpa [NoStaleInsert, here, Pc.insertsInto] using met
    intro other set nonempty
    have distinct : other ≠ e := by
      intro same
      rw [same] at set
      exact Bool.false_ne_true (clear.symm.trans set)
    have waiting : s.waiting (.event other) ≠ [] := by
      simpa [System.insertTail, distinct] using nonempty
    exact attended_moved rfl (fun _ _ => rfl) rfl (held other set waiting) fun _ serves => by
      rw [role, here] at serves
      cases serves
  | waitWoken e =>
    simp only [System.runStep, here, Option.some.injEq] at taken
    subst taken
    split
    · rename_i notification
      intro other set nonempty
      refine attended_moved rfl (fun _ _ => rfl) rfl (held other set nonempty) ?_
      intro mine woken attends
      rw [role, here] at woken
      simp only [Kernel.eventRole, Option.some.injEq, Prod.mk.injEq] at woken
      obtain ⟨rfl, rfl⟩ := woken
      simp [EventRole.attends, notification] at attends
    · refine kept_step held rfl (fun _ _ => rfl) rfl (fun _ => id) (fun _ => id) (.inr ?_)
      rw [role, here, eventRole_self rfl]
      rfl
  | signalSet e caller =>
    simp only [System.runStep, here, Option.some.injEq] at taken
    subst taken
    intro other set nonempty
    by_cases same : other = e
    · subst same
      refine ⟨t, .serving, ?_, rfl⟩
      rw [eventRole_self rfl]
      rfl
    · have before : s.signaled other = true := by simpa [same] using set
      exact attended_moved rfl (fun _ _ => rfl) rfl (held other before nonempty) fun _ serves => by
        rw [role, here] at serves
        cases serves
  | signalNext e caller =>
    simp only [System.runStep, here] at taken
    split at taken
    · rename_i empty
      rw [← Option.some.inj taken]
      intro other set nonempty
      refine attended_moved rfl (fun _ _ => rfl) rfl (held other set nonempty) ?_
      intro mine serving
      rw [role, here] at serving
      simp only [Kernel.eventRole, Option.some.injEq, Prod.mk.injEq] at serving
      rw [← serving.1] at nonempty
      exact absurd empty nonempty
    · rename_i first rest head
      rw [← Option.some.inj taken]
      refine kept_step held rfl (fun _ _ => rfl) rfl (fun _ => id) (fun other => ?_) (.inr ?_)
      · by_cases same : other = e
        · subst same
          simp [head]
        · simp [same]
      · rw [role, here, eventRole_self rfl]
        rfl
  | unblockLock thread caller =>
    simp only [System.runStep, here] at taken
    obtain ⟨_, rfl⟩ := blockLockAcquire_eq_some taken
    refine kept_step held rfl (fun _ _ => rfl) rfl (fun _ => id) (fun _ => id) (.inr ?_)
    rw [role, here, eventRole_self rfl]
    cases caller <;> rfl
  | unblockReady thread caller =>
    simp only [System.runStep, here] at taken
    split at taken
    · rename_i blocked
      have asleep := pc_of_rousing consistent here
      have distinct : thread ≠ t := by
        intro same
        rw [same, here] at asleep
        cases asleep
      have sleeper : s.eventRole thread = none := by
        rw [System.eventRole, asleep, blocked]
        cases caller <;> rfl
      rw [← Option.some.inj taken]
      intro e set nonempty
      refine attended_kept (s := s) (t := t) ?_ rfl (held e set nonempty) ?_
      · intro u other role
        have awake : u ≠ thread := by
          intro same
          rw [same] at role
          exact role sleeper
        simp [System.eventRole, System.goto, other, awake]
      · intro mine serving attends
        rw [role, here] at serving
        cases caller with
        | release m => cases serving
        | signal source caller =>
          simp only [Kernel.eventRole, Option.some.injEq, Prod.mk.injEq] at serving
          obtain ⟨rfl, rfl⟩ := serving
          cases type : s.eventType source with
          | notification =>
            refine ⟨t, .finishing, ?_, by simp [EventRole.attends, System.goto, type]⟩
            rw [eventRole_self rfl]
            rfl
          | synchronization =>
            refine ⟨thread, .woken, ?_, by simp [EventRole.attends, System.goto, type]⟩
            simp [System.eventRole, System.goto, distinct, asleep, UnblockCaller.object, Kernel.eventRole]
    · simp at taken
  | unblockUnlock thread caller =>
    simp only [System.runStep, here, Option.some.injEq] at taken
    subst taken
    cases caller with
    | release m =>
      exact idle_step held (by rw [role, here]; rfl) rfl (fun _ _ => rfl) rfl (fun _ => id) (fun _ => id)
    | signal e caller =>
      intro other set nonempty
      refine attended_moved rfl (fun _ _ => rfl) rfl (held other set nonempty) ?_
      intro mine finishing attends
      rw [role, here] at finishing
      simp only [Kernel.eventRole, Option.some.injEq, Prod.mk.injEq] at finishing
      obtain ⟨rfl, rfl⟩ := finishing
      have notification : s.eventType e = .notification := by simpa [EventRole.attends] using attends
      refine ⟨t, .serving, ?_, rfl⟩
      rw [eventRole_self rfl, System.afterUnblock, notification]
      rfl

theorem step_signalsAttended {label : Label T M E} (consistent : WaitQueue.Consistent s.waitQueues)
    (held : SignalsAttended s) (met : NoStaleInsert s label) (taken : s.step label = some after) :
    SignalsAttended after := by
  cases label with
  | run t => exact runStep_signalsAttended consistent held met taken
  | call t function =>
    simp only [System.step] at taken
    split at taken
    · rename_i here
      rw [← Option.some.inj taken]
      cases function with
      | exEventClearSignal e => exact met.elim
      | _ =>
        exact idle_step held (by rw [System.eventRole, here]; rfl) rfl (fun _ _ => rfl) rfl (fun _ => id)
          (fun _ => id)
    · simp at taken
  | threadYield t =>
    simp only [System.step] at taken
    split at taken
    · rename_i interruptible
      have idle : s.eventRole t = none := by
        rw [System.eventRole]
        cases here : s.pc t <;> simp_all [System.interruptible, Kernel.eventRole]
      rw [← Option.some.inj taken, System.yieldStep]
      split
      · exact idle_step held idle rfl (fun _ _ => rfl) rfl (fun _ => id) (fun _ => id)
      · refine idle_step held idle (Function.update_eq_self t s.pc).symm ?_ rfl (fun _ => id) (fun _ => id)
        intro u other
        exact Function.update_of_ne other _ _
    · simp at taken
  | threadTerminate t =>
    simp only [System.step, Option.some.injEq] at taken
    subst taken
    exact held

end Steps

-- Inside ExEventSignal for the event.
def Pc.signals (e : E) : Pc T M E -> Bool
  | .signalLock other _ | .signalSet other _ | .signalNext other _ | .signalUnlock other _
  | .unblockLock _ (.signal other _) | .unblockReady _ (.signal other _)
  | .unblockUnlock _ (.signal other _) => decide (other = e)
  | _ => false

-- Made ready by ExEventSignal and not yet past its next test of the flag.
def Woken (s : System T M E P) (e : E) (t : T) : Prop :=
  (s.pc t = .blocked (.event e) ∧ s.state t = .ready) ∨ s.pc t = .waitWoken e ∨ s.pc t = .waitTest e true

def LostWakeUp (s : System T M E P) (e : E) : Prop :=
  (forall t, (s.pc t).signals e = false) ∧ s.signaled e = true ∧
    (∃ t, t ∈ s.waiting (.event e) ∧ s.pc t = .blocked (.event e) ∧ s.state t = .blocked) ∧
    forall t, ¬ Woken s e t

instance (s : System T M E P) (e : E) (t : T) : Decidable (Woken s e t) :=
  inferInstanceAs (Decidable (_ ∨ _ ∨ _))

instance [Fintype T] (s : System T M E P) (e : E) : Decidable (LostWakeUp s e) :=
  inferInstanceAs (Decidable (_ ∧ _ ∧ _ ∧ _))

theorem attended_signals_or_woken {s : System T M E P} {e : E} (attended : Attended s e) :
    ∃ t, (s.pc t).signals e = true ∨ Woken s e t := by
  obtain ⟨t, role, here, _⟩ := attended
  refine ⟨t, ?_⟩
  rw [System.eventRole] at here
  cases pc : s.pc t with
  | signalNext other caller => simp_all [Kernel.eventRole, Pc.signals]
  | unblockLock thread caller | unblockReady thread caller | unblockUnlock thread caller =>
    cases caller <;> simp_all [Kernel.eventRole, Pc.signals]
  | blocked w =>
    cases w <;> simp_all [Kernel.eventRole, Woken]
  | waitTest other woken => cases woken <;> simp_all [Kernel.eventRole, Woken]
  | _ => simp_all [Kernel.eventRole, Woken]

theorem no_lost_wakeUp {s : System T M E P}
    (reached : (system T M E P).ReachableUnder
      (fun s label => NoStaleInsert s label ∧ NoForcedBlockExit s label) s) (e : E) : ¬ LostWakeUp s e := by
  have held : WaitQueue.Consistent s.waitQueues ∧ SignalsAttended s := by
    induction reached with
    | start s initial =>
      exact ⟨initial_consistent initial, fun e _ nonempty => absurd (initial.waiting _) nonempty⟩
    | next s label after _ met taken ih =>
      exact ⟨step_consistent ih.1 met.2 taken, step_signalsAttended ih.1 ih.2 met.1 taken⟩
  rintro ⟨finished, signaled, ⟨t, linked, _⟩, noneWoken⟩
  obtain ⟨u, signals | woken⟩ := attended_signals_or_woken (held.2 e signaled (List.ne_nil_of_mem linked))
  · exact Bool.false_ne_true ((finished u).symm.trans signals)
  · exact noneWoken u woken

theorem no_lost_wakeUp_sample :
    ∃ s, (system (Fin 2) Unit (Fin 4) Unit).ReachableUnder
        (fun s label => NoStaleInsert s label ∧ NoForcedBlockExit s label) s ∧
      s.signaled 0 = true ∧ s.waiting (.event 0) = [0] ∧ ¬ LostWakeUp s 0 := by
  obtain ⟨s, reached, signaled, waiting⟩ : ∃ s, (system (Fin 2) Unit (Fin 4) Unit).ReachableUnder
      (fun s label => NoStaleInsert s label ∧ NoForcedBlockExit s label) s ∧
        s.signaled 0 = true ∧ s.waiting (.event 0) = [0] :=
    runSample_reachable .synchronization
      [.call 0 (.exEventWaitForSignal 0), .run 0, .run 0, .run 0, .run 0, .run 0, .run 0, .run 0, .run 0,
        .call 1 (.exEventSignal 0), .run 1, .run 1]
      (by decide +kernel)
  exact ⟨s, reached, signaled, waiting, no_lost_wakeUp reached 0⟩

def Label.waitsOrSignals : Label T M E -> Bool
  | .call _ (.exEventWaitForSignal _) | .call _ (.exEventSignal _) | .run _ => true
  | _ => false

-- Thread 1's whole call of ExEventSignal falls between thread 0's test and its InsertTailList.
theorem lost_wakeUp_sample :
    ¬ forall s, (system (Fin 2) Unit (Fin 4) Unit).ReachableUnder
        (fun _ label => label.waitsOrSignals = true) s -> forall e, ¬ LostWakeUp s e := by
  intro claim
  obtain ⟨s, reached, lost⟩ : ∃ s, (system (Fin 2) Unit (Fin 4) Unit).ReachableUnder
      (fun _ label => label.waitsOrSignals = true) s ∧ LostWakeUp s 0 :=
    runSample_reachable .synchronization
      [.call 0 (.exEventWaitForSignal 0), .run 0,
        .call 1 (.exEventSignal 0), .run 1, .run 1, .run 1, .run 1,
        .run 0, .run 0, .run 0, .run 0, .run 0, .run 0, .run 0]
      (by decide +kernel)
  exact claim s reached 0 lost

end Hal9000.Kernel
