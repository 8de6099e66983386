import Hal9000.Kernel.Exclusivity

set_option autoImplicit false
set_option linter.unusedSectionVars false

namespace Hal9000.Kernel

open Function (update)

variable {C T : Type}

def CpuPc.releases (stack : T) (previous : Option T) (pc : CpuPc T) : Option T :=
  match pc with
  | .cleanupReadPrevious .exit => previous
  | .cleanupUnlock prev .exit => prev
  | .cleanupTestOwner prev .exit | .cleanupTestState prev .exit | .cleanupDereference prev .exit => some prev
  | _ => if pc.leaving = some .exit then some stack else none

-- A blocked thread is told by its block lock and a live one by its state, so only an exited thread gets here.
def CpuPc.sorted : CpuPc T -> Prop
  | .cleanupBlockLock _ how => how = .block
  | .cleanupTestState _ how => how ≠ .block
  | .cleanupDereference _ how => how = .exit
  | _ => True

structure Releases (releases : C -> Option T) (state : T -> ThreadState) (refCnt : T -> Nat)
    (handleOpen : T -> Bool) (dropped destroyed : T -> Nat) : Prop where
  pending : forall c t, releases c = some t -> state t = .dying ∧ dropped t = 0
  unique : forall c d t, releases c = some t -> releases d = some t -> c = d
  dying : forall t, state t = .dying -> dropped t = 1 ∨ ∃ c, releases c = some t
  dropped_dying : forall t, dropped t ≠ 0 -> dropped t = 1 ∧ state t = .dying
  count : forall t, refCnt t + dropped t = (handleOpen t).toNat + 1
  destroyed : forall t, destroyed t = if refCnt t = 0 then 1 else 0

variable [DecidableEq C] [DecidableEq T]

namespace Releases

variable {releases : C -> Option T} {state : T -> ThreadState} {refCnt : T -> Nat}
  {handleOpen : T -> Bool} {dropped destroyed : T -> Nat} {c : C} {t : T}
  (ledger : Releases releases state refCnt handleOpen dropped destroyed)

include ledger

theorem setState {next : ThreadState} (alive : state t ≠ .dying) (lives : next ≠ .dying) :
    Releases releases (update state t next) refCnt handleOpen dropped destroyed := by
  obtain ⟨_, _, _, _, _, _⟩ := ledger
  constructor <;> try simp only [Function.update_apply]
  all_goals grind

theorem die (alive : state t ≠ .dying) (free : releases c = none) :
    Releases (update releases c (some t)) (update state t .dying) refCnt handleOpen dropped destroyed := by
  obtain ⟨_, _, _, _, _, _⟩ := ledger
  constructor <;> try simp only [Function.update_apply]
  all_goals grind

theorem drop (chosen : releases c = some t) :
    Releases (update releases c none) state (update refCnt t (refCnt t - 1)) handleOpen
      (update dropped t (dropped t + 1))
      (if refCnt t = 1 then update destroyed t (destroyed t + 1) else destroyed) := by
  obtain ⟨_, _, _, _, _, _⟩ := ledger
  split
  all_goals
    constructor <;> try simp only [Function.update_apply]
    all_goals grind

theorem close (opened : handleOpen t = true) :
    Releases releases state (update refCnt t (refCnt t - 1)) (update handleOpen t false) dropped
      (if refCnt t = 1 then update destroyed t (destroyed t + 1) else destroyed) := by
  obtain ⟨_, _, _, _, _, _⟩ := ledger
  split
  all_goals
    constructor <;> try simp only [Function.update_apply]
    all_goals grind

end Releases

def Scheduler.releases (s : Scheduler C T) (c : C) : Option T :=
  (s.pc c).releases (s.stack c) (s.previous c)

structure Ledger (s : Scheduler C T) : Prop where
  releases : Releases s.releases s.state s.refCnt s.handleOpen s.dropped s.destroyed
  sorted : forall c, (s.pc c).sorted

namespace Ledger

variable {s after : Scheduler C T} {c : C} {before pc : CpuPc T} {releases' : C -> Option T}
  {spot : T -> Spot C}

theorem moved (ledger : Ledger s) (pcs : after.pc = update s.pc c pc)
    (others : forall d, d ≠ c -> after.stack d = s.stack d ∧ after.previous d = s.previous d)
    (sorted : pc.sorted)
    (releases : update s.releases c (pc.releases (after.stack c) (after.previous c)) = releases')
    (balance : Releases releases' after.state after.refCnt after.handleOpen after.dropped after.destroyed) :
    Ledger after := by
  have view : after.releases = releases' := by
    rw [← releases]
    funext d
    by_cases same : d = c
    · subst same
      simp [Scheduler.releases, pcs]
    · obtain ⟨stack, previous⟩ := others d same
      simp [Scheduler.releases, pcs, same, stack, previous]
  constructor
  · rw [view]
    exact balance
  · intro d
    by_cases same : d = c
    · subst same
      simpa [pcs] using sorted
    · simpa [pcs, same] using ledger.sorted d

theorem releases_same (here : s.pc c = before) {stack : T} {previous : Option T}
    (same : before.releases (s.stack c) (s.previous c) = pc.releases stack previous) :
    update s.releases c (pc.releases stack previous) = s.releases := by
  rw [Function.update_eq_self_iff, Scheduler.releases, here]
  exact same.symm

theorem stays (ledger : Ledger s) (pcs : after.pc = update s.pc c pc) (here : s.pc c = before)
    (others : forall d, d ≠ c -> after.stack d = s.stack d ∧ after.previous d = s.previous d)
    (sorted : pc.sorted)
    (same : before.releases (s.stack c) (s.previous c) = pc.releases (after.stack c) (after.previous c))
    (state : after.state = s.state) (refCnt : after.refCnt = s.refCnt)
    (handleOpen : after.handleOpen = s.handleOpen) (dropped : after.dropped = s.dropped)
    (destroyed : after.destroyed = s.destroyed) : Ledger after := by
  refine ledger.moved pcs others sorted (releases_same here same) ?_
  rw [state, refCnt, handleOpen, dropped, destroyed]
  exact ledger.releases

theorem goto (ledger : Ledger s) (here : s.pc c = before) (sorted : pc.sorted)
    (same : before.releases (s.stack c) (s.previous c) = pc.releases (s.stack c) (s.previous c)) :
    Ledger (s.goto c pc) :=
  ledger.stays rfl here (fun _ _ => ⟨rfl, rfl⟩) sorted same rfl rfl rfl rfl rfl

theorem readyLockAcquire (ledger : Ledger s) (taken : s.readyLockAcquire c pc = some after)
    (here : s.pc c = before) (sorted : pc.sorted)
    (same : before.releases (s.stack c) (s.previous c) = pc.releases (s.stack c) (s.previous c)) :
    Ledger after := by
  unfold Scheduler.readyLockAcquire at taken
  split at taken
  · rw [← Option.some.inj taken]
    exact ledger.stays rfl here (fun _ _ => ⟨rfl, rfl⟩) sorted same rfl rfl rfl rfl rfl
  · simp at taken

theorem setState {thread : T} {state : ThreadState} (ledger : Ledger s) (here : s.pc c = before)
    (sorted : pc.sorted)
    (same : before.releases (s.stack c) (s.previous c) = pc.releases (s.stack c) (s.previous c))
    (alive : s.state thread ≠ .dying) (lives : state ≠ .dying) :
    Ledger (s.setState c thread state pc) :=
  ledger.moved rfl (fun _ _ => ⟨rfl, rfl⟩) sorted (releases_same here same)
    (ledger.releases.setState alive lives)

theorem alive_on_stack (placed : Placed s spot) (here : s.pc c = before) (stays : before.leaving ≠ some .exit) :
    s.state (s.stack c) ≠ .dying := by
  rw [Ne, placed.states.dying_stack c, Scheduler.leaving, here]
  exact stays

theorem exitSetState (ledger : Ledger s) (placed : Placed s spot) (here : s.pc c = .exitSetState) :
    Ledger (s.setState c (s.current c) .dying .exitSignal) := by
  have alive := alive_on_stack placed here nofun
  rw [placed.current_stack here fun _ => rfl]
  refine ledger.moved rfl (fun _ _ => ⟨rfl, rfl⟩) trivial rfl (ledger.releases.die alive ?_)
  rw [Scheduler.releases, here]
  rfl

-- From the switch on the exited thread is PreviousThread.
theorem releases_after {how : Leave} (placed : Placed s spot) (here : s.pc c = before)
    (set : before.previousSet = true) (leaves : before.leaving = some how) (stack : T) :
    before.releases (s.stack c) (s.previous c) =
      (CpuPc.cleanupReadPrevious (T := T) how).releases stack (s.previous c) := by
  rw [placed.previous c (here ▸ set)]
  cases before <;> cases set <;> cases leaves <;> cases how <;> rfl

end Ledger

-- ThreadCleanupPostSchedule tests the State of the previous thread after it has released ReadyThreadsLock:
-- a thread that left by ThreadYield may run and exit on another CPU by then.
def NoDyingAfterYield (s : Scheduler C T) : CpuLabel C T -> Prop
  | .run c => match s.pc c with
    | .cleanupTestState prev .yield => s.state prev ≠ .dying
    | _ => True
  | _ => True

instance (s : Scheduler C T) (label : CpuLabel C T) : Decidable (NoDyingAfterYield s label) := by
  unfold NoDyingAfterYield
  split
  · split <;> infer_instance
  · infer_instance

theorem runStep_ledger {s after : Scheduler C T} {c : C} {spot : T -> Spot C} (ledger : Ledger s)
    (placed : Placed s spot) (met : NoDyingAfterYield s (.run c)) (taken : s.runStep c = some after) :
    Ledger after := by
  cases here : s.pc c with
  | running => simp [Scheduler.runStep, here] at taken
  | yieldLock =>
    simp only [Scheduler.runStep, here] at taken
    exact ledger.readyLockAcquire taken here trivial rfl
  | yieldInsert =>
    simp only [Scheduler.runStep, here] at taken
    split at taken
    all_goals
      rw [← Option.some.inj taken]
      exact ledger.stays rfl here (fun _ _ => ⟨rfl, rfl⟩) trivial rfl rfl rfl rfl rfl rfl
  | yieldSetState =>
    simp only [Scheduler.runStep, here, Option.some.injEq] at taken
    rw [placed.current_stack here fun _ => rfl] at taken
    exact taken ▸ ledger.setState here trivial rfl (Ledger.alive_on_stack placed here fun leaves => by cases leaves)
      (fun dies => by cases dies)
  | blockSetState =>
    simp only [Scheduler.runStep, here, Option.some.injEq] at taken
    rw [placed.current_stack here fun _ => rfl] at taken
    exact taken ▸ ledger.setState here trivial rfl (Ledger.alive_on_stack placed here fun leaves => by cases leaves)
      (fun dies => by cases dies)
  | blockLock =>
    simp only [Scheduler.runStep, here] at taken
    exact ledger.readyLockAcquire taken here trivial rfl
  | exitBlockLock =>
    simp only [Scheduler.runStep, here] at taken
    split at taken
    all_goals
      rw [← Option.some.inj taken]
      exact ledger.stays rfl here (fun _ _ => ⟨rfl, rfl⟩) trivial rfl rfl rfl rfl rfl rfl
  | exitSetState =>
    simp only [Scheduler.runStep, here, Option.some.injEq] at taken
    exact taken ▸ ledger.exitSetState placed here
  | exitSignal =>
    simp only [Scheduler.runStep, here, Option.some.injEq] at taken
    exact taken ▸ ledger.goto here trivial rfl
  | exitLock =>
    simp only [Scheduler.runStep, here] at taken
    exact ledger.readyLockAcquire taken here trivial rfl
  | scheduleSetPrevious how =>
    simp only [Scheduler.runStep, here, Option.some.injEq] at taken
    rw [← taken]
    refine ledger.stays rfl here ?_ trivial rfl rfl rfl rfl rfl rfl
    intro d other
    simp [other, Scheduler.goto]
  | scheduleGetReady how =>
    have leaves := Ledger.releases_after placed here rfl rfl (s.stack c)
    simp only [Scheduler.runStep, here] at taken
    split at taken
    · split at taken
      all_goals rw [← Option.some.inj taken]
      · exact ledger.goto here trivial rfl
      · exact ledger.goto here trivial leaves
    · split at taken
      · split at taken
        all_goals rw [← Option.some.inj taken]
        · exact ledger.stays rfl here (fun _ _ => ⟨rfl, rfl⟩) trivial rfl rfl rfl rfl rfl rfl
        · exact ledger.stays rfl here (fun _ _ => ⟨rfl, rfl⟩) trivial leaves rfl rfl rfl rfl rfl
      · simp at taken
  | scheduleSetCurrent next how =>
    simp only [Scheduler.runStep, here, Option.some.injEq] at taken
    exact taken ▸ ledger.stays rfl here (fun _ _ => ⟨rfl, rfl⟩) trivial rfl rfl rfl rfl rfl rfl
  | scheduleSwitch next how =>
    simp only [Scheduler.runStep, here, Option.some.injEq] at taken
    rw [← taken]
    refine ledger.stays rfl here ?_ trivial (Ledger.releases_after placed here rfl rfl _) rfl rfl rfl rfl rfl
    intro d other
    simp [other, Scheduler.goto]
  | cleanupReadPrevious how =>
    simp only [Scheduler.runStep, here, Option.some.injEq] at taken
    exact taken ▸ ledger.goto here trivial (by cases how <;> rfl)
  | cleanupUnlock prev how =>
    cases prev with
    | none =>
      simp only [Scheduler.runStep, here, Option.some.injEq] at taken
      exact taken ▸ ledger.stays rfl here (fun _ _ => ⟨rfl, rfl⟩) trivial (by cases how <;> rfl)
        rfl rfl rfl rfl rfl
    | some prev =>
      simp only [Scheduler.runStep, here, Option.some.injEq] at taken
      exact taken ▸ ledger.stays rfl here (fun _ _ => ⟨rfl, rfl⟩) trivial (by cases how <;> rfl)
        rfl rfl rfl rfl rfl
  | cleanupTestOwner prev how =>
    have held := placed.blockLock prev c
    rw [Scheduler.blockHeld, here] at held
    simp only [Scheduler.runStep, here, Option.some.injEq] at taken
    split at taken
    · rename_i own
      rw [← taken]
      cases how with
      | block => exact ledger.goto here rfl rfl
      | yield => cases held.mp own
      | exit => cases held.mp own
    · rename_i other
      rw [← taken]
      cases how with
      | block => exact absurd (held.mpr rfl) other
      | yield => exact ledger.goto here (fun block => by cases block) rfl
      | exit => exact ledger.goto here (fun block => by cases block) rfl
  | cleanupBlockLock prev how =>
    have blocks := ledger.sorted c
    rw [here] at blocks
    simp only [Scheduler.runStep, here] at taken
    split at taken
    · rw [← Option.some.inj taken]
      exact ledger.stays rfl here (fun _ _ => ⟨rfl, rfl⟩) trivial (by cases blocks; rfl) rfl rfl rfl rfl rfl
    · simp at taken
  | cleanupTestState prev how =>
    have left := ledger.sorted c
    simp only [NoDyingAfterYield, here] at met
    rw [here] at left
    simp only [Scheduler.runStep, here, Option.some.injEq] at taken
    rw [← taken]
    cases how with
    | block => exact absurd rfl left
    | yield =>
      rw [if_neg met]
      exact ledger.goto here trivial rfl
    | exit =>
      have releases : s.releases c = some prev := by
        rw [Scheduler.releases, here]
        rfl
      rw [if_pos (ledger.releases.pending c prev releases).1]
      exact ledger.goto here rfl rfl
  | cleanupDereference prev how =>
    have exits := ledger.sorted c
    rw [here] at exits
    cases exits
    have releases : s.releases c = some prev := by
      rw [Scheduler.releases, here]
      rfl
    simp only [Scheduler.runStep, here] at taken
    split at taken
    · simp at taken
    · rw [← Option.some.inj taken]
      refine ledger.moved rfl ?_ trivial rfl (ledger.releases.drop releases)
      intro d other
      simp [other, Scheduler.goto, Scheduler.dereference]
  | unblockLock thread exiting =>
    simp only [Scheduler.runStep, here] at taken
    split at taken
    · rw [← Option.some.inj taken]
      exact ledger.stays rfl here (fun _ _ => ⟨rfl, rfl⟩) trivial rfl rfl rfl rfl rfl rfl
    · simp at taken
  | unblockTestState thread exiting =>
    simp only [Scheduler.runStep, here] at taken
    split at taken
    · rw [← Option.some.inj taken]
      exact ledger.goto here trivial rfl
    · simp at taken
  | unblockReadyLock thread exiting =>
    simp only [Scheduler.runStep, here] at taken
    exact ledger.readyLockAcquire taken here trivial rfl
  | unblockInsert thread exiting =>
    simp only [Scheduler.runStep, here, Option.some.injEq] at taken
    exact taken ▸ ledger.stays rfl here (fun _ _ => ⟨rfl, rfl⟩) trivial rfl rfl rfl rfl rfl rfl
  | unblockSetState thread exiting =>
    have marked : s.mark c = .unblock thread := by
      rw [Scheduler.mark, here]
      rfl
    have blocked := (placed.states.inserted thread c marked).2.1
    simp only [Scheduler.runStep, here, Option.some.injEq] at taken
    exact taken ▸ ledger.setState here trivial rfl (fun dying => by rw [blocked] at dying; cases dying)
      (fun dies => by cases dies)
  | unblockReadyUnlock thread exiting =>
    simp only [Scheduler.runStep, here, Option.some.injEq] at taken
    exact taken ▸ ledger.stays rfl here (fun _ _ => ⟨rfl, rfl⟩) trivial rfl rfl rfl rfl rfl rfl
  | unblockUnlock thread exiting =>
    simp only [Scheduler.runStep, here, Option.some.injEq] at taken
    rw [← taken]
    cases exiting with
    | false => exact ledger.stays rfl here (fun _ _ => ⟨rfl, rfl⟩) trivial rfl rfl rfl rfl rfl rfl
    | true => exact ledger.stays rfl here (fun _ _ => ⟨rfl, rfl⟩) trivial rfl rfl rfl rfl rfl rfl

theorem step_ledger {s after : Scheduler C T} {label : CpuLabel C T} {spot : T -> Spot C} (ledger : Ledger s)
    (placed : Placed s spot) (met : NoDyingAfterYield s label) (taken : s.step label = some after) :
    Ledger after := by
  cases label with
  | run c => exact runStep_ledger ledger placed met taken
  | threadYield c =>
    simp only [Scheduler.step, Option.ite_none_right_eq_some, Option.some.injEq] at taken
    obtain ⟨here, rfl⟩ := taken
    exact ledger.goto here trivial rfl
  | wait c =>
    simp only [Scheduler.step, Scheduler.takeBlockLock, Option.ite_none_right_eq_some,
      Option.some.injEq] at taken
    obtain ⟨⟨here, _⟩, _, rfl⟩ := taken
    exact ledger.stays rfl here (fun _ _ => ⟨rfl, rfl⟩) trivial rfl rfl rfl rfl rfl rfl
  | idle c =>
    simp only [Scheduler.step, Scheduler.takeBlockLock, Option.ite_none_right_eq_some,
      Option.some.injEq] at taken
    obtain ⟨⟨here, _⟩, _, rfl⟩ := taken
    exact ledger.stays rfl here (fun _ _ => ⟨rfl, rfl⟩) trivial rfl rfl rfl rfl rfl rfl
  | threadExit c =>
    simp only [Scheduler.step, Option.ite_none_right_eq_some, Option.some.injEq] at taken
    obtain ⟨⟨here, _⟩, rfl⟩ := taken
    exact ledger.goto here trivial rfl
  | threadUnblock c thread =>
    simp only [Scheduler.step, Option.ite_none_right_eq_some, Option.some.injEq] at taken
    obtain ⟨⟨here, _⟩, rfl⟩ := taken
    rcases here with here | here
    all_goals
      refine ledger.stays rfl here (fun _ _ => ⟨rfl, rfl⟩) trivial ?_ rfl rfl rfl rfl rfl
      rw [here]
      rfl
  | threadCloseHandle thread =>
    simp only [Scheduler.step, Option.ite_none_right_eq_some, Option.some.injEq] at taken
    obtain ⟨⟨opened, _⟩, rfl⟩ := taken
    exact ⟨ledger.releases.close opened, ledger.sorted⟩

theorem initial_ledger {s : Scheduler C T} (initial : s.Initial) : Ledger s := by
  have none_pending (c : C) : s.releases c = none := by
    rw [Scheduler.releases, initial.pc c]
    rfl
  constructor
  · constructor
    · intro c t pending
      simp [none_pending] at pending
    · intro c d t pending
      simp [none_pending] at pending
    · intro t dying
      exact absurd dying (initial.alive t)
    · intro t dropped
      exact absurd (initial.dropped t) dropped
    · intro t
      rw [initial.refCnt t, initial.dropped t]
    · intro t
      rw [initial.destroyed t, initial.refCnt t]
      simp
  · intro c
    rw [initial.pc c]
    trivial

theorem reachable_ledger {s : Scheduler C T} (reached : (scheduler C T).ReachableUnder NoDyingAfterYield s) :
    Ledger s := by
  induction reached with
  | start s initial => exact initial_ledger initial
  | next s label after before met taken ih =>
    obtain ⟨spot, placed⟩ := reachable_placed before.reachable
    exact step_ledger ih placed met taken

namespace Ledger

variable {s : Scheduler C T} {spot : T -> Spot C}

-- A dying thread on a stack is pending there, so once dropped it is on none.
theorem dropped_off (ledger : Ledger s) (placed : Placed s spot) {t : T} (dropped : s.dropped t ≠ 0) (c : C) :
    s.stack c ≠ t ∧ s.current c ≠ t := by
  obtain ⟨once, dying⟩ := ledger.releases.dropped_dying t dropped
  have off : s.stack c ≠ t := by
    rintro rfl
    have exits := (placed.states.dying_stack c).mp dying
    have pending : s.releases c = some (s.stack c) := by
      rw [Scheduler.leaving] at exits
      rw [Scheduler.releases]
      cases there : s.pc c <;> simp_all [CpuPc.releases, CpuPc.leaving]
    exact dropped (ledger.releases.pending c _ pending).2
  refine ⟨off, ?_⟩
  rintro rfl
  exact off (placed.dying_current dying).1.symm

theorem drop_enabled (ledger : Ledger s) {t : T} {c : C} (pending : s.releases c = some t)
    (switched : s.leaving c = none) : (s.runStep c).isSome = true := by
  have count := ledger.releases.count t
  have undropped := (ledger.releases.pending c t pending).2
  rw [Scheduler.leaving] at switched
  rw [Scheduler.releases] at pending
  cases there : s.pc c with
  | cleanupUnlock prev how => cases prev <;> simp [Scheduler.runStep, there]
  | cleanupDereference prev how =>
    cases how <;> simp [there, CpuPc.releases, CpuPc.leaving] at pending
    subst pending
    have left : s.refCnt prev ≠ 0 := by omega
    simp [Scheduler.runStep, there, left]
  | _ => simp_all [CpuPc.releases, CpuPc.leaving, Scheduler.runStep]

theorem destroyed_eq (ledger : Ledger s) (t : T) :
    s.destroyed t = if s.dropped t = 1 ∧ s.handleOpen t = false then 1 else 0 := by
  have count := ledger.releases.count t
  have dropped := ledger.releases.dropped_dying t
  rw [ledger.releases.destroyed t]
  cases handle : s.handleOpen t <;> grind

end Ledger

theorem released_once {s : Scheduler C T} (reached : (scheduler C T).ReachableUnder NoDyingAfterYield s)
    (t : T) :
    s.dropped t ≤ 1 ∧
    (s.dropped t = 1 -> s.state t = .dying ∧ forall c, s.stack c ≠ t ∧ s.current c ≠ t) ∧
    (s.state t = .dying -> s.dropped t = 1 ∨
      ∃ c, s.releases c = some t ∧ (s.leaving c = none -> (s.runStep c).isSome = true)) ∧
    s.destroyed t = (if s.dropped t = 1 ∧ s.handleOpen t = false then 1 else 0) ∧
    (s.destroyed t ≠ 0 -> forall c, s.stack c ≠ t ∧ s.current c ≠ t) := by
  have ledger := reachable_ledger reached
  obtain ⟨spot, placed⟩ := reachable_placed reached.reachable
  have destroyed := ledger.destroyed_eq t
  refine ⟨?_, ?_, ?_, destroyed, ?_⟩
  · by_cases never : s.dropped t = 0
    · omega
    · exact (ledger.releases.dropped_dying t never).1.le
  · intro once
    have dropped : s.dropped t ≠ 0 := by omega
    exact ⟨(ledger.releases.dropped_dying t dropped).2, ledger.dropped_off placed dropped⟩
  · intro dying
    rcases ledger.releases.dying t dying with once | ⟨c, pending⟩
    · exact .inl once
    · exact .inr ⟨c, pending, ledger.drop_enabled pending⟩
  · intro gone
    have dropped : s.dropped t ≠ 0 := by
      intro never
      rw [destroyed, never] at gone
      simp at gone
    exact ledger.dropped_off placed dropped

theorem released_once_sample :
    ∃ s, (scheduler (Fin 2) (Fin 5)).ReachableUnder NoDyingAfterYield s ∧ s.destroyed 2 = 1 ∧
      s.dropped 2 = 1 ∧ forall c, s.stack c ≠ 2 ∧ s.current c ≠ 2 := by
  obtain ⟨s, reached, destroyed⟩ : ∃ s, (scheduler (Fin 2) (Fin 5)).ReachableUnder NoDyingAfterYield s ∧
      s.destroyed 2 = 1 :=
    sampleScheduler_run ([.threadExit 0] ++ List.replicate 13 (.run 0) ++ [.threadCloseHandle 2]) (by decide +kernel)
  obtain ⟨_, _, _, when, off⟩ := released_once reached 2
  refine ⟨s, reached, destroyed, ?_, off (by simp [destroyed])⟩
  by_contra never
  simp [destroyed, never] at when

-- Thread 2 yields on CPU 0, which is overtaken before it tests the thread's state: CPU 1 picks the thread,
-- and it exits there.
theorem released_early_sample :
    ¬ forall s, (scheduler (Fin 2) (Fin 5)).Reachable s -> forall t,
      s.dropped t ≤ 1 ∧ (s.dropped t = 1 -> forall c, s.stack c ≠ t) := by
  intro claim
  obtain ⟨s, reached, dropped, runs⟩ : ∃ s, (scheduler (Fin 2) (Fin 5)).Reachable s ∧
      s.dropped 2 = 1 ∧ s.stack 1 = 2 :=
    sampleScheduler_run ([.threadYield 0] ++ List.replicate 9 (.run 0) ++ [.threadYield 1] ++
      List.replicate 11 (.run 1) ++ [.threadExit 1] ++ List.replicate 2 (.run 1) ++
      List.replicate 3 (.run 0)) (by decide +kernel)
  exact (claim s reached 2).2 dropped 1 runs

end Hal9000.Kernel
