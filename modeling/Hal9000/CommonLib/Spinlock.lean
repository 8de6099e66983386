import Hal9000.Lib.LockTable
import Hal9000.Lib.Transition
import Mathlib.Tactic.Common

set_option autoImplicit false
set_option linter.unusedSectionVars false

namespace Hal9000.Spinlock

open Function (update)
open Lib (OneLock TransitionSystem)

-- SPINLOCK, and the first member of a MONITOR_LOCK. State is LOCK_TAKEN or not, and a NULL caller is 0.
@[ext] structure Lock (Cpu : Type) where
  taken : Bool
  holder : Option Cpu
  functionWhichTookLock : Nat
  deriving DecidableEq

inductive Point where
  | outside
  | checkOwner
  | monitor
  | exchange
  | wait
  | asleep
  | tryExchange
  | giveUp
  | checkFunction
  | checkHolder
  | nameHolder
  | nameFunction
  | checkState
  | held
  | forgetHolder
  | forgetFunction
  | free
  | restore
  | failed
  deriving DecidableEq, Repr

-- `armed` CPUs have a monitor on the lock that nothing has triggered. `expected` is the interrupt state that the code
-- around the calls has chosen.
structure State (Cpu : Type) where
  lock : Lock Cpu
  point : Cpu -> Point
  intrOn : Cpu -> Bool
  intrState : Cpu -> Bool
  expected : Cpu -> Bool
  returnAddress : Cpu -> Nat
  armed : Cpu -> Bool

inductive Action where
  | acquire (returnAddress : Nat)
  | tryAcquire (returnAddress : Nat)
  | release
  | resume
  -- CpuIntrSetState outside of the lock
  | setState (on : Bool)
  -- a monitor is triggered by something else than the lock
  | trigger
  deriving DecidableEq, Repr

variable {Cpu : Type} [DecidableEq Cpu]

-- SpinlockInit and MonitorLockInit.
def lockInit : Lock Cpu := { taken := false, holder := none, functionWhichTookLock := 0 }

-- SpinlockIsOwner and MonitorLockIsOwner.
def isOwner (lock : Lock Cpu) (cpu : Cpu) : Bool := decide (lock.holder = some cpu)

def asserted (condition : Bool) (point : Point) : Point := if condition then point else .failed

def State.goTo (s : State Cpu) (cpu : Cpu) (point : Point) : State Cpu :=
  { s with point := update s.point cpu point }

def State.store (s : State Cpu) (cpu : Cpu) (lock : Lock Cpu) (point : Point) : State Cpu :=
  { s with lock := lock, armed := fun _ => false, point := update s.point cpu point }

-- *IntrState = CpuIntrDisable()
def State.disable (s : State Cpu) (cpu : Cpu) (returnAddress : Nat) (point : Point) : State Cpu :=
  { s with
    intrState := update s.intrState cpu (s.intrOn cpu)
    intrOn := update s.intrOn cpu false
    returnAddress := update s.returnAddress cpu returnAddress
    point := update s.point cpu point }

-- CpuIntrSetState with the state from the call that took the lock.
def State.leave (s : State Cpu) (cpu : Cpu) : State Cpu :=
  { s with intrOn := update s.intrOn cpu (s.intrState cpu), point := update s.point cpu .outside }

-- _InterlockedCompareExchange8(&Lock->State, LOCK_TAKEN, LOCK_FREE); nothing is stored when it fails.
def State.compareExchange (s : State Cpu) (cpu : Cpu) (refused : Point) : State Cpu :=
  if s.lock.taken then s.goTo cpu refused else s.store cpu { s.lock with taken := true } .checkFunction

def resume (monitorSupport : Bool) (s : State Cpu) (cpu : Cpu) : Option (State Cpu) :=
  let lock := s.lock
  match s.point cpu with
  | .outside | .held | .failed => none
  | .checkOwner =>
    some (s.goTo cpu (asserted (!isOwner lock cpu) (if monitorSupport then .monitor else .exchange)))
  | .monitor => some { s.goTo cpu .exchange with armed := update s.armed cpu true }
  | .exchange => some (s.compareExchange cpu (if monitorSupport then .wait else .exchange))
  -- _mm_mwait does not wait once the monitor has been triggered.
  | .wait => some (s.goTo cpu (if s.armed cpu then .asleep else .monitor))
  | .asleep => if s.armed cpu then none else some (s.goTo cpu .monitor)
  | .tryExchange => some (s.compareExchange cpu .giveUp)
  | .giveUp => some (s.leave cpu)
  | .checkFunction => some (s.goTo cpu (asserted (lock.functionWhichTookLock == 0) .checkHolder))
  | .checkHolder => some (s.goTo cpu (asserted lock.holder.isNone .nameHolder))
  | .nameHolder => some (s.store cpu { lock with holder := some cpu } .nameFunction)
  | .nameFunction => some (s.store cpu { lock with functionWhichTookLock := s.returnAddress cpu } .checkState)
  | .checkState => some (s.goTo cpu (asserted lock.taken .held))
  | .forgetHolder => some (s.store cpu { lock with holder := none } .forgetFunction)
  | .forgetFunction => some (s.store cpu { lock with functionWhichTookLock := 0 } .free)
  | .free => some (s.store cpu { lock with taken := false } .restore)
  | .restore => some (s.leave cpu)

-- `monitorSupport` is what LockSystemInit has chosen the functions by.
def step (monitorSupport : Bool) (s : State Cpu) (cpu : Cpu) : Action -> Option (State Cpu)
  | .acquire returnAddress =>
    if s.point cpu = .outside then some (s.disable cpu returnAddress .checkOwner) else none
  | .tryAcquire returnAddress =>
    if s.point cpu = .outside then some (s.disable cpu returnAddress .tryExchange) else none
  | .release =>
    if s.point cpu = .held then
      some (s.goTo cpu (asserted (isOwner s.lock cpu && !s.intrOn cpu) .forgetHolder))
    else none
  | .resume => resume monitorSupport s cpu
  | .setState on =>
    if s.point cpu = .outside then
      some { s with intrOn := update s.intrOn cpu on, expected := update s.expected cpu on }
    else none
  | .trigger => some { s with armed := update s.armed cpu false }

def lockSystem (Cpu : Type) [DecidableEq Cpu] (monitorSupport : Bool) :
    TransitionSystem (State Cpu) (Cpu × Action) where
  initial s := s.lock = lockInit ∧ s.expected = s.intrOn ∧ forall cpu, s.point cpu = .outside
  step s label after := step monitorSupport s label.1 label.2 = some after

def owns : Point -> Bool
  | .checkFunction | .checkHolder | .nameHolder | .nameFunction | .checkState | .held => true
  | .forgetHolder | .forgetFunction | .free => true
  | _ => false

def named : Point -> Bool
  | .nameFunction | .checkState | .held | .forgetHolder => true
  | _ => false

-- While FunctionWhichTookLock is from the CPU.
def recorded : Point -> Bool
  | .checkState | .held | .forgetHolder | .forgetFunction => true
  | _ => false

def dozes : Point -> Bool
  | .wait | .asleep => true
  | _ => false

structure Invariant (s : State Cpu) : Prop where
  owner : ∃ owner, OneLock owner (fun c => owns (s.point c)) ∧ s.lock.taken = owner.isSome
  holder : OneLock s.lock.holder (fun c => named (s.point c))
  function : s.lock.functionWhichTookLock ≠ 0 -> ∃ c, recorded (s.point c) = true
  masked : forall c, s.point c ≠ .outside -> s.intrOn c = false ∧ s.intrState c = s.expected c
  unmasked : forall c, s.point c = .outside -> s.intrOn c = s.expected c
  dozing : forall c, dozes (s.point c) = true -> s.armed c = true -> s.lock.taken = true
  sound : forall c, s.point c ≠ .failed

section Runs

variable {s after : State Cpu} {cpu : Cpu} {p : Point}

theorem named_owns (named_ : named p = true) : owns p = true := by
  cases p <;> first | rfl | cases named_

theorem recorded_owns (recorded_ : recorded p = true) : owns p = true := by
  cases p <;> first | rfl | cases recorded_

theorem unowned (apart : owns p = false) : named p = false ∧ recorded p = false := by
  constructor
  next =>
    by_contra named_
    rw [named_owns (Bool.not_eq_false _ ▸ named_)] at apart
    cases apart
  next =>
    by_contra recorded_
    rw [recorded_owns (Bool.not_eq_false _ ▸ recorded_)] at apart
    cases apart

theorem kind_update (kind : Point -> Bool) : (fun c => kind (update s.point cpu p c)) =
    update (fun c => kind (s.point c)) cpu (kind p) :=
  funext (fun c => Function.apply_update (fun _ => kind) s.point cpu p c)

theorem Invariant.move (invariant : Invariant s) {lock : Lock Cpu} {armed : Cpu -> Bool}
    (inside : s.point cpu ≠ .outside) (stays : p ≠ .outside) (fine : p ≠ .failed)
    (owner : ∃ owner, OneLock owner (update (fun c => owns (s.point c)) cpu (owns p)) ∧ lock.taken = owner.isSome)
    (holder : OneLock lock.holder (update (fun c => named (s.point c)) cpu (named p)))
    (function : lock.functionWhichTookLock ≠ 0 ->
      recorded p = true ∨ s.lock.functionWhichTookLock ≠ 0 ∧ recorded (s.point cpu) = false)
    (dozing : forall c, dozes (update s.point cpu p c) = true -> armed c = true -> lock.taken = true) :
    Invariant { s with lock := lock, armed := armed, point := update s.point cpu p } := by
  have place (c : Cpu) (member : update s.point cpu p c ≠ .outside) : s.point c ≠ .outside := by
    by_cases same : c = cpu
    next => exact same ▸ inside
    next =>
      rw [Function.update_of_ne same] at member
      exact member
  refine ⟨?_, ?_, ?_, fun c member => invariant.masked c (place c member), ?_, dozing, ?_⟩
  · dsimp only
    rw [kind_update]
    exact owner
  · dsimp only
    rw [kind_update]
    exact holder
  · intro some_
    rcases function some_ with here | ⟨before, other⟩
    next => exact ⟨cpu, by dsimp only; rw [Function.update_self]; exact here⟩
    next =>
      obtain ⟨c, there⟩ := invariant.function before
      have apart : c ≠ cpu := fun same => by rw [same, other] at there; cases there
      exact ⟨c, by dsimp only; rw [Function.update_of_ne apart]; exact there⟩
  · intro c there
    dsimp only at there
    by_cases same : c = cpu
    next =>
      rw [same, Function.update_self] at there
      exact absurd there stays
    next =>
      rw [Function.update_of_ne same] at there
      exact invariant.unmasked c there
  · intro c there
    dsimp only at there
    by_cases same : c = cpu
    next =>
      rw [same, Function.update_self] at there
      exact fine there
    next =>
      rw [Function.update_of_ne same] at there
      exact invariant.sound c there

theorem Invariant.quiet (invariant : Invariant s) (inside : s.point cpu ≠ .outside) (stays : p ≠ .outside)
    (fine : p ≠ .failed) (owns_eq : owns (s.point cpu) = owns p) (named_eq : named (s.point cpu) = named p)
    (recorded_eq : recorded (s.point cpu) = recorded p)
    (doze : dozes p = true -> s.armed cpu = true -> s.lock.taken = true) : Invariant (s.goTo cpu p) := by
  obtain ⟨owner, one, taken⟩ := invariant.owner
  refine invariant.move inside stays fine ⟨owner, one.keep owns_eq, taken⟩ (invariant.holder.keep named_eq) ?_ ?_
  · intro some_
    by_cases here : recorded p = true
    next => exact .inl here
    next =>
      rw [Bool.not_eq_true] at here
      exact .inr ⟨some_, recorded_eq.trans here⟩
  · intro c there
    by_cases same : c = cpu
    next =>
      rw [same, Function.update_self] at there
      rw [same]
      exact doze there
    next =>
      rw [Function.update_of_ne same] at there
      exact invariant.dozing c there

theorem Invariant.store (invariant : Invariant s) {lock : Lock Cpu}
    (inside : s.point cpu ≠ .outside) (stays : p ≠ .outside) (fine : p ≠ .failed)
    (owner : ∃ owner, OneLock owner (update (fun c => owns (s.point c)) cpu (owns p)) ∧ lock.taken = owner.isSome)
    (holder : OneLock lock.holder (update (fun c => named (s.point c)) cpu (named p)))
    (function : lock.functionWhichTookLock ≠ 0 ->
      recorded p = true ∨ s.lock.functionWhichTookLock ≠ 0 ∧ recorded (s.point cpu) = false) :
    Invariant (s.store cpu lock p) :=
  invariant.move inside stays fine owner holder function (fun _ _ armed => by cases armed)

theorem Invariant.alone (invariant : Invariant s) (own : owns (s.point cpu) = true) :
    s.lock.taken = true ∧ forall c, owns (s.point c) = true -> c = cpu := by
  obtain ⟨owner, one, taken⟩ := invariant.owner
  have mine := (one cpu).mpr own
  refine ⟨?_, fun c other => one.unique other own⟩
  rw [taken, mine]
  rfl

theorem Invariant.nobody (invariant : Invariant s) (free : s.lock.taken = false) (c : Cpu) : owns (s.point c) = false := by
  cases own : owns (s.point c) with
  | false => rfl
  | true =>
    rw [(invariant.alone own).1] at free
    cases free

theorem Invariant.unnamed (invariant : Invariant s) (own : owns (s.point cpu) = true)
    (other : named (s.point cpu) = false) : s.lock.holder = none := by
  cases holder : s.lock.holder with
  | none => rfl
  | some c =>
    have there : named (s.point c) = true := (invariant.holder c).mp holder
    rw [(invariant.alone own).2 c (named_owns there), other] at there
    cases there

theorem Invariant.unrecorded (invariant : Invariant s) (own : owns (s.point cpu) = true)
    (other : recorded (s.point cpu) = false) : s.lock.functionWhichTookLock = 0 := by
  by_contra some_
  obtain ⟨c, there⟩ := invariant.function some_
  rw [(invariant.alone own).2 c (recorded_owns there), other] at there
  cases there

theorem Invariant.isOwner_eq (invariant : Invariant s) (c : Cpu) : isOwner s.lock c = named (s.point c) := by
  rw [isOwner, Bool.eq_iff_iff, decide_eq_true_iff]
  exact invariant.holder c

theorem Invariant.compareExchange (invariant : Invariant s) (inside : s.point cpu ≠ .outside) (stays : p ≠ .outside)
    (fine : p ≠ .failed) (before : owns (s.point cpu) = false) (refused : owns p = false) :
    Invariant (s.compareExchange cpu p) := by
  obtain ⟨unnamed_, unrecorded_⟩ := unowned before
  rw [State.compareExchange]
  split
  next taken =>
    exact invariant.quiet inside stays fine (before.trans refused.symm) (unnamed_.trans (unowned refused).1.symm)
      (unrecorded_.trans (unowned refused).2.symm) (fun _ _ => taken)
  next free =>
    rw [Bool.not_eq_true] at free
    obtain ⟨owner, one, taken⟩ := invariant.owner
    rw [free] at taken
    have none_ : owner = none := Option.not_isSome_iff_eq_none.mp (by rw [← taken]; exact Bool.false_ne_true)
    refine invariant.store inside (by decide) (by decide) ⟨some cpu, one.acquire none_, rfl⟩
      (invariant.holder.keep unnamed_) ?_
    intro some_
    exact .inr ⟨some_, unrecorded_⟩

theorem Invariant.cross (invariant : Invariant s) {intrOn intrState : Cpu -> Bool} {returnAddress : Cpu -> Nat}
    (before : owns (s.point cpu) = false) (behind : owns p = false) (fine : p ≠ .failed) (awake : dozes p = false)
    (others : forall c, c ≠ cpu -> intrOn c = s.intrOn c ∧ intrState c = s.intrState c)
    (masked : p ≠ .outside -> intrOn cpu = false ∧ intrState cpu = s.expected cpu)
    (unmasked : p = .outside -> intrOn cpu = s.expected cpu) :
    Invariant { s with
      intrOn := intrOn
      intrState := intrState
      returnAddress := returnAddress
      point := update s.point cpu p } := by
  obtain ⟨owner, one, taken⟩ := invariant.owner
  obtain ⟨unnamed, unrecorded⟩ := unowned before
  have at_ (c : Cpu) : c = cpu ∧ update s.point cpu p c = p ∨ c ≠ cpu ∧ update s.point cpu p c = s.point c := by
    by_cases same : c = cpu
    next => exact .inl ⟨same, by rw [same, Function.update_self]⟩
    next => exact .inr ⟨same, Function.update_of_ne same ..⟩
  refine ⟨⟨owner, ?_, taken⟩, ?_, ?_, ?_, ?_, ?_, ?_⟩
  · dsimp only
    rw [kind_update]
    exact one.keep (before.trans behind.symm)
  · dsimp only
    rw [kind_update]
    exact invariant.holder.keep (unnamed.trans (unowned behind).1.symm)
  · intro some_
    obtain ⟨c, there⟩ := invariant.function some_
    have apart : c ≠ cpu := fun same => by rw [same, unrecorded] at there; cases there
    exact ⟨c, by dsimp only; rw [Function.update_of_ne apart]; exact there⟩
  · intro c inside
    dsimp only at inside ⊢
    rcases at_ c with ⟨rfl, here⟩ | ⟨other, here⟩
    next =>
      rw [here] at inside
      exact masked inside
    next =>
      rw [here] at inside
      rw [(others c other).1, (others c other).2]
      exact invariant.masked c inside
  · intro c outside
    dsimp only at outside ⊢
    rcases at_ c with ⟨rfl, here⟩ | ⟨other, here⟩
    next =>
      rw [here] at outside
      exact unmasked outside
    next =>
      rw [here] at outside
      rw [(others c other).1]
      exact invariant.unmasked c outside
  · intro c doze armed
    dsimp only at doze
    rcases at_ c with ⟨rfl, here⟩ | ⟨_, here⟩
    next =>
      rw [here, awake] at doze
      cases doze
    next =>
      rw [here] at doze
      exact invariant.dozing c doze armed
  · intro c
    dsimp only
    rcases at_ c with ⟨_, here⟩ | ⟨_, here⟩
    next => rw [here]; exact fine
    next => rw [here]; exact invariant.sound c

theorem Invariant.disable (invariant : Invariant s) (outside : s.point cpu = .outside) {address : Nat}
    (inside : p ≠ .outside) (fine : p ≠ .failed) (behind : owns p = false) (awake : dozes p = false) :
    Invariant (s.disable cpu address p) := by
  refine invariant.cross (by rw [outside]; rfl) behind fine awake ?_ (fun _ => ⟨Function.update_self .., ?_⟩)
    (fun same => absurd same inside)
  · intro c other
    exact ⟨Function.update_of_ne other .., Function.update_of_ne other ..⟩
  · rw [Function.update_self]
    exact invariant.unmasked cpu outside

theorem Invariant.leave (invariant : Invariant s) (inside : s.point cpu ≠ .outside) (apart : owns (s.point cpu) = false) :
    Invariant (s.leave cpu) := by
  refine invariant.cross apart rfl (by decide) rfl ?_ (fun other => absurd rfl other) (fun _ => ?_)
  · intro c other
    exact ⟨Function.update_of_ne other .., rfl⟩
  · rw [Function.update_self]
    exact (invariant.masked cpu inside).2

theorem resume_invariant {monitorSupport : Bool} (invariant : Invariant s) (taken : resume monitorSupport s cpu = some after) :
    Invariant after := by
  unfold resume at taken
  cases point : s.point cpu with
  | outside => rw [point] at taken; cases taken
  | held => rw [point] at taken; cases taken
  | failed => exact absurd point (invariant.sound cpu)
  | checkOwner =>
    rw [point] at taken
    obtain rfl := Option.some.inj taken
    rw [invariant.isOwner_eq, point]
    cases monitorSupport
    all_goals
      apply invariant.quiet
      all_goals simp [point, asserted, owns, named, recorded, dozes]
  | monitor =>
    rw [point] at taken
    obtain rfl := Option.some.inj taken
    obtain ⟨owner, one, taken⟩ := invariant.owner
    refine invariant.move (by rw [point]; decide) (by decide) (by decide) ⟨owner, one.keep (by rw [point]; rfl), taken⟩
      (invariant.holder.keep (by rw [point]; rfl)) (fun some_ => .inr ⟨some_, by rw [point]; rfl⟩) ?_
    intro c doze armed
    by_cases same : c = cpu
    next =>
      rw [same, Function.update_self] at doze
      cases doze
    next =>
      rw [Function.update_of_ne same] at doze armed
      exact invariant.dozing c doze armed
  | exchange =>
    rw [point] at taken
    obtain rfl := Option.some.inj taken
    cases monitorSupport
    all_goals
      apply invariant.compareExchange
      all_goals simp [point, owns]
  | wait =>
    rw [point] at taken
    obtain rfl := Option.some.inj taken
    have doze := invariant.dozing cpu (by rw [point]; rfl)
    cases armed : s.armed cpu
    all_goals
      apply invariant.quiet
      all_goals simp [point, owns, named, recorded, dozes]
    exact doze
  | asleep =>
    rw [point] at taken
    dsimp only at taken
    split at taken
    next => cases taken
    next =>
      obtain rfl := Option.some.inj taken
      apply invariant.quiet
      all_goals simp [point, owns, named, recorded, dozes]
  | tryExchange =>
    rw [point] at taken
    obtain rfl := Option.some.inj taken
    apply invariant.compareExchange
    all_goals simp [point, owns]
  | giveUp =>
    rw [point] at taken
    obtain rfl := Option.some.inj taken
    exact invariant.leave (by rw [point]; decide) (by rw [point]; rfl)
  | checkFunction =>
    rw [point] at taken
    obtain rfl := Option.some.inj taken
    rw [@Invariant.unrecorded _ _ s cpu invariant (by rw [point]; rfl) (by rw [point]; rfl)]
    apply invariant.quiet
    all_goals simp [point, asserted, owns, named, recorded, dozes]
  | checkHolder =>
    rw [point] at taken
    obtain rfl := Option.some.inj taken
    rw [@Invariant.unnamed _ _ s cpu invariant (by rw [point]; rfl) (by rw [point]; rfl)]
    apply invariant.quiet
    all_goals simp [point, asserted, owns, named, recorded, dozes]
  | nameHolder =>
    rw [point] at taken
    obtain rfl := Option.some.inj taken
    obtain ⟨owner, one, taken⟩ := invariant.owner
    have unnamed := @Invariant.unnamed _ _ s cpu invariant (by rw [point]; rfl) (by rw [point]; rfl)
    refine invariant.store (by rw [point]; decide) (by decide) (by decide) ⟨owner, one.keep (by rw [point]; rfl), taken⟩
      (invariant.holder.acquire unnamed) (fun some_ => .inr ⟨some_, by rw [point]; rfl⟩)
  | nameFunction =>
    rw [point] at taken
    obtain rfl := Option.some.inj taken
    obtain ⟨owner, one, taken⟩ := invariant.owner
    exact invariant.store (by rw [point]; decide) (by decide) (by decide) ⟨owner, one.keep (by rw [point]; rfl), taken⟩
      (invariant.holder.keep (by rw [point]; rfl)) (fun _ => .inl rfl)
  | checkState =>
    rw [point] at taken
    obtain rfl := Option.some.inj taken
    rw [(@Invariant.alone _ _ s cpu invariant (by rw [point]; rfl)).1]
    apply invariant.quiet
    all_goals simp [point, asserted, owns, named, recorded, dozes]
  | forgetHolder =>
    rw [point] at taken
    obtain rfl := Option.some.inj taken
    obtain ⟨owner, one, taken⟩ := invariant.owner
    exact invariant.store (by rw [point]; decide) (by decide) (by decide) ⟨owner, one.keep (by rw [point]; rfl), taken⟩
      (invariant.holder.release (by rw [point]; rfl)) (fun _ => .inl rfl)
  | forgetFunction =>
    rw [point] at taken
    obtain rfl := Option.some.inj taken
    obtain ⟨owner, one, taken⟩ := invariant.owner
    exact invariant.store (by rw [point]; decide) (by decide) (by decide) ⟨owner, one.keep (by rw [point]; rfl), taken⟩
      (invariant.holder.keep (by rw [point]; rfl)) (fun some_ => absurd rfl some_)
  | free =>
    rw [point] at taken
    obtain rfl := Option.some.inj taken
    obtain ⟨owner, one, taken⟩ := invariant.owner
    refine invariant.store (by rw [point]; decide) (by decide) (by decide)
      ⟨none, one.release (by rw [point]; rfl), rfl⟩ (invariant.holder.keep (by rw [point]; rfl)) ?_
    exact fun some_ => .inr ⟨some_, by rw [point]; rfl⟩
  | restore =>
    rw [point] at taken
    obtain rfl := Option.some.inj taken
    exact invariant.leave (by rw [point]; decide) (by rw [point]; rfl)

theorem Invariant.setState (invariant : Invariant s) (outside : s.point cpu = .outside) (on : Bool) :
    Invariant { s with intrOn := update s.intrOn cpu on, expected := update s.expected cpu on } := by
  refine { invariant with masked := ?_, unmasked := ?_ }
  · intro c inside
    have other : c ≠ cpu := fun same => inside (by rw [same]; exact outside)
    dsimp only
    rw [Function.update_of_ne other, Function.update_of_ne other]
    exact invariant.masked c inside
  · intro c out
    dsimp only
    by_cases same : c = cpu
    next => rw [same, Function.update_self, Function.update_self]
    next =>
      rw [Function.update_of_ne same, Function.update_of_ne same]
      exact invariant.unmasked c out

theorem step_invariant {monitorSupport : Bool} {action : Action} (invariant : Invariant s)
    (taken : step monitorSupport s cpu action = some after) : Invariant after := by
  cases action with
  | acquire returnAddress =>
    obtain ⟨outside, same⟩ := Option.ite_none_right_eq_some.mp taken
    obtain rfl := Option.some.inj same
    exact invariant.disable outside (by decide) (by decide) rfl rfl
  | tryAcquire returnAddress =>
    obtain ⟨outside, same⟩ := Option.ite_none_right_eq_some.mp taken
    obtain rfl := Option.some.inj same
    exact invariant.disable outside (by decide) (by decide) rfl rfl
  | release =>
    obtain ⟨held, same⟩ := Option.ite_none_right_eq_some.mp taken
    obtain rfl := Option.some.inj same
    have masked := (invariant.masked cpu (by rw [held]; decide)).1
    rw [invariant.isOwner_eq, masked, held]
    apply invariant.quiet
    all_goals simp [held, asserted, owns, named, recorded, dozes]
  | resume => exact resume_invariant invariant taken
  | setState on =>
    obtain ⟨outside, same⟩ := Option.ite_none_right_eq_some.mp taken
    obtain rfl := Option.some.inj same
    exact invariant.setState outside on
  | trigger =>
    obtain rfl := Option.some.inj taken
    refine { invariant with dozing := fun c doze armed => invariant.dozing c doze ?_ }
    by_cases same : c = cpu
    next =>
      dsimp only at armed
      rw [same, Function.update_self] at armed
      cases armed
    next =>
      dsimp only at armed
      rw [Function.update_of_ne same] at armed
      exact armed

theorem initial_invariant {monitorSupport : Bool} (initial : (lockSystem Cpu monitorSupport).initial s) : Invariant s := by
  obtain ⟨free, expected, outside⟩ := initial
  refine ⟨⟨none, ?_, by rw [free]; rfl⟩, ?_, ?_, ?_, ?_, ?_, ?_⟩
  · intro c
    simp [outside c, owns]
  · intro c
    simp [free, lockInit, outside c, named]
  · intro some_
    rw [free] at some_
    exact absurd rfl some_
  · exact fun c inside => absurd (outside c) inside
  · exact fun c _ => by rw [expected]
  · intro c doze
    rw [outside c] at doze
    cases doze
  · intro c
    rw [outside c]
    decide

theorem reachable_invariant {monitorSupport : Bool} (reached : (lockSystem Cpu monitorSupport).Reachable s) : Invariant s :=
  reached.invariant (fun _ => initial_invariant) (fun _ _ _ invariant taken => step_invariant invariant taken)

structure Safe (s : State Cpu) : Prop where
  exclusion : forall c d, owns (s.point c) = true -> owns (s.point d) = true -> c = d
  asserts : forall c, s.point c ≠ .failed
  owned : forall c, s.point c = .held -> isOwner s.lock c = true
  unowned : forall c, owns (s.point c) = false -> isOwner s.lock c = false
  masked : forall c, owns (s.point c) = true -> s.intrOn c = false
  restored : forall c, s.point c = .outside -> s.intrOn c = s.expected c
  idle : (forall c, owns (s.point c) = false) -> s.lock = lockInit

theorem lock_safe {monitorSupport : Bool} (reached : (lockSystem Cpu monitorSupport).Reachable s) : Safe s := by
  have invariant := reachable_invariant reached
  refine ⟨?_, invariant.sound, ?_, ?_, ?_, invariant.unmasked, ?_⟩
  · intro c d first second
    exact (invariant.alone second).2 c first
  · intro c here
    rw [invariant.isOwner_eq, here]
    rfl
  · intro c apart
    rw [invariant.isOwner_eq]
    exact (unowned apart).1
  · intro c own
    refine (invariant.masked c ?_).1
    intro outside
    rw [outside] at own
    cases own
  · intro nobody
    obtain ⟨owner, one, taken⟩ := invariant.owner
    have free : s.lock.taken = false := by
      cases owner with
      | none => exact taken
      | some c =>
        have own : owns (s.point c) = true := (one c).mp rfl
        rw [nobody c] at own
        cases own
    have unnamed : s.lock.holder = none := by
      cases holder : s.lock.holder with
      | none => rfl
      | some c =>
        have there : named (s.point c) = true := (invariant.holder c).mp holder
        rw [(unowned (nobody c)).1] at there
        cases there
    have unrecorded : s.lock.functionWhichTookLock = 0 := by
      by_contra some_
      obtain ⟨c, there⟩ := invariant.function some_
      rw [(unowned (nobody c)).2] at there
      cases there
    exact Lock.ext free unnamed unrecorded

theorem monitor_wakes (reached : (lockSystem Cpu true).Reachable s) (asleep : s.point cpu = .asleep)
    (stuck : resume true s cpu = none) : ∃ owner, owner ≠ cpu ∧ owns (s.point owner) = true ∧
      (s.point owner = .held ∨ (resume true s owner).isSome = true) := by
  have invariant := reachable_invariant reached
  have armed : s.armed cpu = true := by
    rw [resume, asleep] at stuck
    by_contra disarmed
    dsimp only at stuck
    rw [if_neg disarmed] at stuck
    cases stuck
  have taken := invariant.dozing cpu (by rw [asleep]; rfl) armed
  obtain ⟨owner, one, same⟩ := invariant.owner
  rw [taken] at same
  obtain ⟨c, rfl⟩ := Option.isSome_iff_exists.mp same.symm
  have own : owns (s.point c) = true := (one c).mp rfl
  refine ⟨c, ?_, own, ?_⟩
  · intro self
    rw [self, asleep] at own
    cases own
  · unfold resume
    cases point : s.point c <;> first | exact .inl rfl | exact .inr rfl | (rw [point] at own; cases own)

end Runs

def sampleStart : State (Fin 2) where
  lock := lockInit
  point := fun _ => .outside
  intrOn := fun _ => true
  intrState := fun _ => false
  expected := fun _ => true
  returnAddress := fun _ => 0
  armed := fun _ => false

def sampleSchedule : List (Fin 2 × Action) :=
  (0, .acquire 1) :: List.replicate 8 (0, .resume) ++ (1, .acquire 2) :: List.replicate 4 (1, .resume)

theorem sampleSchedule_result : (TransitionSystem.runUnder (fun _ _ => decide True)
    (fun s label => step true s label.1 label.2) sampleStart sampleSchedule).any
      (fun s => decide (s.point 0 = .held ∧ s.point 1 = .asleep ∧ (resume true s 1).isNone = true)) = true := by
  decide

theorem sampleSchedule_reached : ∃ s, (lockSystem (Fin 2) true).Reachable s ∧
    s.point 0 = .held ∧ s.point 1 = .asleep ∧ (resume true s 1).isNone = true := by
  have start : (lockSystem (Fin 2) true).Reachable sampleStart := .start ⟨rfl, rfl, fun _ => rfl⟩
  exact TransitionSystem.ReachableUnder.of_run (fun _ _ _ => id) start sampleSchedule sampleSchedule_result

theorem lock_safe_sample : ∃ s, (lockSystem (Fin 2) true).Reachable s ∧ s.point 0 = .held ∧ Safe s := by
  obtain ⟨s, reached, held, _⟩ := sampleSchedule_reached
  exact ⟨s, reached, held, lock_safe reached⟩

theorem monitor_wakes_sample : ∃ s, (lockSystem (Fin 2) true).Reachable s ∧ s.point 1 = .asleep ∧
    ∃ owner, owner ≠ 1 ∧ owns (s.point owner) = true := by
  obtain ⟨s, reached, _, asleep, stuck⟩ := sampleSchedule_reached
  obtain ⟨owner, other, own, _⟩ := monitor_wakes reached asleep (Option.isNone_iff_eq_none.mp stuck)
  exact ⟨s, reached, asleep, owner, other, own⟩

end Hal9000.Spinlock
