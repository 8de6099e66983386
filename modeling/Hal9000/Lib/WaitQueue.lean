import Hal9000.Lib.LockTable
import Mathlib.Data.List.Nodup

set_option autoImplicit false
set_option linter.unusedSectionVars false

namespace Hal9000.Lib.WaitQueue

inductive Phase (T W : Type) where
  | free
  | holding (w : W)
  | linked (w : W)
  | armed (w : W)
  | falling (w : W)
  | stopped (w : W)
  | asleep (w : W)
  | waking (w : W) (v : T)
  | rousing (w : W) (v : T)
  | roused (w : W) (v : T)
  deriving DecidableEq, Repr

namespace Phase

variable {T W : Type}

def critical : Phase T W -> Option W
  | holding w | linked w | armed w | waking w _ | rousing w _ | roused w _ => some w
  | free | falling _ | stopped _ | asleep _ => none

def blockHeld (self : T) : Phase T W -> Option T
  | armed _ | falling _ | stopped _ => some self
  | rousing _ v | roused _ v => some v
  | free | holding _ | linked _ | asleep _ | waking _ _ => none

def sleeping : Phase T W -> Option W
  | linked w | armed w | falling w | stopped w | asleep w => some w
  | free | holding _ | waking _ _ | rousing _ _ | roused _ _ => none

def wakes : Phase T W -> Option (T × W)
  | waking w v | rousing w v => some (v, w)
  | free | holding _ | linked _ | armed _ | falling _ | stopped _ | asleep _ | roused _ _ => none

def resting : Phase T W -> Bool
  | stopped _ | asleep _ => true
  | free | holding _ | linked _ | armed _ | falling _ | waking _ _ | rousing _ _ | roused _ _ => false

theorem critical_of_wakes {phase : Phase T W} {v : T} {w : W} (wakes : phase.wakes = some (v, w)) :
    phase.critical = some w := by
  cases phase <;> simp_all [Phase.wakes, Phase.critical]

end Phase

structure State (T W : Type) where
  phase : T -> Phase T W
  blocked : T -> Bool
  blockLock : T -> Option T
  lock : W -> Option T
  waiting : W -> List T

variable {T W : Type} [DecidableEq T] [DecidableEq W]

def State.goto (s : State T W) (t : T) (phase : Phase T W) : State T W :=
  { s with phase := Function.update s.phase t phase }

open Function (update)

-- An object lock guards its queue; an agent's block lock is held from before it can be taken off the
-- queue until it is asleep, so that nobody makes it ready in between.
inductive Step (s : State T W) (t : T) : State T W -> Prop where
  | enter (w : W) (here : s.phase t = .free) (unlocked : s.lock w = none) :
      Step s t { s.goto t (.holding w) with lock := update s.lock w (some t) }
  | leave (w : W) (here : s.phase t = .holding w) :
      Step s t { s.goto t .free with lock := update s.lock w none }
  | link (w : W) (here : s.phase t = .holding w) :
      Step s t { s.goto t (.linked w) with waiting := update s.waiting w (s.waiting w ++ [t]) }
  | arm (w : W) (here : s.phase t = .linked w) (unlocked : s.blockLock t = none) :
      Step s t { s.goto t (.armed w) with blockLock := update s.blockLock t (some t) }
  | fall (w : W) (here : s.phase t = .armed w) :
      Step s t { s.goto t (.falling w) with lock := update s.lock w none }
  | stop (w : W) (here : s.phase t = .falling w) :
      Step s t { s.goto t (.stopped w) with blocked := update s.blocked t true }
  | sleep (w : W) (here : s.phase t = .stopped w) :
      Step s t { s.goto t (.asleep w) with blockLock := update s.blockLock t none }
  | resume (w : W) (here : s.phase t = .asleep w) (ready : s.blocked t = false) :
      Step s t (s.goto t .free)
  | pop (w : W) (v : T) (rest : List T) (here : s.phase t = .holding w) (head : s.waiting w = v :: rest) :
      Step s t { s.goto t (.waking w v) with waiting := update s.waiting w rest }
  | rouse (w : W) (v : T) (here : s.phase t = .waking w v) (unlocked : s.blockLock v = none) :
      Step s t { s.goto t (.rousing w v) with blockLock := update s.blockLock v (some t) }
  | ready (w : W) (v : T) (here : s.phase t = .rousing w v) :
      Step s t { s.goto t (.roused w v) with blocked := update s.blocked v false }
  | drop (w : W) (v : T) (here : s.phase t = .roused w v) :
      Step s t { s.goto t (.holding w) with blockLock := update s.blockLock v none }

structure Consistent (s : State T W) : Prop where
  lock_iff : forall w t, s.lock w = some t ↔ (s.phase t).critical = some w
  blockLock_iff : forall v t, s.blockLock v = some t ↔ (s.phase t).blockHeld t = some v
  sleeping_of_mem : forall w v, v ∈ s.waiting w -> (s.phase v).sleeping = some w
  nodup : forall w, (s.waiting w).Nodup
  sleeping_of_wakes : forall u v w, (s.phase u).wakes = some (v, w) ->
    (s.phase v).sleeping = some w ∧ v ∉ s.waiting w
  pending : forall v w, (s.phase v).sleeping = some w ->
    v ∈ s.waiting w ∨ (∃ u, (s.phase u).wakes = some (v, w)) ∨ (s.phase v = .asleep w ∧ s.blocked v = false)
  blocked_of_stopped : forall v w, s.phase v = .stopped w -> s.blocked v = true
  resting_of_blocked : forall v, s.blocked v = true -> (s.phase v).resting = true
  blocked_of_mem : forall v w, s.phase v = .asleep w -> v ∈ s.waiting w -> s.blocked v = true
  blocked_of_wakes : forall u v w, s.phase v = .asleep w -> (s.phase u).wakes = some (v, w) ->
    s.blocked v = true

namespace Consistent

section Exclusion

variable {s : State T W} {t u v : T} {w : W}

theorem critical_unique (consistent : Consistent s) (first : (s.phase t).critical = some w)
    (second : (s.phase u).critical = some w) : t = u := by
  have mine := (consistent.lock_iff w t).mpr first
  have other := (consistent.lock_iff w u).mpr second
  exact Option.some.inj (mine.symm.trans other)

theorem blockHeld_unique (consistent : Consistent s) (first : (s.phase t).blockHeld t = some v)
    (second : (s.phase u).blockHeld u = some v) : t = u := by
  have mine := (consistent.blockLock_iff v t).mpr first
  have other := (consistent.blockLock_iff v u).mpr second
  exact Option.some.inj (mine.symm.trans other)

theorem waker_unique (consistent : Consistent s) {w' : W} (first : (s.phase t).wakes = some (v, w))
    (second : (s.phase u).wakes = some (v, w')) : t = u := by
  have mine := (consistent.sleeping_of_wakes t v w first).1
  have other := (consistent.sleeping_of_wakes u v w' second).1
  obtain rfl : w = w' := Option.some.inj (mine.symm.trans other)
  exact consistent.critical_unique (Phase.critical_of_wakes first) (Phase.critical_of_wakes second)

-- The queue's lock keeps v out of the critical section, v's block lock keeps it out of the rest.
theorem asleep_of_rousing (consistent : Consistent s) (here : s.phase t = .rousing w v) :
    s.phase v = .asleep w ∧ s.blocked v = true := by
  have wakes : (s.phase t).wakes = some (v, w) := by rw [here]; rfl
  have critical : (s.phase t).critical = some w := by rw [here]; rfl
  have held : (s.phase t).blockHeld t = some v := by rw [here]; rfl
  obtain ⟨sleeping, _⟩ := consistent.sleeping_of_wakes t v w wakes
  have asleep : s.phase v = .asleep w := by
    cases phase : s.phase v with
    | free | holding | waking | rousing | roused => simp [phase, Phase.sleeping] at sleeping
    | linked | armed =>
      have same : t = v := by
        apply consistent.critical_unique critical
        rw [phase] at sleeping ⊢
        exact sleeping
      subst same
      simp [here] at phase
    | falling | stopped =>
      have same : t = v := by
        apply consistent.blockHeld_unique held
        rw [phase]
        rfl
      subst same
      simp [here] at phase
    | asleep =>
      rw [phase] at sleeping
      rw [Option.some.inj sleeping]
  exact ⟨asleep, consistent.blocked_of_wakes t v w asleep wakes⟩

end Exclusion

variable {s after : State T W} {t : T}

attribute [local grind =] Phase.critical Phase.blockHeld Phase.sleeping Phase.wakes
  Phase.resting

theorem own (consistent : Consistent s) {p : Phase T W} {lock : W -> Option T} {blockLock : T -> Option T} {b : Bool}
    (locks : LockTable lock (update (fun u => (s.phase u).critical) t p.critical))
    (blockLocks : LockTable blockLock (update (fun u => (s.phase u).blockHeld u) t (p.blockHeld t)))
    (wakes : p.wakes = (s.phase t).wakes)
    (sleeping : p.sleeping = (s.phase t).sleeping ∧ (forall w, s.phase t ≠ .asleep w) ∨
      p.sleeping = none ∧ (forall w, t ∉ s.waiting w) ∧ forall u w, (s.phase u).wakes ≠ some (t, w))
    (stopped : forall w, p = .stopped w -> b = true) (asleep : forall w, p = .asleep w -> b = true)
    (resting : b = true -> p.resting = true) :
    Consistent { s.goto t p with lock := lock, blockLock := blockLock, blocked := update s.blocked t b } := by
  obtain ⟨_, _, sleeping_of_mem, nodup, sleeping_of_wakes, pending, blocked_of_stopped, resting_of_blocked,
    blocked_of_mem, blocked_of_wakes⟩ := consistent
  constructor
  case lock_iff =>
    intro w u
    rw [locks w u]
    simp only [State.goto, Function.update_apply]
    split <;> rfl
  case blockLock_iff =>
    intro v u
    rw [blockLocks v u]
    simp only [State.goto, Function.update_apply]
    split
    next same => rw [same]
    next => rfl
  all_goals
    simp only [State.goto, Function.update_apply]
    grind -ring -linarith

theorem relock (consistent : Consistent s) {p : Phase T W} {lock : W -> Option T} {blockLock : T -> Option T}
    (locks : LockTable lock (update (fun u => (s.phase u).critical) t p.critical))
    (blockLocks : LockTable blockLock (update (fun u => (s.phase u).blockHeld u) t (p.blockHeld t)))
    (wakes : p.wakes = (s.phase t).wakes) (sleeping : p.sleeping = (s.phase t).sleeping)
    (before : (s.phase t).resting = false) (after : p.resting = false) :
    Consistent { s.goto t p with lock := lock, blockLock := blockLock } := by
  have awake : s.blocked t = false := by
    by_contra set
    rw [consistent.resting_of_blocked t (by simpa using set)] at before
    cases before
  have moved := consistent.own (b := s.blocked t) locks blockLocks wakes
    (.inl ⟨sleeping, fun w here => by simp [here, Phase.resting] at before⟩)
    (fun w here => by simp [here, Phase.resting] at after) (fun w here => by simp [here, Phase.resting] at after)
    (fun set => by simp [awake] at set)
  rwa [Function.update_eq_self] at moved

section Steps

variable {w : W} {v : T}

theorem enter (consistent : Consistent s) (here : s.phase t = .free) (unlocked : s.lock w = none) :
    Consistent { s.goto t (.holding w) with lock := update s.lock w (some t) } :=
  consistent.relock (LockTable.acquire consistent.lock_iff unlocked (by rw [here]; rfl))
    (LockTable.keep consistent.blockLock_iff (by rw [here]; rfl)) (by rw [here]; rfl) (by rw [here]; rfl)
    (by rw [here]; rfl) rfl

theorem leave (consistent : Consistent s) (here : s.phase t = .holding w) :
    Consistent { s.goto t .free with lock := update s.lock w none } :=
  consistent.relock (LockTable.release consistent.lock_iff (by rw [here]; rfl))
    (LockTable.keep consistent.blockLock_iff (by rw [here]; rfl)) (by rw [here]; rfl) (by rw [here]; rfl)
    (by rw [here]; rfl) rfl

theorem arm (consistent : Consistent s) (here : s.phase t = .linked w) (unlocked : s.blockLock t = none) :
    Consistent { s.goto t (.armed w) with blockLock := update s.blockLock t (some t) } :=
  consistent.relock (LockTable.keep consistent.lock_iff (by rw [here]; rfl))
    (LockTable.acquire consistent.blockLock_iff unlocked (by rw [here]; rfl)) (by rw [here]; rfl) (by rw [here]; rfl)
    (by rw [here]; rfl) rfl

theorem fall (consistent : Consistent s) (here : s.phase t = .armed w) :
    Consistent { s.goto t (.falling w) with lock := update s.lock w none } :=
  consistent.relock (LockTable.release consistent.lock_iff (by rw [here]; rfl))
    (LockTable.keep consistent.blockLock_iff (by rw [here]; rfl)) (by rw [here]; rfl) (by rw [here]; rfl)
    (by rw [here]; rfl) rfl

theorem rouse (consistent : Consistent s) (here : s.phase t = .waking w v) (unlocked : s.blockLock v = none) :
    Consistent { s.goto t (.rousing w v) with blockLock := update s.blockLock v (some t) } :=
  consistent.relock (LockTable.keep consistent.lock_iff (by rw [here]; rfl))
    (LockTable.acquire consistent.blockLock_iff unlocked (by rw [here]; rfl)) (by rw [here]; rfl) (by rw [here]; rfl)
    (by rw [here]; rfl) rfl

theorem drop (consistent : Consistent s) (here : s.phase t = .roused w v) :
    Consistent { s.goto t (.holding w) with blockLock := update s.blockLock v none } :=
  consistent.relock (LockTable.keep consistent.lock_iff (by rw [here]; rfl))
    (LockTable.release consistent.blockLock_iff (by rw [here]; rfl)) (by rw [here]; rfl) (by rw [here]; rfl)
    (by rw [here]; rfl) rfl

theorem stop (consistent : Consistent s) (here : s.phase t = .falling w) :
    Consistent { s.goto t (.stopped w) with blocked := update s.blocked t true } :=
  consistent.own (LockTable.keep consistent.lock_iff (by rw [here]; rfl))
    (LockTable.keep consistent.blockLock_iff (by rw [here]; rfl)) (by rw [here]; rfl)
    (.inl ⟨by rw [here]; rfl, by simp [here]⟩) (by simp) (by simp) (fun _ => rfl)

theorem sleep (consistent : Consistent s) (here : s.phase t = .stopped w) :
    Consistent { s.goto t (.asleep w) with blockLock := update s.blockLock t none } := by
  have blocked := consistent.blocked_of_stopped t w here
  have moved := consistent.own (p := .asleep w) (b := s.blocked t)
    (LockTable.keep consistent.lock_iff (by rw [here]; rfl))
    (LockTable.release consistent.blockLock_iff (l := t) (by rw [here]; rfl)) (by rw [here]; rfl)
    (.inl ⟨by rw [here]; rfl, by simp [here]⟩) (by simp) (fun _ _ => blocked) (fun _ => rfl)
  rwa [Function.update_eq_self] at moved

theorem resume (consistent : Consistent s) (here : s.phase t = .asleep w) (ready : s.blocked t = false) :
    Consistent (s.goto t .free) := by
  have unlisted (object : W) : t ∉ s.waiting object := by
    intro listed
    have sleeping := consistent.sleeping_of_mem object t listed
    rw [here] at sleeping
    obtain rfl := Option.some.inj sleeping
    simp [consistent.blocked_of_mem t w here listed] at ready
  have unwoken (u : T) (object : W) : (s.phase u).wakes ≠ some (t, object) := by
    intro wakes
    have sleeping := (consistent.sleeping_of_wakes u t object wakes).1
    rw [here] at sleeping
    obtain rfl := Option.some.inj sleeping
    simp [consistent.blocked_of_wakes u t w here wakes] at ready
  have moved := consistent.own (p := .free) (b := s.blocked t)
    (LockTable.keep consistent.lock_iff (by rw [here]; rfl))
    (LockTable.keep consistent.blockLock_iff (by rw [here]; rfl)) (by rw [here]; rfl) (.inr ⟨rfl, unlisted, unwoken⟩) (by simp) (by simp) (by simp [ready])
  rwa [Function.update_eq_self] at moved

theorem link (consistent : Consistent s) (here : s.phase t = .holding w) :
    Consistent { s.goto t (.linked w) with waiting := update s.waiting w (s.waiting w ++ [t]) } := by
  obtain ⟨lock_iff, blockLock_iff, sleeping_of_mem, nodup, sleeping_of_wakes, pending,
    blocked_of_stopped, resting_of_blocked, blocked_of_mem, blocked_of_wakes⟩ := consistent
  constructor
  all_goals
    simp only [State.goto, Function.update_apply]
    grind -ring -linarith

theorem pop (consistent : Consistent s) {rest : List T} (here : s.phase t = .holding w)
    (head : s.waiting w = v :: rest) :
    Consistent { s.goto t (.waking w v) with waiting := update s.waiting w rest } := by
  obtain ⟨lock_iff, blockLock_iff, sleeping_of_mem, nodup, sleeping_of_wakes, pending,
    blocked_of_stopped, resting_of_blocked, blocked_of_mem, blocked_of_wakes⟩ := consistent
  constructor
  all_goals
    simp only [State.goto, Function.update_apply]
    grind -ring -linarith

theorem ready (consistent : Consistent s) (here : s.phase t = .rousing w v) :
    Consistent { s.goto t (.roused w v) with blocked := update s.blocked v false } := by
  obtain ⟨asleep, blocked⟩ := consistent.asleep_of_rousing here
  have mine : (s.phase t).wakes = some (v, w) := by rw [here]; rfl
  have exclusive (u : T) (object : W) (wakes : (s.phase u).wakes = some (v, object)) : t = u :=
    consistent.waker_unique mine wakes
  obtain ⟨lock_iff, blockLock_iff, sleeping_of_mem, nodup, sleeping_of_wakes, pending,
    blocked_of_stopped, resting_of_blocked, blocked_of_mem, blocked_of_wakes⟩ := consistent
  constructor
  all_goals
    simp only [State.goto, Function.update_apply]
    grind -ring -linarith

end Steps

theorem step (consistent : Consistent s) (taken : Step s t after) : Consistent after := by
  cases taken with
  | enter w here unlocked => exact consistent.enter here unlocked
  | leave w here => exact consistent.leave here
  | link w here => exact consistent.link here
  | arm w here unlocked => exact consistent.arm here unlocked
  | fall w here => exact consistent.fall here
  | stop w here => exact consistent.stop here
  | sleep w here => exact consistent.sleep here
  | resume w here ready => exact consistent.resume here ready
  | pop w v rest here head => exact consistent.pop here head
  | rouse w v here unlocked => exact consistent.rouse here unlocked
  | ready w v here => exact consistent.ready here
  | drop w v here => exact consistent.drop here

end Consistent

end Hal9000.Lib.WaitQueue
