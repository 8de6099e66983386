import Hal9000.Lib.Census
import Hal9000.Lib.Transition
import Mathlib.Algebra.Group.Nat.Defs

set_option autoImplicit false

namespace Hal9000.RwSpinlock

open Function (update)
open Lib (census TransitionSystem)

def interlockedIncrement16 (value : Nat) : Nat := (value + 1) % 2 ^ 16

def interlockedDecrement16 (value : Nat) : Nat := (value + (2 ^ 16 - 1)) % 2 ^ 16

def interlockedCompareExchange (low high exchange comparand : Nat) : Nat × Nat × Nat :=
  let old := low + 2 ^ 16 * high
  if old = comparand then (exchange % 2 ^ 16, exchange / 2 ^ 16, old) else (low, high, old)

structure Spinlock where
  waitingWriters : Nat
  activeWriter : Nat
  activeReaders : Nat
  deriving DecidableEq, Repr

def rwSpinlockInit : Spinlock := { waitingWriters := 0, activeWriter := 0, activeReaders := 0 }

-- Where a CPU stands in RwSpinlockAcquire and RwSpinlockRelease: the operation it does next.
inductive Point where
  | outside
  | announce
  | writerSpin
  | withdraw
  | writing
  | writerRelease
  | readerSpin
  | enter
  | readerCheck
  | confess
  | reading
  | failed
  deriving DecidableEq, Repr

structure State (Cpu : Type) where
  lock : Spinlock
  point : Cpu -> Point

variable {Cpu : Type} [DecidableEq Cpu]

def State.move (s : State Cpu) (cpu : Cpu) (lock : Spinlock) (point : Point) : State Cpu where
  lock := lock
  point := update s.point cpu point

def pseudoActiveWriter : Nat := 0xFFFF + 1

-- The next operation of `cpu`; `exclusive` is the mode of the acquire it begins when it is outside.
def step (s : State Cpu) (cpu : Cpu) (exclusive : Bool) : State Cpu :=
  let lock := s.lock
  match s.point cpu with
  | .outside => s.move cpu lock (if exclusive then .announce else .readerSpin)
  | .announce =>
    s.move cpu { lock with waitingWriters := interlockedIncrement16 lock.waitingWriters } .writerSpin
  | .writerSpin =>
    let (activeWriter, activeReaders, old) := interlockedCompareExchange lock.activeWriter lock.activeReaders 1 0
    s.move cpu { lock with activeWriter := activeWriter, activeReaders := activeReaders }
      (if old ≠ 0 then .writerSpin else .withdraw)
  | .withdraw =>
    s.move cpu { lock with waitingWriters := interlockedDecrement16 lock.waitingWriters } .writing
  | .writing => s.move cpu lock (if lock.activeWriter = 1 then .writerRelease else .failed)
  | .writerRelease =>
    s.move cpu { lock with activeWriter := interlockedDecrement16 lock.activeWriter } .outside
  | .readerSpin =>
    let (waitingWriters, activeWriter, old) :=
      interlockedCompareExchange lock.waitingWriters lock.activeWriter pseudoActiveWriter 0
    s.move cpu { lock with waitingWriters := waitingWriters, activeWriter := activeWriter }
      (if old ≠ 0 then .readerSpin else .enter)
  | .enter =>
    s.move cpu { lock with activeReaders := interlockedIncrement16 lock.activeReaders } .readerCheck
  | .readerCheck => s.move cpu lock (if lock.activeWriter = 1 then .confess else .failed)
  | .confess =>
    s.move cpu { lock with activeWriter := interlockedDecrement16 lock.activeWriter } .reading
  | .reading =>
    s.move cpu { lock with activeReaders := interlockedDecrement16 lock.activeReaders } .outside
  | .failed => s

def spinlockSystem (Cpu : Type) [DecidableEq Cpu] : TransitionSystem (State Cpu) (Cpu × Bool) where
  initial s := s.lock = rwSpinlockInit ∧ forall cpu, s.point cpu = .outside
  step s label after := after = step s label.1 label.2

-- The points between the increment and the decrement of WaitingWriters.
def waits : Point -> Bool
  | .writerSpin | .withdraw => true
  | _ => false

def holdsExclusive : Point -> Bool
  | .withdraw | .writing | .writerRelease => true
  | _ => false

def poses : Point -> Bool
  | .enter | .readerCheck | .confess => true
  | _ => false

def active (point : Point) : Bool := holdsExclusive point || poses point

-- A reader between its increment of ActiveReaders and its release.
def reads : Point -> Bool
  | .readerCheck | .confess | .reading => true
  | _ => false

def holdsShared (point : Point) : Bool := poses point || reads point

structure Invariant [Fintype Cpu] (s : State Cpu) : Prop where
  waiting : s.lock.waitingWriters = census waits s.point
  writer : s.lock.activeWriter = census active s.point
  readers : s.lock.activeReaders = census reads s.point
  alone : census active s.point ≤ 1
  exclusive : 0 < census holdsExclusive s.point -> census reads s.point = 0
  sound : forall cpu, s.point cpu ≠ .failed

section Runs

variable [Fintype Cpu] {s after : State Cpu}

omit [DecidableEq Cpu] in
theorem census_active (point : Cpu -> Point) :
    census active point = census holdsExclusive point + census poses point :=
  Lib.census_or fun p => by cases p <;> simp [holdsExclusive, poses]

theorem Invariant.move (invariant : Invariant s) {cpu : Cpu} {lock : Spinlock} {p : Point} (fine : p ≠ .failed)
    (waiting : lock.waitingWriters + (waits (s.point cpu)).toNat = s.lock.waitingWriters + (waits p).toNat)
    (writer : lock.activeWriter + (active (s.point cpu)).toNat = s.lock.activeWriter + (active p).toNat)
    (readers : lock.activeReaders + (reads (s.point cpu)).toNat = s.lock.activeReaders + (reads p).toNat)
    (alone : lock.activeWriter ≤ 1)
    (exclusive : forall others, others + (holdsExclusive (s.point cpu)).toNat = census holdsExclusive s.point ->
      0 < others + (holdsExclusive p).toNat -> lock.activeReaders = 0) :
    Invariant (s.move cpu lock p) := by
  have counted (kind : Point -> Bool) := Lib.census_update kind s.point cpu p
  have waiting' := counted waits
  have writer' := counted active
  have readers' := counted reads
  have exclusive' := counted holdsExclusive
  obtain ⟨oldWaiting, oldWriter, oldReaders, _, _, sound⟩ := invariant
  refine ⟨?_, ?_, ?_, ?_, ?_, ?_⟩
  · change lock.waitingWriters = census waits (update s.point cpu p)
    omega
  · change lock.activeWriter = census active (update s.point cpu p)
    omega
  · change lock.activeReaders = census reads (update s.point cpu p)
    omega
  · change census active (update s.point cpu p) ≤ 1
    omega
  · intro some
    change 0 < census holdsExclusive (update s.point cpu p) at some
    change census reads (update s.point cpu p) = 0
    have held : (holdsExclusive p).toNat ≤ census holdsExclusive (update s.point cpu p) := by
      cases here : holdsExclusive p with
      | false => exact Nat.zero_le _
      | true => exact Lib.census_pos (by rw [Function.update_self]; exact here)
    have none := exclusive (census holdsExclusive (update s.point cpu p) - (holdsExclusive p).toNat) (by omega)
      (by omega)
    omega
  · intro other
    by_cases same : other = cpu
    · subst same
      simpa [State.move] using fine
    · simpa [State.move, same] using sound other

theorem step_invariant (few : Fintype.card Cpu < 2 ^ 15) (invariant : Invariant s) (cpu : Cpu) (exclusive : Bool) :
    Invariant (step s cpu exclusive) := by
  have split := census_active s.point
  have waitsFew : census waits s.point ≤ Fintype.card Cpu := Lib.census_le_card
  have readsFew : census reads s.point ≤ Fintype.card Cpu := Lib.census_le_card
  have here (kind : Point -> Bool) : (kind (s.point cpu)).toNat ≤ census kind s.point := by
    cases point : kind (s.point cpu) with
    | false => exact Nat.zero_le _
    | true => exact Lib.census_pos point
  have hereWaits := here waits
  have hereActive := here active
  have hereReads := here reads
  have hereExclusive := here holdsExclusive
  have herePoses := here poses
  obtain ⟨waiting, writer, readers, alone, apart, sound⟩ := id invariant
  have quiet (p : Point) (fine : p ≠ .failed) (waits_eq : waits p = waits (s.point cpu))
      (active_eq : active p = active (s.point cpu)) (reads_eq : reads p = reads (s.point cpu))
      (held : holdsExclusive p = holdsExclusive (s.point cpu)) : Invariant (s.move cpu s.lock p) := by
    refine invariant.move fine (by rw [waits_eq]) (by rw [active_eq]) (by rw [reads_eq]) (by omega) ?_
    intro others sum some
    rw [held] at some
    omega
  unfold step
  cases point : s.point cpu with
  | outside =>
    dsimp only
    cases exclusive <;> exact quiet _ (by simp) (by rw [point]; rfl) (by rw [point]; rfl) (by rw [point]; rfl)
      (by rw [point]; rfl)
  | announce =>
    apply invariant.move
    all_goals simp [point, waits, active, holdsExclusive, poses, reads, interlockedIncrement16]
    all_goals omega
  | writerSpin =>
    dsimp only [interlockedCompareExchange]
    split
    · -- The pair ActiveWriter, ActiveReaders was zero.
      rename_i free
      rw [point] at hereWaits
      rw [if_neg (not_not.mpr free)]
      apply invariant.move
      all_goals simp [point, waits, active, holdsExclusive, poses, reads]
      all_goals omega
    · exact quiet _ (by simp) (by rw [point]) (by rw [point]) (by rw [point]) (by rw [point])
  | withdraw =>
    rw [point] at hereWaits hereExclusive
    simp only [waits, holdsExclusive, Bool.toNat_true] at hereWaits hereExclusive
    apply invariant.move
    all_goals simp [point, waits, active, holdsExclusive, poses, reads, interlockedDecrement16]
    all_goals omega
  | writing =>
    rw [point] at hereActive
    simp only [active, holdsExclusive, Bool.true_or, Bool.toNat_true] at hereActive
    dsimp only
    rw [if_pos (by omega)]
    exact quiet _ (by simp) (by rw [point]; rfl) (by rw [point]; rfl) (by rw [point]; rfl) (by rw [point]; rfl)
  | writerRelease =>
    rw [point] at hereActive hereExclusive
    simp only [active, holdsExclusive, Bool.true_or, Bool.toNat_true] at hereActive hereExclusive
    apply invariant.move
    all_goals simp [point, waits, active, holdsExclusive, poses, reads, interlockedDecrement16]
    all_goals omega
  | readerSpin =>
    dsimp only [interlockedCompareExchange]
    split
    · -- The pair WaitingWriters, ActiveWriter was zero.
      rename_i free
      rw [if_neg (not_not.mpr free)]
      apply invariant.move
      all_goals simp [point, waits, active, holdsExclusive, poses, reads, pseudoActiveWriter]
      all_goals omega
    · exact quiet _ (by simp) (by rw [point]) (by rw [point]) (by rw [point]) (by rw [point])
  | enter =>
    rw [point] at herePoses
    simp only [poses, Bool.toNat_true] at herePoses
    apply invariant.move
    all_goals simp [point, waits, active, holdsExclusive, poses, reads, interlockedIncrement16]
    all_goals omega
  | readerCheck =>
    rw [point] at hereActive
    simp only [active, poses, Bool.or_true, Bool.toNat_true] at hereActive
    dsimp only
    rw [if_pos (by omega)]
    exact quiet _ (by simp) (by rw [point]; rfl) (by rw [point]; rfl) (by rw [point]; rfl) (by rw [point]; rfl)
  | confess =>
    rw [point] at herePoses
    simp only [poses, Bool.toNat_true] at herePoses
    apply invariant.move
    all_goals simp [point, waits, active, holdsExclusive, poses, reads, interlockedDecrement16]
    all_goals omega
  | reading =>
    rw [point] at hereReads
    simp only [reads, Bool.toNat_true] at hereReads
    apply invariant.move
    all_goals simp [point, waits, active, holdsExclusive, poses, reads, interlockedDecrement16]
    all_goals omega
  | failed => exact absurd point (sound cpu)

theorem initial_invariant (initial : (spinlockSystem Cpu).initial s) : Invariant s := by
  obtain ⟨zero, outside⟩ := initial
  have none (kind : Point -> Bool) (excluded : kind .outside = false) : census kind s.point = 0 :=
    Lib.census_eq_zero.mpr fun cpu => by rw [outside cpu, excluded]
  have active_none := none active rfl
  refine ⟨?_, ?_, ?_, by omega, fun _ => none reads rfl, fun cpu => by simp [outside cpu]⟩
  · rw [zero, none waits rfl]
    rfl
  · rw [zero, active_none]
    rfl
  · rw [zero, none reads rfl]
    rfl

structure Safe (s : State Cpu) : Prop where
  exclusion : forall c d, c ≠ d -> holdsExclusive (s.point c) = true ->
    holdsExclusive (s.point d) = false ∧ holdsShared (s.point d) = false
  asserts : forall c, s.point c ≠ .failed
  readers : s.lock.activeReaders = census reads s.point
  -- Every decrement that comes next finds a positive counter.
  waitingWriters : forall c, s.point c = .withdraw -> 0 < s.lock.waitingWriters
  activeWriter : forall c, s.point c = .writerRelease ∨ s.point c = .confess -> 0 < s.lock.activeWriter
  activeReaders : forall c, s.point c = .reading -> 0 < s.lock.activeReaders
  idle : (forall c, s.point c = .outside) -> s.lock = rwSpinlockInit

omit [DecidableEq Cpu] in
theorem Invariant.safe (invariant : Invariant s) : Safe s := by
  obtain ⟨waiting, writer, readers, alone, apart, sound⟩ := invariant
  refine ⟨?_, sound, readers, ?_, ?_, ?_, ?_⟩
  · intro c d other holds
    have isActive : active (s.point c) = true := by simp [active, holds]
    have inactive : active (s.point d) = false := by
      by_contra both
      exact other (Lib.eq_of_census_le_one alone isActive (by simpa using both))
    have nobody := Lib.census_eq_zero.mp (apart (Lib.census_pos holds)) d
    simp only [active, Bool.or_eq_false_iff] at inactive
    simp only [holdsShared, nobody, inactive, Bool.or_self, and_self]
  · intro c here
    rw [waiting]
    exact Lib.census_pos (by rw [here]; rfl)
  · intro c here
    rw [writer]
    rcases here with here | here
    · exact Lib.census_pos (by rw [here]; rfl)
    · exact Lib.census_pos (by rw [here]; rfl)
  · intro c here
    rw [readers]
    exact Lib.census_pos (by rw [here]; rfl)
  · intro outside
    have none (kind : Point -> Bool) (excluded : kind .outside = false) : census kind s.point = 0 :=
      Lib.census_eq_zero.mpr fun cpu => by rw [outside cpu, excluded]
    have w := waiting.trans (none waits rfl)
    have a := writer.trans (none active rfl)
    have r := readers.trans (none reads rfl)
    cases lock : s.lock with
    | mk waitingWriters activeWriter activeReaders =>
      rw [lock] at w a r
      dsimp only at w a r
      rw [w, a, r]
      rfl

theorem spinlock_safe (few : Fintype.card Cpu < 2 ^ 15) (reached : (spinlockSystem Cpu).Reachable s) : Safe s := by
  refine Invariant.safe (reached.invariant (fun state => initial_invariant) ?_)
  rintro state label after invariant rfl
  exact step_invariant few invariant label.1 label.2

end Runs

def sampleSchedule : List (Fin 2 × Bool) :=
  [(0, false), (0, false), (0, false), (0, false), (0, false), (1, true), (1, true), (1, true)]

theorem sampleSchedule_result : (TransitionSystem.runUnder (fun _ _ => decide True)
    (fun s label => some (step s label.1 label.2)) { lock := rwSpinlockInit, point := fun _ => .outside }
    sampleSchedule).any (fun s => decide (s.point 0 = .reading ∧ s.point 1 = .writerSpin)) = true := by
  decide

theorem spinlock_safe_sample : Fintype.card (Fin 2) < 2 ^ 15 ∧
    ∃ s, (spinlockSystem (Fin 2)).Reachable s ∧ (s.point 0 = .reading ∧ s.point 1 = .writerSpin) ∧ Safe s := by
  refine ⟨by decide, ?_⟩
  have start : (spinlockSystem (Fin 2)).Reachable { lock := rwSpinlockInit, point := fun _ => .outside } :=
    .start ⟨rfl, fun _ => rfl⟩
  have run : ∃ s, (spinlockSystem (Fin 2)).Reachable s ∧ s.point 0 = .reading ∧ s.point 1 = .writerSpin :=
    TransitionSystem.ReachableUnder.of_run (fun _ _ _ result => (Option.some.inj result).symm) start sampleSchedule
      sampleSchedule_result
  obtain ⟨s, reached, points⟩ := run
  exact ⟨s, reached, points, spinlock_safe (by decide) reached⟩

end Hal9000.RwSpinlock
