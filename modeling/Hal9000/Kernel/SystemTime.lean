import Hal9000.CommonLib.Base
import Hal9000.Lib.Transition
import Mathlib.Logic.Function.Basic

set_option autoImplicit false

namespace Hal9000.SystemTime

open Function (update)
open Lib (TransitionSystem)

def secInUs : Nat := 1000 * 1000

def uptimeSeconds (raw : Nat) : Nat := dword raw

def uptimeMicroseconds (raw : Nat) : Nat := dword (raw / 2 ^ 32)

-- _InterlockedExchangeAdd of the upper half.
def iomuUpdateSystemTime (raw timeUpdatePerCpuUs : Nat) : Nat :=
  uptimeSeconds raw + dword (uptimeMicroseconds raw + timeUpdatePerCpuUs) * 2 ^ 32

-- A read of UptimeSeconds at the start of IomuCmosUpdateOccurred, and what it makes of it.
def newSecCount (raw : Nat) : Kernel Nat := do
  let newSecCount := qword (uptimeSeconds raw + 1)
  assert (decide (newSecCount ≤ maxDword)) "newSecCount <= MAX_DWORD"
  pure newSecCount

def iomuGetSystemTimeUs (raw : Nat) : Nat :=
  qword (uptimeSeconds raw * secInUs + if uptimeMicroseconds raw ≥ secInUs then secInUs else uptimeMicroseconds raw)

structure State (Cpu : Type) where
  -- SystemUptime.Raw
  raw : Nat
  -- the newSecCount of a call of IomuCmosUpdateOccurred before its exchange
  pending : Cpu -> Option Nat
  -- microseconds of ticks since the last exchange, the exchanges, and what IomuGetSystemTimeUs has returned with the
  -- exchanges until then, the last call first
  elapsed : Nat
  completed : Nat
  returned : List (Nat × Nat)

inductive Label (Cpu : Type) where
  | tick (cpu : Cpu) (timeUpdatePerCpuUs : Nat)
  | cmosRead (cpu : Cpu)
  | cmosExchange (cpu : Cpu)
  | getSystemTimeUs (cpu : Cpu)
  deriving DecidableEq

variable {Cpu : Type} [DecidableEq Cpu]

def step (s : State Cpu) : Label Cpu -> Option (State Cpu)
  | .tick _ timeUpdatePerCpuUs => some { s with
      raw := iomuUpdateSystemTime s.raw timeUpdatePerCpuUs
      elapsed := s.elapsed + timeUpdatePerCpuUs }
  | .cmosRead cpu =>
    match newSecCount s.raw with
    | .ok count => some { s with pending := update s.pending cpu (some count) }
    | .error _ => none
  | .cmosExchange cpu =>
    match s.pending cpu with
    | some count => some { s with
        raw := count
        pending := update s.pending cpu none
        elapsed := 0
        completed := s.completed + 1 }
    | none => none
  | .getSystemTimeUs _ => some { s with returned := (iomuGetSystemTimeUs s.raw, s.completed) :: s.returned }

-- After IomuPreinitSystem.
structure Started (s : State Cpu) : Prop where
  raw : s.raw = 0
  pending : forall cpu, s.pending cpu = none
  elapsed : s.elapsed = 0
  completed : s.completed = 0
  returned : s.returned = []

def timeSystem (Cpu : Type) [DecidableEq Cpu] : TransitionSystem (State Cpu) (Label Cpu) where
  initial := Started
  step s label after := step s label = some after

-- Less than 2^32 microseconds of ticks between two updates, less than 2^32 updates, and no two at a time.
def Steady (s : State Cpu) : Label Cpu -> Prop
  | .tick _ timeUpdatePerCpuUs => s.elapsed + timeUpdatePerCpuUs < 2 ^ 32
  | .cmosRead _ => (forall cpu, s.pending cpu = none) ∧ s.completed + 1 < 2 ^ 32
  | _ => True

-- What IomuGetSystemTimeUs returns after `seconds` updates and `microseconds` of ticks.
def clock (seconds microseconds : Nat) : Nat := seconds * secInUs + min microseconds secInUs

structure Invariant (s : State Cpu) : Prop where
  raw : s.raw = s.completed + s.elapsed * 2 ^ 32
  completed : s.completed < 2 ^ 32
  elapsed : s.elapsed < 2 ^ 32
  pending : forall cpu count, s.pending cpu = some count -> count = s.completed + 1 ∧ count < 2 ^ 32
  single : forall one other, s.pending one ≠ none -> s.pending other ≠ none -> one = other
  past : forall call, call ∈ s.returned -> call.1 ≤ clock s.completed s.elapsed
  ordered : s.returned.Pairwise (fun later earlier => earlier.1 ≤ later.1)
  close : forall call, call ∈ s.returned -> call.2 * secInUs ≤ call.1 ∧ call.1 ≤ call.2 * secInUs + secInUs

section Halves

variable {seconds microseconds : Nat}

theorem uptimeSeconds_eq (small : seconds < 2 ^ 32) : uptimeSeconds (seconds + microseconds * 2 ^ 32) = seconds := by
  rw [uptimeSeconds, dword]
  omega

theorem uptimeMicroseconds_eq (small : seconds < 2 ^ 32) (less : microseconds < 2 ^ 32) :
    uptimeMicroseconds (seconds + microseconds * 2 ^ 32) = microseconds := by
  rw [uptimeMicroseconds, dword]
  omega

theorem iomuUpdateSystemTime_eq (small : seconds < 2 ^ 32) {timeUpdatePerCpuUs : Nat}
    (less : microseconds + timeUpdatePerCpuUs < 2 ^ 32) :
    iomuUpdateSystemTime (seconds + microseconds * 2 ^ 32) timeUpdatePerCpuUs =
      seconds + (microseconds + timeUpdatePerCpuUs) * 2 ^ 32 := by
  rw [iomuUpdateSystemTime, uptimeSeconds_eq small, uptimeMicroseconds_eq small (by omega), dword_of_lt less]

theorem iomuGetSystemTimeUs_eq (small : seconds < 2 ^ 32) (less : microseconds < 2 ^ 32) :
    iomuGetSystemTimeUs (seconds + microseconds * 2 ^ 32) = clock seconds microseconds := by
  have sec : secInUs = 1000000 := rfl
  rw [iomuGetSystemTimeUs, uptimeSeconds_eq small, uptimeMicroseconds_eq small less, clock, sec]
  split
  next late => rw [qword_of_lt (by omega), Nat.min_eq_right late]
  next early => rw [qword_of_lt (by omega), Nat.min_eq_left (by omega)]

theorem newSecCount_eq (small : seconds + 1 < 2 ^ 32) : newSecCount (seconds + microseconds * 2 ^ 32) = .ok (seconds + 1) := by
  have top : maxDword = 2 ^ 32 - 1 := rfl
  have inside : qword (seconds + 1) ≤ maxDword := by
    rw [qword_of_lt (by omega)]
    omega
  rw [newSecCount, uptimeSeconds_eq (by omega), decide_eq_true inside, assert_true, Kernel.ok_bind, qword_of_lt (by omega)]
  rfl

theorem clock_tick (timeUpdatePerCpuUs : Nat) : clock seconds microseconds ≤ clock seconds (microseconds + timeUpdatePerCpuUs) := by
  rw [clock, clock]
  omega

theorem clock_update : clock seconds microseconds ≤ clock (seconds + 1) 0 := by
  rw [clock, clock, Nat.succ_mul]
  omega

end Halves

omit [DecidableEq Cpu] in
theorem Started.invariant {s : State Cpu} (started : Started s) : Invariant s := by
  have none_ : forall call, call ∉ s.returned := by
    rw [started.returned]
    exact fun call => List.not_mem_nil
  refine ⟨?_, ?_, ?_, fun cpu count some_ => ?_, fun one other some_ => ?_, fun call member => absurd member (none_ call), ?_,
    fun call member => absurd member (none_ call)⟩
  · rw [started.raw, started.elapsed, started.completed, Nat.zero_mul]
  · rw [started.completed]
    decide
  · rw [started.elapsed]
    decide
  · rw [started.pending] at some_
    cases some_
  · exact absurd (started.pending one) some_
  · rw [started.returned]
    exact .nil

theorem step_invariant {s after : State Cpu} {label : Label Cpu} (invariant : Invariant s) (steady : Steady s label)
    (taken : step s label = some after) : Invariant after := by
  cases label with
  | tick cpu timeUpdatePerCpuUs =>
    cases taken
    change s.elapsed + timeUpdatePerCpuUs < 2 ^ 32 at steady
    refine { invariant with raw := ?_, elapsed := steady, past := fun call member => ?_ }
    · change iomuUpdateSystemTime s.raw _ = _
      rw [invariant.raw, iomuUpdateSystemTime_eq invariant.completed steady]
    · exact (invariant.past call member).trans (clock_tick timeUpdatePerCpuUs)
  | cmosRead cpu =>
    obtain ⟨alone, more⟩ := steady
    rw [step, invariant.raw, newSecCount_eq more] at taken
    cases taken
    refine { invariant with
      raw := rfl
      pending := fun other count some_ => ?_
      single := fun one other first second => ?_ }
    · change update s.pending cpu (some (s.completed + 1)) other = some count at some_
      by_cases same : other = cpu
      · rw [same, Function.update_self] at some_
        cases some_
        exact ⟨rfl, more⟩
      · rw [Function.update_of_ne same, alone] at some_
        cases some_
    · have only (waiting : Cpu) (some_ : update s.pending cpu (some (s.completed + 1)) waiting ≠ none) : waiting = cpu := by
        by_contra same
        rw [Function.update_of_ne same] at some_
        exact some_ (alone waiting)
      rw [only one first, only other second]
  | cmosExchange cpu =>
    rw [step] at taken
    split at taken
    next count waits =>
      cases taken
      obtain ⟨rfl, small⟩ := invariant.pending cpu count waits
      have free (other : Cpu) : update s.pending cpu none other = none := by
        by_cases same : other = cpu
        · rw [same, Function.update_self]
        · rw [Function.update_of_ne same]
          by_contra some_
          exact same (invariant.single other cpu some_ (by rw [waits]; exact Option.some_ne_none _))
      refine { invariant with
        raw := by rw [Nat.zero_mul, Nat.add_zero]
        completed := small
        elapsed := Nat.two_pow_pos 32
        pending := fun other count some_ => ?_
        single := fun one other some_ => absurd (free one) some_
        past := fun call member => (invariant.past call member).trans clock_update }
      change update s.pending cpu none other = some count at some_
      rw [free] at some_
      cases some_
    next => cases taken
  | getSystemTimeUs cpu =>
    cases taken
    have now := @iomuGetSystemTimeUs_eq s.completed s.elapsed invariant.completed invariant.elapsed
    rw [← invariant.raw] at now
    refine { invariant with past := ?_, ordered := ?_, close := ?_ }
    · exact List.forall_mem_cons.mpr ⟨Nat.le_of_eq now, invariant.past⟩
    · exact List.pairwise_cons.mpr ⟨fun call member => by rw [now]; exact invariant.past call member, invariant.ordered⟩
    · refine List.forall_mem_cons.mpr ⟨?_, invariant.close⟩
      change s.completed * secInUs ≤ iomuGetSystemTimeUs s.raw ∧ _ ≤ s.completed * secInUs + secInUs
      rw [now, clock]
      omega

theorem reachable_invariant {s : State Cpu} (reached : (timeSystem Cpu).ReachableUnder Steady s) : Invariant s :=
  reached.invariant (fun _ => Started.invariant) fun _ _ _ => step_invariant

theorem systemTime_monotone {s : State Cpu} (reached : (timeSystem Cpu).ReachableUnder Steady s) :
    s.returned.Pairwise (fun later earlier => earlier.1 ≤ later.1) ∧
    (forall call, call ∈ s.returned -> call.2 * secInUs ≤ call.1 ∧ call.1 ≤ call.2 * secInUs + secInUs) ∧
    (forall cpu, Steady s (.cmosRead cpu) -> ∃ after, step s (.cmosRead cpu) = some after) := by
  have invariant := reachable_invariant reached
  refine ⟨invariant.ordered, invariant.close, fun cpu steady => ?_⟩
  rw [step, invariant.raw, newSecCount_eq steady.2]
  exact ⟨_, rfl⟩

def startState : State (Fin 2) where
  raw := 0
  pending := fun _ => none
  elapsed := 0
  completed := 0
  returned := []

instance (s : State (Fin 2)) (label : Label (Fin 2)) : Decidable (Steady s label) := by
  cases label <;> unfold Steady <;> infer_instance

def sampleSchedule : List (Label (Fin 2)) :=
  [.tick 0 700000, .tick 1 700000, .getSystemTimeUs 0, .cmosRead 1, .tick 0 20000, .getSystemTimeUs 1, .cmosExchange 1,
    .getSystemTimeUs 0, .tick 0 20000, .getSystemTimeUs 1]

theorem systemTime_monotone_sample : ∃ s : State (Fin 2), (timeSystem (Fin 2)).ReachableUnder Steady s ∧
    s.returned = [(1020000, 1), (1000000, 1), (1000000, 0), (1000000, 0)] ∧
    s.returned.Pairwise (fun later earlier => earlier.1 ≤ later.1) := by
  have start : (timeSystem (Fin 2)).ReachableUnder Steady startState := .start _ ⟨rfl, fun _ => rfl, rfl, rfl, rfl⟩
  have run : ∃ s : State (Fin 2), (timeSystem (Fin 2)).ReachableUnder Steady s ∧
      s.returned = [(1020000, 1), (1000000, 1), (1000000, 0), (1000000, 0)] :=
    TransitionSystem.ReachableUnder.of_run (fun _ _ _ result => result) start sampleSchedule (by decide)
  obtain ⟨s, reached, done⟩ := run
  exact ⟨s, reached, done, (systemTime_monotone reached).1⟩

end Hal9000.SystemTime
