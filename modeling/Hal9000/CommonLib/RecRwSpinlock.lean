import Hal9000.Lib.Transition
import Mathlib.Data.Finset.Basic
import Mathlib.Algebra.Group.Nat.Defs

set_option autoImplicit false

namespace Hal9000.RecRwSpinlock

open Function (update)
open Lib (TransitionSystem)

-- Where a CPU stands in RecRwSpinlockAcquire and RecRwSpinlockRelease: the access it does next. The number is
-- that of its unmatched exclusive acquisitions when the call began.
inductive Point where
  | between (n : Nat)
  | sharing
  | compare (n : Nat)
  | checkRecursion (n : Nat)
  | increment (n : Nat)
  | spin (exclusive : Bool) (n : Nat)
  | checkHolder (exclusive : Bool) (n : Nat)
  | checkDepth (exclusive : Bool) (n : Nat)
  | setDepth (n : Nat)
  | setHolder (n : Nat)
  | checkInterrupts (exclusive : Bool) (n : Nat)
  | checkOwner (n : Nat)
  | decrement (n : Nat)
  | test (exclusive : Bool) (n : Nat)
  | clearHolder (exclusive : Bool) (n : Nat)
  | unlock (exclusive : Bool) (n : Nat)
  | failed
  deriving DecidableEq, Repr

-- REC_RW_SPINLOCK, with the inner RW_SPINLOCK as the CPUs that hold it in either mode.
structure Spinlock (Cpu : Type) where
  writer : Option Cpu
  readers : Finset Cpu
  currentRecursivityDepth : Nat
  maxRecursivityDepth : Nat
  holder : Option Cpu

variable {Cpu : Type} [DecidableEq Cpu]

def recRwSpinlockInit (recursivityDepth : Nat) : Spinlock Cpu where
  writer := none
  readers := ∅
  currentRecursivityDepth := 0
  maxRecursivityDepth := if recursivityDepth = 0 then 2 else recursivityDepth
  holder := none

structure State (Cpu : Type) where
  lock : Spinlock Cpu
  point : Cpu -> Point
  intrState : Cpu -> Bool
  saved : Cpu -> List Bool

inductive Action where
  | acquireExclusive
  | acquireShared
  | release
  | setInterrupts (on : Bool)
  | go
  deriving DecidableEq, Repr

def State.at (s : State Cpu) (cpu : Cpu) (point : Point) : State Cpu :=
  { s with point := update s.point cpu point }

-- *IntrState = CpuIntrDisable()
def State.disable (s : State Cpu) (cpu : Cpu) : State Cpu :=
  { s with
    intrState := update s.intrState cpu false
    saved := update s.saved cpu (s.intrState cpu :: s.saved cpu) }

-- The acquisition that is undone gives back its IntrState.
def State.forget (s : State Cpu) (cpu : Cpu) : State Cpu :=
  { s with saved := update s.saved cpu (s.saved cpu).tail }

-- CpuIntrSetState(IntrState)
def State.restore (s : State Cpu) (cpu : Cpu) : State Cpu :=
  { s.forget cpu with intrState := update s.intrState cpu ((s.saved cpu).headD true) }

-- The inner lock lets a writer in when it is free and a reader when there is no writer.
def Spinlock.rwSpinlockAcquire (lock : Spinlock Cpu) (cpu : Cpu) (exclusive : Bool) : Option (Spinlock Cpu) :=
  if exclusive then
    if lock.writer = none ∧ lock.readers = ∅ then some { lock with writer := some cpu } else none
  else if lock.writer = none then some { lock with readers := insert cpu lock.readers } else none

def Spinlock.rwSpinlockRelease (lock : Spinlock Cpu) (cpu : Cpu) (exclusive : Bool) : Spinlock Cpu :=
  if exclusive then { lock with writer := none } else { lock with readers := lock.readers.erase cpu }

def checked (condition : Bool) (point : Point) : Point := if condition then point else .failed

def step (s : State Cpu) (cpu : Cpu) (action : Action) : Option (State Cpu) :=
  let lock := s.lock
  match s.point cpu, action with
  | .between 0, .setInterrupts on => some { s with intrState := update s.intrState cpu on }
  | .between n, .acquireExclusive =>
    if n < lock.maxRecursivityDepth then some ((s.disable cpu).at cpu (.compare n)) else none
  | .between 0, .acquireShared => some ((s.disable cpu).at cpu (.spin false 0))
  | .between (n + 1), .release => some (s.at cpu (.checkInterrupts true (n + 1)))
  | .sharing, .release => some (s.at cpu (.checkInterrupts false 0))
  | .compare n, .go => some (s.at cpu (if lock.holder = some cpu then .checkRecursion n else .spin true n))
  | .checkRecursion n, .go =>
    some (s.at cpu (checked (lock.currentRecursivityDepth < lock.maxRecursivityDepth) (.increment n)))
  | .increment n, .go =>
    some { s.at cpu (.between (n + 1)) with
      lock := { lock with currentRecursivityDepth := (lock.currentRecursivityDepth + 1) % 2 ^ 8 } }
  | .spin exclusive n, .go =>
    some (match lock.rwSpinlockAcquire cpu exclusive with
      | some lock => { s.at cpu (.checkHolder exclusive n) with lock := lock }
      | none => s)
  | .checkHolder exclusive n, .go => some (s.at cpu (checked lock.holder.isNone (.checkDepth exclusive n)))
  | .checkDepth exclusive n, .go =>
    some (s.at cpu (checked (lock.currentRecursivityDepth == 0) (if exclusive then .setDepth n else .sharing)))
  | .setDepth n, .go => some { s.at cpu (.setHolder n) with lock := { lock with currentRecursivityDepth := 1 } }
  | .setHolder n, .go => some { s.at cpu (.between (n + 1)) with lock := { lock with holder := some cpu } }
  | .checkInterrupts exclusive n, .go =>
    some (s.at cpu (checked (!s.intrState cpu) (if exclusive then .checkOwner n else .test false n)))
  | .checkOwner n, .go => some (s.at cpu (checked (lock.holder = some cpu) (.decrement n)))
  | .decrement n, .go =>
    some { s.at cpu (.test true n) with
      lock := { lock with currentRecursivityDepth := (lock.currentRecursivityDepth + 255) % 2 ^ 8 } }
  | .test exclusive n, .go =>
    some (if lock.currentRecursivityDepth = 0 ∨ !exclusive then s.at cpu (.clearHolder exclusive n)
      else (s.forget cpu).at cpu (.between (n - 1)))
  | .clearHolder exclusive n, .go =>
    some { s.at cpu (.unlock exclusive n) with lock := { lock with holder := none } }
  | .unlock exclusive n, .go =>
    some { (s.restore cpu).at cpu (.between (n - 1)) with lock := lock.rwSpinlockRelease cpu exclusive }
  | _, _ => none

def spinlockSystem (Cpu : Type) [DecidableEq Cpu] : TransitionSystem (State Cpu) (Cpu × Action) where
  initial s := (∃ recursivityDepth, recursivityDepth < 2 ^ 8 ∧ s.lock = recRwSpinlockInit recursivityDepth) ∧
    forall cpu, s.point cpu = .between 0
  step s label after := step s label.1 label.2 = some after

def ownsExclusive : Point -> Bool
  | .between n | .compare n => decide (0 < n)
  | .checkRecursion _ | .increment _ | .setDepth _ | .setHolder _ | .checkOwner _ | .decrement _ => true
  | .checkHolder exclusive _ | .checkDepth exclusive _ | .checkInterrupts exclusive _ | .test exclusive _
  | .clearHolder exclusive _ | .unlock exclusive _ => exclusive
  | _ => false

def ownsShared : Point -> Bool
  | .sharing => true
  | .checkHolder exclusive _ | .checkDepth exclusive _ | .checkInterrupts exclusive _ | .test exclusive _
  | .clearHolder exclusive _ | .unlock exclusive _ => !exclusive
  | _ => false

def isHolder : Point -> Bool
  | .between n | .compare n => decide (0 < n)
  | .checkRecursion _ | .increment _ | .checkOwner _ | .decrement _ => true
  | .checkInterrupts exclusive _ | .test exclusive _ | .clearHolder exclusive _ => exclusive
  | _ => false

def depthAt : Point -> Nat
  | .between n | .compare n | .checkRecursion n | .increment n | .checkInterrupts _ n | .checkOwner n
  | .decrement n => n
  | .setHolder _ => 1
  | .test _ n | .clearHolder _ n | .unlock _ n => n - 1
  | _ => 0

def legal (max : Nat) : Point -> Bool
  | .between n => decide (n ≤ max)
  | .compare n => decide (n < max)
  | .checkRecursion n | .increment n => decide (0 < n ∧ n < max)
  | .spin _ n | .checkHolder _ n | .checkDepth _ n | .setDepth n | .setHolder n => decide (n = 0)
  | .checkOwner n | .decrement n => decide (0 < n ∧ n ≤ max)
  | .checkInterrupts exclusive n | .test exclusive n =>
    if exclusive then decide (0 < n ∧ n ≤ max) else decide (n = 0)
  | .clearHolder exclusive n | .unlock exclusive n => decide (n = if exclusive then 1 else 0)
  | .sharing => true
  | .failed => false

structure Invariant (s : State Cpu) : Prop where
  writer : forall c, s.lock.writer = some c ↔ ownsExclusive (s.point c) = true
  readers : forall c, c ∈ s.lock.readers ↔ ownsShared (s.point c) = true
  exclusion : s.lock.writer ≠ none -> s.lock.readers = ∅
  holder : forall c, s.lock.holder = some c ↔ isHolder (s.point c) = true
  depth : forall c, s.lock.writer = some c -> s.lock.currentRecursivityDepth = depthAt (s.point c)
  free : s.lock.writer = none -> s.lock.currentRecursivityDepth = 0
  legal : forall c, legal s.lock.maxRecursivityDepth (s.point c) = true
  interrupts : forall c, s.point c ≠ .between 0 -> s.intrState c = false
  bounds : 0 < s.lock.maxRecursivityDepth ∧ s.lock.maxRecursivityDepth < 2 ^ 8

theorem initial_invariant {s : State Cpu} (initial : (spinlockSystem Cpu).initial s) : Invariant s := by
  obtain ⟨⟨recursivityDepth, byte, lock⟩, outside⟩ := initial
  constructor
  case bounds =>
    rw [lock, recRwSpinlockInit]
    dsimp only
    split <;> omega
  all_goals
    simp [lock, recRwSpinlockInit, outside, ownsExclusive, ownsShared, isHolder, legal]

theorem ownsExclusive_of_isHolder (p : Point) (names : isHolder p = true) : ownsExclusive p = true := by
  cases p <;> simp_all [isHolder, ownsExclusive]

theorem not_exclusive_of_shared (p : Point) (shared : ownsShared p = true) : ownsExclusive p = false := by
  cases p <;> simp_all [ownsShared, ownsExclusive]

-- What has to be known of the state after one CPU has moved on to `p`.
structure Moved (s after : State Cpu) (cpu : Cpu) (p : Point) : Prop where
  point : after.point = update s.point cpu p
  interrupts : forall c, c ≠ cpu -> after.intrState c = s.intrState c
  max : after.lock.maxRecursivityDepth = s.lock.maxRecursivityDepth

theorem invariant_moved {s after : State Cpu} {cpu : Cpu} {p : Point} (invariant : Invariant s)
    (moved : Moved s after cpu p)
    (writer : after.lock.writer = if ownsExclusive p then some cpu
      else if ownsExclusive (s.point cpu) then none else s.lock.writer)
    (readers : after.lock.readers = if ownsShared p then insert cpu s.lock.readers else s.lock.readers.erase cpu)
    (exclusion : (ownsExclusive p = true -> ownsExclusive (s.point cpu) = false ->
        s.lock.writer = none ∧ s.lock.readers = ∅) ∧
      (ownsShared p = true -> ownsExclusive (s.point cpu) = false ∧
        (ownsShared (s.point cpu) = false -> s.lock.writer = none)))
    (holder : after.lock.holder = if isHolder p then some cpu
      else if isHolder (s.point cpu) then none else s.lock.holder)
    (depth : after.lock.currentRecursivityDepth = if ownsExclusive p then depthAt p
      else if ownsExclusive (s.point cpu) then 0 else s.lock.currentRecursivityDepth)
    (legal : legal s.lock.maxRecursivityDepth p = true)
    (interrupts : p ≠ .between 0 -> after.intrState cpu = false) : Invariant after := by
  obtain ⟨writers, reading, exclusive, holds, deep, free, allowed, quiet, bounds⟩ := invariant
  have here := writers cpu
  have elsewhere (c : Cpu) (other : c ≠ cpu) : after.point c = s.point c := by
    rw [moved.point, Function.update_of_ne other]
  have arrived : after.point cpu = p := by rw [moved.point, Function.update_self]
  have names := ownsExclusive_of_isHolder
  have apart := not_exclusive_of_shared
  have alone (c : Cpu) (other : c ≠ cpu) (writes : s.lock.writer = some c) :
      ownsExclusive (s.point cpu) = false ∧ ownsExclusive p = false ∧ ownsShared p = false := by
    grind
  constructor
  case bounds =>
    rw [moved.max]
    exact bounds
  case legal =>
    intro c
    rw [moved.max]
    by_cases same : c = cpu
    · rw [same, arrived]
      exact legal
    · rw [elsewhere c same]
      exact allowed c
  case interrupts =>
    intro c inside
    by_cases same : c = cpu
    · rw [same] at inside ⊢
      exact interrupts (arrived ▸ inside)
    · rw [moved.interrupts c same]
      exact quiet c (elsewhere c same ▸ inside)
  case writer =>
    intro c
    by_cases same : c = cpu
    · rw [same, arrived, writer]
      grind
    · rw [elsewhere c same, ← writers c, writer]
      have := alone c same
      grind
  case readers =>
    intro c
    by_cases same : c = cpu
    · rw [same, arrived, readers]
      split <;> simp_all
    · rw [elsewhere c same, ← reading c, readers]
      split <;> simp [same]
  case exclusion =>
    intro some
    rw [readers]
    have := alone
    have := reading cpu
    cases w : s.lock.writer with
    | none => grind
    | some c => by_cases same : c = cpu <;> grind
  case holder =>
    intro c
    by_cases same : c = cpu
    · rw [same, arrived, holder]
      have := holds cpu
      grind
    · rw [elsewhere c same, ← holds c, holder]
      have := alone c same
      have := names (s.point c)
      have := names p
      have := names (s.point cpu)
      have := writers c
      have := holds c
      grind
  case depth =>
    intro c writes
    by_cases same : c = cpu
    · rw [same, arrived, depth]
      grind
    · rw [elsewhere c same, depth]
      have := alone c same
      have := deep c
      grind
  case free =>
    intro none
    rw [depth]
    grind

theorem invariant_at {s : State Cpu} {cpu : Cpu} {p : Point} (invariant : Invariant s)
    (exclusive : ownsExclusive p = ownsExclusive (s.point cpu)) (shared : ownsShared p = ownsShared (s.point cpu))
    (holder : isHolder p = isHolder (s.point cpu))
    (depth : ownsExclusive p = true -> depthAt p = depthAt (s.point cpu))
    (legal : legal s.lock.maxRecursivityDepth p = true) {intrState : Cpu -> Bool} {saved : Cpu -> List Bool}
    (interrupts : (forall c, c ≠ cpu -> intrState c = s.intrState c) ∧ intrState cpu = false) :
    Invariant { s.at cpu p with intrState := intrState, saved := saved } := by
  have writes := invariant.writer cpu
  have reads := invariant.readers cpu
  have names := invariant.holder cpu
  have deep := invariant.depth cpu
  have apart := not_exclusive_of_shared p
  refine invariant_moved (p := p) invariant ⟨rfl, interrupts.1, rfl⟩ ?_ ?_ ⟨?_, ?_⟩ ?_ ?_ legal fun _ => interrupts.2
  · change s.lock.writer = _
    grind
  · change s.lock.readers = _
    rw [shared]
    split
    · rename_i owns
      rw [Finset.insert_eq_of_mem (reads.mpr owns)]
    · rename_i owns
      rw [Finset.erase_eq_of_notMem fun member => owns (reads.mp member)]
  · intro owns unowned
    rw [exclusive, unowned] at owns
    cases owns
  · intro owns
    refine ⟨exclusive ▸ apart owns, fun unowned => ?_⟩
    rw [shared, unowned] at owns
    cases owns
  · change s.lock.holder = _
    grind
  · change s.lock.currentRecursivityDepth = _
    grind

section Steps

attribute [local simp] step

variable {s after : State Cpu} {cpu : Cpu}

theorem between_invariant {n : Nat} {action : Action} (invariant : Invariant s) (here : s.point cpu = .between n)
    (taken : step s cpu action = some after) : Invariant after := by
  have allowed := invariant.legal cpu
  have off := invariant.interrupts cpu
  rw [here] at allowed off
  simp only [legal, decide_eq_true_eq] at allowed
  cases action with
  | acquireExclusive =>
    have taken : (if n < s.lock.maxRecursivityDepth then some ((s.disable cpu).at cpu (.compare n)) else none) =
        some after := by
      cases n <;> simpa only [step, here] using taken
    split at taken
    · rename_i room
      obtain rfl := Option.some.inj taken
      refine invariant_at invariant ?_ ?_ ?_ ?_ ?_ ⟨?_, ?_⟩
      · rw [here]; rfl
      · rw [here]; rfl
      · rw [here]; rfl
      · rw [here]; exact fun _ => rfl
      · simpa [legal] using room
      · exact fun c other => Function.update_of_ne other _ _
      · exact Function.update_self _ _ _
    · cases taken
  | acquireShared =>
    cases n with
    | zero =>
      simp only [step, here] at taken
      obtain rfl := Option.some.inj taken
      refine invariant_at invariant ?_ ?_ ?_ ?_ rfl ⟨?_, ?_⟩
      · rw [here]; rfl
      · rw [here]; rfl
      · rw [here]; rfl
      · nofun
      · exact fun c other => Function.update_of_ne other _ _
      · exact Function.update_self _ _ _
    | succ n => simp [step, here] at taken
  | release =>
    cases n with
    | zero => simp [step, here] at taken
    | succ n =>
      simp only [step, here] at taken
      obtain rfl := Option.some.inj taken
      refine invariant_at invariant ?_ ?_ ?_ ?_ ?_ ⟨fun _ _ => rfl, off (by simp)⟩
      · rw [here]; simp [ownsExclusive]
      · rw [here]; rfl
      · rw [here]; simp [isHolder]
      · rw [here]; exact fun _ => rfl
      · simpa [legal] using allowed
  | setInterrupts on =>
    cases n with
    | zero =>
      simp only [step, here] at taken
      obtain rfl := Option.some.inj taken
      refine { invariant with interrupts := fun c inside => ?_ }
      have other : c ≠ cpu := fun same => inside (same ▸ here)
      exact (Function.update_of_ne other _ _).trans (invariant.interrupts c inside)
    | succ n => simp [step, here] at taken
  | go => cases n <;> simp [step, here] at taken

theorem sharing_invariant {action : Action} (invariant : Invariant s) (here : s.point cpu = .sharing)
    (taken : step s cpu action = some after) : Invariant after := by
  have off := invariant.interrupts cpu (by rw [here]; nofun)
  cases action with
  | release =>
    simp only [step, here] at taken
    obtain rfl := Option.some.inj taken
    refine invariant_at invariant ?_ ?_ ?_ (by simp [ownsExclusive]) rfl ⟨fun _ _ => rfl, off⟩
    all_goals
      rw [here]
      rfl
  | _ => simp [step, here] at taken

omit [DecidableEq Cpu] in
-- A reader keeps every writer out.
theorem Invariant.no_writer (invariant : Invariant s) (reads : ownsShared (s.point cpu) = true) :
    s.lock.writer = none := by
  by_contra writer
  have member := (invariant.readers cpu).mpr reads
  rw [invariant.exclusion writer] at member
  simp at member

omit [DecidableEq Cpu] in
theorem Invariant.no_holder (invariant : Invariant s)
    (owns : ownsShared (s.point cpu) = true ∨
      ownsExclusive (s.point cpu) = true ∧ isHolder (s.point cpu) = false) : s.lock.holder = none := by
  cases names : s.lock.holder with
  | none => rfl
  | some c =>
    have isIt := (invariant.holder c).mp names
    have writes := (invariant.writer c).mpr (ownsExclusive_of_isHolder _ isIt)
    rcases owns with reads | ⟨mine, unnamed⟩
    · rw [invariant.no_writer reads] at writes
      cases writes
    · rw [(invariant.writer cpu).mpr mine] at writes
      rw [← Option.some.inj writes, unnamed] at isIt
      cases isIt

theorem acquire_invariant (n : Nat) (exclusive : Bool) (invariant : Invariant s)
    (here : s.point cpu = .compare n ∨ s.point cpu = .checkRecursion n ∨ s.point cpu = .increment n ∨
      s.point cpu = .spin exclusive n ∨ s.point cpu = .checkHolder exclusive n ∨
      s.point cpu = .checkDepth exclusive n ∨ s.point cpu = .setDepth n ∨ s.point cpu = .setHolder n)
    (taken : step s cpu .go = some after) : Invariant after := by
  have writes := invariant.writer cpu
  have reads := invariant.readers cpu
  have names := invariant.holder cpu
  have deep := invariant.depth cpu
  have allowed := invariant.legal cpu
  have bounds := invariant.bounds
  have off : s.intrState cpu = false := by
    apply invariant.interrupts cpu
    rcases here with here | here | here | here | here | here | here | here <;> simp [here]
  rcases here with here | here | here | here | here | here | here | here
  all_goals
    rw [here] at writes reads names deep allowed
    simp only [step, here] at taken
    obtain rfl := Option.some.inj taken
  · -- Holder is this CPU exactly when it holds the lock already.
    simp only [isHolder, decide_eq_true_eq] at names
    simp only [legal, decide_eq_true_eq] at allowed
    by_cases nested : 0 < n
    · rw [if_pos (names.mpr nested)]
      refine invariant_at invariant ?_ ?_ ?_ ?_ ?_ ⟨fun _ _ => rfl, off⟩
      · rw [here]; simp [ownsExclusive, nested]
      · rw [here]; rfl
      · rw [here]; simp [isHolder, nested]
      · rw [here]; exact fun _ => rfl
      · simp only [legal, decide_eq_true_eq]
        exact ⟨nested, allowed⟩
    · rw [if_neg fun self => nested (names.mp self)]
      refine invariant_at invariant ?_ ?_ ?_ (by simp [ownsExclusive]) ?_ ⟨fun _ _ => rfl, off⟩
      · rw [here]; simp [ownsExclusive, nested]
      · rw [here]; rfl
      · rw [here]; simp [isHolder, nested]
      · simp only [legal, decide_eq_true_eq]
        omega
  · simp only [legal, decide_eq_true_eq] at allowed
    have depth := deep (writes.mpr rfl)
    simp only [depthAt] at depth
    have room : decide (s.lock.currentRecursivityDepth < s.lock.maxRecursivityDepth) = true :=
      decide_eq_true (by omega)
    rw [room, checked, if_pos rfl]
    refine invariant_at invariant ?_ ?_ ?_ ?_ ?_ ⟨fun _ _ => rfl, off⟩
    · rw [here]; rfl
    · rw [here]; rfl
    · rw [here]; rfl
    · rw [here]; exact fun _ => rfl
    · simpa only [legal, decide_eq_true_eq] using allowed
  · simp only [legal, decide_eq_true_eq] at allowed
    have depth := deep (writes.mpr rfl)
    simp only [depthAt] at depth
    refine invariant_moved (p := .between (n + 1)) invariant ⟨rfl, fun _ _ => rfl, rfl⟩ ?_ ?_ ⟨?_, nofun⟩ ?_ ?_ ?_
      fun _ => off
    · simpa [ownsExclusive] using writes.mpr rfl
    · have out : cpu ∉ s.lock.readers := fun member => by simpa [ownsShared] using reads.mp member
      simp [ownsShared, out]
    · rw [here]
      nofun
    · simpa [isHolder] using names.mpr rfl
    · simp only [ownsExclusive, depthAt, Nat.zero_lt_succ, decide_true, if_true]
      omega
    · simp only [legal, decide_eq_true_eq]
      omega
  · simp only [legal, decide_eq_true_eq] at allowed
    have unowned : s.lock.writer ≠ some cpu := fun owned => by simpa [ownsExclusive] using writes.mp owned
    have unread : cpu ∉ s.lock.readers := fun member => by simpa [ownsShared] using reads.mp member
    cases exclusive with
    | true =>
      simp only [Spinlock.rwSpinlockAcquire, if_true]
      split
      · rename_i acquired
        split at acquired
        · rename_i free
          obtain rfl := Option.some.inj acquired
          refine invariant_moved (p := .checkHolder true n) invariant ⟨rfl, fun _ _ => rfl, rfl⟩ rfl ?_
            ⟨fun _ _ => free, nofun⟩ ?_ ?_ ?_ fun _ => off
          · simp [ownsShared, free]
          · rw [here]
            rfl
          · simpa [ownsExclusive, depthAt] using invariant.free free.1
          · simpa only [legal, decide_eq_true_eq] using allowed
        · cases acquired
      · exact invariant
    | false =>
      simp only [Spinlock.rwSpinlockAcquire, Bool.false_eq_true, if_false]
      split
      · rename_i acquired
        split at acquired
        · rename_i free
          obtain rfl := Option.some.inj acquired
          refine invariant_moved (p := .checkHolder false n) invariant ⟨rfl, fun _ _ => rfl, rfl⟩ ?_ rfl
            ⟨nofun, fun _ => ⟨by rw [here]; rfl, fun _ => free⟩⟩ ?_ ?_ ?_ fun _ => off
          · rw [here]
            rfl
          · rw [here]
            rfl
          · rw [here]
            rfl
          · simpa only [legal, decide_eq_true_eq] using allowed
        · cases acquired
      · exact invariant
  · simp only [legal, decide_eq_true_eq] at allowed
    have nobody : s.lock.holder = none := invariant.no_holder (by
      rw [here]
      cases exclusive <;> simp [ownsShared, ownsExclusive, isHolder])
    rw [nobody, checked, if_pos (by rfl)]
    refine invariant_at invariant ?_ ?_ ?_ ?_ ?_ ⟨fun _ _ => rfl, off⟩
    · rw [here]; rfl
    · rw [here]; rfl
    · rw [here]; rfl
    · rw [here]; exact fun _ => rfl
    · simpa only [legal, decide_eq_true_eq] using allowed
  · simp only [legal, decide_eq_true_eq] at allowed
    have zero : s.lock.currentRecursivityDepth = 0 := by
      cases exclusive with
      | true => exact deep (writes.mpr rfl)
      | false => exact invariant.free (invariant.no_writer (by rw [here]; rfl))
    rw [zero, checked, if_pos (by rfl)]
    refine invariant_at invariant ?_ ?_ ?_ ?_ ?_ ⟨fun _ _ => rfl, off⟩
    · rw [here]
      cases exclusive <;> rfl
    · rw [here]
      cases exclusive <;> rfl
    · rw [here]
      cases exclusive <;> rfl
    · rw [here]
      cases exclusive <;> exact fun _ => rfl
    · cases exclusive <;> simp [legal, allowed]
  · simp only [legal, decide_eq_true_eq] at allowed
    refine invariant_moved (p := .setHolder n) invariant ⟨rfl, fun _ _ => rfl, rfl⟩ ?_ ?_ ⟨?_, nofun⟩ ?_ rfl ?_
      fun _ => off
    · simpa [ownsExclusive] using writes.mpr rfl
    · have out : cpu ∉ s.lock.readers := fun member => by simpa [ownsShared] using reads.mp member
      simp [ownsShared, out]
    · rw [here]
      nofun
    · rw [here]
      rfl
    · simpa only [legal, decide_eq_true_eq] using allowed
  · simp only [legal, decide_eq_true_eq] at allowed
    refine invariant_moved (p := .between (n + 1)) invariant ⟨rfl, fun _ _ => rfl, rfl⟩ ?_ ?_ ⟨?_, nofun⟩ ?_ ?_ ?_
      fun _ => off
    · simpa [ownsExclusive] using writes.mpr rfl
    · have out : cpu ∉ s.lock.readers := fun member => by simpa [ownsShared] using reads.mp member
      simp [ownsShared, out]
    · rw [here]
      nofun
    · simp [isHolder]
    · have depth := deep (writes.mpr rfl)
      simp only [depthAt] at depth
      simp only [ownsExclusive, depthAt, Nat.zero_lt_succ, decide_true, if_true]
      omega
    · simp only [legal, decide_eq_true_eq]
      omega

theorem release_invariant (n : Nat) (exclusive : Bool) (invariant : Invariant s)
    (here : s.point cpu = .checkInterrupts exclusive n ∨ s.point cpu = .checkOwner n ∨ s.point cpu = .decrement n ∨
      s.point cpu = .test exclusive n ∨ s.point cpu = .clearHolder exclusive n ∨ s.point cpu = .unlock exclusive n)
    (taken : step s cpu .go = some after) : Invariant after := by
  have writes := invariant.writer cpu
  have reads := invariant.readers cpu
  have names := invariant.holder cpu
  have deep := invariant.depth cpu
  have allowed := invariant.legal cpu
  have bounds := invariant.bounds
  have off : s.intrState cpu = false := by
    apply invariant.interrupts cpu
    rcases here with here | here | here | here | here | here <;> simp [here]
  rcases here with here | here | here | here | here | here
  all_goals
    rw [here] at writes reads names deep allowed
    simp only [step, here] at taken
    obtain rfl := Option.some.inj taken
  · rw [off, checked, if_pos (by rfl)]
    refine invariant_at invariant ?_ ?_ ?_ ?_ ?_ ⟨fun _ _ => rfl, off⟩
    · rw [here]
      cases exclusive <;> rfl
    · rw [here]
      cases exclusive <;> rfl
    · rw [here]
      cases exclusive <;> rfl
    · rw [here]
      cases exclusive <;> simp [ownsExclusive, depthAt]
    · cases exclusive <;> simpa [legal] using allowed
  · have mine : decide (s.lock.holder = some cpu) = true := decide_eq_true (names.mpr rfl)
    rw [mine, checked, if_pos rfl]
    refine invariant_at invariant ?_ ?_ ?_ ?_ ?_ ⟨fun _ _ => rfl, off⟩
    · rw [here]; rfl
    · rw [here]; rfl
    · rw [here]; rfl
    · rw [here]; exact fun _ => rfl
    · simpa only [legal, decide_eq_true_eq] using allowed
  · simp only [legal, decide_eq_true_eq] at allowed
    have depth := deep (writes.mpr rfl)
    simp only [depthAt] at depth
    refine invariant_moved (p := .test true n) invariant ⟨rfl, fun _ _ => rfl, rfl⟩ ?_ ?_ ⟨?_, nofun⟩ ?_ ?_ ?_
      fun _ => off
    · simpa [ownsExclusive] using writes.mpr rfl
    · have out : cpu ∉ s.lock.readers := fun member => by simpa [ownsShared] using reads.mp member
      simp [ownsShared, out]
    · rw [here]
      nofun
    · simpa [isHolder] using names.mpr rfl
    · simp only [ownsExclusive, depthAt, if_true]
      omega
    · simpa [legal] using allowed
  · cases exclusive with
    | false =>
      rw [if_pos (by simp)]
      refine invariant_at invariant ?_ ?_ ?_ (by simp [ownsExclusive]) ?_ ⟨fun _ _ => rfl, off⟩
      · rw [here]; rfl
      · rw [here]; rfl
      · rw [here]; rfl
      · simpa [legal] using allowed
    | true =>
      have depth := deep (writes.mpr rfl)
      simp only [depthAt] at depth
      simp only [legal, if_true, decide_eq_true_eq] at allowed
      split
      · rename_i last
        refine invariant_at invariant ?_ ?_ ?_ ?_ ?_ ⟨fun _ _ => rfl, off⟩
        · rw [here]; rfl
        · rw [here]; rfl
        · rw [here]; rfl
        · rw [here]; exact fun _ => rfl
        · simp only [Bool.not_true, Bool.false_eq_true, or_false] at last
          simp only [legal, if_true, decide_eq_true_eq]
          omega
      · rename_i nested
        have more : 0 < n - 1 := by
          simp only [Bool.not_true, Bool.false_eq_true, or_false] at nested
          omega
        refine invariant_at invariant ?_ ?_ ?_ ?_ ?_ ⟨fun _ _ => rfl, off⟩
        · rw [here]; simp only [ownsExclusive, more, decide_true]
        · rw [here]; rfl
        · rw [here]; simp only [isHolder, more, decide_true]
        · rw [here]; exact fun _ => rfl
        · simp only [legal, decide_eq_true_eq]
          omega
  · have unnamed : s.lock.holder = none ∨ isHolder (s.point cpu) = true := by
      cases exclusive with
      | true => exact .inr (by rw [here]; rfl)
      | false => exact .inl (invariant.no_holder (.inl (by rw [here]; rfl)))
    refine invariant_moved (p := .unlock exclusive n) invariant ⟨rfl, fun _ _ => rfl, rfl⟩ ?_ ?_ ⟨?_, ?_⟩ ?_ ?_ ?_
      fun _ => off
    · cases exclusive with
      | true => simpa [ownsExclusive] using writes.mpr rfl
      | false =>
        rw [here]
        rfl
    · cases exclusive with
      | true =>
        have out : cpu ∉ s.lock.readers := fun member => by simpa [ownsShared] using reads.mp member
        simp [ownsShared, out]
      | false =>
        have inside : cpu ∈ s.lock.readers := reads.mpr rfl
        simp [ownsShared, inside]
    · rw [here]
      cases exclusive <;> nofun
    · rw [here]
      cases exclusive <;> simp [ownsShared, ownsExclusive]
    · rw [if_neg (by simp [isHolder])]
      rcases unnamed with none | named
      · rw [none, ite_self]
      · rw [if_pos named]
    · cases exclusive with
      | true =>
        have depth := deep (writes.mpr rfl)
        simpa [ownsExclusive, depthAt] using depth
      | false =>
        rw [here]
        rfl
    · cases exclusive <;> simpa [legal] using allowed
  · simp only [legal, decide_eq_true_eq] at allowed
    refine invariant_moved (p := .between (n - 1)) invariant ⟨rfl, ?_, ?_⟩ ?_ ?_ ⟨?_, nofun⟩ ?_ ?_ ?_ ?_
    · exact fun c other => Function.update_of_ne other _ _
    · cases exclusive <;> rfl
    · cases exclusive with
      | true =>
        rw [allowed, here]
        rfl
      | false =>
        rw [allowed, here]
        rfl
    · cases exclusive with
      | true =>
        have out : cpu ∉ s.lock.readers := fun member => by simpa [ownsShared] using reads.mp member
        simp [ownsShared, out, Spinlock.rwSpinlockRelease]
      | false => simp [ownsShared, Spinlock.rwSpinlockRelease]
    · rw [here]
      cases exclusive <;> simp [allowed, ownsExclusive]
    · have nobody : s.lock.holder = none := invariant.no_holder (by
        rw [here]
        cases exclusive <;> simp [ownsShared, ownsExclusive, isHolder])
      rw [here]
      cases exclusive <;> simp [allowed, isHolder, Spinlock.rwSpinlockRelease, nobody]
    · cases exclusive with
      | true =>
        have depth := deep (writes.mpr rfl)
        simp only [depthAt, allowed, if_true, Nat.sub_self] at depth
        rw [here]
        simpa [allowed, ownsExclusive, Spinlock.rwSpinlockRelease] using depth
      | false =>
        rw [here]
        simp [allowed, ownsExclusive, Spinlock.rwSpinlockRelease]
    · simp only [legal, decide_eq_true_eq]
      cases exclusive <;> simp [allowed]
    · intro inside
      refine absurd ?_ inside
      cases exclusive <;> simp [allowed]

theorem step_invariant {action : Action} (invariant : Invariant s) (taken : step s cpu action = some after) :
    Invariant after := by
  cases here : s.point cpu with
  | between n => exact between_invariant invariant here taken
  | sharing => exact sharing_invariant invariant here taken
  | failed =>
    have sound := invariant.legal cpu
    rw [here] at sound
    cases sound
  | checkInterrupts exclusive n | test exclusive n | clearHolder exclusive n | unlock exclusive n =>
    cases action with
    | go => exact release_invariant n exclusive invariant (by simp [here]) taken
    | _ => simp [step, here] at taken
  | checkOwner n | decrement n =>
    cases action with
    | go => exact release_invariant n true invariant (by simp [here]) taken
    | _ => simp [step, here] at taken
  | spin exclusive n | checkHolder exclusive n | checkDepth exclusive n =>
    cases action with
    | go => exact acquire_invariant n exclusive invariant (by simp [here]) taken
    | _ => simp [step, here] at taken
  | _ n =>
    cases action with
    | go => exact acquire_invariant n true invariant (by simp [here]) taken
    | _ => simp [step, here] at taken

end Steps

structure Safe (s : State Cpu) : Prop where
  -- Holder is the CPU between its calls with n > 0 acquisitions, whose number is the depth.
  holder : forall c n, 0 < n -> s.point c = .between n ->
    s.lock.holder = some c ∧ s.lock.currentRecursivityDepth = n
  exclusive : forall c, s.lock.holder = some c -> s.lock.writer = some c
  shared : s.lock.readers ≠ ∅ -> s.lock.holder = none
  -- The inner lock is held from the first acquisition to the last release, which is the one that gives it back.
  inner : forall c n, s.point c = .between n -> (s.lock.writer = some c ↔ 0 < n)
  reading : forall c, s.point c = .sharing -> c ∈ s.lock.readers
  outermost : forall c n, s.point c = .unlock true n -> n = 1 ∧ s.lock.writer = some c
  asserts : forall c, s.point c ≠ .failed

omit [DecidableEq Cpu] in
theorem Invariant.safe {s : State Cpu} (invariant : Invariant s) : Safe s := by
  refine ⟨?_, ?_, ?_, ?_, ?_, ?_, ?_⟩
  · intro c n positive here
    have names : isHolder (s.point c) = true := by
      rw [here]
      exact decide_eq_true positive
    have writes := (invariant.writer c).mpr (ownsExclusive_of_isHolder _ names)
    refine ⟨(invariant.holder c).mpr names, ?_⟩
    rw [invariant.depth c writes, here]
    rfl
  · intro c names
    exact (invariant.writer c).mpr (ownsExclusive_of_isHolder _ ((invariant.holder c).mp names))
  · intro reading
    obtain ⟨c, member⟩ := Finset.nonempty_iff_ne_empty.mpr reading
    exact invariant.no_holder (.inl ((invariant.readers c).mp member))
  · intro c n here
    rw [invariant.writer c, here]
    exact decide_eq_true_iff
  · intro c here
    exact (invariant.readers c).mpr (by rw [here]; rfl)
  · intro c n here
    have allowed := invariant.legal c
    rw [here] at allowed
    exact ⟨of_decide_eq_true allowed, (invariant.writer c).mpr (by rw [here]; rfl)⟩
  · intro c here
    have allowed := invariant.legal c
    rw [here] at allowed
    cases allowed

def sampleStart : State (Fin 2) where
  lock := recRwSpinlockInit 0
  point := fun _ => .between 0
  intrState := fun _ => true
  saved := fun _ => []

def sampleSchedule : List (Fin 2 × Action) :=
  [(0, .acquireExclusive), (0, .go), (0, .go), (0, .go), (0, .go), (0, .go), (0, .go), (1, .acquireShared), (1, .go),
    (0, .acquireExclusive), (0, .go), (0, .go), (0, .go)]

theorem sampleSchedule_result : (TransitionSystem.runUnder (fun _ _ => decide True)
    (fun s label => step s label.1 label.2) sampleStart sampleSchedule).any
      (fun s => decide (s.point 0 = .between 2 ∧ s.point 1 = .spin false 0)) = true := by
  decide

end Hal9000.RecRwSpinlock
