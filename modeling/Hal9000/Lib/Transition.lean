import Mathlib.Algebra.GroupWithZero.Nat
import Mathlib.Logic.Basic
import Mathlib.Tactic.Common

set_option autoImplicit false

namespace Hal9000.Lib

universe u v

instance neZero_two : NeZero 2 := ⟨Nat.succ_ne_zero 1⟩

structure TransitionSystem (State : Type u) (Label : Type v) where
  initial : State -> Prop
  step : State -> Label -> State -> Prop

namespace TransitionSystem

variable {State : Type u} {Label : Type v} (system : TransitionSystem State Label)

-- States at the end of the runs in which every step meets `condition` in the state it starts from.
inductive ReachableUnder (condition : State -> Label -> Prop) : State -> Prop where
  | start (state : State) (initial : system.initial state) : ReachableUnder condition state
  | next (state : State) (label : Label) (after : State) (reached : ReachableUnder condition state)
      (met : condition state label) (taken : system.step state label after) :
      ReachableUnder condition after

def Reachable (state : State) : Prop :=
  system.ReachableUnder (fun _ _ => True) state

variable {system}

theorem ReachableUnder.invariant {condition : State -> Label -> Prop} {holds : State -> Prop}
    (initially : forall state, system.initial state -> holds state)
    (preserved : forall state label after, holds state -> condition state label ->
      system.step state label after -> holds after)
    {state : State} (reached : system.ReachableUnder condition state) : holds state := by
  induction reached with
  | start state initial => exact initially state initial
  | next state label after _ met taken ih => exact preserved state label after ih met taken

theorem Reachable.start {state : State} (initial : system.initial state) : system.Reachable state :=
  ReachableUnder.start state initial

theorem Reachable.next {state after : State} (reached : system.Reachable state) (label : Label)
    (taken : system.step state label after) : system.Reachable after :=
  ReachableUnder.next state label after reached trivial taken

theorem Reachable.invariant {holds : State -> Prop}
    (initially : forall state, system.initial state -> holds state)
    (preserved : forall state label after, holds state -> system.step state label after -> holds after)
    {state : State} (reached : system.Reachable state) : holds state :=
  ReachableUnder.invariant initially (fun state label after held _ taken =>
    preserved state label after held taken) reached

theorem ReachableUnder.weaken {condition weaker : State -> Label -> Prop}
    (implied : forall state label, condition state label -> weaker state label)
    {state : State} (reached : system.ReachableUnder condition state) :
    system.ReachableUnder weaker state := by
  induction reached with
  | start state initial => exact .start state initial
  | next state label after _ met taken ih => exact .next state label after ih (implied _ _ met) taken

theorem ReachableUnder.reachable {condition : State -> Label -> Prop} {state : State}
    (reached : system.ReachableUnder condition state) : system.Reachable state :=
  reached.weaken (fun _ _ _ => trivial)

def runUnder (condition : State -> Label -> Bool) (next : State -> Label -> Option State) :
    State -> List Label -> Option State
  | state, [] => some state
  | state, label :: labels =>
    if condition state label then (next state label).bind (runUnder condition next · labels) else none

theorem ReachableUnder.run {condition : State -> Label -> Prop} {check : State -> Label -> Bool}
    (sound : forall state label, check state label = true -> condition state label)
    {next : State -> Label -> Option State}
    (steps : forall state label after, next state label = some after -> system.step state label after)
    {state after : State} (reached : system.ReachableUnder condition state) (labels : List Label)
    (result : runUnder check next state labels = some after) : system.ReachableUnder condition after := by
  induction labels generalizing state with
  | nil =>
    rw [← Option.some.inj result]
    exact reached
  | cons label labels ih =>
    simp only [runUnder] at result
    split at result
    · rename_i met
      obtain ⟨middle, taken, rest⟩ := Option.bind_eq_some_iff.mp result
      exact ih (.next state label middle reached (sound _ _ met) (steps _ _ _ taken)) rest
    · simp at result

theorem ReachableUnder.of_run {condition : State -> Label -> Prop}
    [forall state label, Decidable (condition state label)] {next : State -> Label -> Option State}
    (steps : forall state label after, next state label = some after -> system.step state label after)
    {state : State} (reached : system.ReachableUnder condition state) (labels : List Label)
    {holds : State -> Prop} [DecidablePred holds]
    (result : (runUnder (fun state label => decide (condition state label)) next state labels).any
      (fun after => decide (holds after)) = true) :
    ∃ after, system.ReachableUnder condition after ∧ holds after := by
  obtain ⟨after, final, held⟩ := (Option.any_eq_true _ _).mp result
  exact ⟨after, reached.run (fun _ _ => of_decide_eq_true) steps labels final, of_decide_eq_true held⟩

end TransitionSystem

end Hal9000.Lib
