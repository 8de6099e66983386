import Mathlib.Data.List.Basic
import Mathlib.Data.List.Infix
import Mathlib.Tactic.Common

set_option autoImplicit false

namespace Hal9000.Lib

variable {S R L : Type}

def Tracks (step : S -> L -> Option S) (follow : R -> L -> R) (agrees : S -> R -> Prop) (state : S) (reference : R)
    (labels : List L) : Prop :=
  forall prior, prior <+: labels ->
    ∃ after, prior.foldlM step state = some after ∧ agrees after (prior.foldl follow reference)

def Meets (follow : R -> L -> R) (met : R -> L -> Prop) (reference : R) (labels : List L) : Prop :=
  forall prior label, prior ++ [label] <+: labels -> met (prior.foldl follow reference) label

variable {step : S -> L -> Option S} {follow : R -> L -> R} {agrees : S -> R -> Prop} {met : R -> L -> Prop}

theorem tracks_nil {state : S} {reference : R} :
    Tracks step follow agrees state reference [] ↔ agrees state reference := by
  constructor
  next =>
    intro tracked
    obtain ⟨after, ran, agreed⟩ := tracked [] List.prefix_rfl
    rw [Option.some.inj ran]
    exact agreed
  next =>
    intro agreed prior within
    rw [List.prefix_nil.mp within]
    exact ⟨state, rfl, agreed⟩

theorem tracks_cons {state : S} {reference : R} {label : L} {labels : List L} :
    Tracks step follow agrees state reference (label :: labels) ↔
      agrees state reference ∧
        ∃ after, step state label = some after ∧ Tracks step follow agrees after (follow reference label) labels := by
  constructor
  next =>
    intro tracked
    refine ⟨tracks_nil.mp fun prior within => tracked prior (within.trans List.nil_prefix), ?_⟩
    obtain ⟨after, ran, _⟩ := tracked [label] (List.cons_prefix_cons.mpr ⟨rfl, List.nil_prefix⟩)
    have taken : step state label = some after := by simpa using ran
    refine ⟨after, taken, fun prior within => ?_⟩
    have whole := tracked (label :: prior) (List.cons_prefix_cons.mpr ⟨rfl, within⟩)
    simpa [List.foldlM_cons, taken] using whole
  next =>
    rintro ⟨agreed, after, taken, tracked⟩ prior within
    cases prior with
    | nil => exact ⟨state, rfl, agreed⟩
    | cons head rest =>
      obtain ⟨same, inside⟩ := List.cons_prefix_cons.mp within
      subst same
      simpa [List.foldlM_cons, taken] using tracked rest inside

theorem meets_nil {reference : R} : Meets follow met reference [] :=
  fun _ _ within => absurd (List.prefix_nil.mp within) (by simp)

theorem meets_cons {reference : R} {label : L} {labels : List L} :
    Meets follow met reference (label :: labels) ↔
      met reference label ∧ Meets follow met (follow reference label) labels := by
  constructor
  next =>
    intro meets
    refine ⟨meets [] label (List.cons_prefix_cons.mpr ⟨rfl, List.nil_prefix⟩), fun prior other within => ?_⟩
    exact meets (label :: prior) other (List.cons_prefix_cons.mpr ⟨rfl, within⟩)
  next =>
    rintro ⟨first, meets⟩ prior other within
    cases prior with
    | nil =>
      obtain ⟨same, _⟩ := List.cons_prefix_cons.mp within
      subst same
      exact first
    | cons head rest =>
      obtain ⟨same, inside⟩ := List.cons_prefix_cons.mp within
      subst same
      exact meets rest other inside

structure Tracker (step : S -> L -> Option S) (follow : R -> L -> R) (agrees : S -> R -> Prop)
    (met : R -> L -> Prop) (holds : S -> R -> Prop) : Prop where
  agreed : forall state reference, holds state reference -> agrees state reference
  kept : forall state reference label, holds state reference -> met reference label ->
    ∃ after, step state label = some after ∧ holds after (follow reference label)
  lost : forall state reference label after, holds state reference -> ¬ met reference label ->
    step state label = some after -> ¬ agrees after (follow reference label)

theorem Tracker.tracks_iff {holds : S -> R -> Prop} (tracker : Tracker step follow agrees met holds) {state : S}
    {reference : R} (held : holds state reference) (labels : List L) :
    Tracks step follow agrees state reference labels ↔ Meets follow met reference labels := by
  induction labels generalizing state reference with
  | nil =>
    rw [tracks_nil]
    exact iff_of_true (tracker.agreed _ _ held) meets_nil
  | cons label labels ih =>
    rw [tracks_cons, meets_cons]
    constructor
    next =>
      rintro ⟨_, after, taken, tracked⟩
      by_cases first : met reference label
      next =>
        obtain ⟨state', taken', held'⟩ := tracker.kept _ _ _ held first
        have same : state' = after := Option.some.inj (taken'.symm.trans taken)
        subst same
        exact ⟨first, (ih held').mp tracked⟩
      next =>
        have agreed := tracks_nil.mp fun prior within => tracked prior (within.trans List.nil_prefix)
        exact absurd agreed (tracker.lost _ _ _ _ held first taken)
    next =>
      rintro ⟨first, rest⟩
      obtain ⟨after, taken, held'⟩ := tracker.kept _ _ _ held first
      exact ⟨tracker.agreed _ _ held, after, taken, (ih held').mpr rest⟩

end Hal9000.Lib
