import Mathlib.Data.List.Nodup
import Mathlib.Logic.Function.Basic

set_option autoImplicit false

namespace Hal9000.Lib

open Function (update)

variable {C T V : Type}

structure Lists (list : List T) (spot : T -> V) (place : V) : Prop where
  nodup : list.Nodup
  mem_iff : forall t, t ∈ list ↔ spot t = place

def Points (pointer : C -> Option T) (spot : T -> V) (place : C -> V) : Prop :=
  forall t c, pointer c = some t ↔ spot t = place c

variable [DecidableEq T]

namespace Lists

variable {list rest : List T} {spot : T -> V} {place other : V} {t : T}

theorem keep (lists : Lists list spot place) (before : spot t ≠ place) (after : other ≠ place) :
    Lists list (update spot t other) place := by
  refine ⟨lists.nodup, fun u => ?_⟩
  rw [lists.mem_iff u]
  by_cases same : u = t
  · rw [same, Function.update_self]
    exact ⟨fun here => absurd here before, fun here => absurd here after⟩
  · rw [Function.update_of_ne same]

theorem join (lists : Lists list spot place) (before : spot t ≠ place) :
    Lists (list ++ [t]) (update spot t place) place := by
  have fresh : t ∉ list := fun member => before ((lists.mem_iff t).mp member)
  refine ⟨List.nodup_append.mpr ⟨lists.nodup, List.nodup_singleton t, ?_⟩, fun u => ?_⟩
  · intro u member v single same
    rw [List.mem_singleton.mp single] at same
    exact fresh (same ▸ member)
  · rw [List.mem_append, List.mem_singleton, lists.mem_iff u]
    by_cases same : u = t
    · rw [same, Function.update_self]
      exact ⟨fun _ => rfl, fun _ => .inr rfl⟩
    · rw [Function.update_of_ne same]
      exact ⟨fun here => here.resolve_right same, fun here => .inl here⟩

theorem erase (lists : Lists list spot place) (after : other ≠ place) :
    Lists (list.erase t) (update spot t other) place := by
  refine ⟨lists.nodup.erase t, fun u => ?_⟩
  rw [lists.nodup.mem_erase_iff, lists.mem_iff u]
  by_cases same : u = t
  · rw [same, Function.update_self]
    exact ⟨fun here => absurd rfl here.1, fun here => absurd here after⟩
  · rw [Function.update_of_ne same]
    exact ⟨fun here => here.2, fun here => ⟨same, here⟩⟩

theorem tail (lists : Lists list spot place) (head : list = t :: rest) (after : other ≠ place) :
    Lists rest (update spot t other) place := by
  have erased := lists.erase (t := t) after
  rwa [head, List.erase_cons_head] at erased

end Lists

namespace Points

variable {pointer : C -> Option T} {spot : T -> V} {place : C -> V} {other : V} {t : T} {c : C}

theorem keep (points : Points pointer spot place) (before : forall d, spot t ≠ place d)
    (after : forall d, other ≠ place d) : Points pointer (update spot t other) place := by
  intro u d
  rw [points u d]
  by_cases same : u = t
  · rw [same, Function.update_self]
    exact ⟨fun here => absurd here (before d), fun here => absurd here (after d)⟩
  · rw [Function.update_of_ne same]

variable [DecidableEq C]

theorem set (points : Points pointer spot place) (injective : Function.Injective place) (free : pointer c = none)
    (before : forall d, spot t ≠ place d) :
    Points (update pointer c (some t)) (update spot t (place c)) place := by
  intro u d
  by_cases agent : d = c
  · subst agent
    have nobody : spot u ≠ place d := by
      rw [Ne, ← points u d, free]
      simp
    by_cases same : u = t
    · simp [same]
    · simp [same, nobody, Ne.symm same]
  · by_cases same : u = t
    · subst same
      have unset : pointer d ≠ some u := mt (points u d).mp (before d)
      have elsewhere : place c ≠ place d := fun equal => agent (injective equal).symm
      simp [agent, unset, elsewhere]
    · simp [agent, same, points u d]

theorem clear (points : Points pointer spot place) (here : pointer c = some t) (after : forall d, other ≠ place d)
    (injective : Function.Injective place) : Points (update pointer c none) (update spot t other) place := by
  intro u d
  have there := (points t c).mp here
  by_cases agent : d = c
  · subst agent
    by_cases same : u = t
    · simp [same, after d]
    · have unset : pointer d ≠ some u := by
        rw [here]
        exact fun equal => same (Option.some.inj equal).symm
      simp [same, ← points u d, unset]
  · by_cases same : u = t
    · subst same
      have unset : pointer d ≠ some u := by
        rw [Ne, points u d, there]
        exact fun equal => agent (injective equal).symm
      simp [agent, after d, unset]
    · simp [agent, same, points u d]

end Points

end Hal9000.Lib
