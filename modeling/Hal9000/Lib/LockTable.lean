import Mathlib.Logic.Function.Basic

set_option autoImplicit false

namespace Hal9000.Lib

open Function (update)

variable {L A : Type}

-- Locks of `L` seen from both sides: `holder` is what the locks say, `held` what the agents know. An agent
-- holds at most one lock of the table.
def LockTable (holder : L -> Option A) (held : A -> Option L) : Prop :=
  forall l a, holder l = some a ↔ held a = some l

namespace LockTable

variable {holder : L -> Option A} {held : A -> Option L} {l : L} {a b : A}

theorem unique (table : LockTable holder held) (first : held a = some l) (second : held b = some l) :
    a = b := by
  have mine := (table l a).mpr first
  have other := (table l b).mpr second
  exact Option.some.inj (mine.symm.trans other)

variable [DecidableEq L] [DecidableEq A]

theorem acquire (table : LockTable holder held) (free : holder l = none) (idle : held a = none) :
    LockTable (update holder l (some a)) (update held a (some l)) := by
  intro l' a'
  by_cases lock : l' = l
  · subst lock
    by_cases agent : a' = a
    · subst agent
      simp
    · have unheld : held a' ≠ some l' := by
        rw [Ne, ← table l' a', free]
        exact nofun
      simp [agent, unheld, Ne.symm agent]
  · by_cases agent : a' = a
    · subst agent
      have unheld : holder l' ≠ some a' := by
        rw [Ne, table l' a', idle]
        exact nofun
      simp [lock, unheld, Ne.symm lock]
    · simp [lock, agent, table l' a']

theorem release (table : LockTable holder held) (own : held a = some l) :
    LockTable (update holder l none) (update held a none) := by
  intro l' a'
  by_cases lock : l' = l
  · subst lock
    by_cases agent : a' = a
    · subst agent
      simp
    · have unheld : held a' ≠ some l' := fun other => agent (table.unique other own)
      simp [agent, unheld]
  · by_cases agent : a' = a
    · subst agent
      have unheld : holder l' ≠ some a' := by
        rw [Ne, table l' a', own]
        exact fun same => lock (Option.some.inj same).symm
      simp [lock, unheld]
    · simp [lock, agent, table l' a']

omit [DecidableEq L] in
theorem keep (table : LockTable holder held) {h : Option L} (same : held a = h) :
    LockTable holder (update held a h) := by
  rw [← same, Function.update_eq_self]
  exact table

end LockTable

def OneLock (holder : Option A) (holds : A -> Bool) : Prop :=
  forall a, holder = some a ↔ holds a = true

namespace OneLock

variable {holder : Option A} {holds : A -> Bool} {a b : A}

theorem unique (lock : OneLock holder holds) (first : holds a = true) (second : holds b = true) : a = b := by
  have mine := (lock a).mpr first
  have other := (lock b).mpr second
  exact Option.some.inj (mine.symm.trans other)

variable [DecidableEq A]

theorem acquire (lock : OneLock holder holds) (free : holder = none) :
    OneLock (some a) (update holds a true) := by
  intro b
  by_cases same : b = a
  · simp [same]
  · have other : holds b ≠ true := by
      rw [Ne, ← lock b, free]
      exact nofun
    simp [same, other, Ne.symm same]

theorem release (lock : OneLock holder holds) (own : holds a = true) : OneLock none (update holds a false) := by
  intro b
  by_cases same : b = a
  · simp [same]
  · have other : holds b ≠ true := fun also => same (lock.unique also own)
    simp [same, other]

theorem keep (lock : OneLock holder holds) {h : Bool} (same : holds a = h) :
    OneLock holder (update holds a h) := by
  rw [← same, Function.update_eq_self]
  exact lock

end OneLock

end Hal9000.Lib
