import Mathlib.Data.List.Nodup
import Mathlib.Data.List.Pairwise
import Mathlib.Logic.Function.Basic
import Mathlib.Order.Basic
import Mathlib.Order.Lattice

set_option autoImplicit false

namespace Hal9000.Lib

open Function (update)

variable {E K : Type} [LinearOrder K]

structure Chained (key : E -> K) (hash : K -> Nat) (buckets : Nat -> List E) : Prop where
  hashed : forall i e, e ∈ buckets i -> hash (key e) = i
  sorted : forall i, (buckets i).Pairwise fun a b => key a < key b

def chainedFind (key : E -> K) (hash : K -> Nat) (buckets : Nat -> List E) (k : K) : Option E :=
  (buckets (hash k)).find? fun e => key e = k

namespace Chained

variable {key key' : E -> K} {hash : K -> Nat} {buckets : Nat -> List E} {i : Nat} {front rear : List E}
  {e old : E} {k : K}

theorem key_injective (chained : Chained key hash buckets) {a b : E} (first : a ∈ buckets i)
    (second : b ∈ buckets i) (same : key a = key b) : a = b := by
  have distinct : ((buckets i).map key).Nodup := List.pairwise_map.mpr ((chained.sorted i).imp ne_of_lt)
  exact List.inj_on_of_nodup_map distinct first second same

theorem find_eq_some (chained : Chained key hash buckets) :
    chainedFind key hash buckets k = some e ↔ e ∈ buckets (hash k) ∧ key e = k := by
  unfold chainedFind
  constructor
  · intro found
    have here := List.find?_some found
    simp only [decide_eq_true_eq] at here
    exact ⟨List.mem_of_find?_eq_some found, here⟩
  · rintro ⟨member, here⟩
    cases found : (buckets (hash k)).find? fun e => key e = k with
    | none => exact absurd (decide_eq_true here) (List.find?_eq_none.mp found e member)
    | some other =>
      have same := List.find?_some found
      simp only [decide_eq_true_eq] at same
      rw [chained.key_injective (List.mem_of_find?_eq_some found) member (same.trans here.symm)]

theorem find_key_iff (chained : Chained key hash buckets) :
    chainedFind key hash buckets k = some e ↔ key e = k ∧ ∃ j, e ∈ buckets j := by
  rw [chained.find_eq_some]
  constructor
  · rintro ⟨member, here⟩
    exact ⟨here, _, member⟩
  · rintro ⟨here, j, member⟩
    rw [← here, chained.hashed j e member]
    exact ⟨member, rfl⟩

theorem congr (chained : Chained key hash buckets) (same : forall j e, e ∈ buckets j -> key' e = key e) :
    Chained key' hash buckets ∧ forall k, chainedFind key' hash buckets k = chainedFind key hash buckets k := by
  have moved : Chained key' hash buckets := by
    constructor
    · intro j e member
      rw [same j e member]
      exact chained.hashed j e member
    · intro j
      refine (chained.sorted j).imp_of_mem ?_
      intro a b first second less
      rw [same j a first, same j b second]
      exact less
  refine ⟨moved, fun k => Option.ext fun e => ?_⟩
  rw [chained.find_key_iff, moved.find_key_iff]
  constructor
  · rintro ⟨here, j, member⟩
    exact ⟨same j e member ▸ here, j, member⟩
  · rintro ⟨here, j, member⟩
    exact ⟨(same j e member).trans here, j, member⟩

theorem find_update {buckets' : Nat -> List E} (chained : Chained key hash buckets)
    (chained' : Chained key hash buckets') {value : Option E}
    (here : chainedFind key hash buckets' k = value)
    (others : forall a, key a ≠ k -> ((∃ j, a ∈ buckets' j) ↔ ∃ j, a ∈ buckets j)) :
    chainedFind key hash buckets' = update (chainedFind key hash buckets) k value := by
  funext query
  by_cases same : query = k
  · rw [same, here, Function.update_self]
  · rw [Function.update_of_ne same]
    refine Option.ext fun a => ?_
    rw [chained.find_key_iff, chained'.find_key_iff]
    refine and_congr_right fun isKey => others a ?_
    rw [isKey]
    exact same

theorem mem_update {bucket : List E} {a : E} :
    (∃ j, a ∈ update buckets i bucket j) ↔ a ∈ bucket ∨ ∃ j, j ≠ i ∧ a ∈ buckets j := by
  constructor
  · rintro ⟨j, member⟩
    by_cases same : j = i
    · rw [same, Function.update_self] at member
      exact .inl member
    · rw [Function.update_of_ne same] at member
      exact .inr ⟨j, same, member⟩
  · rintro (member | ⟨j, other, member⟩)
    · refine ⟨i, ?_⟩
      rw [Function.update_self]
      exact member
    · refine ⟨j, ?_⟩
      rw [Function.update_of_ne other]
      exact member

theorem mem_buckets {a : E} : (∃ j, a ∈ buckets j) ↔ a ∈ buckets i ∨ ∃ j, j ≠ i ∧ a ∈ buckets j := by
  constructor
  · rintro ⟨j, member⟩
    by_cases same : j = i
    · exact .inl (same ▸ member)
    · exact .inr ⟨j, same, member⟩
  · rintro (member | ⟨j, _, member⟩)
    · exact ⟨i, member⟩
    · exact ⟨j, member⟩

theorem set_bucket (chained : Chained key hash buckets) {bucket : List E}
    (hashed : forall a, a ∈ bucket -> hash (key a) = i) (sorted : bucket.Pairwise fun a b => key a < key b) :
    Chained key hash (update buckets i bucket) := by
  constructor
  · intro j a member
    by_cases same : j = i
    · rw [same, Function.update_self] at member
      rw [same]
      exact hashed a member
    · rw [Function.update_of_ne same] at member
      exact chained.hashed j a member
  · intro j
    by_cases same : j = i
    · rw [same, Function.update_self]
      exact sorted
    · rw [Function.update_of_ne same]
      exact chained.sorted j

theorem insert (chained : Chained key hash buckets) (split : buckets i = front ++ rear) (hashed : hash (key e) = i)
    (smaller : forall a, a ∈ front -> key a < key e) (larger : forall a, a ∈ rear -> key e < key a) :
    Chained key hash (update buckets i (front ++ e :: rear)) ∧
      chainedFind key hash (update buckets i (front ++ e :: rear)) =
        update (chainedFind key hash buckets) (key e) (some e) := by
  have before := chained.sorted i
  have bucket := chained.hashed i
  rw [split] at before bucket
  obtain ⟨first, second, across⟩ := List.pairwise_append.mp before
  have after : Chained key hash (update buckets i (front ++ e :: rear)) := by
    apply chained.set_bucket
    · intro a member
      rcases List.mem_append.mp member with inFront | inRear
      · exact bucket a (List.mem_append_left _ inFront)
      · rcases List.mem_cons.mp inRear with rfl | later
        · exact hashed
        · exact bucket a (List.mem_append_right _ later)
    · refine List.pairwise_append.mpr ⟨first, List.pairwise_cons.mpr ⟨larger, second⟩, ?_⟩
      intro a inFront b inRear
      rcases List.mem_cons.mp inRear with rfl | later
      · exact smaller a inFront
      · exact across a inFront b later
  refine ⟨after, chained.find_update after ?_ ?_⟩
  · refine after.find_key_iff.mpr ⟨rfl, mem_update.mpr (.inl ?_)⟩
    exact List.mem_append_right _ List.mem_cons_self
  · intro a other
    have distinct : a ≠ e := fun same => other (by rw [same])
    rw [mem_update, @mem_buckets _ buckets i, split]
    simp only [List.mem_append, List.mem_cons, distinct, false_or]

theorem replace (chained : Chained key hash buckets) (split : buckets i = front ++ old :: rear)
    (same : key e = key old) :
    Chained key hash (update buckets i (front ++ e :: rear)) ∧
      chainedFind key hash (update buckets i (front ++ e :: rear)) =
        update (chainedFind key hash buckets) (key e) (some e) := by
  have before := chained.sorted i
  have bucket := chained.hashed i
  rw [split] at before bucket
  obtain ⟨first, second, across⟩ := List.pairwise_append.mp before
  obtain ⟨larger, second⟩ := List.pairwise_cons.mp second
  have after : Chained key hash (update buckets i (front ++ e :: rear)) := by
    apply chained.set_bucket
    · intro a member
      rcases List.mem_append.mp member with inFront | inRear
      · exact bucket a (List.mem_append_left _ inFront)
      · rcases List.mem_cons.mp inRear with rfl | later
        · rw [same]
          exact bucket old (List.mem_append_right _ List.mem_cons_self)
        · exact bucket a (List.mem_append_right _ (List.mem_cons_of_mem _ later))
    · refine List.pairwise_append.mpr ⟨first, List.pairwise_cons.mpr ⟨?_, second⟩, ?_⟩
      · intro b inRear
        rw [same]
        exact larger b inRear
      · intro a inFront b inRear
        rcases List.mem_cons.mp inRear with rfl | later
        · rw [same]
          exact across a inFront old List.mem_cons_self
        · exact across a inFront b (List.mem_cons_of_mem _ later)
  refine ⟨after, chained.find_update after ?_ ?_⟩
  · refine after.find_key_iff.mpr ⟨rfl, mem_update.mpr (.inl ?_)⟩
    exact List.mem_append_right _ List.mem_cons_self
  · intro a other
    have distinct : a ≠ e := fun equal => other (by rw [equal])
    have unlike : a ≠ old := fun equal => other (by rw [equal, same])
    rw [mem_update, @mem_buckets _ buckets i, split]
    simp only [List.mem_append, List.mem_cons, distinct, unlike, false_or]

theorem remove (chained : Chained key hash buckets) (split : buckets i = front ++ e :: rear) :
    Chained key hash (update buckets i (front ++ rear)) ∧
      chainedFind key hash (update buckets i (front ++ rear)) =
        update (chainedFind key hash buckets) (key e) none := by
  have before := chained.sorted i
  have bucket := chained.hashed i
  rw [split] at before bucket
  have shorter : (front ++ rear).Sublist (front ++ e :: rear) :=
    (List.Sublist.refl front).append (List.sublist_cons_self e rear)
  have after : Chained key hash (update buckets i (front ++ rear)) :=
    chained.set_bucket (fun a member => bucket a (shorter.subset member)) (before.sublist shorter)
  refine ⟨after, chained.find_update after ?_ ?_⟩
  · obtain ⟨_, second, across⟩ := List.pairwise_append.mp before
    obtain ⟨larger, _⟩ := List.pairwise_cons.mp second
    rw [chainedFind, bucket e (List.mem_append_right _ List.mem_cons_self), Function.update_self,
      List.find?_eq_none]
    intro a member
    simp only [decide_eq_true_eq]
    rcases List.mem_append.mp member with inFront | inRear
    · exact ne_of_lt (across a inFront e List.mem_cons_self)
    · exact (ne_of_lt (larger a inRear)).symm
  · intro a other
    have distinct : a ≠ e := fun equal => other (by rw [equal])
    rw [mem_update, @mem_buckets _ buckets i, split]
    simp only [List.mem_append, List.mem_cons, distinct, false_or]

end Chained

def gathered (buckets : Nat -> List E) (count : Nat) : List E := (List.range count).flatMap buckets

theorem mem_gathered {buckets : Nat -> List E} {count : Nat} {e : E} :
    e ∈ gathered buckets count ↔ ∃ i, i < count ∧ e ∈ buckets i := by
  simp only [gathered, List.mem_flatMap, List.mem_range]

theorem gathered_update {buckets : Nat -> List E} {count i : Nat} (inside : i < count) :
    ∃ front rear, forall bucket, gathered (update buckets i bucket) count = front ++ bucket ++ rear := by
  obtain ⟨first, second, split⟩ := List.append_of_mem (List.mem_range.mpr inside)
  have distinct : (first ++ i :: second).Nodup := split ▸ List.nodup_range
  have apart (j : Nat) (member : j ∈ first ∨ j ∈ second) : j ≠ i := by
    rintro rfl
    obtain ⟨_, tail, across⟩ := List.nodup_append.mp distinct
    rcases member with early | late
    · exact across j early j List.mem_cons_self rfl
    · exact (List.nodup_cons.mp tail).1 late
  refine ⟨first.flatMap buckets, second.flatMap buckets, fun bucket => ?_⟩
  have same (part : List Nat) (others : forall j, j ∈ part -> j ≠ i) :
      part.flatMap (update buckets i bucket) = part.flatMap buckets :=
    List.flatMap_congr fun j member => Function.update_of_ne (others j member) _ _
  rw [gathered, split, List.flatMap_append, List.flatMap_cons, Function.update_self,
    same first fun j member => apart j (.inl member), same second fun j member => apart j (.inr member),
    List.append_assoc]

theorem gathered_cons {buckets : Nat -> List E} {count i : Nat} (inside : i < count) (front rear : List E) (e : E) :
    (gathered (update buckets i (front ++ e :: rear)) count).Perm
      (e :: gathered (update buckets i (front ++ rear)) count) := by
  obtain ⟨first, second, changed⟩ := @gathered_update E buckets count i inside
  rw [changed, changed, List.append_assoc, List.append_assoc, List.append_assoc, List.append_assoc]
  exact (List.Perm.append_left first List.perm_middle).trans List.perm_middle

end Hal9000.Lib
