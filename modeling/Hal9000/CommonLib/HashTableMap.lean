import Hal9000.CommonLib.HashTableBuckets

set_option autoImplicit false

namespace Hal9000.HashTable

open Function (update)
open Lib (Ring Rings Chained chainedFind gathered gathered_cons)
open Lib.Memory (Agrees load_congr)
open LinkMemory

section Inserting

variable {mem linked after : Lib.Memory} {table : HashTable} {i e place fuel : Nat} {empty : Bool}

theorem hashTableInsert_missing (given : e ≠ 0) (hashed : table.hashOf mem (table.obtainKeyAddress e) = i)
    (inside : i < table.maxKeys)
    (searched : searchKeyInBucket fuel mem table (table.entry i) (table.obtainKeyAddress e) = .ok (false, place)) (inserted : insertHeadList mem place e = .ok linked) :
    hashTableInsert fuel mem table e =
      .ok (linked, { table with numberOfElements := dword (table.numberOfElements + 1) }, none) := by
  have some_ : (e != 0) = true := bne_iff_ne.mpr given
  unfold hashTableInsert
  dsimp only
  rw [some_, assert_true, Kernel.ok_bind, hashed, decide_eq_true inside, assert_true, Kernel.ok_bind, searched, Kernel.ok_bind]
  dsimp only
  rw [inserted, Kernel.ok_bind]
  rfl

theorem hashTableInsert_found (given : e ≠ 0) (hashed : table.hashOf mem (table.obtainKeyAddress e) = i)
    (inside : i < table.maxKeys)
    (searched : searchKeyInBucket fuel mem table (table.entry i) (table.obtainKeyAddress e) = .ok (true, place)) (inserted : insertHeadList mem place e = .ok linked)
    (taken : removeEntryList linked place = .ok (after, empty)) :
    hashTableInsert fuel mem table e = .ok (after, table, some place) := by
  have some_ : (e != 0) = true := bne_iff_ne.mpr given
  unfold hashTableInsert
  dsimp only
  rw [some_, assert_true, Kernel.ok_bind, hashed, decide_eq_true inside, assert_true, Kernel.ok_bind, searched, Kernel.ok_bind]
  dsimp only
  rw [inserted, Kernel.ok_bind, if_pos rfl, taken, Kernel.ok_bind]
  rfl

end Inserting

namespace Represents

variable {mem after : Lib.Memory} {table : HashTable} {buckets : Nat -> List Nat} {i k e key fuel : Nat}
  {front rear : List Nat}

theorem set (represents : Represents mem table buckets) (inside : i < table.maxKeys) {bucket : List Nat}
    {find : Nat -> Option Nat}
    (chained : Chained (keyOf mem table) table.hash (update buckets i bucket) ∧
      chainedFind (keyOf mem table) table.hash (update buckets i bucket) = find)
    (rings : Rings (flink after) (blink after) table.maxKeys table.entry (update buckets i bucket))
    (layout : Layout table (gathered (update buckets i bucket) table.maxKeys))
    (keys : forall a, a ∈ gathered (update buckets i bucket) table.maxKeys -> keyOf after table a = keyOf mem table a)
    {count : Nat} (size : count = dword (gathered (update buckets i bucket) table.maxKeys).length) :
    Represents after { table with numberOfElements := count } (update buckets i bucket) ∧
      contents after { table with numberOfElements := count } (update buckets i bucket) = find := by
  obtain ⟨chained, rfl⟩ := chained
  have beyond (j : Nat) (outside : table.maxKeys ≤ j) : update buckets i bucket j = [] := by
    rw [Function.update_of_ne (by omega)]
    exact represents.beyond j outside
  have members (j a : Nat) (member : a ∈ update buckets i bucket j) : keyOf after table a = keyOf mem table a := by
    refine keys a (Lib.mem_gathered.mpr ⟨j, ?_, member⟩)
    by_contra outside
    rw [beyond j (not_lt.mp outside)] at member
    exact absurd member List.not_mem_nil
  obtain ⟨moved, same⟩ := chained.congr members
  obtain ⟨keySmall, hash_lt⟩ := represents.proper
  obtain ⟨given, nodup, separate, apart⟩ := layout
  exact ⟨⟨⟨keySmall, hash_lt⟩, moved, rings, beyond, ⟨given, nodup, separate, apart⟩, size⟩, funext same⟩

theorem validate (represents : Represents mem table buckets) (inside : i < table.maxKeys)
    (member : e ∈ table.entry i :: buckets i) : validateListEntry mem e = true :=
  validateListEntry_of_ring (represents.rings.ring i inside) member

theorem link_keys {elements : List Nat} (layout : Layout table (e :: elements)) {place : Nat}
    (back : place ∈ table.heads ++ (e :: elements)) (next : flink mem place ∈ table.heads ++ (e :: elements)) (a : Nat)
    (member : a ∈ e :: elements) : keyOf (insertedHead mem place e) table a = keyOf mem table a :=
  load_congr (insertedHead_agrees (layout.keys a member e (List.mem_append_right _ List.mem_cons_self))
    (layout.keys a member _ next) (layout.keys a member _ back))

theorem unlink_keys {elements : List Nat} (layout : Layout table elements)
    (next : flink mem e ∈ table.heads ++ elements) (back : blink mem e ∈ table.heads ++ elements) (a : Nat)
    (member : a ∈ elements) : keyOf (removed mem e) table a = keyOf mem table a :=
  load_congr (removed_agrees (layout.keys a member _ next) (layout.keys a member _ back))

theorem link (represents : Represents mem table buckets) (layout : Layout table (e :: gathered buckets table.maxKeys))
    (inside : i < table.maxKeys) (split : buckets i = front ++ rear) :
    insertHeadList mem (front.getLastD (table.entry i)) e =
        .ok (insertedHead mem (front.getLastD (table.entry i)) e) ∧
      Rings (flink (insertedHead mem (front.getLastD (table.entry i)) e))
        (blink (insertedHead mem (front.getLastD (table.entry i)) e)) table.maxKeys table.entry
        (update buckets i (front ++ e :: rear)) ∧
      forall a, a ∈ e :: gathered buckets table.maxKeys ->
        keyOf (insertedHead mem (front.getLastD (table.entry i)) e) table a = keyOf mem table a := by
  have within : front.getLastD (table.entry i) ∈ table.entry i :: buckets i := by
    rw [split]
    exact last_mem
  have next := (represents.rings.ring i inside).next_mem within
  have wider (node : Nat) (member : node ∈ table.heads ++ gathered buckets table.maxKeys) :
      node ∈ table.heads ++ (e :: gathered buckets table.maxKeys) := by
    rcases List.mem_append.mp member with first | second
    · exact List.mem_append_left _ first
    · exact List.mem_append_right _ (List.mem_cons_of_mem _ second)
  have seen (j : Nat) (bound : j < table.maxKeys) (node : Nat) (member : node ∈ table.entry j :: buckets j) :=
    wider node (represents.seen j bound node member)
  refine ⟨insertHeadList_eq (represents.validate inside within), ?_, ?_⟩
  · refine insertedHead_rings represents.rings inside split layout.separate
      (List.mem_append_right _ List.mem_cons_self) seen ?_
    intro j bound member
    have old := represents.seen j bound e member
    obtain ⟨_, second, across⟩ := List.nodup_append.mp layout.nodup
    rcases List.mem_append.mp old with first | linked
    · exact across e first e List.mem_cons_self rfl
    · exact (List.nodup_cons.mp second).1 linked
  · exact link_keys layout (seen i inside _ within) (seen i inside _ next)

theorem insert_missing (represents : Represents mem table buckets)
    (layout : Layout table (e :: gathered buckets table.maxKeys)) (inside : i < table.maxKeys)
    (hashed : table.hash (keyOf mem table e) = i) (split : buckets i = front ++ rear)
    (smaller : forall a, a ∈ front -> keyOf mem table a < keyOf mem table e)
    (larger : forall a, a ∈ rear -> keyOf mem table e < keyOf mem table a) :
    Represents (insertedHead mem (front.getLastD (table.entry i)) e) { table with numberOfElements := dword (table.numberOfElements + 1) }
        (update buckets i (front ++ e :: rear)) ∧
      contents (insertedHead mem (front.getLastD (table.entry i)) e) { table with numberOfElements := dword (table.numberOfElements + 1) }
          (update buckets i (front ++ e :: rear)) =
        update (contents mem table buckets) (keyOf mem table e) (some e) := by
  obtain ⟨_, rings, keys⟩ := represents.link layout inside split
  have all := @gathered_cons _ buckets _ _ inside front rear e
  rw [← split, Function.update_eq_self] at all
  refine represents.set inside (represents.chained.insert split hashed smaller larger) rings
    (layout.subperm all.subperm) ?_ ?_
  · intro a member
    exact keys a (all.mem_iff.mp member)
  · rw [all.length_eq, List.length_cons, represents.size, dword, dword, dword, Nat.mod_add_mod]

theorem unlink {lists : Nat -> List Nat} {elements : List Nat} (rings : Rings (flink mem) (blink mem) table.maxKeys
      table.entry lists) (layout : Layout table elements) (inside : i < table.maxKeys)
    (split : lists i = front ++ e :: rear)
    (seen : forall j, j < table.maxKeys -> forall node, node ∈ table.entry j :: lists j ->
      node ∈ table.heads ++ elements) :
    (∃ empty, removeEntryList mem e = .ok (removed mem e, empty)) ∧
      Rings (flink (removed mem e)) (blink (removed mem e)) table.maxKeys table.entry
        (update lists i (front ++ rear)) ∧
      forall a, a ∈ elements -> keyOf (removed mem e) table a = keyOf mem table a := by
  have ring := rings.ring i inside
  have within : e ∈ table.entry i :: lists i := by
    rw [split]
    simp
  have next := ring.next_mem within
  have back : blink mem e ∈ table.entry i :: lists i := by
    rw [split] at ring ⊢
    rw [ring.back_node]
    exact last_mem
  exact ⟨⟨_, removeEntryList_eq (validateListEntry_of_ring ring within)⟩,
    removed_rings rings inside split layout.separate seen,
    unlink_keys layout (seen i inside _ next) (seen i inside _ back)⟩

theorem insert_found {old : Nat} (represents : Represents mem table buckets)
    (layout : Layout table (e :: gathered buckets table.maxKeys)) (inside : i < table.maxKeys)
    (split : buckets i = front ++ old :: rear) (same : keyOf mem table e = keyOf mem table old) :
    ∃ linked after empty, insertHeadList mem old e = .ok linked ∧ removeEntryList linked old = .ok (after, empty) ∧
      Represents after table (update buckets i (front ++ e :: rear)) ∧
      contents after table (update buckets i (front ++ e :: rear)) =
        update (contents mem table buckets) (keyOf mem table e) (some e) := by
  have turned : buckets i = (front ++ [old]) ++ rear := by
    rw [split, List.append_assoc]
    rfl
  have last : (front ++ [old]).getLastD (table.entry i) = old := by simp
  obtain ⟨inserted, rings, keys⟩ := represents.link layout inside turned
  rw [last] at inserted rings keys
  have both := List.append_assoc front [old] (e :: rear)
  rw [both] at rings
  have elements := @gathered_cons _ buckets _ _ inside front rear old
  rw [← split, Function.update_eq_self] at elements
  have seen (j : Nat) (bound : j < table.maxKeys) (node : Nat)
      (member : node ∈ table.entry j :: update buckets i (front ++ ([old] ++ e :: rear)) j) :
      node ∈ table.heads ++ (e :: gathered buckets table.maxKeys) := by
    have older (seen : node ∈ table.entry j :: buckets j) :
        node ∈ table.heads ++ (e :: gathered buckets table.maxKeys) := by
      rcases List.mem_append.mp (represents.seen j bound node seen) with first | second
      · exact List.mem_append_left _ first
      · exact List.mem_append_right _ (List.mem_cons_of_mem _ second)
    by_cases here : j = i
    · subst here
      rw [Function.update_self] at member
      by_cases new : node = e
      · rw [new]
        exact List.mem_append_right _ List.mem_cons_self
      · apply older
        rw [split]
        simp only [List.mem_cons, List.mem_append, List.not_mem_nil, or_false, new, false_or] at member ⊢
        tauto
    · rw [Function.update_of_ne here] at member
      exact older member
  obtain ⟨⟨empty, taken⟩, after_rings, after_keys⟩ := unlink rings layout inside
    (show update buckets i (front ++ ([old] ++ e :: rear)) i = front ++ old :: (e :: rear) by
      rw [Function.update_self]
      rfl) seen
  rw [Function.update_idem] at after_rings
  have all := @gathered_cons _ buckets _ _ inside front rear e
  have fewer : (gathered (update buckets i (front ++ e :: rear)) table.maxKeys).Subperm
      (e :: gathered buckets table.maxKeys) :=
    all.subperm.trans ((List.subperm_cons e).mpr
      ((List.sublist_cons_self old _).subperm.trans elements.symm.subperm))
  refine ⟨_, _, empty, inserted, taken, represents.set inside (represents.chained.replace split same) after_rings
    (layout.subperm fewer) ?_ ?_⟩
  · intro a member
    have within := List.Subperm.subset fewer member
    rw [after_keys a within, keys a within]
  · rw [represents.size, elements.length_eq, all.length_eq, List.length_cons, List.length_cons]

theorem bucket_inside (represents : Represents mem table buckets) (member : e ∈ buckets i) : i < table.maxKeys := by
  by_contra beyond
  rw [represents.beyond i (not_lt.mp beyond)] at member
  exact absurd member List.not_mem_nil

theorem remove (represents : Represents mem table buckets) (split : buckets i = front ++ e :: rear) :
    ∃ after count, hashTableRemoveEntry mem table e = .ok (after, { table with numberOfElements := count }) ∧
      Represents after { table with numberOfElements := count } (update buckets i (front ++ rear)) ∧
      contents after { table with numberOfElements := count } (update buckets i (front ++ rear)) =
        update (contents mem table buckets) (keyOf mem table e) none := by
  have member : e ∈ buckets i := by
    rw [split]
    exact List.mem_append_right _ List.mem_cons_self
  have inside := represents.bucket_inside member
  obtain ⟨⟨empty, taken⟩, rings, keys⟩ := unlink represents.rings represents.layout inside split represents.seen
  have elements := @gathered_cons _ buckets _ _ inside front rear e
  rw [← split, Function.update_eq_self] at elements
  have size := represents.size
  rw [elements.length_eq, List.length_cons] at size
  have given : (e != 0) = true := bne_iff_ne.mpr (represents.layout.given e (represents.mem_elements member)).1
  have fewer := (List.sublist_cons_self e _).subperm.trans elements.symm.subperm
  refine ⟨removed mem e, dword (table.numberOfElements + (2 ^ 32 - 1)), ?_, represents.set inside
    (represents.chained.remove split) rings (represents.layout.subperm fewer) ?_ ?_⟩
  · unfold hashTableRemoveEntry
    rw [given, assert_true, Kernel.ok_bind, taken, Kernel.ok_bind]
    rfl
  · intro a within
    exact keys a (List.Subperm.subset fewer within)
  · simp only [dword] at size ⊢
    omega

end Represents

end Hal9000.HashTable
