import Hal9000.CommonLib.HashTableMap
import Hal9000.Lib.Cursor

set_option autoImplicit false

namespace Hal9000.HashTable

open Function (update)
open Lib (Ring Rings gathered Cursor calls answers)
open LinkMemory

def openedLoop (mem : Lib.Memory) (table : HashTable) : (keys : Nat) -> HashIterator -> List Nat
  | 0, _ => []
  | keys + 1, it =>
    match listIteratorNext mem it with
    | (_, some _) => []
    | (it, none) => (it.keyIndex + 1) :: openedLoop mem table keys (iteratorAt mem table (it.keyIndex + 1))

-- A walk through a table, with the indices of the entries that it has opened.
structure Iteration where
  mem : Lib.Memory
  table : HashTable
  it : HashIterator
  opened : List Nat

def iterationInit (mem : Lib.Memory) (table : HashTable) : Iteration := ⟨mem, table, hashTableIteratorInit mem table, [0]⟩

def Iteration.opens (s : Iteration) : List Nat :=
  s.opened ++ openedLoop s.mem s.table (s.table.maxKeys - s.it.keyIndex) s.it

-- A call of HashTableIteratorNext, and whether the caller then removes the element.
def iterationNext (remove : Bool) (s : Iteration) : Kernel (Iteration × Option Nat) :=
  match hashTableIteratorNext s.mem s.table s.it with
  | (it, none) => pure (⟨s.mem, s.table, it, s.opens⟩, none)
  | (it, some element) =>
    if remove then do
      let (mem, table) <- hashTableRemoveEntry s.mem s.table element
      pure (⟨mem, table, it, s.opens⟩, some element)
    else pure (⟨s.mem, s.table, it, s.opens⟩, some element)

structure Linked (mem : Lib.Memory) (table : HashTable) (buckets : Nat -> List Nat) : Prop where
  some : 0 < table.maxKeys
  rings : Rings (flink mem) (blink mem) table.maxKeys table.entry buckets
  given : forall e, e ∈ gathered buckets table.maxKeys -> e ≠ 0
  separate : Separate Lib.Memory (table.heads ++ gathered buckets table.maxKeys)

def later (buckets : Nat -> List Nat) (count i : Nat) : List Nat := (List.range' (i + 1) (count - (i + 1))).flatMap buckets

variable {mem : Lib.Memory} {table : HashTable} {buckets : Nat -> List Nat} {i keys count e : Nat}
  {front rest values : List Nat}

theorem later_step (more : i + 1 < count) : later buckets count i = buckets (i + 1) ++ later buckets count (i + 1) := by
  have length : count - (i + 1) = (count - (i + 1 + 1)) + 1 := by omega
  rw [later, length, List.range'_succ, List.flatMap_cons]
  rfl

theorem later_last (last : i + 1 = count) : later buckets count i = [] := by
  rw [later, last, Nat.sub_self, List.range'_zero, List.flatMap_nil]

theorem later_zero (some_ : 0 < count) : buckets 0 ++ later buckets count 0 = gathered buckets count := by
  obtain ⟨more, rfl⟩ := Nat.exists_eq_add_of_lt some_
  rw [gathered, later, List.range_eq_range', Nat.zero_add, List.range'_succ, List.flatMap_cons, Nat.zero_add, Nat.add_sub_cancel]

theorem later_update {bucket : List Nat} : later (update buckets i bucket) count i = later buckets count i := by
  refine List.flatMap_congr (fun j inside => ?_)
  rw [List.mem_range'_1] at inside
  rw [Function.update_of_ne (by omega)]

namespace Linked

theorem gathered_nodup (linked : Linked mem table buckets) : (gathered buckets table.maxKeys).Nodup := by
  refine List.nodup_flatMap.mpr ⟨fun j inside => ?_, ?_⟩
  next => exact (List.nodup_cons.mp (linked.rings.distinct j (List.mem_range.mp inside))).2
  next =>
    refine List.nodup_range.pairwise_of_forall_ne (fun j first k second other => ?_)
    intro node here there
    exact linked.rings.apart j k (List.mem_range.mp first) (List.mem_range.mp second) other node
      (List.mem_cons_of_mem _ here) (List.mem_cons_of_mem _ there)

theorem node_listed (j : Nat) (inside : j < table.maxKeys) (node : Nat)
    (member : node ∈ table.entry j :: buckets j) : node ∈ table.heads ++ gathered buckets table.maxKeys := by
  rcases List.mem_cons.mp member with rfl | within
  · exact List.mem_append_left _ (head_mem inside)
  · exact List.mem_append_right _ (Lib.mem_gathered.mpr ⟨j, inside, within⟩)

theorem iteratorNext_some (linked : Linked mem table buckets) (inside : i < table.maxKeys) (split : buckets i = front ++ e :: rest) :
    listIteratorNext mem ⟨i, table.entry i, e⟩ = (⟨i, table.entry i, rest.headD (table.entry i)⟩, .some e) := by
  have ring := linked.rings.ring i inside
  have other : e ≠ table.entry i := by
    rintro rfl
    refine (List.nodup_cons.mp (linked.rings.distinct i inside)).1 ?_
    rw [split]
    exact List.mem_append_right _ List.mem_cons_self
  rw [split] at ring
  rw [listIteratorNext, if_pos other, ring.next_node]

theorem iteratorNext_none : listIteratorNext mem ⟨i, table.entry i, table.entry i⟩ = (⟨i, table.entry i, table.entry i⟩, none) := by
  rw [listIteratorNext, if_neg (not_not.mpr rfl)]

theorem iteratorAt_eq (linked : Linked mem table buckets) (inside : i < table.maxKeys) :
    iteratorAt mem table i = ⟨i, table.entry i, (buckets i).headD (table.entry i)⟩ := by
  rw [iteratorAt, (linked.rings.ring i inside).next_head]

theorem next_some (linked : Linked mem table buckets) (inside : i < table.maxKeys) (left : i + keys = table.maxKeys)
    (split : buckets i = front ++ rest) (some_ : rest ++ later buckets table.maxKeys i = e :: values) :
    ∃ j front' rest', j < table.maxKeys ∧ buckets j = front' ++ e :: rest' ∧ values = rest' ++ later buckets table.maxKeys j ∧
      iteratorNextLoop mem table keys ⟨i, table.entry i, rest.headD (table.entry i)⟩ =
        (⟨j, table.entry j, rest'.headD (table.entry j)⟩, .some e) ∧
      forall index, index ∈ openedLoop mem table keys ⟨i, table.entry i, rest.headD (table.entry i)⟩ -> index < table.maxKeys := by
  induction keys generalizing i front rest with
  | zero => omega
  | succ keys ih =>
    cases rest with
    | cons first rest =>
      rw [List.cons_append, List.cons.injEq] at some_
      obtain ⟨rfl, rfl⟩ := some_
      have taken := linked.iteratorNext_some inside split
      refine ⟨i, front, rest, inside, split, rfl, ?_, ?_⟩
      · simp only [iteratorNextLoop, List.headD_cons, taken]
      · simp only [openedLoop, List.headD_cons, taken, List.not_mem_nil, false_implies, implies_true]
    | nil =>
      rw [List.nil_append] at some_
      by_cases more : i + 1 < table.maxKeys
      next =>
        rw [later_step more] at some_
        obtain ⟨j, front', rest', bound, found, behind, taken, opened⟩ := @ih (i + 1) [] (buckets (i + 1)) more (by omega) rfl some_
        refine ⟨j, front', rest', bound, found, behind, ?_, ?_⟩
        · simp only [iteratorNextLoop, List.headD_nil, iteratorNext_none, linked.iteratorAt_eq more, taken]
        · simp only [openedLoop, List.headD_nil, iteratorNext_none, linked.iteratorAt_eq more, List.forall_mem_cons]
          exact ⟨more, opened⟩
      next =>
        rw [later_last (by omega)] at some_
        cases some_

theorem next_none (linked : Linked mem table buckets) (inside : i < table.maxKeys) (left : i + keys = table.maxKeys)
    (split : buckets i = front ++ rest) (none_ : rest ++ later buckets table.maxKeys i = []) :
    ∃ it : HashIterator, it.keyIndex = table.maxKeys ∧
      iteratorNextLoop mem table keys ⟨i, table.entry i, rest.headD (table.entry i)⟩ = (it, none) ∧
      table.maxKeys ∈ openedLoop mem table keys ⟨i, table.entry i, rest.headD (table.entry i)⟩ := by
  obtain ⟨rfl, empty⟩ := List.append_eq_nil_iff.mp none_
  clear none_
  induction keys generalizing i front with
  | zero => omega
  | succ keys ih =>
    by_cases more : i + 1 < table.maxKeys
    next =>
      rw [later_step more] at empty
      obtain ⟨nothing, empty⟩ := List.append_eq_nil_iff.mp empty
      obtain ⟨it, index, taken, opened⟩ := @ih (i + 1) [] more (by omega) empty nothing
      have here := linked.iteratorAt_eq more
      rw [nothing] at here
      refine ⟨it, index, ?_, ?_⟩
      · simp only [iteratorNextLoop, List.headD_nil, iteratorNext_none, here] at taken ⊢
        exact taken
      · simp only [openedLoop, List.headD_nil, iteratorNext_none, here] at opened ⊢
        exact List.mem_cons_of_mem _ opened
    next =>
      obtain rfl : keys = 0 := by omega
      have last : i + 1 = table.maxKeys := by omega
      refine ⟨iteratorAt mem table (i + 1), last, ?_, ?_⟩
      · simp only [iteratorNextLoop, List.headD_nil, iteratorNext_none]
      · simp only [openedLoop, List.headD_nil, iteratorNext_none, last, List.mem_singleton]

theorem remove (linked : Linked mem table buckets) (inside : i < table.maxKeys) (split : buckets i = front ++ e :: rest) :
    ∃ after number, hashTableRemoveEntry mem table e = .ok (after, { table with numberOfElements := number }) ∧
      Linked after { table with numberOfElements := number } (update buckets i (front ++ rest)) := by
  have member : e ∈ buckets i := by
    rw [split]
    exact List.mem_append_right _ List.mem_cons_self
  have listed : e ∈ gathered buckets table.maxKeys := Lib.mem_gathered.mpr ⟨i, inside, member⟩
  have valid := validateListEntry_of_ring (linked.rings.ring i inside) (List.mem_cons_of_mem _ member)
  have given : (e != 0) = true := bne_iff_ne.mpr (linked.given e listed)
  have elements := @Lib.gathered_cons _ buckets _ _ inside front rest e
  rw [← split, Function.update_eq_self] at elements
  have fewer (a : Nat) (kept : a ∈ gathered (update buckets i (front ++ rest)) table.maxKeys) :
      a ∈ gathered buckets table.maxKeys := elements.mem_iff.mpr (List.mem_cons_of_mem _ kept)
  obtain ⟨number, count⟩ : ∃ number, dword (table.numberOfElements + (2 ^ 32 - 1)) = number := ⟨_, rfl⟩
  refine ⟨removed mem e, number, ?_, linked.some, removed_rings linked.rings inside split linked.separate node_listed,
    fun a kept => linked.given a (fewer a kept), linked.separate.subset (fun a kept => ?_)⟩
  · unfold hashTableRemoveEntry
    rw [given, assert_true, Kernel.ok_bind, removeEntryList_eq valid, Kernel.ok_bind, count]
    rfl
  · rcases List.mem_append.mp kept with first | second
    · exact List.mem_append_left _ first
    · exact List.mem_append_right _ (fewer a second)

end Linked

variable {s : Iteration} {maxKeys : Nat}

def Left (maxKeys : Nat) (s : Iteration) (values : List Nat) : Prop :=
  ∃ buckets i front rest, Linked s.mem s.table buckets ∧ s.table.maxKeys = maxKeys ∧ i < maxKeys ∧
    buckets i = front ++ rest ∧ s.it = ⟨i, s.table.entry i, rest.headD (s.table.entry i)⟩ ∧
    values = rest ++ later buckets maxKeys i ∧ forall index, index ∈ s.opened -> index < maxKeys

def Ended (maxKeys : Nat) (s : Iteration) : Prop :=
  s.table.maxKeys = maxKeys ∧ s.it.keyIndex = maxKeys ∧ maxKeys ∈ s.opened

theorem iterationInit_left (linked : Linked mem table buckets) :
    Left table.maxKeys (iterationInit mem table) (gathered buckets table.maxKeys) := by
  refine ⟨buckets, 0, [], buckets 0, linked, rfl, linked.some, rfl, linked.iteratorAt_eq linked.some,
    (later_zero linked.some).symm, ?_⟩
  simp only [iterationInit, List.mem_singleton, forall_eq]
  exact linked.some

theorem iterationNext_none_eq {remove : Bool} {it : HashIterator}
    (given : hashTableIteratorNext s.mem s.table s.it = (it, none)) :
    iterationNext remove s = .ok (⟨s.mem, s.table, it, s.opens⟩, none) := by
  simp only [iterationNext, given]
  rfl

theorem iterationNext_keep {it : HashIterator} (given : hashTableIteratorNext s.mem s.table s.it = (it, some e)) :
    iterationNext false s = .ok (⟨s.mem, s.table, it, s.opens⟩, some e) := by
  simp only [iterationNext, given, Bool.false_eq_true, if_false]
  rfl

theorem iterationNext_remove {it : HashIterator} {after : Lib.Memory} {kept : HashTable}
    (given : hashTableIteratorNext s.mem s.table s.it = (it, some e))
    (taken : hashTableRemoveEntry s.mem s.table e = .ok (after, kept)) :
    iterationNext true s = .ok (⟨after, kept, it, s.opens⟩, some e) := by
  simp only [iterationNext, given, if_true, taken, Kernel.ok_bind]
  rfl

theorem iterationNext_some {remove : Bool} (left : Left maxKeys s (e :: values)) :
    ∃ s', iterationNext remove s = .ok (s', some e) ∧ Left maxKeys s' values := by
  obtain ⟨buckets, i, front, rest, linked, rfl, inside, split, place, behind, opened⟩ := left
  obtain ⟨j, front', rest', bound, found, further, taken, within⟩ :=
    @Linked.next_some _ _ _ i (s.table.maxKeys - i) e front rest values linked inside (by omega) split behind.symm
  have given : hashTableIteratorNext s.mem s.table s.it = (⟨j, s.table.entry j, rest'.headD (s.table.entry j)⟩, some e) := by
    rw [hashTableIteratorNext, place]
    exact taken
  have all (index : Nat) (either : index ∈ s.opens) : index < s.table.maxKeys := by
    rw [Iteration.opens, place] at either
    exact (List.mem_append.mp either).elim (opened index) (within index)
  cases remove with
  | false =>
    refine ⟨_, iterationNext_keep given, buckets, j, front' ++ [e], rest', linked, rfl, bound, ?_, rfl, further, all⟩
    rw [found, List.append_assoc]
    rfl
  | true =>
    obtain ⟨after, number, removed_, linked⟩ := linked.remove bound found
    refine ⟨_, iterationNext_remove given removed_, update buckets j (front' ++ rest'), j, front', rest', linked, rfl, bound,
      Function.update_self .., rfl, ?_, all⟩
    rw [later_update]
    exact further

theorem iterationNext_none {remove : Bool} (left : Left maxKeys s []) :
    ∃ s', iterationNext remove s = .ok (s', none) ∧ Ended maxKeys s' := by
  obtain ⟨buckets, i, front, rest, linked, rfl, inside, split, place, behind, _⟩ := left
  obtain ⟨it, index, taken, opened⟩ :=
    @Linked.next_none _ _ _ i (s.table.maxKeys - i) front rest linked inside (by omega) split behind.symm
  have given : hashTableIteratorNext s.mem s.table s.it = (it, none) := by
    rw [hashTableIteratorNext, place]
    exact taken
  refine ⟨_, iterationNext_none_eq given, rfl, index, List.mem_append_right _ ?_⟩
  rw [place]
  exact opened

theorem iterationNext_ended {remove : Bool} (ended : Ended maxKeys s) :
    ∃ s', iterationNext remove s = .ok (s', none) ∧ Ended maxKeys s' := by
  obtain ⟨same, index, opened⟩ := ended
  have given : hashTableIteratorNext s.mem s.table s.it = (s.it, none) := by
    rw [hashTableIteratorNext, same, index, Nat.sub_self]
    rfl
  exact ⟨_, iterationNext_none_eq given, same, index, List.mem_append_left _ opened⟩

theorem iteration_cursor (maxKeys : Nat) : Cursor (fun _ => True) iterationNext id (Left maxKeys) (Ended maxKeys) :=
  ⟨fun _ _ _ _ _ left => iterationNext_some left, fun _ _ _ left => iterationNext_none left,
    fun _ _ _ ended => iterationNext_ended ended⟩

theorem iteration_exact_iff (linked : Linked mem table buckets) (removals : List Bool) :
    (gathered buckets table.maxKeys).Nodup ∧
    ∃ after, calls iterationNext removals (iterationInit mem table) =
        .ok (after, answers id (gathered buckets table.maxKeys) removals.length) ∧
      ((forall index, index ∈ after.opened -> index < table.maxKeys) ↔
        removals.length ≤ (gathered buckets table.maxKeys).length) := by
  obtain ⟨after, run, left, ended⟩ := (iteration_cursor table.maxKeys).run removals (fun _ _ => trivial)
    (iterationInit_left linked)
  refine ⟨linked.gathered_nodup, after, run, ?_⟩
  constructor
  next =>
    intro inside
    by_contra more
    exact Nat.lt_irrefl _ (inside _ (ended (Nat.lt_of_not_le more)).2.2)
  next =>
    intro fewer
    obtain ⟨_, _, _, _, _, _, _, _, _, _, opened⟩ := left fewer
    exact opened

def sampleTable : HashTable := { maxKeys := 3, keySize := 8, numberOfElements := 3, offsetToKey := 16, tableData := 0x1000 }

def sampleHeads : Lib.Memory :=
  initializeListHead (initializeListHead (initializeListHead (fun _ => 0) 0x1000) 0x1010) 0x1020

def sampleMemory : Lib.Memory :=
  insertedHead (insertedHead (insertedHead sampleHeads 0x1000 0x3000) 0x1000 0x2000) 0x1020 0x4000

def sampleBuckets : (i : Nat) -> List Nat
  | 0 => [0x2000, 0x3000]
  | 2 => [0x4000]
  | _ => []

theorem sample_linked : Linked sampleMemory sampleTable sampleBuckets := by
  have elements : sampleTable.heads ++ gathered sampleBuckets sampleTable.maxKeys =
      [0x1000, 0x1010, 0x1020, 0x2000, 0x3000, 0x4000] := by decide
  have three {i : Nat} (inside : i < sampleTable.maxKeys) : i = 0 ∨ i = 1 ∨ i = 2 := by
    change i < 3 at inside
    omega
  refine ⟨by decide, ⟨?_, ?_, ?_⟩, ?_, ?_⟩
  · intro i inside
    rcases three inside with rfl | rfl | rfl
    · exact ⟨by decide +kernel, by decide +kernel, by decide +kernel, by decide +kernel, by decide +kernel, by decide +kernel⟩
    · exact ⟨by decide +kernel, by decide +kernel⟩
    · exact ⟨by decide +kernel, by decide +kernel, by decide +kernel, by decide +kernel⟩
  · intro i inside
    rcases three inside with rfl | rfl | rfl <;> decide
  · intro i j first second
    rcases three first with rfl | rfl | rfl <;> rcases three second with rfl | rfl | rfl <;> decide
  · decide
  · rw [elements]
    constructor
    · simp only [List.mem_cons, List.not_mem_nil, or_false, LinkMemory.Apart]
      omega
    · simp [Holds]

theorem iteration_exact_sample :
    ∃ after, calls iterationNext [true, false, true, false] (iterationInit sampleMemory sampleTable) =
        .ok (after, [some 0x2000, some 0x3000, some 0x4000, none]) ∧
      ¬ forall index, index ∈ after.opened -> index < sampleTable.maxKeys := by
  obtain ⟨_, after, run, inside⟩ := iteration_exact_iff sample_linked [true, false, true, false]
  exact ⟨after, run, fun all => absurd (inside.mp all) (by decide)⟩

theorem iteration_opens_behind :
    (calls iterationNext [false, false, false, false] (iterationInit sampleMemory sampleTable)).map
        (fun end_ => (end_.1.opened, end_.2)) =
      .ok ([0, 1, 2, sampleTable.maxKeys], [some 0x2000, some 0x3000, some 0x4000, none]) := by
  decide +kernel

end Hal9000.HashTable
