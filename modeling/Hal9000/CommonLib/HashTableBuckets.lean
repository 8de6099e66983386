import Hal9000.CommonLib.HashTable
import Hal9000.Lib.Buckets
import Mathlib.Data.List.Perm.Subperm
import Mathlib.Tactic.Ring

set_option autoImplicit false

namespace Hal9000.HashTable

open Function (update)
open Lib (Ring Rings Chained chainedFind gathered)
open Lib.Memory (Agrees load_congr load_lt)
open LinkMemory

section Order

variable {mem : Lib.Memory} {ptr1 ptr2 : Nat}

theorem load_succ_top (mem : Lib.Memory) (count address : Nat) :
    mem.load (count + 1) address = mem.load count address + 256 ^ count * (mem (address + count)).toNat := by
  induction count generalizing address with
  | zero =>
    simp only [Lib.Memory.load, Nat.mul_zero, Nat.add_zero, Nat.zero_add, pow_zero, Nat.one_mul]
  | succ count ih =>
    rw [Lib.Memory.load, ih, Lib.Memory.load]
    have place : address + 1 + count = address + (count + 1) := by omega
    rw [place, pow_succ]
    ring

theorem rmemcmpLoop_sign (mem : Lib.Memory) (ptr1 ptr2 count : Nat) :
    (rmemcmpLoop mem ptr1 ptr2 count < 0 ↔ mem.load count ptr1 < mem.load count ptr2) ∧
      (0 < rmemcmpLoop mem ptr1 ptr2 count ↔ mem.load count ptr2 < mem.load count ptr1) := by
  induction count with
  | zero => simp [rmemcmpLoop, Lib.Memory.load]
  | succ count ih =>
    have low1 := load_lt mem count ptr1
    have low2 := load_lt mem count ptr2
    rw [rmemcmpLoop, load_succ_top, load_succ_top]
    by_cases same : mem (ptr1 + count) = mem (ptr2 + count)
    · rw [if_neg (not_not.mpr same), same, Nat.add_lt_add_iff_right, Nat.add_lt_add_iff_right]
      exact ih
    · rw [if_pos same]
      have distinct : (mem (ptr1 + count)).toNat ≠ (mem (ptr2 + count)).toNat :=
        fun equal => same (UInt8.toNat_inj.mp equal)
      generalize (mem (ptr1 + count)).toNat = top1 at distinct ⊢
      generalize (mem (ptr2 + count)).toNat = top2 at distinct ⊢
      have decided {a b x y : Nat} (low : a < 256 ^ count) (less : x < y) :
          a + 256 ^ count * x < b + 256 ^ count * y := by
        calc a + 256 ^ count * x < 256 ^ count * (x + 1) := by
              rw [Nat.mul_succ]
              omega
          _ ≤ 256 ^ count * y := Nat.mul_le_mul_left _ less
          _ ≤ b + 256 ^ count * y := Nat.le_add_left _ _
      rcases Nat.lt_or_gt_of_ne distinct with less | greater
      · have order := @decided _ (mem.load count ptr2) _ _ low1 less
        constructor
        · exact iff_of_true (by omega) order
        · exact iff_of_false (by omega) (by omega)
      · have order := @decided _ (mem.load count ptr1) _ _ low2 greater
        constructor
        · exact iff_of_false (by omega) (by omega)
        · exact iff_of_true (by omega) order

-- On keys of at least one byte rmemcmp is the order of the little-endian numbers.
theorem rmemcmp_sign {size : Nat} (first : ptr1 ≠ 0) (second : ptr2 ≠ 0) (some : 0 < size) (small : size < 2 ^ 32) :
    (rmemcmp mem ptr1 ptr2 size < 0 ↔ mem.load size ptr1 < mem.load size ptr2) ∧
      (0 < rmemcmp mem ptr1 ptr2 size ↔ mem.load size ptr2 < mem.load size ptr1) := by
  have bytes : dword (size + (2 ^ 32 - 1)) + 1 = size := by
    simp only [dword]
    omega
  rw [rmemcmp, if_neg (by tauto), bytes]
  exact rmemcmpLoop_sign mem ptr1 ptr2 size

end Order

def keyOf (mem : Lib.Memory) (table : HashTable) (element : Nat) : Nat :=
  mem.load table.keySize (table.obtainKeyAddress element)

def hash (table : HashTable) (key : Nat) : Nat := table.hashFunc key table.keySize table.maxKeys

section Search

variable {mem : Lib.Memory} {table : HashTable} {head key k : Nat} {nodes : List Nat}

inductive Position (keyOf : Nat -> Nat) (head k : Nat) (nodes : List Nat) : Bool -> Nat -> Prop where
  | found (front rear : List Nat) (e : Nat) (split : nodes = front ++ e :: rear) (here : keyOf e = k) :
      Position keyOf head k nodes true e
  | missing (front rear : List Nat) (split : nodes = front ++ rear) (smaller : forall a, a ∈ front -> keyOf a < k)
      (larger : forall a, a ∈ rear -> k < keyOf a) : Position keyOf head k nodes false (front.getLastD head)

structure Searchable (mem : Lib.Memory) (table : HashTable) (head key k : Nat) (nodes : List Nat) : Prop where
  ring : Ring (flink mem) (blink mem) head nodes
  outside : head ∉ nodes
  sorted : nodes.Pairwise fun a b => keyOf mem table a < keyOf mem table b
  compares : forall e, e ∈ nodes ->
    (rmemcmp mem (table.obtainKeyAddress e) key table.keySize < 0 ↔ keyOf mem table e < k) ∧
      (0 < rmemcmp mem (table.obtainKeyAddress e) key table.keySize ↔ k < keyOf mem table e)

inductive LoopEnds (mem : Lib.Memory) (table : HashTable) (head k : Nat) (nodes : List Nat) :
    Option Nat × SearchCtx -> Prop where
  | found (front rear : List Nat) (e : Nat) (split : nodes = front ++ e :: rear) (here : keyOf mem table e = k) :
      LoopEnds mem table head k nodes (some e, { placeholderEntry := e, result := 0 })
  | passed (front rear : List Nat) (e : Nat) (result : Int) (split : nodes = front ++ e :: rear)
      (smaller : forall a, a ∈ front -> keyOf mem table a < k) (larger : k < keyOf mem table e)
      (positive : 0 < result) : LoopEnds mem table head k nodes (none, { placeholderEntry := e, result := result })
  | exhausted (result : Int) (smaller : forall a, a ∈ nodes -> keyOf mem table a < k) (low : result ≤ 0) :
      LoopEnds mem table head k nodes (none, { placeholderEntry := nodes.getLastD head, result := result })

theorem search_loop (searchable : Searchable mem table head key k nodes) {front rest : List Nat} {fuel : Nat}
    {result : Int} (split : nodes = front ++ rest) (smaller : forall a, a ∈ front -> keyOf mem table a < k)
    (low : result ≤ 0) (enough : rest.length < fuel) :
    ∃ outcome, listSearchLoop mem table head key fuel (rest.headD head)
      { placeholderEntry := front.getLastD head, result := result } = .ok outcome ∧
        LoopEnds mem table head k nodes outcome := by
  induction rest generalizing front fuel result with
  | nil =>
    cases fuel with
    | zero => exact absurd enough (Nat.not_lt_zero _)
    | succ fuel =>
      rw [List.append_nil] at split
      subst split
      refine ⟨_, ?_, .exhausted result smaller low⟩
      rw [listSearchLoop, List.headD_nil, if_pos rfl]
      rfl
  | cons e rest ih =>
    cases fuel with
    | zero => exact absurd enough (Nat.not_lt_zero _)
    | succ fuel =>
      have member : e ∈ nodes := by
        rw [split]
        exact List.mem_append_right _ List.mem_cons_self
      have other : e ≠ head := fun same => searchable.outside (same ▸ member)
      obtain ⟨below, above⟩ := searchable.compares e member
      obtain ⟨compared, equal⟩ : ∃ compared, rmemcmp mem (table.obtainKeyAddress e) key table.keySize = compared :=
        ⟨_, rfl⟩
      rw [equal] at below above
      have ctx : searchElem mem table e key = { placeholderEntry := e, result := compared } := by
        rw [searchElem, equal]
      rw [listSearchLoop, List.headD_cons, if_neg other]
      simp only [ctx]
      by_cases zero : compared = 0
      · rw [if_pos zero, zero]
        exact ⟨_, rfl, .found front rest e split (by omega)⟩
      · rw [if_neg zero]
        by_cases positive : compared > 0
        · rw [if_pos positive]
          exact ⟨_, rfl, .passed front rest e compared split smaller (above.mp positive) positive⟩
        · rw [if_neg positive]
          have next : flink mem e = rest.headD head := by
            have ring := searchable.ring
            rw [split] at ring
            exact ring.next_node
          have moved : (front ++ [e]).getLastD head = e := by simp
          rw [next, ← moved]
          refine @ih (front ++ [e]) fuel compared ?_ ?_ (by omega) ?_
          · rw [split, List.append_assoc]
            rfl
          · intro a inside
            rcases List.mem_append.mp inside with early | last
            · exact smaller a early
            · rw [List.mem_singleton.mp last]
              exact below.mp (by omega)
          · simp only [List.length_cons] at enough
            omega

theorem searchKeyInBucket_eq (searchable : Searchable mem table head key k nodes) (given : key ≠ 0) {fuel : Nat}
    (enough : nodes.length < fuel) :
    ∃ found place, searchKeyInBucket fuel mem table head key = .ok (found, place) ∧
      Position (keyOf mem table) head k nodes found place := by
  obtain ⟨⟨result, ctx⟩, searched, ends⟩ := @search_loop _ _ _ _ _ _ searchable [] nodes fuel 0 rfl (by simp)
    (le_refl _) enough
  rw [← searchable.ring.next_head] at searched
  have valid := validateListEntry_of_ring searchable.ring List.mem_cons_self
  have some : (key != 0) = true := bne_iff_ne.mpr given
  have listed : listSearchForElement fuel mem table head key { placeholderEntry := head, result := 0 } =
      .ok (result, ctx) := by
    rw [listSearchForElement, valid]
    exact searched
  unfold searchKeyInBucket
  rw [some, assert_true, Kernel.ok_bind, listed, Kernel.ok_bind]
  cases ends with
  | found front rear e split here =>
    refine ⟨true, e, ?_, .found front rear e split here⟩
    simp [pure, Except.pure, bind, Except.bind]
  | passed front rear e result split smaller larger positive =>
    have back : blink mem e = front.getLastD head := by
      have ring := searchable.ring
      rw [split] at ring
      exact ring.back_node
    refine ⟨false, front.getLastD head, ?_, .missing front (e :: rear) split smaller ?_⟩
    · simp [pure, Except.pure, bind, Except.bind, positive, back]
    · have sorted := searchable.sorted
      rw [split] at sorted
      have order := (List.pairwise_cons.mp (List.pairwise_append.mp sorted).2.1).1
      intro a inside
      rcases List.mem_cons.mp inside with rfl | later
      · exact larger
      · exact lt_trans larger (order a later)
  | exhausted result smaller low =>
    refine ⟨false, nodes.getLastD head, ?_, .missing nodes [] (List.append_nil _).symm smaller (by simp)⟩
    simp [pure, Except.pure, bind, Except.bind, low]

end Search

structure Proper (table : HashTable) : Prop where
  keySmall : table.keySize < 2 ^ 32
  hash_lt : forall k, k < 256 ^ table.keySize -> table.hash k < table.maxKeys

def heads (table : HashTable) : List Nat := (List.range table.maxKeys).map table.entry

structure Layout (table : HashTable) (elements : List Nat) : Prop where
  given : forall e, e ∈ elements -> e ≠ 0 ∧ table.obtainKeyAddress e ≠ 0
  nodup : (table.heads ++ elements).Nodup
  separate : Separate Lib.Memory (table.heads ++ elements)
  keys : forall e, e ∈ elements -> forall link, link ∈ table.heads ++ elements ->
    Off (table.obtainKeyAddress e) table.keySize link

structure Represents (mem : Lib.Memory) (table : HashTable) (buckets : Nat -> List Nat) : Prop where
  proper : Proper table
  chained : Chained (keyOf mem table) table.hash buckets
  rings : Rings (flink mem) (blink mem) table.maxKeys table.entry buckets
  beyond : forall i, table.maxKeys ≤ i -> buckets i = []
  layout : Layout table (gathered buckets table.maxKeys)
  size : table.numberOfElements = dword (gathered buckets table.maxKeys).length

def contents (mem : Lib.Memory) (table : HashTable) (buckets : Nat -> List Nat) : Nat -> Option Nat :=
  chainedFind (keyOf mem table) table.hash buckets

section Layouts

variable {table : HashTable} {elements : List Nat} {e : Nat}

theorem Layout.subperm (layout : Layout table elements) {fewer : List Nat} (sub : fewer.Subperm elements) :
    Layout table fewer := by
  have inside (node : Nat) (member : node ∈ table.heads ++ fewer) : node ∈ table.heads ++ elements := by
    rcases List.mem_append.mp member with first | second
    · exact List.mem_append_left _ first
    · exact List.mem_append_right _ (List.Subperm.subset sub second)
  refine ⟨fun e member => layout.given e (List.Subperm.subset sub member), ?_, layout.separate.subset inside, ?_⟩
  · obtain ⟨first, second, across⟩ := List.nodup_append.mp layout.nodup
    refine List.nodup_append.mpr ⟨first, ?_, ?_⟩
    · obtain ⟨middle, perm, sublist⟩ := sub
      exact perm.nodup_iff.mp (second.sublist sublist)
    · intro a left b right
      exact across a left b (List.Subperm.subset sub right)
  · intro e member link seen
    exact layout.keys e (List.Subperm.subset sub member) link (inside link seen)

theorem head_mem {i : Nat} (inside : i < table.maxKeys) : table.entry i ∈ table.heads :=
  List.mem_map_of_mem (List.mem_range.mpr inside)

end Layouts

namespace Represents

variable {mem after : Lib.Memory} {table : HashTable} {buckets : Nat -> List Nat} {i k e key fuel : Nat}

theorem mem_elements (represents : Represents mem table buckets) (member : e ∈ buckets i) :
    e ∈ gathered buckets table.maxKeys := by
  refine Lib.mem_gathered.mpr ⟨i, ?_, member⟩
  by_contra beyond
  rw [represents.beyond i (not_lt.mp beyond)] at member
  exact absurd member List.not_mem_nil

theorem seen (represents : Represents mem table buckets) (j : Nat) (inside : j < table.maxKeys) (node : Nat)
    (member : node ∈ table.entry j :: buckets j) :
    node ∈ table.heads ++ gathered buckets table.maxKeys := by
  rcases List.mem_cons.mp member with rfl | within
  · exact List.mem_append_left _ (head_mem inside)
  · exact List.mem_append_right _ (represents.mem_elements within)

theorem key_lt (mem : Lib.Memory) (table : HashTable) (e : Nat) : keyOf mem table e < 256 ^ table.keySize :=
  load_lt _ _ _

theorem searchable (represents : Represents mem table buckets) (keyed : 0 < table.keySize) (inside : i < table.maxKeys)
    (given : key ≠ 0) (read : mem.load table.keySize key = k) :
    Searchable mem table (table.entry i) key k (buckets i) := by
  refine ⟨represents.rings.ring i inside, ?_, represents.chained.sorted i, ?_⟩
  · exact (List.nodup_cons.mp (represents.rings.distinct i inside)).1
  · intro e member
    have address := (represents.layout.given e (represents.mem_elements member)).2
    rw [← read]
    exact rmemcmp_sign address given keyed represents.proper.keySmall

theorem search (represents : Represents mem table buckets) (keyed : 0 < table.keySize) (given : key ≠ 0)
    (read : mem.load table.keySize key = k) (enough : forall j, (buckets j).length < fuel) :
    ∃ found place, searchKeyInBucket fuel mem table (table.entry (table.hash k)) key = .ok (found, place) ∧
      Position (keyOf mem table) (table.entry (table.hash k)) k (buckets (table.hash k)) found place ∧
      contents mem table buckets k = if found then some place else none := by
  have bound : k < 256 ^ table.keySize := read ▸ load_lt _ _ _
  have inside := represents.proper.hash_lt k bound
  obtain ⟨found, place, result, position⟩ := searchKeyInBucket_eq (represents.searchable keyed inside given read) given
    (enough (table.hash k))
  refine ⟨found, place, result, position, ?_⟩
  cases position with
  | found front rear e split here =>
    rw [if_pos rfl]
    refine represents.chained.find_eq_some.mpr ⟨?_, here⟩
    rw [split]
    exact List.mem_append_right _ List.mem_cons_self
  | missing front rear split smaller larger =>
    rw [if_neg (by decide)]
    cases present : contents mem table buckets k with
    | none => rfl
    | some e =>
      obtain ⟨member, here⟩ := represents.chained.find_eq_some.mp present
      rw [split] at member
      rcases List.mem_append.mp member with early | late
      · exact absurd here (ne_of_lt (smaller e early))
      · exact absurd here (ne_of_gt (larger e late))

theorem hashOf_eq (read : mem.load table.keySize key = k) : table.hashOf mem key = table.hash k := by
  rw [hashOf, hash, read]

theorem lookup (represents : Represents mem table buckets) (keyed : 0 < table.keySize) (given : key ≠ 0)
    (read : mem.load table.keySize key = k) (enough : forall j, (buckets j).length < fuel) :
    hashTableLookup fuel mem table key = .ok (contents mem table buckets k) := by
  obtain ⟨found, place, result, _, contents_eq⟩ := represents.search keyed given read enough
  have some : (key != 0) = true := bne_iff_ne.mpr given
  unfold hashTableLookup
  rw [some, assert_true, Kernel.ok_bind, hashOf_eq read, contents_eq]
  dsimp only
  rw [result]
  rfl

end Represents

end Hal9000.HashTable
