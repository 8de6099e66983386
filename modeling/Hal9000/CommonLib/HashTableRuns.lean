import Hal9000.CommonLib.HashTableIterator
import Hal9000.Lib.Transition

set_option autoImplicit false

namespace Hal9000.HashTable

open Function (update)
open Lib (Ring Rings Chained chainedFind gathered TransitionSystem)
open LinkMemory

inductive Operation where
  | insert (element : Nat)
  | lookup (key : Nat)
  | remove (key : Nat)
  | removeEntry (element : Nat)
  | clear (freeFunction : Option (Lib.Memory -> Nat -> Lib.Memory))

structure Answer where
  element : Option Nat := none
  freed : List Nat := []
  deriving DecidableEq

def call (fuel : Nat) (mem : Lib.Memory) (table : HashTable) : Operation -> Kernel (Lib.Memory × HashTable × Answer)
  | .insert element => do
    let (mem, table, old) <- hashTableInsert fuel mem table element
    pure (mem, table, { element := old })
  | .lookup key => do
    let found <- hashTableLookup fuel mem table key
    pure (mem, table, { element := found })
  | .remove key => do
    let (mem, table, old) <- hashTableRemove fuel mem table key
    pure (mem, table, { element := old })
  | .removeEntry element => do
    let (mem, table) <- hashTableRemoveEntry mem table element
    pure (mem, table, {})
  | .clear freeFunction => do
    let (mem, table, freed) <- hashTableClear fuel mem table freeFunction
    pure (mem, table, { freed := freed })

structure Session where
  mem : Lib.Memory
  table : HashTable
  map : Nat -> Option Nat

def Session.Has (s : Session) (element : Nat) : Prop := ∃ k, s.map k = some element

def Session.Lists (s : Session) (elements : List Nat) : Prop :=
  elements.Nodup ∧ forall e, e ∈ elements ↔ s.Has e

structure Keeps (table : HashTable) (members : Nat -> Prop) (mem after : Lib.Memory) : Prop where
  heads : forall i, i < table.maxKeys ->
    flink after (table.entry i) = flink mem (table.entry i) ∧ blink after (table.entry i) = blink mem (table.entry i)
  links : forall e, members e -> flink after e = flink mem e ∧ blink after e = blink mem e
  keys : forall e, members e -> keyOf after table e = keyOf mem table e

-- What the callers owe: a new element lies apart from the others, an element to remove is in the table, and
-- freeing one leaves the others alone.
def Session.Allowed (s : Session) : Operation -> Prop
  | .insert element => ∃ elements, s.Lists elements ∧ Layout s.table (element :: elements)
  | .lookup key => key ≠ 0
  | .remove key => key ≠ 0
  | .removeEntry element => s.Has element
  | .clear freeFunction => forall free, freeFunction = some free -> forall mem e, s.Has e ->
      Keeps s.table (fun a => s.Has a ∧ a ≠ e) mem (free mem e)

def Session.mapped (s : Session) : Operation -> Nat -> Option Nat
  | .insert element => update s.map (keyOf s.mem s.table element) (some element)
  | .lookup _ => s.map
  | .remove key => update s.map (s.mem.load s.table.keySize key) none
  | .removeEntry element => update s.map (keyOf s.mem s.table element) none
  | .clear _ => fun _ => none

def Session.Answers (s : Session) (answer : Answer) : Operation -> Prop
  | .insert element => answer = { element := s.map (keyOf s.mem s.table element) }
  | .lookup key => answer = { element := s.map (s.mem.load s.table.keySize key) }
  | .remove key => answer = { element := s.map (s.mem.load s.table.keySize key) }
  | .removeEntry _ => answer = {}
  | .clear freeFunction => answer.element = none ∧
      if freeFunction.isSome then s.Lists answer.freed else answer.freed = []

def Session.Returns (s : Session) (operation : Operation) (mem : Lib.Memory) (table : HashTable) (answer : Answer) : Prop :=
  ∃ enough, forall fuel, enough ≤ fuel -> call fuel s.mem s.table operation = .ok (mem, table, answer)

-- A table from HashTablePreinit and HashTableInit, with a hash function that stays below MaxKeys.
structure Session.Made (s : Session) : Prop where
  made : ∃ fresh size before, hashTablePreinit s.table.maxKeys s.table.keySize = .ok (fresh, size) ∧
    hashTableInit before fresh s.table.tableData s.table.hashFunc s.table.offsetToKey = .ok (s.mem, s.table)
  proper : Proper s.table
  inside : s.table.tableData + sizeofHashEntry * s.table.maxKeys ≤ 2 ^ 64
  empty : s.map = fun _ => none

inductive Event where
  | call (operation : Operation)
  | write (mem : Lib.Memory)

def sessions : TransitionSystem Session Event where
  initial := Session.Made
  step s event after := match event with
    | .call operation => s.Allowed operation ∧ after.map = s.mapped operation ∧
        ∃ answer, s.Returns operation after.mem after.table answer
    | .write mem => Keeps s.table s.Has s.mem mem ∧ after = { s with mem := mem }

def Session.Keyed (s : Session) : Prop := 0 < s.table.keySize

structure Session.Standing (s : Session) (buckets : Nat -> List Nat) : Prop where
  placed : forall i e, e ∈ buckets i ↔ s.map (keyOf s.mem s.table e) = some e ∧ s.table.hash (keyOf s.mem s.table e) = i
  keyed : forall k e, s.map k = some e -> keyOf s.mem s.table e = k
  rings : forall i, i < s.table.maxKeys -> Ring (flink s.mem) (blink s.mem) (s.table.entry i) (buckets i)
  ordered : s.Keyed -> forall i, (buckets i).Pairwise fun a b =>
    rmemcmp s.mem (s.table.obtainKeyAddress a) (s.table.obtainKeyAddress b) s.table.keySize < 0
  counted : ∃ elements, s.Lists elements ∧ s.table.numberOfElements = dword elements.length

theorem Position.key_iff {keys : Nat -> Nat} {head k place : Nat} {nodes : List Nat} {found : Bool}
    (position : Position keys head k nodes found place) :
    if found then place ∈ nodes ∧ keys place = k
    else (forall a, a ∈ nodes -> keys a ≠ k) ∧ place = (nodes.filter (fun a => keys a < k)).getLastD head := by
  cases position with
  | found front rear e split here =>
    rw [if_pos rfl, split]
    exact ⟨List.mem_append_right _ List.mem_cons_self, here⟩
  | missing front rear split smaller larger =>
    rw [if_neg Bool.false_ne_true, split]
    constructor
    next =>
      intro a member
      rcases List.mem_append.mp member with early | late
      · exact Nat.ne_of_lt (smaller a early)
      · exact Nat.ne_of_gt (larger a late)
    next =>
      have kept : front.filter (fun a => keys a < k) = front :=
        List.filter_eq_self.mpr (fun a member => decide_eq_true (smaller a member))
      have dropped : rear.filter (fun a => keys a < k) = [] :=
        List.filter_eq_nil_iff.mpr (fun a member below => Nat.lt_asymm (larger a member) (of_decide_eq_true below))
      rw [List.filter_append, kept, dropped, List.append_nil]

theorem Position.unique {keys : Nat -> Nat} {head k place place' : Nat} {nodes : List Nat} {found found' : Bool}
    (distinct : forall a b, a ∈ nodes -> b ∈ nodes -> keys a = keys b -> a = b)
    (one : Position keys head k nodes found place) (other : Position keys head k nodes found' place') :
    (found', place') = (found, place) := by
  have first := one.key_iff
  have second := other.key_iff
  cases found <;> cases found'
  case false.false => rw [second.2, first.2]
  case false.true => exact absurd second.2 (first.1 place' second.1)
  case true.false => exact absurd first.2 (second.1 place first.1)
  case true.true => rw [distinct place' place second.1 first.1 (second.2.trans first.2.symm)]

namespace Represents

variable {mem after : Lib.Memory} {table : HashTable} {buckets : Nat -> List Nat} {i k e key fuel : Nat}
  {front rest values : List Nat}

theorem contents_some (represents : Represents mem table buckets) :
    contents mem table buckets k = some e ↔ keyOf mem table e = k ∧ ∃ i, e ∈ buckets i :=
  represents.chained.find_key_iff

theorem has_iff (represents : Represents mem table buckets) :
    (∃ k, contents mem table buckets k = some e) ↔ ∃ i, e ∈ buckets i := by
  constructor
  next =>
    rintro ⟨k, found⟩
    exact (represents.contents_some.mp found).2
  next =>
    intro member
    exact ⟨_, represents.contents_some.mpr ⟨rfl, member⟩⟩

theorem gathered_iff (represents : Represents mem table buckets) :
    e ∈ gathered buckets table.maxKeys ↔ ∃ i, e ∈ buckets i := by
  constructor
  next =>
    intro member
    obtain ⟨i, _, inside⟩ := Lib.mem_gathered.mp member
    exact ⟨i, inside⟩
  next =>
    rintro ⟨i, member⟩
    exact represents.mem_elements member

theorem gathered_nodup (represents : Represents mem table buckets) : (gathered buckets table.maxKeys).Nodup :=
  (List.nodup_append.mp represents.layout.nodup).2.1

theorem some_keys (represents : Represents mem table buckets) : 0 < table.maxKeys :=
  Nat.lt_of_le_of_lt (Nat.zero_le _) (represents.proper.hash_lt 0 (Nat.pow_pos (by decide)))

theorem linked (represents : Represents mem table buckets) : Linked mem table buckets :=
  ⟨represents.some_keys, represents.rings, fun e member => (represents.layout.given e member).1, represents.layout.separate⟩

theorem keeps (represents : Represents mem table buckets) {members : Nat -> Prop}
    (kept : Keeps table members mem after) (inside : forall i e, e ∈ buckets i -> members e) :
    Represents after table buckets ∧ contents after table buckets = contents mem table buckets := by
  obtain ⟨chained, same⟩ := represents.chained.congr (fun i e member => kept.keys e (inside i e member))
  have links (i : Nat) (bound : i < table.maxKeys) (node : Nat) (member : node ∈ table.entry i :: buckets i) :
      flink after node = flink mem node ∧ blink after node = blink mem node := by
    rcases List.mem_cons.mp member with rfl | within
    · exact kept.heads i bound
    · exact kept.links node (inside i node within)
  refine ⟨{ represents with chained := chained, rings := ⟨?_, represents.rings.distinct, represents.rings.apart⟩ },
    funext same⟩
  intro i bound
  refine (represents.rings.ring i bound).congr (fun node member => (links i bound node member).1) ?_
  intro node member
  refine (links i bound node ?_).2
  simp only [List.mem_append, List.mem_cons] at member ⊢
  tauto

theorem empty_of_none (represents : Represents mem table buckets) (nothing : gathered buckets table.maxKeys = []) :
    buckets = fun _ => [] := by
  funext i
  refine List.eq_nil_iff_forall_not_mem.mpr (fun e member => ?_)
  exact List.not_mem_nil (nothing ▸ represents.mem_elements member)

theorem clearLoop_eq {members : Nat -> Prop} {free : Option (Lib.Memory -> Nat -> Lib.Memory)}
    (spares : forall f, free = some f -> forall mem e, members e ->
      Keeps table (fun a => members a ∧ a ≠ e) mem (f mem e))
    (represents : Represents mem table buckets) (within : forall j a, a ∈ buckets j -> members a)
    (inside : i < table.maxKeys) (split : buckets i = front ++ rest) (left : rest ++ later buckets table.maxKeys i = values)
    (all : (gathered buckets table.maxKeys).length = values.length) :
    ∃ after, (forall fuel, values.length < fuel ->
        clearLoop free fuel mem table ⟨i, table.entry i, rest.headD (table.entry i)⟩ =
          .ok (after, { table with numberOfElements := 0 }, if free.isSome then values else [])) ∧
      Represents after { table with numberOfElements := 0 } (fun _ => []) := by
  induction values generalizing mem table buckets i front rest with
  | nil =>
    obtain ⟨it, _, taken, _⟩ := @Linked.next_none _ _ _ i (table.maxKeys - i) front rest represents.linked inside (by omega)
      split left
    have given : hashTableIteratorNext mem table ⟨i, table.entry i, rest.headD (table.entry i)⟩ = (it, none) := taken
    have nothing : gathered buckets table.maxKeys = [] := List.length_eq_zero_iff.mp all
    have none_ : table.numberOfElements = 0 := by
      rw [represents.size, nothing]
      rfl
    have same : { table with numberOfElements := 0 } = table := by
      rw [← none_]
    refine ⟨mem, fun fuel enough => ?_, ?_⟩
    · obtain ⟨fuel, rfl⟩ := Nat.exists_eq_succ_of_ne_zero (Nat.ne_of_gt enough)
      rw [clearLoop, given, same, ite_self]
      rfl
    · rw [same, ← represents.empty_of_none nothing]
      exact represents
  | cons e values ih =>
    obtain ⟨j, front', rest', bound, found, further, taken, _⟩ :=
      @Linked.next_some _ _ _ i (table.maxKeys - i) e front rest values represents.linked inside (by omega) split left
    have given : hashTableIteratorNext mem table ⟨i, table.entry i, rest.headD (table.entry i)⟩ =
        (⟨j, table.entry j, rest'.headD (table.entry j)⟩, some e) := taken
    obtain ⟨after, count, removed_, kept, _⟩ := represents.remove found
    have member : e ∈ buckets j := by
      rw [found]
      exact List.mem_append_right _ List.mem_cons_self
    have behind : rest' ++ later (update buckets j (front' ++ rest')) table.maxKeys j = values := by
      rw [later_update]
      exact further.symm
    have before := @Lib.gathered_cons _ buckets _ _ bound front' rest' e
    rw [← found, Function.update_eq_self] at before
    have fewer : (gathered (update buckets j (front' ++ rest')) table.maxKeys).length = values.length := by
      rw [before.length_eq, List.length_cons, List.length_cons] at all
      exact Nat.succ.inj all
    have others (k a : Nat) (there : a ∈ update buckets j (front' ++ rest') k) : members a ∧ a ≠ e := by
      have now := kept.gathered_iff.mpr ⟨k, there⟩
      have fresh := (List.nodup_cons.mp (before.nodup_iff.mp represents.gathered_nodup)).1
      obtain ⟨k', there'⟩ := represents.gathered_iff.mp (before.mem_iff.mpr (List.mem_cons_of_mem _ now))
      exact ⟨within k' a there', fun same => fresh (same ▸ now)⟩
    cases free with
    | none =>
      obtain ⟨final, run, cleared⟩ := @ih after { table with numberOfElements := count } _ j front' rest'
        (fun f same => by cases same) kept (fun k a there => (others k a there).1) bound (Function.update_self ..) behind fewer
      refine ⟨final, fun fuel enough => ?_, cleared⟩
      obtain ⟨fuel, rfl⟩ := Nat.exists_eq_succ_of_ne_zero (Nat.ne_of_gt (Nat.zero_lt_of_lt enough))
      rw [clearLoop, given]
      dsimp only
      rw [removed_, Kernel.ok_bind]
      exact run fuel (Nat.lt_of_succ_lt_succ enough)
    | some f =>
      have spared := spares f rfl after e (within j e member)
      have apart : Keeps { table with numberOfElements := count } (fun a => members a ∧ a ≠ e) after (f after e) :=
        ⟨spared.heads, spared.links, spared.keys⟩
      obtain ⟨kept, _⟩ := kept.keeps apart others
      obtain ⟨final, run, cleared⟩ := @ih (f after e) { table with numberOfElements := count } _ j front' rest'
        (fun g same mem a there => ⟨(spares g same mem a there).heads, (spares g same mem a there).links,
          (spares g same mem a there).keys⟩)
        kept (fun k a there => (others k a there).1) bound (Function.update_self ..) behind fewer
      refine ⟨final, fun fuel enough => ?_, cleared⟩
      obtain ⟨fuel, rfl⟩ := Nat.exists_eq_succ_of_ne_zero (Nat.ne_of_gt (Nat.zero_lt_of_lt enough))
      have rest_ : clearLoop (some f) fuel (f after e) { table with numberOfElements := count }
          ⟨j, table.entry j, rest'.headD (table.entry j)⟩ = _ := run fuel (Nat.lt_of_succ_lt_succ enough)
      rw [clearLoop, given]
      dsimp only
      rw [removed_, Kernel.ok_bind]
      dsimp only
      rw [rest_]
      rfl

theorem clear {members : Nat -> Prop} {free : Option (Lib.Memory -> Nat -> Lib.Memory)}
    (spares : forall f, free = some f -> forall mem e, members e ->
      Keeps table (fun a => members a ∧ a ≠ e) mem (f mem e))
    (represents : Represents mem table buckets) (within : forall j a, a ∈ buckets j -> members a) :
    ∃ after, (forall fuel, (gathered buckets table.maxKeys).length < fuel ->
        hashTableClear fuel mem table free = .ok (after, { table with numberOfElements := 0 },
          if free.isSome then gathered buckets table.maxKeys else [])) ∧
      Represents after { table with numberOfElements := 0 } (fun _ => []) := by
  have start : hashTableIteratorInit mem table = ⟨0, table.entry 0, (buckets 0).headD (table.entry 0)⟩ :=
    represents.linked.iteratorAt_eq represents.some_keys
  obtain ⟨after, run, cleared⟩ := clearLoop_eq spares represents within represents.some_keys (List.nil_append _).symm
    (later_zero represents.some_keys) rfl
  refine ⟨after, fun fuel enough => ?_, cleared⟩
  rw [hashTableClear, start]
  exact run fuel enough

theorem bucket_short (represents : Represents mem table buckets) (enough : (gathered buckets table.maxKeys).length < fuel)
    (j : Nat) : (buckets j).length < fuel := by
  by_cases inside : j < table.maxKeys
  next =>
    obtain ⟨first, second, changed⟩ := @Lib.gathered_update _ buckets _ _ inside
    have whole := changed (buckets j)
    rw [Function.update_eq_self] at whole
    rw [whole, List.length_append, List.length_append] at enough
    omega
  next =>
    rw [represents.beyond j (Nat.le_of_not_lt inside), List.length_nil]
    omega

theorem insert (represents : Represents mem table buckets) (keyed : 0 < table.keySize)
    (layout : Layout table (e :: gathered buckets table.maxKeys)) :
    ∃ after table' buckets', (forall fuel, (gathered buckets table.maxKeys).length < fuel ->
        hashTableInsert fuel mem table e = .ok (after, table', contents mem table buckets (keyOf mem table e))) ∧
      Represents after table' buckets' ∧
      contents after table' buckets' = update (contents mem table buckets) (keyOf mem table e) (some e) := by
  obtain ⟨nonNull, address⟩ := layout.given e List.mem_cons_self
  have inside := represents.proper.hash_lt _ (key_lt mem table e)
  have read : mem.load table.keySize (table.obtainKeyAddress e) = keyOf mem table e := rfl
  have searched (fuel : Nat) (enough : (gathered buckets table.maxKeys).length < fuel) :=
    @search _ _ _ _ _ fuel represents keyed address read (represents.bucket_short enough)
  obtain ⟨found, place, _, position, answer⟩ := searched _ (Nat.lt_succ_self _)
  have search (fuel : Nat) (enough : (gathered buckets table.maxKeys).length < fuel) :
      searchKeyInBucket fuel mem table (table.entry (table.hash (keyOf mem table e))) (table.obtainKeyAddress e) =
        .ok (found, place) := by
    obtain ⟨found', place', result, position', answer'⟩ := searched fuel enough
    rw [result, position.unique (fun a b first second => represents.chained.key_injective first second) position']
  rw [answer]
  cases position with
  | found front rear old split here =>
    obtain ⟨linked, after, empty, inserted, taken, kept, changed⟩ := represents.insert_found layout inside split here.symm
    exact ⟨after, table, _, fun fuel enough => hashTableInsert_found nonNull rfl inside (search fuel enough) inserted taken,
      kept, changed⟩
  | missing front rear split smaller larger =>
    obtain ⟨kept, changed⟩ := represents.insert_missing layout inside rfl split smaller larger
    have inserted := (represents.link layout inside split).1
    exact ⟨_, _, _, fun fuel enough => hashTableInsert_missing nonNull rfl inside (search fuel enough) inserted,
      kept, changed⟩

theorem remove_key (represents : Represents mem table buckets) (keyed : 0 < table.keySize) (given : key ≠ 0)
    (read : mem.load table.keySize key = k) :
    ∃ after table' buckets', (forall fuel, (gathered buckets table.maxKeys).length < fuel ->
        hashTableRemove fuel mem table key = .ok (after, table', contents mem table buckets k)) ∧
      Represents after table' buckets' ∧ contents after table' buckets' = update (contents mem table buckets) k none := by
  have some_ : (key != 0) = true := bne_iff_ne.mpr given
  have looked (fuel : Nat) (enough : (gathered buckets table.maxKeys).length < fuel) :=
    represents.lookup keyed given read (represents.bucket_short enough)
  cases answer : contents mem table buckets k with
  | none =>
    refine ⟨mem, table, buckets, fun fuel enough => ?_, represents, ?_⟩
    · rw [hashTableRemove, some_, assert_true, Kernel.ok_bind, looked fuel enough, answer]
      rfl
    · rw [← answer, Function.update_eq_self]
  | some e =>
    obtain ⟨here, i, member⟩ := represents.contents_some.mp answer
    obtain ⟨front, rear, split⟩ := List.append_of_mem member
    obtain ⟨after, _, taken, kept, changed⟩ := represents.remove split
    rw [here] at changed
    refine ⟨after, _, _, fun fuel enough => ?_, kept, changed⟩
    rw [hashTableRemove, some_, assert_true, Kernel.ok_bind, looked fuel enough, answer, Kernel.ok_bind]
    dsimp only
    rw [taken]
    rfl

end Represents

section Init

variable {mem : Lib.Memory} {table : HashTable}

theorem entry_apart {i j : Nat} (other : i ≠ j) : LinkMemory.Apart Lib.Memory (table.entry i) (table.entry j) := by
  change table.tableData + 16 * i + 16 ≤ table.tableData + 16 * j ∨ table.tableData + 16 * j + 16 ≤ table.tableData + 16 * i
  omega

theorem entry_holds (inside : table.tableData + sizeofHashEntry * table.maxKeys ≤ 2 ^ 64) {i : Nat}
    (bound : i < table.maxKeys) : Holds Lib.Memory (table.entry i) := by
  change table.tableData + 16 * table.maxKeys ≤ 2 ^ 64 at inside
  change table.tableData + 16 * i < 256 ^ 8
  omega

theorem heads_layout (inside : table.tableData + sizeofHashEntry * table.maxKeys ≤ 2 ^ 64) : Layout table [] := by
  have member (node : Nat) (there : node ∈ table.heads ++ []) : ∃ i, i < table.maxKeys ∧ table.entry i = node := by
    rw [List.append_nil, heads, List.mem_map] at there
    obtain ⟨i, range, rfl⟩ := there
    exact ⟨i, List.mem_range.mp range, rfl⟩
  refine ⟨fun e none_ => absurd none_ List.not_mem_nil, ?_, ⟨?_, ?_⟩, fun e none_ => absurd none_ List.not_mem_nil⟩
  · rw [List.append_nil]
    refine List.Nodup.map ?_ List.nodup_range
    intro i j same
    change table.tableData + 16 * i = table.tableData + 16 * j at same
    omega
  · intro one other first second different
    obtain ⟨i, _, rfl⟩ := member one first
    obtain ⟨j, _, rfl⟩ := member other second
    exact entry_apart (fun same => different (same ▸ rfl))
  · intro node there
    obtain ⟨i, bound, rfl⟩ := member node there
    exact entry_holds inside bound

theorem initializeEntries_links (inside : table.tableData + sizeofHashEntry * table.maxKeys ≤ 2 ^ 64) {count : Nat}
    (most : count ≤ table.maxKeys) {i : Nat} (bound : i < count) :
    flink (initializeEntries mem table count) (table.entry i) = table.entry i ∧
      blink (initializeEntries mem table count) (table.entry i) = table.entry i := by
  induction count with
  | zero => exact absurd bound (Nat.not_lt_zero _)
  | succ count ih =>
    have holds := entry_holds inside most
    rw [initializeEntries, initializeListHead]
    by_cases last : i = count
    next =>
      subst last
      exact ⟨LinkMemory.flink_setFlink holds, (LinkMemory.blink_setFlink (.inl rfl)).trans (LinkMemory.blink_setBlink holds)⟩
    next =>
      have apart := @entry_apart table count i (Ne.symm last)
      obtain ⟨next_, back⟩ := ih (Nat.le_of_lt most) (by omega)
      constructor
      · rw [LinkMemory.flink_setFlink_apart apart, LinkMemory.flink_setBlink (.inr apart), next_]
      · rw [LinkMemory.blink_setFlink (.inr apart), LinkMemory.blink_setBlink_apart apart, back]

theorem Session.Made.represents {s : Session} (start : s.Made) :
    Represents s.mem s.table (fun _ => []) ∧ contents s.mem s.table (fun _ => []) = s.map := by
  obtain ⟨fresh, size, before, preinit, init⟩ := start.made
  obtain ⟨_, made⟩ := Kernel.assert_bind_eq_ok.mp preinit
  obtain ⟨rfl, _⟩ := Prod.mk.inj (Except.ok.inj made)
  obtain ⟨_, run⟩ := Kernel.assert_bind_eq_ok.mp init
  obtain ⟨memory, table⟩ := Prod.mk.inj (Except.ok.inj run)
  have nothing : gathered (fun _ => ([] : List Nat)) s.table.maxKeys = [] := by
    rw [gathered, List.flatMap_eq_nil_iff]
    exact fun _ _ => rfl
  have none_ : s.table.numberOfElements = 0 := by
    rw [← table]
  have links (i : Nat) (bound : i < s.table.maxKeys) := @initializeEntries_links before s.table start.inside _ le_rfl i bound
  rw [table] at memory
  rw [memory] at links
  have layout := heads_layout start.inside
  refine ⟨⟨start.proper, ⟨fun i e none_ => absurd none_ List.not_mem_nil, fun _ => List.Pairwise.nil⟩, ⟨links, ?_, ?_⟩,
    fun _ _ => rfl, ?_, ?_⟩, ?_⟩
  · exact fun i _ => List.nodup_singleton _
  · intro i j first second other node one two
    rw [List.mem_singleton] at one two
    have apart := @entry_apart s.table i j other
    rw [← one, ← two] at apart
    change node + 16 ≤ node ∨ node + 16 ≤ node at apart
    omega
  · rw [nothing]
    exact layout
  · rw [none_, nothing]
    rfl
  · rw [start.empty]
    rfl

end Init

def Session.Refines (s : Session) (buckets : Nat -> List Nat) : Prop :=
  Represents s.mem s.table buckets ∧ contents s.mem s.table buckets = s.map

namespace Session.Refines

variable {s after : Session} {buckets : Nat -> List Nat} {operation : Operation}

theorem has_iff (refines : s.Refines buckets) {e : Nat} : s.Has e ↔ ∃ i, e ∈ buckets i := by
  rw [Session.Has, ← refines.2]
  exact refines.1.has_iff

theorem lists (refines : s.Refines buckets) : s.Lists (gathered buckets s.table.maxKeys) :=
  ⟨refines.1.gathered_nodup, fun _ => refines.1.gathered_iff.trans refines.has_iff.symm⟩

theorem perm (refines : s.Refines buckets) {elements : List Nat} (lists : s.Lists elements) :
    elements.Perm (gathered buckets s.table.maxKeys) :=
  (List.perm_ext_iff_of_nodup lists.1 refines.lists.1).mpr (fun e => (lists.2 e).trans (refines.lists.2 e).symm)

theorem operate (refines : s.Refines buckets) (keyed : s.Keyed) (allowed : s.Allowed operation) :
    ∃ mem table answer buckets', s.Returns operation mem table answer ∧ s.Answers answer operation ∧
      Session.Refines ⟨mem, table, s.mapped operation⟩ buckets' := by
  obtain ⟨represents, same⟩ := refines
  cases operation with
  | insert element =>
    obtain ⟨elements, lists, layout⟩ := allowed
    have perm := Session.Refines.perm ⟨represents, same⟩ lists
    have fits := layout.subperm ((perm.symm.cons element).subperm)
    obtain ⟨mem, table, buckets', run, kept, changed⟩ := represents.insert keyed fits
    rw [same] at changed
    refine ⟨mem, table, _, buckets', ⟨(gathered buckets s.table.maxKeys).length + 1, fun fuel enough => ?_⟩, rfl, kept, changed⟩
    rw [call, run fuel enough, same]
    rfl
  | lookup key =>
    refine ⟨s.mem, s.table, _, buckets, ⟨(gathered buckets s.table.maxKeys).length + 1, fun fuel enough => ?_⟩, rfl, represents, same⟩
    rw [call, @Represents.lookup _ _ _ _ _ fuel represents keyed allowed rfl (represents.bucket_short enough), same]
    rfl
  | remove key =>
    obtain ⟨mem, table, buckets', run, kept, changed⟩ := represents.remove_key keyed allowed rfl
    rw [same] at changed
    refine ⟨mem, table, _, buckets', ⟨(gathered buckets s.table.maxKeys).length + 1, fun fuel enough => ?_⟩, rfl, kept, changed⟩
    rw [call, run fuel enough, same]
    rfl
  | removeEntry element =>
    obtain ⟨i, member⟩ := (Session.Refines.has_iff ⟨represents, same⟩).mp allowed
    obtain ⟨front, rear, split⟩ := List.append_of_mem member
    obtain ⟨mem, _, run, kept, changed⟩ := represents.remove split
    rw [same] at changed
    refine ⟨mem, _, _, _, ⟨0, fun fuel _ => ?_⟩, rfl, kept, changed⟩
    rw [call, run]
    rfl
  | clear freeFunction =>
    have refines : s.Refines buckets := ⟨represents, same⟩
    obtain ⟨mem, run, cleared⟩ := represents.clear (fun f given mem e member => allowed f given mem e member)
      (fun j a member => refines.has_iff.mpr ⟨j, member⟩)
    refine ⟨mem, _, { freed := if freeFunction.isSome then gathered buckets s.table.maxKeys else [] }, _,
      ⟨(gathered buckets s.table.maxKeys).length + 1, fun fuel enough => ?_⟩, ⟨rfl, ?_⟩, cleared, rfl⟩
    · rw [call, run fuel enough]
      rfl
    · cases freeFunction with
      | none => rfl
      | some f => exact refines.lists

theorem write (refines : s.Refines buckets) {mem : Lib.Memory} (kept : Keeps s.table s.Has s.mem mem) :
    Session.Refines { s with mem := mem } buckets := by
  obtain ⟨represents, same⟩ := refines.1.keeps kept (fun i e member => refines.has_iff.mpr ⟨i, member⟩)
  exact ⟨represents, same.trans refines.2⟩

theorem step {event : Event} (refines : s.Refines buckets) (keyed : s.Keyed) (taken : sessions.step s event after) :
    ∃ buckets', after.Refines buckets' := by
  cases event with
  | call operation =>
    obtain ⟨allowed, mapped, answer, enough, run⟩ := taken
    obtain ⟨mem, table, answer', buckets', ⟨enough', run'⟩, _, kept⟩ := refines.operate keyed allowed
    have both := (run (max enough enough') (Nat.le_max_left _ _)).symm.trans
      (run' (max enough enough') (Nat.le_max_right _ _))
    obtain ⟨memory, others⟩ := Prod.mk.inj (Except.ok.inj both)
    obtain ⟨tables, _⟩ := Prod.mk.inj others
    rw [← memory, ← tables, ← mapped] at kept
    exact ⟨buckets', kept⟩
  | write mem =>
    obtain ⟨kept, rfl⟩ := taken
    exact ⟨buckets, refines.write kept⟩

theorem ordered (refines : s.Refines buckets) (keyed : s.Keyed) (i : Nat) : (buckets i).Pairwise fun a b =>
    rmemcmp s.mem (s.table.obtainKeyAddress a) (s.table.obtainKeyAddress b) s.table.keySize < 0 := by
  refine (refines.1.chained.sorted i).imp_of_mem (fun {a b} first second less => ?_)
  have address (e : Nat) (member : e ∈ buckets i) := (refines.1.layout.given e (refines.1.mem_elements member)).2
  exact (rmemcmp_sign (address a first) (address b second) keyed refines.1.proper.keySmall).1.mpr less

theorem standing (refines : s.Refines buckets) : s.Standing buckets := by
  have found (k e : Nat) := @Represents.contents_some s.mem s.table buckets k e refines.1
  rw [refines.2] at found
  refine ⟨fun i e => ?_, fun k e there => ((found k e).mp there).1, refines.1.rings.ring, refines.ordered,
    _, refines.lists, refines.1.size⟩
  constructor
  next =>
    intro member
    exact ⟨(found _ e).mpr ⟨rfl, i, member⟩, refines.1.chained.hashed i e member⟩
  next =>
    rintro ⟨there, here⟩
    obtain ⟨_, j, member⟩ := (found _ e).mp there
    rw [refines.1.chained.hashed j e member] at here
    exact here ▸ member

end Session.Refines

theorem sessions_refine {s : Session} (reached : sessions.ReachableUnder (fun s _ => s.Keyed) s) :
    ∃ buckets, s.Refines buckets := by
  induction reached with
  | start s made => exact ⟨_, made.represents⟩
  | next s event after _ keyed taken ih =>
    obtain ⟨buckets, refines⟩ := ih
    exact refines.step keyed taken

theorem hash_table_is_map {s : Session} (reached : sessions.ReachableUnder (fun s _ => s.Keyed) s) :
    (∃ buckets, s.Standing buckets) ∧ (s.Keyed -> forall operation, s.Allowed operation -> ∃ mem table answer,
      s.Returns operation mem table answer ∧ s.Answers answer operation ∧
        sessions.ReachableUnder (fun s _ => s.Keyed) ⟨mem, table, s.mapped operation⟩) := by
  obtain ⟨buckets, refines⟩ := sessions_refine reached
  refine ⟨⟨buckets, refines.standing⟩, fun keyed operation allowed => ?_⟩
  obtain ⟨mem, table, answer, _, returns, answers, _⟩ := refines.operate keyed allowed
  have taken : sessions.step s (.call operation) ⟨mem, table, s.mapped operation⟩ := ⟨allowed, rfl, answer, returns⟩
  exact ⟨mem, table, answer, returns, answers, .next _ _ _ reached keyed taken⟩

def pairTable (keySize : Nat) : HashTable :=
  { maxKeys := 2, keySize := keySize, offsetToKey := 16, hashFunc := fun key _ maxKeys => key % maxKeys,
    tableData := 0x1000 }

-- Zero but for the byte 4 GB behind the key of the element at 0x2000.
def pairMemory : Lib.Memory := fun place => if place = 0x2010 + 0xFFFFFFFF then 1 else 0

def pairSession (keySize : Nat) : Session :=
  ⟨initializeEntries pairMemory (pairTable keySize) 2, pairTable keySize, fun _ => none⟩

def pairLinked (keySize : Nat) : Session :=
  ⟨insertedHead (pairSession keySize).mem 0x1000 0x2000, { pairTable keySize with numberOfElements := 1 },
    update (fun _ => none) 0 (some 0x2000)⟩

theorem pairSession_made {keySize : Nat} (small : keySize < 2 ^ 32) : (pairSession keySize).Made :=
  ⟨⟨{ maxKeys := 2, keySize := keySize }, 2 * sizeofHashEntry, pairMemory, rfl, rfl⟩,
    ⟨small, fun k _ => Nat.mod_lt k Nat.two_pos⟩, (by decide : 0x1000 + 16 * 2 ≤ 2 ^ 64), rfl⟩

theorem pairTable_layout {keySize count : Nat} (short : keySize ≤ 1) :
    Layout { pairTable keySize with numberOfElements := count } [0x3000, 0x2000] := by
  have nodes : HashTable.heads { pairTable keySize with numberOfElements := count } ++ [0x3000, 0x2000] =
      [0x1000, 0x1010, 0x3000, 0x2000] := rfl
  refine ⟨?_, ?_, ⟨?_, ?_⟩, ?_⟩
  · simp [pairTable, obtainKeyAddress]
  · rw [nodes]
    decide
  · rw [nodes]
    simp only [List.mem_cons, List.not_mem_nil, or_false, LinkMemory.Apart]
    omega
  · rw [nodes]
    simp [Holds]
  · rw [nodes]
    simp [Off, pairTable, obtainKeyAddress]
    omega

theorem pairSession_returns {keySize : Nat} (short : keySize ≤ 1) :
    (pairSession keySize).Returns (.insert 0x2000) (pairLinked keySize).mem (pairLinked keySize).table {} := by
  have address : (pairTable keySize).obtainKeyAddress 0x2000 = 0x2010 := rfl
  have hashed : hashOf (pairSession keySize).mem (pairTable keySize) 0x2010 = 0 := by
    obtain rfl | rfl : keySize = 0 ∨ keySize = 1 := by omega
    next => decide +kernel
    next => decide +kernel
  have valid : validateListEntry (pairSession keySize).mem 0x1000 = true := by
    change validateListEntry (initializeEntries pairMemory (pairTable 0) 2) 0x1000 = true
    decide +kernel
  have empty : flink (pairSession keySize).mem 0x1000 = 0x1000 := by
    change flink (initializeEntries pairMemory (pairTable 0) 2) 0x1000 = 0x1000
    decide +kernel
  have searched (fuel : Nat) : searchKeyInBucket (fuel + 1) (pairSession keySize).mem (pairTable keySize)
      ((pairTable keySize).entry 0) 0x2010 = .ok (false, 0x1000) := by
    change searchKeyInBucket _ _ _ 0x1000 _ = _
    simp [searchKeyInBucket, listSearchForElement, valid, listSearchLoop, empty]
    rfl
  have inserted : insertHeadList (pairSession keySize).mem 0x1000 0x2000 = .ok (pairLinked keySize).mem :=
    insertHeadList_eq valid
  rw [← address] at hashed searched
  refine ⟨1, fun fuel enough => ?_⟩
  obtain ⟨fuel, rfl⟩ := Nat.exists_eq_add_of_le' enough
  have run := hashTableInsert_missing (by decide) hashed Nat.two_pos (searched fuel) inserted
  change call _ (pairSession keySize).mem (pairTable keySize) _ = _
  rw [call, run]
  rfl

theorem pairLinked_reached {keySize : Nat} {condition : Session -> Event -> Prop} (short : keySize ≤ 1)
    (met : condition (pairSession keySize) (.call (.insert 0x2000))) :
    sessions.ReachableUnder condition (pairLinked keySize) := by
  have small : keySize < 2 ^ 32 := Nat.lt_of_le_of_lt short (by decide)
  have allowed : (pairSession keySize).Allowed (.insert 0x2000) := by
    refine ⟨[], ⟨List.nodup_nil, fun e => ?_⟩, ?_⟩
    · simp [Session.Has, pairSession]
    · exact (@pairTable_layout keySize 0 short).subperm (by decide)
  have key : keyOf (pairSession keySize).mem (pairTable keySize) 0x2000 = 0 := by
    obtain rfl | rfl : keySize = 0 ∨ keySize = 1 := by omega
    next => decide +kernel
    next => decide +kernel
  have mapped : (pairLinked keySize).map = (pairSession keySize).mapped (.insert 0x2000) := by
    change update _ _ _ = update _ (keyOf (pairSession keySize).mem (pairTable keySize) 0x2000) _
    rw [key]
    rfl
  exact .next _ _ _ (.start _ (pairSession_made small)) met ⟨allowed, mapped, {}, pairSession_returns short⟩

theorem pairLinked_allowed {keySize : Nat} (short : keySize ≤ 1) : (pairLinked keySize).Allowed (.insert 0x3000) := by
  refine ⟨[0x2000], ⟨List.nodup_singleton _, fun e => ?_⟩, pairTable_layout short⟩
  rw [List.mem_singleton]
  constructor
  next =>
    rintro rfl
    exact ⟨0, rfl⟩
  next =>
    rintro ⟨k, there⟩
    by_cases zero : k = 0
    next =>
      subst zero
      exact (Option.some.inj there).symm
    next =>
      have other : update (fun _ => none) 0 (some 0x2000) k = (none : Option Nat) := Function.update_of_ne zero _ _
      cases other.symm.trans there

theorem hash_table_is_map_sample : ∃ mem table, (pairLinked 1).Returns (.insert 0x3000) mem table { element := some 0x2000 } ∧
    sessions.ReachableUnder (fun s _ => s.Keyed) ⟨mem, table, (pairLinked 1).mapped (.insert 0x3000)⟩ := by
  obtain ⟨mem, table, answer, returns, answers, reached⟩ :=
    (hash_table_is_map (pairLinked_reached (le_refl 1) Nat.one_pos)).2 Nat.one_pos _ (pairLinked_allowed (le_refl 1))
  have key : keyOf (pairLinked 1).mem (pairLinked 1).table 0x3000 = 0 := by decide +kernel
  change answer = { element := (pairLinked 1).map (keyOf (pairLinked 1).mem (pairLinked 1).table 0x3000) } at answers
  rw [key] at answers
  exact ⟨mem, table, answers ▸ returns, reached⟩

theorem rmemcmp_keyless {mem : Lib.Memory} {ptr1 ptr2 : Nat} (first : ptr1 ≠ 0) (second : ptr2 ≠ 0)
    (differ : mem (ptr1 + 0xFFFFFFFF) ≠ mem (ptr2 + 0xFFFFFFFF)) :
    rmemcmp mem ptr1 ptr2 0 = (mem (ptr1 + 0xFFFFFFFF)).toNat - (mem (ptr2 + 0xFFFFFFFF)).toNat := by
  have wrapped : dword (0 + (2 ^ 32 - 1)) = 0xFFFFFFFF := rfl
  rw [rmemcmp, if_neg (not_or.mpr ⟨first, second⟩), wrapped, rmemcmpLoop, if_pos differ]

theorem keyless_compared : rmemcmp (pairLinked 0).mem 0x2010 0x3010 0 = 1 := by
  have one : (pairLinked 0).mem (0x2010 + 0xFFFFFFFF) = 1 := by decide +kernel
  have zero : (pairLinked 0).mem (0x3010 + 0xFFFFFFFF) = 0 := by decide +kernel
  rw [rmemcmp_keyless (by decide) (by decide), one, zero]
  · decide
  · rw [one, zero]
    decide

-- With keys of no bytes the two elements have the same key, and the byte 4 GB behind it tells them apart.
theorem keyless_inserted_twice : sessions.Reachable (pairLinked 0) ∧ (pairLinked 0).Allowed (.insert 0x3000) ∧
    ∃ mem table, (pairLinked 0).Returns (.insert 0x3000) mem table {} ∧
      ¬ (pairLinked 0).Answers {} (.insert 0x3000) := by
  have address : (pairLinked 0).table.obtainKeyAddress 0x3000 = 0x3010 := rfl
  have key : keyOf (pairLinked 0).mem (pairLinked 0).table 0x3000 = 0 := by decide +kernel
  have hashed : hashOf (pairLinked 0).mem (pairLinked 0).table 0x3010 = 0 := by decide +kernel
  have valid : validateListEntry (pairLinked 0).mem 0x1000 = true := by decide +kernel
  have first : flink (pairLinked 0).mem 0x1000 = 0x2000 := by decide +kernel
  have back : blink (pairLinked 0).mem 0x2000 = 0x1000 := by decide +kernel
  have element : searchElem (pairLinked 0).mem (pairLinked 0).table 0x2000 0x3010 = ⟨0x2000, 1⟩ := by
    change SearchCtx.mk 0x2000 (rmemcmp (pairLinked 0).mem 0x2010 0x3010 0) = _
    rw [keyless_compared]
  have searched (fuel : Nat) : searchKeyInBucket (fuel + 1) (pairLinked 0).mem (pairLinked 0).table
      ((pairLinked 0).table.entry 0) 0x3010 = .ok (false, 0x1000) := by
    change searchKeyInBucket _ _ _ 0x1000 _ = _
    simp [searchKeyInBucket, listSearchForElement, valid, listSearchLoop, first, element, back, pure, Except.pure, bind,
      Except.bind]
  rw [← address] at hashed searched
  refine ⟨pairLinked_reached (Nat.zero_le 1) trivial, pairLinked_allowed (Nat.zero_le 1),
    insertedHead (pairLinked 0).mem 0x1000 0x3000, { pairTable 0 with numberOfElements := 2 },
    ⟨1, fun fuel enough => ?_⟩, ?_⟩
  · obtain ⟨fuel, rfl⟩ := Nat.exists_eq_add_of_le' enough
    rw [call, hashTableInsert_missing (by decide) hashed Nat.two_pos (searched fuel) (insertHeadList_eq valid)]
    rfl
  · change ¬ Answer.mk none [] = Answer.mk ((pairLinked 0).map (keyOf (pairLinked 0).mem (pairLinked 0).table 0x3000)) []
    rw [key]
    decide

end Hal9000.HashTable
