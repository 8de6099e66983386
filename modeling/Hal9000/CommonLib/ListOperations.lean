import Hal9000.CommonLib.ListEntry
import Hal9000.CommonLib.Strings
import Hal9000.Lib.Comparison

set_option autoImplicit false
set_option linter.unusedSectionVars false

namespace Hal9000.Lists

open LinkMemory
open Lib (Ring TotalPreorder Sorted insertOrdered)

variable {M A : Type} [LinkMemory M A] [DecidableEq A]

def removeHeadList (mem : M) (listHead : A) : Kernel (M × A) := do
  assert (validateListEntry mem listHead) "_ValidateListEntry(ListHead)"
  let entry := flink mem listHead
  let next := flink mem entry
  let mem := setFlink mem listHead next
  let mem := setBlink mem next listHead
  return (mem, entry)

def removeTailList (mem : M) (listHead : A) : Kernel (M × A) := do
  assert (validateListEntry mem listHead) "_ValidateListEntry(ListHead)"
  let entry := blink mem listHead
  let back := blink mem entry
  let mem := setBlink mem listHead back
  let mem := setFlink mem back listHead
  return (mem, entry)

-- The loop of InsertOrderedList; a CompareFunction with its Context is a function of two entries.
def orderedPlace (mem : M) (listHead entry : A) (compareFunction : A -> A -> Int) : (fuel : Nat) -> A -> Kernel A
  | 0, _ => .error "the loop has not ended"
  | fuel + 1, currentEntry =>
    if currentEntry = listHead then pure currentEntry
    else if compareFunction entry currentEntry < 0 then pure currentEntry
    else orderedPlace mem listHead entry compareFunction fuel (flink mem currentEntry)

def insertOrderedList (fuel : Nat) (mem : M) (listHead entry : A) (compareFunction : A -> A -> Int) : Kernel M := do
  assert (validateListEntry mem listHead) "_ValidateListEntry(ListHead)"
  let currentEntry <- orderedPlace mem listHead entry compareFunction fuel (flink mem listHead)
  insertTailList mem currentEntry entry

def searchLoop (mem : M) (listHead elementToSearchFor : A) (isListOrdered : Bool) (compareFunction : A -> A -> Int) :
    (fuel : Nat) -> A -> Kernel (Option A)
  | 0, _ => .error "the loop has not ended"
  | fuel + 1, curEntry =>
    if curEntry = listHead then pure none
    else
      let cmpResult := compareFunction curEntry elementToSearchFor
      if cmpResult = 0 then pure (some curEntry)
      else if isListOrdered = true ∧ cmpResult > 0 then pure none
      else searchLoop mem listHead elementToSearchFor isListOrdered compareFunction fuel (flink mem curEntry)

def listSearchForElement (fuel : Nat) (mem : M) : (listHead elementToSearchFor : Option A) ->
    (isListOrdered : Bool) -> (compareFunction : Option (A -> A -> Int)) -> Kernel (Option A)
  | some listHead, some elementToSearchFor, isListOrdered, some compareFunction => do
    assert (validateListEntry mem listHead) "_ValidateListEntry(ListHead)"
    searchLoop mem listHead elementToSearchFor isListOrdered compareFunction fuel (flink mem listHead)
  | _, _, _, _ => pure none

structure WellFormed (mem : M) (listHead : A) (nodes : List A) : Prop where
  ring : Ring (flink mem) (blink mem) listHead nodes
  distinct : (listHead :: nodes).Nodup

namespace WellFormed

variable {mem : M} {listHead entry : A} {nodes front rear : List A} {compare : A -> A -> Int} {fuel : Nat}

theorem valid (wellFormed : WellFormed mem listHead nodes) {node : A} (member : node ∈ listHead :: nodes) :
    validateListEntry mem node = true := validateListEntry_of_ring wellFormed.ring member

theorem outside (wellFormed : WellFormed mem listHead nodes) {node : A} (member : node ∈ nodes) :
    node ≠ listHead := by
  rintro rfl
  exact (List.nodup_cons.mp wellFormed.distinct).1 member

theorem nodup_insert (front : List A) (wellFormed : WellFormed mem listHead (front ++ rear))
    (fresh : entry ∉ listHead :: (front ++ rear)) :
    (listHead :: (front ++ entry :: rear)).Nodup := by
  have moved : (listHead :: (front ++ entry :: rear)).Perm (entry :: listHead :: (front ++ rear)) :=
    (List.Perm.cons _ List.perm_middle).trans (List.Perm.swap _ _ _)
  exact moved.nodup_iff.mpr (List.nodup_cons.mpr ⟨fresh, wellFormed.distinct⟩)

theorem nodup_remove (wellFormed : WellFormed mem listHead (front ++ entry :: rear)) :
    (listHead :: (front ++ rear)).Nodup := by
  refine wellFormed.distinct.sublist (List.Sublist.cons_cons _ ?_)
  exact (List.Sublist.refl front).append (List.sublist_cons_self entry rear)

theorem insertHead (wellFormed : WellFormed mem listHead nodes) (fresh : entry ∉ listHead :: nodes)
    (separate : Separate M (entry :: listHead :: nodes)) : ∃ after,
    insertHeadList mem listHead entry = .ok after ∧ WellFormed after listHead (entry :: nodes) := by
  refine ⟨_, insertHeadList_eq (wellFormed.valid List.mem_cons_self), ?_, ?_⟩
  · have next := @Ring.next_mem _ _ _ _ listHead _ wellFormed.ring List.mem_cons_self
    have links : LinkedBetween mem (insertedHead mem listHead entry) (entry :: listHead :: ([] ++ nodes))
        listHead (flink mem listHead) entry :=
      insertedHead_links separate List.mem_cons_self (by simp) (List.mem_cons_of_mem _ next)
    exact links.ring wellFormed.ring (List.nodup_cons.mpr ⟨fresh, wellFormed.distinct⟩) rfl rfl
  · exact nodup_insert [] wellFormed fresh

theorem insertTail (wellFormed : WellFormed mem listHead nodes) (fresh : entry ∉ listHead :: nodes)
    (separate : Separate M (entry :: listHead :: nodes)) : ∃ after,
    insertTailList mem listHead entry = .ok after ∧ WellFormed after listHead (nodes ++ [entry]) := by
  refine ⟨_, insertTailList_eq (wellFormed.valid List.mem_cons_self), ?_, ?_⟩
  · exact insertedTail_ring wellFormed.ring (List.nodup_cons.mpr ⟨fresh, wellFormed.distinct⟩) separate
  · rw [← List.append_nil nodes] at wellFormed fresh
    exact nodup_insert nodes wellFormed fresh

theorem insertTail_at {node : A} (wellFormed : WellFormed mem listHead (front ++ node :: rear))
    (fresh : entry ∉ listHead :: (front ++ node :: rear))
    (separate : Separate M (entry :: listHead :: (front ++ node :: rear))) : ∃ after,
    insertTailList mem node entry = .ok after ∧ WellFormed after listHead (front ++ entry :: node :: rear) := by
  have turned : WellFormed mem node (rear ++ listHead :: front) :=
    ⟨wellFormed.ring.rotate, Ring.nodup_rotate wellFormed.distinct⟩
  have own : Separate M (entry :: node :: (rear ++ listHead :: front)) := by
    refine separate.subset ?_
    intro other member
    rcases List.mem_cons.mp member with rfl | old
    · exact List.mem_cons_self
    · exact List.mem_cons_of_mem _ (Ring.mem_rotate.mp old)
  obtain ⟨after, done, ring, _⟩ := turned.insertTail (fun member => fresh (Ring.mem_rotate.mp member)) own
  rw [List.append_assoc, List.cons_append] at ring
  have back := ring.rotate
  rw [List.append_assoc, List.singleton_append] at back
  exact ⟨after, done, back, nodup_insert front wellFormed fresh⟩

theorem neighbours_same (wellFormed : WellFormed mem listHead (front ++ entry :: rear)) :
    (rear.headD listHead == front.getLastD listHead) = (front ++ rear).isEmpty := by
  have distinct := wellFormed.nodup_remove
  rcases List.eq_nil_or_concat front with rfl | ⟨start, last, rfl⟩
  · cases rear with
    | nil => simp
    | cons next rear =>
      have other : next ≠ listHead := wellFormed.outside (by simp)
      simp [other]
  · rw [List.concat_eq_append] at distinct wellFormed ⊢
    cases rear with
    | nil =>
      have other : last ≠ listHead := wellFormed.outside (by simp)
      rw [Bool.eq_iff_iff]
      simp [other.symm]
    | cons next rear =>
      have other : next ≠ last := by
        rintro rfl
        simp [List.nodup_append] at distinct
      rw [Bool.eq_iff_iff]
      simp [other]

theorem removeEntry (wellFormed : WellFormed mem listHead (front ++ entry :: rear))
    (separate : Separate M (listHead :: (front ++ entry :: rear))) : ∃ after,
    removeEntryList mem entry = .ok (after, (front ++ rear).isEmpty) ∧
      WellFormed after listHead (front ++ rear) := by
  refine ⟨removed mem entry, ?_, removed_ring wellFormed.ring wellFormed.distinct separate, wellFormed.nodup_remove⟩
  rw [removeEntryList_eq (wellFormed.valid (by simp)), wellFormed.ring.next_node, wellFormed.ring.back_node,
    wellFormed.neighbours_same]

theorem unlinked {after : M} (wellFormed : WellFormed mem listHead (front ++ entry :: rear))
    (view : Unlinked mem after (listHead :: (front ++ entry :: rear)) entry) :
    WellFormed after listHead (front ++ rear) :=
  ⟨view.ring wellFormed.ring wellFormed.distinct, wellFormed.nodup_remove⟩

theorem unlinked_head {after : M} (wellFormed : WellFormed mem listHead [])
    (view : Unlinked mem after [listHead] listHead) : WellFormed after listHead [] := by
  obtain ⟨forward, backward⟩ := view listHead List.mem_cons_self
  have next : flink mem listHead = listHead := wellFormed.ring.1
  have back : blink mem listHead = listHead := wellFormed.ring.2
  refine ⟨⟨?_, ?_⟩, wellFormed.distinct⟩
  · simpa [next, back] using forward
  · simpa [next, back] using backward

theorem removeHeadList_eq (wellFormed : WellFormed mem listHead nodes) :
    removeHeadList mem listHead = .ok (removed mem (flink mem listHead), flink mem listHead) := by
  have back : blink mem (flink mem listHead) = listHead := wellFormed.ring.back_next List.mem_cons_self
  simp [removeHeadList, wellFormed.valid List.mem_cons_self, removed, back, pure, bind, Except.bind, Except.pure]

theorem removeHead (wellFormed : WellFormed mem listHead nodes) (separate : Separate M (listHead :: nodes)) :
    ∃ after, removeHeadList mem listHead = .ok (after, nodes.headD listHead) ∧
      WellFormed after listHead nodes.tail := by
  have member : flink mem listHead ∈ listHead :: nodes := wellFormed.ring.next_mem List.mem_cons_self
  have links : Unlinked mem (removed mem (flink mem listHead)) (listHead :: nodes) (flink mem listHead) :=
    removed_links separate (wellFormed.ring.next_mem member) (wellFormed.ring.back_mem member)
  have done := wellFormed.removeHeadList_eq
  rw [wellFormed.ring.next_head] at links done
  refine ⟨_, done, ?_⟩
  cases nodes with
  | nil => exact wellFormed.unlinked_head links
  | cons node nodes => exact @unlinked _ _ _ _ _ _ _ [] _ _ wellFormed links

-- RemoveTailList writes the two links in the other order.
def removedTail (mem : M) (listHead : A) : M :=
  setFlink (setBlink mem listHead (blink mem (blink mem listHead))) (blink mem (blink mem listHead)) listHead

theorem removeTailList_eq (wellFormed : WellFormed mem listHead nodes) :
    removeTailList mem listHead = .ok (removedTail mem listHead, blink mem listHead) := by
  simp [removeTailList, wellFormed.valid List.mem_cons_self, removedTail, pure, bind, Except.bind, Except.pure]

theorem removedTail_links (wellFormed : WellFormed mem listHead nodes) (separate : Separate M (listHead :: nodes)) :
    Unlinked mem (removedTail mem listHead) (listHead :: nodes) (blink mem listHead) := by
  have own : listHead ∈ listHead :: nodes := List.mem_cons_self
  have next : flink mem (blink mem listHead) = listHead := wellFormed.ring.next_back own
  have before := wellFormed.ring.back_mem (wellFormed.ring.back_mem own)
  intro other seen
  simp only [removedTail, next, separate.flink_setFlink before own seen, separate.flink_setBlink own seen,
    separate.blink_setFlink before seen, separate.blink_setBlink own before seen, and_self]

theorem removeTail (wellFormed : WellFormed mem listHead nodes) (separate : Separate M (listHead :: nodes)) :
    ∃ after, removeTailList mem listHead = .ok (after, nodes.getLastD listHead) ∧
      WellFormed after listHead nodes.dropLast := by
  have links := wellFormed.removedTail_links separate
  have done := wellFormed.removeTailList_eq
  rw [wellFormed.ring.back_head] at links done
  refine ⟨_, done, ?_⟩
  rcases List.eq_nil_or_concat nodes with rfl | ⟨front, last, rfl⟩
  · exact wellFormed.unlinked_head links
  · simp only [List.concat_eq_append, List.getLastD_concat, List.dropLast_concat] at *
    simpa using wellFormed.unlinked links

theorem orderedPlace_eq {rest : List A} (wellFormed : WellFormed mem listHead (front ++ rest))
    (enough : rest.length < fuel) :
    orderedPlace mem listHead entry compare fuel (rest.headD listHead) =
      .ok ((rest.dropWhile fun node => ¬compare entry node < 0).headD listHead) := by
  induction rest generalizing front fuel with
  | nil =>
    obtain ⟨fuel, rfl⟩ : ∃ more, fuel = more + 1 := ⟨fuel - 1, by simp at enough; omega⟩
    simp [orderedPlace, pure, Except.pure]
  | cons node rest ih =>
    obtain ⟨fuel, rfl⟩ : ∃ more, fuel = more + 1 := ⟨fuel - 1, by simp at enough; omega⟩
    have inside : node ≠ listHead := wellFormed.outside (by simp)
    by_cases smaller : compare entry node < 0
    · simp [orderedPlace, inside, smaller, pure, Except.pure]
    · have next := wellFormed.ring.next_node
      rw [List.append_cons] at wellFormed
      have later := ih wellFormed (by simpa using enough)
      rw [List.dropWhile_cons_of_pos (by simp only [smaller, not_false_eq_true, decide_true])]
      simpa only [orderedPlace, List.headD_cons, inside, smaller, if_false, next] using later

theorem insertOrdered (wellFormed : WellFormed mem listHead nodes) (fresh : entry ∉ listHead :: nodes)
    (separate : Separate M (entry :: listHead :: nodes)) (enough : nodes.length < fuel) : ∃ after,
    insertOrderedList fuel mem listHead entry compare = .ok after ∧
      WellFormed after listHead (Lib.insertOrdered compare entry nodes) := by
  have place := @orderedPlace_eq _ _ _ _ mem listHead entry [] compare fuel nodes wellFormed enough
  have unfolded : insertOrderedList fuel mem listHead entry compare =
      insertTailList mem ((nodes.dropWhile fun node => ¬compare entry node < 0).headD listHead) entry := by
    rw [insertOrderedList, wellFormed.valid List.mem_cons_self, assert_true, Kernel.ok_bind,
      wellFormed.ring.next_head, place, Kernel.ok_bind]
  have split := (@List.takeWhile_append_dropWhile _ (fun node => ¬compare entry node < 0) nodes).symm
  rw [unfolded, Lib.insertOrdered_eq]
  cases rest : nodes.dropWhile fun node => ¬compare entry node < 0 with
  | nil =>
    rw [rest, List.append_nil] at split
    rw [← split]
    exact wellFormed.insertTail fresh separate
  | cons node rear =>
    rw [rest] at split
    rw [split] at wellFormed fresh separate
    exact wellFormed.insertTail_at fresh separate

theorem searchLoop_eq {rest : List A} {element : A} {ordered : Bool}
    (wellFormed : WellFormed mem listHead (front ++ rest)) (enough : rest.length < fuel) :
    searchLoop mem listHead element ordered compare fuel (rest.headD listHead) =
      .ok (Lib.search compare element ordered rest) := by
  induction rest generalizing front fuel with
  | nil =>
    obtain ⟨fuel, rfl⟩ : ∃ more, fuel = more + 1 := ⟨fuel - 1, by simp at enough; omega⟩
    simp [searchLoop, Lib.search, pure, Except.pure]
  | cons node rest ih =>
    obtain ⟨fuel, rfl⟩ : ∃ more, fuel = more + 1 := ⟨fuel - 1, by simp at enough; omega⟩
    have inside : node ≠ listHead := wellFormed.outside (by simp)
    have next := wellFormed.ring.next_node
    rw [List.append_cons] at wellFormed
    have later := ih wellFormed (by simpa using enough)
    simp only [searchLoop, List.headD_cons, inside, if_false, next, later, Lib.search]
    split
    next => rfl
    next => split <;> rfl

theorem search (wellFormed : WellFormed mem listHead nodes) (enough : nodes.length < fuel) (element : A)
    (ordered : Bool) : listSearchForElement fuel mem (some listHead) (some element) ordered (some compare) =
      .ok (Lib.search compare element ordered nodes) := by
  rw [listSearchForElement, wellFormed.valid List.mem_cons_self, assert_true, Kernel.ok_bind,
    wellFormed.ring.next_head]
  exact @searchLoop_eq _ _ _ _ mem listHead [] compare fuel nodes element ordered wellFormed enough

end WellFormed

inductive ListOperation (A : Type)
  | insertHead (entry : A)
  | insertTail (entry : A)
  | insertOrdered (entry : A)
  | removeEntry (entry : A)
  | removeHead
  | removeTail

inductive ListResult (A : Type)
  | nothing
  | isEmpty (empty : Bool)
  | entry (removed : A)
  deriving DecidableEq

namespace ListOperation

def run (fuel : Nat) (compare : A -> A -> Int) (mem : M) (listHead : A) : ListOperation A -> Kernel (M × ListResult A)
  | .insertHead entry => do
    let mem <- insertHeadList mem listHead entry
    return (mem, .nothing)
  | .insertTail entry => do
    let mem <- insertTailList mem listHead entry
    return (mem, .nothing)
  | .insertOrdered entry => do
    let mem <- insertOrderedList fuel mem listHead entry compare
    return (mem, .nothing)
  | .removeEntry entry => do
    let (mem, empty) <- removeEntryList mem entry
    return (mem, .isEmpty empty)
  | .removeHead => do
    let (mem, entry) <- removeHeadList mem listHead
    return (mem, .entry entry)
  | .removeTail => do
    let (mem, entry) <- removeTailList mem listHead
    return (mem, .entry entry)

def runAll (fuel : Nat) (compare : A -> A -> Int) (mem : M) (listHead : A) :
    List (ListOperation A) -> Kernel (M × List (ListResult A))
  | [] => pure (mem, [])
  | operation :: rest => do
    let (mem, result) <- operation.run fuel compare mem listHead
    let (mem, results) <- runAll fuel compare mem listHead rest
    return (mem, result :: results)

def apply (compare : A -> A -> Int) (listHead : A) (nodes : List A) : ListOperation A -> List A × ListResult A
  | .insertHead entry => (entry :: nodes, .nothing)
  | .insertTail entry => (nodes ++ [entry], .nothing)
  | .insertOrdered entry => (Lib.insertOrdered compare entry nodes, .nothing)
  | .removeEntry entry => (nodes.erase entry, .isEmpty (nodes.erase entry).isEmpty)
  | .removeHead => (nodes.tail, .entry (nodes.headD listHead))
  | .removeTail => (nodes.dropLast, .entry (nodes.getLastD listHead))

def applyAll (compare : A -> A -> Int) (listHead : A) : List A -> List (ListOperation A) -> List A × List (ListResult A)
  | nodes, [] => (nodes, [])
  | nodes, operation :: rest =>
    let after := applyAll compare listHead (operation.apply compare listHead nodes).1 rest
    (after.1, (operation.apply compare listHead nodes).2 :: after.2)

def Allowed (entries : List A) (listHead : A) (nodes : List A) : ListOperation A -> Prop
  | .insertHead entry | .insertTail entry | .insertOrdered entry => entry ∈ entries ∧ entry ∉ listHead :: nodes
  | .removeEntry entry => entry ∈ nodes
  | .removeHead | .removeTail => True

def AllAllowed (compare : A -> A -> Int) (entries : List A) (listHead : A) : List A -> List (ListOperation A) -> Prop
  | _, [] => True
  | nodes, operation :: rest => operation.Allowed entries listHead nodes ∧
    AllAllowed compare entries listHead (operation.apply compare listHead nodes).1 rest

variable {mem : M} {listHead : A} {nodes entries : List A} {compare : A -> A -> Int} {fuel : Nat}
  {operation : ListOperation A}

theorem apply_inside (allowed : operation.Allowed entries listHead nodes)
    (inside : forall node, node ∈ listHead :: nodes -> node ∈ entries) :
    forall node, node ∈ listHead :: (operation.apply compare listHead nodes).1 -> node ∈ entries := by
  intro node member
  rcases List.mem_cons.mp member with rfl | within
  · exact inside _ List.mem_cons_self
  have old (also : node ∈ nodes) : node ∈ entries := inside node (List.mem_cons_of_mem _ also)
  cases operation with
  | insertHead entry =>
    rcases List.mem_cons.mp within with rfl | also
    · exact allowed.1
    · exact old also
  | insertTail entry =>
    rcases List.mem_append.mp within with also | new
    · exact old also
    · rw [List.mem_singleton.mp new]
      exact allowed.1
  | insertOrdered entry =>
    rcases (List.mem_orderedInsert _).mp within with rfl | also
    · exact allowed.1
    · exact old also
  | removeEntry entry => exact old (List.mem_of_mem_erase within)
  | removeHead => exact old (List.mem_of_mem_tail within)
  | removeTail => exact old ((List.dropLast_sublist nodes).subset within)

theorem apply_length : (operation.apply compare listHead nodes).1.length ≤ nodes.length + 1 := by
  cases operation with
  | insertHead entry => simp [apply]
  | insertTail entry => simp [apply]
  | insertOrdered entry => simp [apply, Lib.insertOrdered, List.orderedInsert_length]
  | removeEntry entry =>
    have shorter := (List.erase_sublist (a := entry) (l := nodes)).length_le
    exact shorter.trans (Nat.le_succ _)
  | removeHead => simp [apply]; omega
  | removeTail => simp [apply]; omega

theorem run_correct (separate : Separate M entries) (inside : forall node, node ∈ listHead :: nodes -> node ∈ entries)
    (wellFormed : WellFormed mem listHead nodes) (allowed : operation.Allowed entries listHead nodes)
    (enough : nodes.length < fuel) : ∃ after,
    operation.run fuel compare mem listHead = .ok (after, (operation.apply compare listHead nodes).2) ∧
      WellFormed after listHead (operation.apply compare listHead nodes).1 := by
  have own : Separate M (listHead :: nodes) := separate.subset inside
  have extended {entry : A} (new : entry ∈ entries) : Separate M (entry :: listHead :: nodes) := by
    refine separate.subset ?_
    intro other member
    rcases List.mem_cons.mp member with rfl | old
    · exact new
    · exact inside other old
  cases operation with
  | insertHead entry =>
    obtain ⟨after, done, represents⟩ := wellFormed.insertHead allowed.2 (extended allowed.1)
    exact ⟨after, by rw [run, done]; rfl, represents⟩
  | insertTail entry =>
    obtain ⟨after, done, represents⟩ := wellFormed.insertTail allowed.2 (extended allowed.1)
    exact ⟨after, by rw [run, done]; rfl, represents⟩
  | insertOrdered entry =>
    obtain ⟨after, done, represents⟩ := wellFormed.insertOrdered allowed.2 (extended allowed.1) enough
    exact ⟨after, by rw [run, done]; rfl, represents⟩
  | removeEntry entry =>
    obtain ⟨front, rear, _, rfl, erased⟩ := List.exists_erase_eq allowed
    obtain ⟨after, done, represents⟩ := wellFormed.removeEntry own
    rw [apply, erased]
    exact ⟨after, by rw [run, done]; rfl, represents⟩
  | removeHead =>
    obtain ⟨after, done, represents⟩ := wellFormed.removeHead own
    exact ⟨after, by rw [run, done]; rfl, represents⟩
  | removeTail =>
    obtain ⟨after, done, represents⟩ := wellFormed.removeTail own
    exact ⟨after, by rw [run, done]; rfl, represents⟩

theorem runAll_correct {operations : List (ListOperation A)} (separate : Separate M entries)
    (inside : forall node, node ∈ listHead :: nodes -> node ∈ entries) (wellFormed : WellFormed mem listHead nodes)
    (allowed : AllAllowed compare entries listHead nodes operations)
    (enough : nodes.length + operations.length < fuel) : ∃ after,
    runAll fuel compare mem listHead operations = .ok (after, (applyAll compare listHead nodes operations).2) ∧
      WellFormed after listHead (applyAll compare listHead nodes operations).1 := by
  induction operations generalizing mem nodes with
  | nil => exact ⟨mem, rfl, wellFormed⟩
  | cons operation rest ih =>
    rw [List.length_cons] at enough
    obtain ⟨now, later⟩ := allowed
    have first : nodes.length < fuel := by omega
    obtain ⟨between, step, represents⟩ :=
      @run_correct _ _ _ _ mem listHead nodes entries compare fuel operation separate inside wellFormed now first
    have length := @apply_length _ _ listHead nodes compare operation
    obtain ⟨after, steps, final⟩ := ih (apply_inside now inside) represents later (by omega)
    refine ⟨after, ?_, final⟩
    rw [runAll, step, Kernel.ok_bind]
    dsimp only
    rw [steps]
    rfl

def Ordered : ListOperation A -> Prop
  | .insertHead _ | .insertTail _ => False
  | _ => True

theorem sorted_apply (total : TotalPreorder compare) (ordered : operation.Ordered) (sorted : Sorted compare nodes) :
    Sorted compare (operation.apply compare listHead nodes).1 := by
  cases operation with
  | insertHead entry => exact ordered.elim
  | insertTail entry => exact ordered.elim
  | insertOrdered entry => exact total.sorted_insertOrdered entry sorted
  | removeEntry entry => exact sorted.sublist List.erase_sublist
  | removeHead => exact sorted.sublist (List.tail_sublist nodes)
  | removeTail => exact sorted.sublist (List.dropLast_sublist nodes)

theorem sorted_applyAll (total : TotalPreorder compare) (operations : List (ListOperation A))
    (ordered : forall operation, operation ∈ operations -> operation.Ordered) (sorted : Sorted compare nodes) :
    Sorted compare (applyAll compare listHead nodes operations).1 := by
  induction operations generalizing nodes with
  | nil => exact sorted
  | cons operation rest ih =>
    refine ih ?_ (sorted_apply total (ordered operation List.mem_cons_self) sorted)
    intro other member
    exact ordered other (List.mem_cons_of_mem _ member)

end ListOperation

open ListOperation

theorem lists_represent (mem : M) (listHead : A) (nodes entries : List A) (compare : A -> A -> Int)
    (separate : Separate M entries) (inside : forall node, node ∈ listHead :: nodes -> node ∈ entries)
    (wellFormed : WellFormed mem listHead nodes) :
    (forall operations fuel, AllAllowed compare entries listHead nodes operations ->
      nodes.length + operations.length < fuel -> ∃ after,
        runAll fuel compare mem listHead operations = .ok (after, (applyAll compare listHead nodes operations).2) ∧
          WellFormed after listHead (applyAll compare listHead nodes operations).1) ∧
    (TotalPreorder compare -> Sorted compare nodes ->
      (forall entry fuel, entry ∈ entries -> entry ∉ listHead :: nodes -> nodes.length < fuel -> ∃ after front rear,
        insertOrderedList fuel mem listHead entry compare = .ok after ∧ nodes = front ++ rear ∧
          WellFormed after listHead (front ++ entry :: rear) ∧ Sorted compare (front ++ entry :: rear) ∧
          (forall node, node ∈ front -> compare node entry ≤ 0) ∧
          (forall node, node ∈ rear -> compare entry node < 0)) ∧
      (forall operations, (forall operation, operation ∈ operations -> operation.Ordered) ->
        Sorted compare (applyAll compare listHead nodes operations).1) ∧
      forall element fuel ordered, nodes.length < fuel ->
        listSearchForElement fuel mem (some listHead) (some element) ordered (some compare) =
          .ok (nodes.find? fun node => compare node element = 0)) := by
  refine ⟨?_, ?_⟩
  · intro operations fuel allowed enough
    exact runAll_correct separate inside wellFormed allowed enough
  intro total sorted
  refine ⟨?_, ?_, ?_⟩
  · intro entry fuel new fresh enough
    have own : Separate M (entry :: listHead :: nodes) := by
      refine separate.subset ?_
      intro other member
      rcases List.mem_cons.mp member with rfl | old
      · exact new
      · exact inside other old
    obtain ⟨after, done, represents⟩ :=
      @WellFormed.insertOrdered _ _ _ _ mem listHead entry nodes compare fuel wellFormed fresh own enough
    obtain ⟨front, rear, split, inserted, behind, before⟩ := total.insertOrdered_split entry sorted
    have still := total.sorted_insertOrdered entry sorted
    rw [inserted] at represents still
    exact ⟨after, front, rear, done, split, represents, still, behind, before⟩
  · intro operations ordered
    exact sorted_applyAll total operations ordered sorted
  · intro element fuel ordered enough
    rw [wellFormed.search enough]
    cases ordered with
    | false => rw [Lib.search_linear]
    | true => rw [Lib.search_sorted total sorted]

def sampleCompare (first second : Nat) : Int := first - second

def sampleMemory : Lib.Memory :=
  insertedHead (insertedHead (initializeListHead (fun _ => 0) 0x1000) 0x1000 0x4000) 0x1000 0x2000

theorem sample_separate : Separate Lib.Memory [0x1000, 0x2000, 0x3000, 0x4000] := by
  constructor
  · intro entry other first second different
    simp only [List.mem_cons, List.not_mem_nil, or_false] at first second
    simp only [LinkMemory.Apart]
    omega
  · intro entry member
    simp only [List.mem_cons, List.not_mem_nil, or_false] at member
    simp only [LinkMemory.Holds]
    omega

theorem lists_represent_sample :
    (∃ after, runAll 10 sampleCompare sampleMemory 0x1000
        [.insertOrdered 0x3000, .removeTail] = .ok (after, [.nothing, .entry 0x4000]) ∧
      WellFormed after 0x1000 [0x2000, 0x3000]) ∧
    listSearchForElement 10 sampleMemory (some 0x1000) (some 0x4000) true (some sampleCompare) = .ok (some 0x4000) := by
  have wellFormed : WellFormed sampleMemory 0x1000 [0x2000, 0x4000] :=
    ⟨⟨by decide +kernel, by decide +kernel, by decide +kernel, by decide +kernel, by decide +kernel, by decide +kernel⟩,
      by decide⟩
  have sorted : Sorted sampleCompare [0x2000, 0x4000] := by simp [Sorted, sampleCompare]
  have lists := lists_represent sampleMemory 0x1000 [0x2000, 0x4000] [0x1000, 0x2000, 0x3000, 0x4000] sampleCompare
    sample_separate (by simp) wellFormed
  refine ⟨lists.1 [.insertOrdered 0x3000, .removeTail] 10 ?_ (by simp), ?_⟩
  · exact ⟨by simp [Allowed], trivial, trivial⟩
  · exact (lists.2 (.of_key fun entry : Nat => (entry : Int)) sorted).2.2 0x4000 10 true (by simp)

def vpbCompareFunction (volumeLetter : A -> UInt8) (firstElem secondElem : A) : Int :=
  (tolower (volumeLetter firstElem)).toInt8.toInt - (tolower (volumeLetter secondElem)).toInt8.toInt

theorem vpb_total (volumeLetter : A -> UInt8) : TotalPreorder (vpbCompareFunction volumeLetter) :=
  .of_key fun vpb => (tolower (volumeLetter vpb)).toInt8.toInt

def iomuSearchForVpb (fuel : Nat) (mem : M) (vpbList vpbToSearchFor : A) (volumeLetter : A -> UInt8)
    (driveLetter : UInt8) : Kernel (Option A) :=
  listSearchForElement fuel mem (some vpbList) (some vpbToSearchFor) true
    (some (vpbCompareFunction (Function.update volumeLetter vpbToSearchFor driveLetter)))

theorem iomuSearchForVpb_eq {mem : M} {vpbList vpbToSearchFor : A} {vpbs : List A} {volumeLetter : A -> UInt8}
    {driveLetter : UInt8} {fuel : Nat} (wellFormed : WellFormed mem vpbList vpbs) (outside : vpbToSearchFor ∉ vpbs)
    (sorted : Sorted (vpbCompareFunction volumeLetter) vpbs) (enough : vpbs.length < fuel) :
    iomuSearchForVpb fuel mem vpbList vpbToSearchFor volumeLetter driveLetter =
      .ok (vpbs.find? fun vpb => tolower (volumeLetter vpb) = tolower driveLetter) := by
  have kept (vpb : A) (member : vpb ∈ vpbs) :
      Function.update volumeLetter vpbToSearchFor driveLetter vpb = volumeLetter vpb := by
    refine Function.update_of_ne ?_ _ _
    rintro rfl
    exact outside member
  have still : Sorted (vpbCompareFunction (Function.update volumeLetter vpbToSearchFor driveLetter)) vpbs := by
    refine sorted.imp_of_mem ?_
    intro first second early late least
    simpa only [vpbCompareFunction, kept first early, kept second late] using least
  rw [iomuSearchForVpb, wellFormed.search enough, Lib.search_sorted (vpb_total _) still]
  congr 1
  refine List.find?_congr ?_
  intro vpb member
  have equal : (tolower (volumeLetter vpb)).toInt8.toInt - (tolower driveLetter).toInt8.toInt = 0 ↔
      tolower (volumeLetter vpb) = tolower driveLetter := by
    rw [Int.sub_eq_zero, Int8.toInt_inj]
    exact (Function.LeftInverse.injective UInt8.toUInt8_toInt8).eq_iff
  simp only [vpbCompareFunction, kept vpb member, Function.update_self, equal]

end Hal9000.Lists
