import Hal9000.CommonLib.Base
import Hal9000.Lib.Memory
import Hal9000.Lib.Ring

set_option autoImplicit false
set_option linter.unusedSectionVars false

namespace Hal9000

open Lib (Ring Rings)

class LinkMemory (M : Type) (A : outParam Type) where
  flink : M -> A -> A
  blink : M -> A -> A
  setFlink : M -> A -> A -> M
  setBlink : M -> A -> A -> M
  Apart : A -> A -> Prop
  Holds : A -> Prop
  flink_setFlink : forall {mem entry value}, Holds value -> flink (setFlink mem entry value) entry = value
  blink_setBlink : forall {mem entry value}, Holds value -> blink (setBlink mem entry value) entry = value
  flink_setFlink_apart : forall {mem entry value other}, Apart entry other ->
    flink (setFlink mem entry value) other = flink mem other
  blink_setBlink_apart : forall {mem entry value other}, Apart entry other ->
    blink (setBlink mem entry value) other = blink mem other
  flink_setBlink : forall {mem entry value other}, entry = other ∨ Apart entry other ->
    flink (setBlink mem entry value) other = flink mem other
  blink_setFlink : forall {mem entry value other}, entry = other ∨ Apart entry other ->
    blink (setFlink mem entry value) other = blink mem other

namespace LinkMemory

variable {M A : Type} [LinkMemory M A]

variable (M) in
structure Separate (entries : List A) : Prop where
  apart : forall entry other, entry ∈ entries -> other ∈ entries -> entry ≠ other -> Apart M entry other
  holds : forall entry, entry ∈ entries -> Holds M entry

namespace Separate

variable [DecidableEq A] {entries : List A} {mem : M} {entry value other : A}

theorem subset (separate : Separate M entries) {fewer : List A} (inside : forall entry, entry ∈ fewer -> entry ∈ entries) :
    Separate M fewer :=
  ⟨fun entry other first second => separate.apart entry other (inside entry first) (inside other second),
    fun entry member => separate.holds entry (inside entry member)⟩

theorem flink_setFlink (separate : Separate M entries) (inside : entry ∈ entries) (target : value ∈ entries)
    (seen : other ∈ entries) :
    flink (setFlink mem entry value) other = if entry = other then value else flink mem other := by
  split
  · rename_i same
    subst same
    exact LinkMemory.flink_setFlink (separate.holds value target)
  · rename_i distinct
    exact flink_setFlink_apart (separate.apart _ _ inside seen distinct)

theorem blink_setBlink (separate : Separate M entries) (inside : entry ∈ entries) (target : value ∈ entries)
    (seen : other ∈ entries) :
    blink (setBlink mem entry value) other = if entry = other then value else blink mem other := by
  split
  · rename_i same
    subst same
    exact LinkMemory.blink_setBlink (separate.holds value target)
  · rename_i distinct
    exact blink_setBlink_apart (separate.apart _ _ inside seen distinct)

theorem flink_setBlink (separate : Separate M entries) (inside : entry ∈ entries) (seen : other ∈ entries) :
    flink (setBlink mem entry value) other = flink mem other := by
  apply LinkMemory.flink_setBlink
  by_cases same : entry = other
  · exact .inl same
  · exact .inr (separate.apart _ _ inside seen same)

theorem blink_setFlink (separate : Separate M entries) (inside : entry ∈ entries) (seen : other ∈ entries) :
    blink (setFlink mem entry value) other = blink mem other := by
  apply LinkMemory.blink_setFlink
  by_cases same : entry = other
  · exact .inl same
  · exact .inr (separate.apart _ _ inside seen same)

end Separate

variable [DecidableEq A]

def validateListEntry (mem : M) (entry : A) : Bool :=
  blink mem (flink mem entry) == entry && flink mem (blink mem entry) == entry

def initializeListHead (mem : M) (listHead : A) : M :=
  setFlink (setBlink mem listHead listHead) listHead listHead

def isListEmpty (mem : M) (listHead : A) : Kernel Bool := do
  assert (validateListEntry mem listHead) "_ValidateListEntry(ListHead)"
  return flink mem listHead == listHead

def removeEntryList (mem : M) (entry : A) : Kernel (M × Bool) := do
  assert (validateListEntry mem entry) "_ValidateListEntry(Entry)"
  let next := flink mem entry
  let back := blink mem entry
  let mem := setFlink mem back next
  let mem := setBlink mem next back
  return (mem, next == back)

def insertTailList (mem : M) (listHead entry : A) : Kernel M := do
  assert (validateListEntry mem listHead) "_ValidateListEntry(ListHead)"
  let back := blink mem listHead
  let mem := setFlink mem entry listHead
  let mem := setBlink mem entry back
  let mem := setFlink mem back entry
  let mem := setBlink mem listHead entry
  return mem

def insertHeadList (mem : M) (listHead entry : A) : Kernel M := do
  assert (validateListEntry mem listHead) "_ValidateListEntry(ListHead)"
  let next := flink mem listHead
  let mem := setFlink mem entry next
  let mem := setBlink mem entry listHead
  let mem := setBlink mem next entry
  let mem := setFlink mem listHead entry
  return mem

section

variable {mem : M} {listHead entry : A} {nodes front rear : List A}

theorem validateListEntry_of_ring (ring : Ring (flink mem) (blink mem) listHead nodes)
    (member : entry ∈ listHead :: nodes) : validateListEntry mem entry = true := by
  simp [validateListEntry, ring.back_next member, ring.next_back member]

theorem initializeListHead_ring (fits : Holds M listHead) :
    Ring (flink (initializeListHead mem listHead)) (blink (initializeListHead mem listHead)) listHead [] := by
  refine ⟨flink_setFlink fits, ?_⟩
  rw [initializeListHead, blink_setFlink (.inl rfl)]
  exact blink_setBlink fits

theorem isListEmpty_of_ring (ring : Ring (flink mem) (blink mem) listHead nodes)
    (outside : listHead ∉ nodes) : isListEmpty mem listHead = .ok nodes.isEmpty := by
  have valid := validateListEntry_of_ring ring List.mem_cons_self
  have first := ring.next_head
  cases nodes with
  | nil => simp_all [isListEmpty, pure, bind, Except.bind, Except.pure]
  | cons node nodes =>
    have other : node ≠ listHead := fun same => outside (by simp [same])
    simp_all [isListEmpty, pure, bind, Except.bind, Except.pure]

def removed (mem : M) (entry : A) : M :=
  setBlink (setFlink mem (blink mem entry) (flink mem entry)) (flink mem entry) (blink mem entry)

def insertedTail (mem : M) (listHead entry : A) : M :=
  setBlink (setFlink (setBlink (setFlink mem entry listHead) entry (blink mem listHead)) (blink mem listHead)
    entry) listHead entry

def insertedHead (mem : M) (listHead entry : A) : M :=
  setFlink (setBlink (setBlink (setFlink mem entry (flink mem listHead)) entry listHead) (flink mem listHead)
    entry) listHead entry

theorem removeEntryList_eq (valid : validateListEntry mem entry = true) :
    removeEntryList mem entry = .ok (removed mem entry, flink mem entry == blink mem entry) := by
  simp [removeEntryList, valid, removed, pure, bind, Except.bind, Except.pure]

theorem insertTailList_eq (valid : validateListEntry mem listHead = true) :
    insertTailList mem listHead entry = .ok (insertedTail mem listHead entry) := by
  simp [insertTailList, valid, insertedTail, pure, bind, Except.bind, Except.pure]

theorem insertHeadList_eq (valid : validateListEntry mem listHead = true) :
    insertHeadList mem listHead entry = .ok (insertedHead mem listHead entry) := by
  simp [insertHeadList, valid, insertedHead, pure, bind, Except.bind, Except.pure]

def LinkedBetween (mem after : M) (entries : List A) (back next entry : A) : Prop :=
  forall other, other ∈ entries ->
    flink after other = (if back = other then entry else if entry = other then next else flink mem other) ∧
    blink after other = (if next = other then entry else if entry = other then back else blink mem other)

theorem insertedTail_links {entries : List A} (separate : Separate M entries) (new : entry ∈ entries)
    (behind : listHead ∈ entries) (before : blink mem listHead ∈ entries) :
    LinkedBetween mem (insertedTail mem listHead entry) entries (blink mem listHead) listHead entry := by
  intro other seen
  simp only [insertedTail, separate.flink_setFlink before new seen, separate.flink_setBlink behind seen,
    separate.flink_setBlink new seen, separate.flink_setFlink new behind seen,
    separate.blink_setFlink before seen, separate.blink_setBlink behind new seen,
    separate.blink_setBlink new before seen, separate.blink_setFlink new seen, and_self]

theorem insertedHead_links {entries : List A} (separate : Separate M entries) (new : entry ∈ entries)
    (before : listHead ∈ entries) (behind : flink mem listHead ∈ entries) :
    LinkedBetween mem (insertedHead mem listHead entry) entries listHead (flink mem listHead) entry := by
  intro other seen
  simp only [insertedHead, separate.flink_setFlink before new seen, separate.flink_setBlink behind seen,
    separate.flink_setBlink new seen, separate.flink_setFlink new behind seen,
    separate.blink_setFlink before seen, separate.blink_setBlink behind new seen,
    separate.blink_setBlink new before seen, separate.blink_setFlink new seen, and_self]

theorem last_mem : front.getLastD listHead ∈ listHead :: (front ++ rear) := by
  rcases List.eq_nil_or_concat front with rfl | ⟨start, last, rfl⟩ <;> simp

theorem LinkedBetween.ring {after : M} {back next : A}
    (links : LinkedBetween mem after (entry :: listHead :: (front ++ rear)) back next entry)
    (ring : Ring (flink mem) (blink mem) listHead (front ++ rear))
    (distinct : (entry :: listHead :: (front ++ rear)).Nodup)
    (before : back = front.getLastD listHead) (follows : flink mem back = next) :
    Ring (flink after) (blink after) listHead (front ++ entry :: rear) := by
  obtain ⟨fresh, distinct⟩ := List.nodup_cons.mp distinct
  have back_mem : back ∈ listHead :: (front ++ rear) := before ▸ last_mem
  have next_mem : next ∈ listHead :: (front ++ rear) := follows ▸ ring.next_mem back_mem
  have unlike (other : A) (member : other ∈ listHead :: (front ++ rear)) : entry ≠ other := by
    rintro rfl
    exact fresh member
  have new := links entry List.mem_cons_self
  have around : flink after back = entry ∧ flink after entry = flink mem back ∧
      blink after entry = back ∧ blink after (flink mem back) = entry := by
    rw [follows, new.1, new.2, (links back (List.mem_cons_of_mem _ back_mem)).1,
      (links next (List.mem_cons_of_mem _ next_mem)).2]
    simp [(unlike back back_mem).symm, (unlike next next_mem).symm]
  have forward (other : A) (member : other ∈ listHead :: (front ++ rear)) (different : other ≠ back) :
      flink after other = flink mem other := by
    rw [(links other (List.mem_cons_of_mem _ member)).1, if_neg different.symm, if_neg (unlike other member)]
  have backward (other : A) (member : other ∈ listHead :: (front ++ rear))
      (different : other ≠ flink mem back) : blink after other = blink mem other := by
    rw [follows] at different
    rw [(links other (List.mem_cons_of_mem _ member)).2, if_neg different.symm, if_neg (unlike other member)]
  rcases List.eq_nil_or_concat front with rfl | ⟨start, last, rfl⟩
  · have isHead : back = listHead := before
    subst isHead
    refine ring.insert_front distinct around ?_ backward
    intro other member
    refine forward other (List.mem_cons_of_mem _ member) ?_
    rintro rfl
    exact (List.nodup_cons.mp distinct).1 member
  · simp only [List.concat_eq_append, List.append_assoc, List.singleton_append,
      List.getLastD_concat] at *
    subst before
    exact ring.insert_behind distinct around forward backward

theorem insertedTail_ring (ring : Ring (flink mem) (blink mem) listHead nodes)
    (distinct : (entry :: listHead :: nodes).Nodup) (separate : Separate M (entry :: listHead :: nodes)) :
    Ring (flink (insertedTail mem listHead entry)) (blink (insertedTail mem listHead entry)) listHead
      (nodes ++ [entry]) := by
  have last := ring.back_head
  have before : blink mem listHead ∈ listHead :: nodes := ring.back_mem List.mem_cons_self
  have links : LinkedBetween mem (insertedTail mem listHead entry) (entry :: listHead :: (nodes ++ []))
      (blink mem listHead) listHead entry := by
    rw [List.append_nil]
    exact insertedTail_links separate List.mem_cons_self (by simp) (List.mem_cons_of_mem _ before)
  have follows := ring.next_back List.mem_cons_self
  rw [← List.append_nil nodes] at distinct ring
  exact links.ring ring distinct last follows

theorem insertedHead_ring {node : A} (ring : Ring (flink mem) (blink mem) listHead (front ++ node :: rear))
    (distinct : (entry :: listHead :: (front ++ node :: rear)).Nodup)
    (separate : Separate M (entry :: listHead :: (front ++ node :: rear))) :
    Ring (flink (insertedHead mem node entry)) (blink (insertedHead mem node entry)) listHead
      (front ++ node :: entry :: rear) := by
  have member : node ∈ listHead :: (front ++ node :: rear) := by simp
  have links : LinkedBetween mem (insertedHead mem node entry) _ node (flink mem node) entry :=
    insertedHead_links separate List.mem_cons_self (List.mem_cons_of_mem _ member)
      (List.mem_cons_of_mem _ (ring.next_mem member))
  have split : front ++ node :: rear = (front ++ [node]) ++ rear := by simp
  rw [split] at links distinct ring
  have inserted := links.ring ring distinct (by simp) rfl
  simpa using inserted

def Unlinked (mem after : M) (entries : List A) (entry : A) : Prop :=
  forall other, other ∈ entries ->
    flink after other = (if blink mem entry = other then flink mem entry else flink mem other) ∧
    blink after other = (if flink mem entry = other then blink mem entry else blink mem other)

theorem removed_links {entries : List A} (separate : Separate M entries) (behind : flink mem entry ∈ entries)
    (before : blink mem entry ∈ entries) (other : A) (seen : other ∈ entries) :
    flink (removed mem entry) other = (if blink mem entry = other then flink mem entry else flink mem other) ∧
      blink (removed mem entry) other = (if flink mem entry = other then blink mem entry else blink mem other) := by
  simp only [removed, separate.flink_setBlink behind seen, separate.flink_setFlink before behind seen,
    separate.blink_setBlink behind before seen, separate.blink_setFlink before seen, and_self]

theorem Unlinked.ring {after : M} (view : Unlinked mem after (listHead :: (front ++ entry :: rear)) entry)
    (ring : Ring (flink mem) (blink mem) listHead (front ++ entry :: rear))
    (distinct : (listHead :: (front ++ entry :: rear)).Nodup) :
    Ring (flink after) (blink after) listHead (front ++ rear) := by
  have member : entry ∈ listHead :: (front ++ entry :: rear) := by simp
  have behind := ring.next_mem member
  have before := ring.back_mem member
  have keeps (other : A) (seen : other ∈ listHead :: (front ++ rear)) :
      other ∈ listHead :: (front ++ entry :: rear) := by
    simp only [List.mem_cons, List.mem_append] at seen ⊢
    tauto
  refine ring.remove distinct ⟨?_, ?_⟩ ?_ ?_
  · rw [(view _ before).1, if_pos rfl]
  · rw [(view _ behind).2, if_pos rfl]
  · intro other seen different
    rw [(view other (keeps other seen)).1, if_neg different.symm]
  · intro other seen different
    rw [(view other (keeps other seen)).2, if_neg different.symm]

theorem removed_ring (ring : Ring (flink mem) (blink mem) listHead (front ++ entry :: rear))
    (distinct : (listHead :: (front ++ entry :: rear)).Nodup)
    (separate : Separate M (listHead :: (front ++ entry :: rear))) :
    Ring (flink (removed mem entry)) (blink (removed mem entry)) listHead (front ++ rear) := by
  have member : entry ∈ listHead :: (front ++ entry :: rear) := by simp
  have links : Unlinked mem (removed mem entry) (listHead :: (front ++ entry :: rear)) entry :=
    removed_links separate (ring.next_mem member) (ring.back_mem member)
  exact links.ring ring distinct

section Families

variable {count i : Nat} {head : Nat -> A} {lists : Nat -> List A} {entries : List A}

theorem insertedHead_rings (rings : Rings (flink mem) (blink mem) count head lists) (inside : i < count)
    (split : lists i = front ++ rear) (separate : Separate M entries) (new : entry ∈ entries)
    (seen : forall j, j < count -> forall node, node ∈ head j :: lists j -> node ∈ entries)
    (fresh : forall j, j < count -> entry ∉ head j :: lists j) :
    Rings (flink (insertedHead mem (front.getLastD (head i)) entry))
      (blink (insertedHead mem (front.getLastD (head i)) entry)) count head
      (Function.update lists i (front ++ entry :: rear)) := by
  have ring := rings.ring i inside
  have distinct := List.nodup_cons.mpr ⟨fresh i inside, rings.distinct i inside⟩
  have within : front.getLastD (head i) ∈ head i :: lists i := by
    rw [split]
    exact last_mem
  have next := ring.next_mem within
  have links : LinkedBetween mem (insertedHead mem (front.getLastD (head i)) entry) entries
      (front.getLastD (head i)) (flink mem (front.getLastD (head i))) entry :=
    insertedHead_links separate new (seen i inside _ within) (seen i inside _ next)
  have local_links : LinkedBetween mem (insertedHead mem (front.getLastD (head i)) entry)
      (entry :: head i :: (front ++ rear)) (front.getLastD (head i)) (flink mem (front.getLastD (head i))) entry := by
    intro other member
    apply links
    rcases List.mem_cons.mp member with rfl | old
    · exact new
    · rw [← split] at old
      exact seen i inside other old
  have unsplit := ring
  rw [split] at ring distinct
  refine rings.change inside (local_links.ring ring distinct rfl rfl) ?_ ?_ ?_
  · have moved : (head i :: (front ++ entry :: rear)).Perm (entry :: head i :: (front ++ rear)) :=
      (List.Perm.cons _ List.perm_middle).trans (List.Perm.swap _ _ _)
    exact moved.nodup_iff.mpr distinct
  · intro node member
    rw [split]
    rcases List.mem_append.mp member with early | late
    · exact .inl (List.mem_append_left _ early)
    · rcases List.mem_cons.mp late with rfl | later
      · exact .inr fresh
      · exact .inl (List.mem_append_right _ later)
  · intro j bound other node member
    have apart := rings.apart j i bound inside other node member
    have self : entry ≠ node := by
      rintro rfl
      exact fresh j bound member
    have back : front.getLastD (head i) ≠ node := by
      rintro rfl
      exact apart within
    have ahead : flink mem (front.getLastD (head i)) ≠ node := by
      rintro rfl
      exact apart next
    obtain ⟨forward, backward⟩ := links node (seen j bound node member)
    rw [forward, backward, if_neg back, if_neg ahead, if_neg self, if_neg self]
    exact ⟨rfl, rfl⟩

theorem removed_rings (rings : Rings (flink mem) (blink mem) count head lists) (inside : i < count)
    (split : lists i = front ++ entry :: rear) (separate : Separate M entries)
    (seen : forall j, j < count -> forall node, node ∈ head j :: lists j -> node ∈ entries) :
    Rings (flink (removed mem entry)) (blink (removed mem entry)) count head
      (Function.update lists i (front ++ rear)) := by
  have ring := rings.ring i inside
  have distinct := rings.distinct i inside
  have within : entry ∈ head i :: lists i := by
    rw [split]
    simp
  have next := ring.next_mem within
  have back := ring.back_mem within
  have links := removed_links separate (seen i inside _ next) (seen i inside _ back)
  have nearby : Separate M (head i :: lists i) := separate.subset (seen i inside)
  rw [split] at ring distinct nearby
  have shorter : (head i :: (front ++ rear)).Sublist (head i :: (front ++ entry :: rear)) :=
    ((List.Sublist.refl front).append (List.sublist_cons_self entry rear)).cons_cons _
  refine rings.change inside (removed_ring ring distinct nearby) (distinct.sublist shorter) ?_ ?_
  · intro node member
    rw [split]
    rcases List.mem_append.mp member with early | late
    · exact .inl (List.mem_append_left _ early)
    · exact .inl (List.mem_append_right _ (List.mem_cons_of_mem _ late))
  · intro j bound other node member
    have apart := rings.apart j i bound inside other node member
    have behind : blink mem entry ≠ node := by
      rintro rfl
      exact apart back
    have ahead : flink mem entry ≠ node := by
      rintro rfl
      exact apart next
    obtain ⟨forward, backward⟩ := links node (seen j bound node member)
    rw [forward, backward, if_neg behind, if_neg ahead]
    exact ⟨rfl, rfl⟩

end Families

end

end LinkMemory

end Hal9000
