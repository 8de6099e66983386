import Mathlib.Data.List.Basic
import Mathlib.Logic.Function.Basic

set_option autoImplicit false

namespace Hal9000.Lib

variable {A : Type} {next back next' back' : A -> A}

def Linked (next back : A -> A) (first : A) : List A -> A -> Prop
  | [], last => next first = last ∧ back last = first
  | node :: nodes, last => next first = node ∧ back node = first ∧ Linked next back node nodes last

def Ring (next back : A -> A) (head : A) (nodes : List A) : Prop := Linked next back head nodes head

theorem Linked.append {first node last : A} {front rear : List A} :
    Linked next back first (front ++ node :: rear) last ↔
      Linked next back first front node ∧ Linked next back node rear last := by
  induction front generalizing first with
  | nil => simp [Linked, and_assoc]
  | cons other front ih => simp [Linked, ih, and_assoc]

theorem Linked.congr {first last : A} {nodes : List A} (linked : Linked next back first nodes last)
    (forward : forall node, node ∈ first :: nodes -> next' node = next node)
    (backward : forall node, node ∈ nodes ++ [last] -> back' node = back node) :
    Linked next' back' first nodes last := by
  induction nodes generalizing first with
  | nil => exact ⟨(forward first (by simp)).trans linked.1, (backward last (by simp)).trans linked.2⟩
  | cons node nodes ih =>
    obtain ⟨here, there, rest⟩ := linked
    refine ⟨(forward first (by simp)).trans here, (backward node (by simp)).trans there, ?_⟩
    refine ih rest ?_ ?_
    · intro other member
      exact forward other (by simp [List.mem_cons.mp member])
    · intro other member
      exact backward other (by simpa using .inr (by simpa using member))

namespace Ring

variable {head node : A} {nodes front rear : List A}

theorem next_head (ring : Ring next back head nodes) : next head = nodes.headD head := by
  cases nodes with
  | nil => exact ring.1
  | cons node nodes => exact ring.1

theorem back_head (ring : Ring next back head nodes) : back head = nodes.getLastD head := by
  rcases List.eq_nil_or_concat nodes with rfl | ⟨front, last, rfl⟩
  · exact ring.2
  · rw [List.concat_eq_append] at ring ⊢
    have tail : Linked next back last [] head := (Linked.append.mp ring).2
    simpa using tail.2

theorem rotate (ring : Ring next back head (front ++ node :: rear)) :
    Ring next back node (rear ++ head :: front) := by
  obtain ⟨first, second⟩ := Linked.append.mp ring
  exact Linked.append.mpr ⟨second, first⟩

theorem next_node (ring : Ring next back head (front ++ node :: rear)) : next node = rear.headD head := by
  have linked := (Linked.append.mp ring).2
  cases rear with
  | nil => exact linked.1
  | cons other rear => exact linked.1

theorem back_node (ring : Ring next back head (front ++ node :: rear)) : back node = front.getLastD head := by
  have linked := (Linked.append.mp ring).1
  rcases List.eq_nil_or_concat front with rfl | ⟨start, last, rfl⟩
  · exact linked.2
  · rw [List.concat_eq_append] at linked ⊢
    have tail : Linked next back last [] node := (Linked.append.mp linked).2
    simpa using tail.2

theorem next_mem (ring : Ring next back head nodes) (member : node ∈ head :: nodes) :
    next node ∈ head :: nodes := by
  rcases List.mem_cons.mp member with rfl | inside
  · rw [ring.next_head]
    cases nodes <;> simp
  · obtain ⟨front, rear, rfl⟩ := List.append_of_mem inside
    rw [ring.next_node]
    cases rear <;> simp

theorem back_mem (ring : Ring next back head nodes) (member : node ∈ head :: nodes) :
    back node ∈ head :: nodes := by
  rcases List.mem_cons.mp member with rfl | inside
  · rw [ring.back_head]
    exact List.getLastD_mem_cons
  · obtain ⟨front, rear, rfl⟩ := List.append_of_mem inside
    rw [ring.back_node]
    rcases List.eq_nil_or_concat front with rfl | ⟨start, last, rfl⟩ <;> simp

theorem back_next (ring : Ring next back head nodes) (member : node ∈ head :: nodes) :
    back (next node) = node := by
  rcases List.mem_cons.mp member with rfl | inside
  · cases nodes with
    | nil => rw [ring.1, ring.2]
    | cons first nodes => rw [ring.1, ring.2.1]
  · obtain ⟨front, rear, rfl⟩ := List.append_of_mem inside
    have linked := (Linked.append.mp ring).2
    cases rear with
    | nil => rw [linked.1, linked.2]
    | cons other rear => rw [linked.1, linked.2.1]

theorem next_back (ring : Ring next back head nodes) (member : node ∈ head :: nodes) :
    next (back node) = node := by
  rcases List.mem_cons.mp member with rfl | inside
  · rcases List.eq_nil_or_concat nodes with rfl | ⟨front, last, rfl⟩
    · rw [ring.2, ring.1]
    · rw [List.concat_eq_append] at ring
      obtain ⟨_, tail⟩ := Linked.append.mp ring
      rw [tail.2, tail.1]
  · obtain ⟨front, rear, rfl⟩ := List.append_of_mem inside
    have linked := (Linked.append.mp ring).1
    rcases List.eq_nil_or_concat front with rfl | ⟨start, last, rfl⟩
    · rw [linked.2, linked.1]
    · rw [List.concat_eq_append] at linked
      obtain ⟨_, tail⟩ := Linked.append.mp linked
      rw [tail.2, tail.1]

theorem insert_front {new : A} (ring : Ring next back head nodes) (distinct : (head :: nodes).Nodup)
    (links : next' head = new ∧ next' new = next head ∧ back' new = head ∧ back' (next head) = new)
    (forward : forall node, node ∈ nodes -> next' node = next node)
    (backward : forall node, node ∈ head :: nodes -> node ≠ next head -> back' node = back node) :
    Ring next' back' head (new :: nodes) := by
  obtain ⟨first, second, third, fourth⟩ := links
  refine ⟨first, third, ?_⟩
  cases nodes with
  | nil =>
    rw [ring.1] at second fourth
    exact ⟨second, fourth⟩
  | cons node rest =>
    obtain ⟨start, _, linked⟩ := ring
    rw [start] at second fourth backward
    refine ⟨second, fourth, linked.congr forward ?_⟩
    intro other member
    simp only [List.nodup_cons, List.mem_cons, not_or] at distinct
    rcases List.mem_append.mp member with inside | isHead
    · exact backward other (by simp [inside]) fun same => distinct.2.1 (same ▸ inside)
    · rw [List.mem_singleton.mp isHead]
      exact backward head (by simp) distinct.1.1

theorem remove_front (ring : Ring next back head (node :: nodes)) (distinct : (head :: node :: nodes).Nodup)
    (links : next' head = next node ∧ back' (next node) = head)
    (forward : forall other, other ∈ nodes -> next' other = next other)
    (backward : forall other, other ∈ head :: nodes -> other ≠ next node -> back' other = back other) :
    Ring next' back' head nodes := by
  obtain ⟨first, second⟩ := links
  obtain ⟨_, _, linked⟩ := ring
  cases nodes with
  | nil =>
    rw [linked.1] at first second
    exact ⟨first, second⟩
  | cons behind rest =>
    obtain ⟨start, _, linked⟩ := linked
    rw [start] at first second backward
    refine ⟨first, second, linked.congr forward ?_⟩
    intro other member
    simp only [List.nodup_cons, List.mem_cons, not_or] at distinct
    rcases List.mem_append.mp member with inside | isHead
    · exact backward other (by simp [inside]) fun same => distinct.2.2.1 (same ▸ inside)
    · rw [List.mem_singleton.mp isHead]
      exact backward head (by simp) distinct.1.2.1

theorem nodup_rotate (distinct : (head :: (front ++ node :: rear)).Nodup) :
    (node :: (rear ++ head :: front)).Nodup := by
  refine List.Perm.nodup ?_ distinct
  have := @List.perm_append_comm _ (head :: front) (node :: rear)
  simpa using this

theorem mem_rotate {other : A} :
    other ∈ node :: (rear ++ head :: front) ↔ other ∈ head :: (front ++ node :: rear) := by
  simp only [List.mem_cons, List.mem_append]
  tauto

theorem insert_behind {new : A} (ring : Ring next back head (front ++ node :: rear))
    (distinct : (head :: (front ++ node :: rear)).Nodup)
    (links : next' node = new ∧ next' new = next node ∧ back' new = node ∧ back' (next node) = new)
    (forward : forall other, other ∈ head :: (front ++ node :: rear) -> other ≠ node ->
      next' other = next other)
    (backward : forall other, other ∈ head :: (front ++ node :: rear) -> other ≠ next node ->
      back' other = back other) : Ring next' back' head (front ++ node :: new :: rear) := by
  have turned := nodup_rotate distinct
  have inserted : Ring next' back' node (new :: (rear ++ head :: front)) := by
    refine ring.rotate.insert_front turned links ?_ ?_
    · intro other member
      refine forward other (mem_rotate.mp (List.mem_cons_of_mem _ member)) ?_
      rintro rfl
      exact (List.nodup_cons.mp turned).1 member
    · intro other member
      exact backward other (mem_rotate.mp member)
  rw [← List.cons_append] at inserted
  exact inserted.rotate

theorem remove (ring : Ring next back head (front ++ node :: rear))
    (distinct : (head :: (front ++ node :: rear)).Nodup)
    (links : next' (back node) = next node ∧ back' (next node) = back node)
    (forward : forall other, other ∈ head :: (front ++ rear) -> other ≠ back node ->
      next' other = next other)
    (backward : forall other, other ∈ head :: (front ++ rear) -> other ≠ next node ->
      back' other = back other) : Ring next' back' head (front ++ rear) := by
  rw [ring.back_node] at links forward
  rcases List.eq_nil_or_concat front with rfl | ⟨start, before, rfl⟩
  · rw [List.nil_append] at ring distinct forward backward ⊢
    refine remove_front ring distinct links ?_ backward
    intro other member
    refine forward other (List.mem_cons_of_mem _ member) ?_
    rintro rfl
    exact (List.nodup_cons.mp distinct).1 (List.mem_cons_of_mem _ member)
  · simp only [List.concat_eq_append, List.append_assoc, List.singleton_append,
      List.getLastD_concat] at *
    have turned := nodup_rotate distinct
    have removed : Ring next' back' before (rear ++ head :: start) := by
      refine remove_front ring.rotate turned links ?_ ?_
      · intro other member
        refine forward other (mem_rotate.mp (List.mem_cons_of_mem _ member)) ?_
        rintro rfl
        simp only [List.cons_append, List.nodup_cons, List.mem_cons, not_or] at turned
        exact turned.1.2 member
      · intro other member
        exact backward other (mem_rotate.mp member)
    exact removed.rotate

end Ring

structure Rings (next back : A -> A) (count : Nat) (head : Nat -> A) (nodes : Nat -> List A) : Prop where
  ring : forall i, i < count -> Ring next back (head i) (nodes i)
  distinct : forall i, i < count -> (head i :: nodes i).Nodup
  apart : forall i j, i < count -> j < count -> i ≠ j -> forall node, node ∈ head i :: nodes i ->
    node ∉ head j :: nodes j

theorem Rings.change {count i : Nat} {head : Nat -> A} {nodes : Nat -> List A} {ring : List A}
    (rings : Rings next back count head nodes) (inside : i < count) (changed : Ring next' back' (head i) ring)
    (distinct : (head i :: ring).Nodup)
    (fresh : forall node, node ∈ ring -> node ∈ nodes i ∨ forall j, j < count -> node ∉ head j :: nodes j)
    (others : forall j, j < count -> j ≠ i -> forall node, node ∈ head j :: nodes j ->
      next' node = next node ∧ back' node = back node) :
    Rings next' back' count head (Function.update nodes i ring) := by
  have members (j : Nat) (bound : j < count) (node : A) (member : node ∈ head j :: Function.update nodes i ring j) :
      node ∈ head j :: nodes j ∨ (j = i ∧ forall k, k < count -> node ∉ head k :: nodes k) := by
    by_cases same : j = i
    · subst same
      rw [Function.update_self] at member
      rcases List.mem_cons.mp member with rfl | within
      · exact .inl List.mem_cons_self
      · rcases fresh node within with old | new
        · exact .inl (List.mem_cons_of_mem _ old)
        · exact .inr ⟨rfl, new⟩
    · rw [Function.update_of_ne same] at member
      exact .inl member
  constructor
  · intro j bound
    by_cases same : j = i
    · subst same
      rw [Function.update_self]
      exact changed
    · rw [Function.update_of_ne same]
      refine (rings.ring j bound).congr ?_ ?_
      · intro node member
        exact (others j bound same node member).1
      · intro node member
        refine (others j bound same node ?_).2
        simp only [List.mem_append, List.mem_cons] at member ⊢
        tauto
  · intro j bound
    by_cases same : j = i
    · subst same
      rw [Function.update_self]
      exact distinct
    · rw [Function.update_of_ne same]
      exact rings.distinct j bound
  · intro j k first second different node inFirst inSecond
    rcases members j first node inFirst with old | ⟨rfl, new⟩
    · rcases members k second node inSecond with also | ⟨rfl, new⟩
      · exact rings.apart j k first second different node old also
      · exact new j first old
    · rcases members k second node inSecond with old | ⟨rfl, _⟩
      · exact new k second old
      · exact different rfl

end Hal9000.Lib
