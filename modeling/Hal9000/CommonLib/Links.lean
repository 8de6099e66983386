import Hal9000.CommonLib.LinkedList

set_option autoImplicit false

namespace Hal9000

open Lib (Ring)

structure Links (A : Type) where
  next : A -> A
  back : A -> A

namespace Links

open LinkMemory

variable {A : Type} [DecidableEq A]

instance : LinkMemory (Links A) A where
  flink links entry := links.next entry
  blink links entry := links.back entry
  setFlink links entry value := { links with next := Function.update links.next entry value }
  setBlink links entry value := { links with back := Function.update links.back entry value }
  Apart entry other := entry ≠ other
  Holds _ := True
  flink_setFlink _ := Function.update_self ..
  blink_setBlink _ := Function.update_self ..
  flink_setFlink_apart apart := Function.update_of_ne apart.symm ..
  blink_setBlink_apart apart := Function.update_of_ne apart.symm ..
  flink_setBlink _ := rfl
  blink_setFlink _ := rfl

theorem separate (entries : List A) : Separate (Links A) entries :=
  ⟨fun _ _ _ _ different => different, fun _ _ => trivial⟩

variable {links : Links A} {head entry other : A} {nodes others : List A}

theorem insertedTail_keeps (ring : Ring (flink links) (blink links) head nodes)
    (kept : Ring (flink links) (blink links) other others)
    (apart : forall node, node ∈ other :: others -> node ∉ entry :: head :: nodes) :
    Ring (flink (insertedTail links head entry)) (blink (insertedTail links head entry)) other others := by
  have last : blink links head ∈ head :: nodes := ring.back_mem List.mem_cons_self
  have view := insertedTail_links (separate (entry :: (head :: nodes ++ other :: others))) List.mem_cons_self
    (by simp) (List.mem_cons_of_mem _ (List.mem_append_left _ last))
  have same (node : A) (member : node ∈ other :: others) :
      flink (insertedTail links head entry) node = flink links node ∧
        blink (insertedTail links head entry) node = blink links node := by
    have outside := apart node member
    have notLast : blink links head ≠ node := fun equal => outside (List.mem_cons_of_mem _ (equal ▸ last))
    have notHead : head ≠ node := fun equal => outside (by simp [equal])
    have notEntry : entry ≠ node := fun equal => outside (by simp [equal])
    obtain ⟨forward, backward⟩ := view node (List.mem_cons_of_mem _ (List.mem_append_right _ member))
    rw [forward, backward, if_neg notLast, if_neg notEntry, if_neg notHead, if_neg notEntry]
    exact ⟨rfl, rfl⟩
  refine kept.congr (fun node member => (same node member).1) (fun node member => (same node ?_).2)
  rw [List.mem_append, List.mem_singleton] at member
  exact List.mem_cons.mpr member.symm

def point (links : Links A) (entry value : A) : Links A where
  next := Function.update links.next entry value
  back := Function.update links.back entry value

theorem point_self (links : Links A) (entry value : A) :
    flink (links.point entry value) entry = value ∧ blink (links.point entry value) entry = value :=
  ⟨Function.update_self .., Function.update_self ..⟩

theorem point_other (links : Links A) (value : A) {entry other : A} (different : other ≠ entry) :
    flink (links.point entry value) other = flink links other ∧
      blink (links.point entry value) other = blink links other :=
  ⟨Function.update_of_ne different .., Function.update_of_ne different ..⟩

theorem point_keeps {value : A} (kept : Ring (flink links) (blink links) other others)
    (outside : entry ∉ other :: others) :
    Ring (flink (links.point entry value)) (blink (links.point entry value)) other others := by
  have same (node : A) (member : node ∈ other :: others) := links.point_other value (show node ≠ entry by
    rintro rfl
    exact outside member)
  refine kept.congr (fun node member => (same node member).1) (fun node member => (same node ?_).2)
  rw [List.mem_append, List.mem_singleton] at member
  exact List.mem_cons.mpr member.symm

end Links

end Hal9000
