import Hal9000.CommonLib.Heap
import Mathlib.Data.List.Pairwise

set_option autoImplicit false

namespace Hal9000.Heap

open Lib (Ring)
open Lib.Memory (Agrees load_store load_store_apart load_fill_apart load_congr store_agrees fill_agrees)
open LinkMemory

structure Block where
  entry : Nat
  size : Nat
  tag : Nat
  deriving DecidableEq, Repr

namespace Block

def node (b : Block) : Nat := b.entry + 0x10
def data (b : Block) : Nat := b.entry + 0x20
def footprint (b : Block) : Nat := b.size + 0x24
def stop (b : Block) : Nat := b.entry + b.footprint

def Apart (b c : Block) : Prop := b.stop ≤ c.entry ∨ c.stop ≤ b.entry

instance : Std.Symm Apart := ⟨fun _ _ => Or.symm⟩

structure Stored (mem : Lib.Memory) (b : Block) : Prop where
  magic : magicOf mem b.entry = heapMagic
  tag : tagOf mem b.entry = b.tag
  size : sizeOf mem b.entry = b.size
  offset : offsetOf mem b.entry = 0x20
  tail : mem.load 4 (b.data + b.size) = heapMagic

theorem Stored.congr {mem other : Lib.Memory} {b : Block} (stored : b.Stored mem)
    (header : Agrees other mem b.entry 0x10) (tail : Agrees other mem (b.data + b.size) 4) :
    b.Stored other := by
  have field (offset : Nat) (inside : offset + 4 ≤ 0x10) :
      other.load 4 (b.entry + offset) = mem.load 4 (b.entry + offset) :=
    load_congr fun place lower upper => header place (by omega) (by omega)
  exact ⟨(field 0 (by omega)).trans stored.magic, (field 4 (by omega)).trans stored.tag,
    (field 8 (by omega)).trans stored.size, (field 0xC (by omega)).trans stored.offset,
    (load_congr tail).trans stored.tail⟩

end Block

structure Layout (head : Nat) (blocks : List Block) : Prop where
  sorted : blocks.Pairwise (fun b c => b.stop ≤ c.entry)
  room : head + 0x10 ≤ 2 ^ 64
  above : forall b, b ∈ blocks -> head + 0x10 ≤ b.entry
  below : forall b, b ∈ blocks -> b.stop ≤ 2 ^ 64

namespace Layout

variable {head : Nat} {blocks front rear : List Block} {b c : Block}

theorem apart (layout : Layout head blocks) (first : b ∈ blocks) (second : c ∈ blocks) (other : b ≠ c) :
    b.Apart c := by
  have pairs : blocks.Pairwise Block.Apart := layout.sorted.imp Or.inl
  exact pairs.forall first second other

theorem node_injective (layout : Layout head blocks) (first : b ∈ blocks) (second : c ∈ blocks)
    (same : b.node = c.node) : b = c := by
  by_contra other
  rcases layout.apart first second other with before | before
  all_goals
    simp only [Block.stop, Block.footprint, Block.node] at before same
    omega

theorem nodup (layout : Layout head blocks) : (head :: blocks.map Block.node).Nodup := by
  refine List.nodup_cons.mpr ⟨?_, ?_⟩
  · intro member
    obtain ⟨b, inside, same⟩ := List.mem_map.mp member
    have := layout.above b inside
    simp only [Block.node] at same
    omega
  · refine List.Pairwise.map _ ?_ layout.sorted
    intro b c before same
    simp only [Block.stop, Block.footprint, Block.node] at before same
    omega

theorem separate (layout : Layout head blocks) : Separate Lib.Memory (head :: blocks.map Block.node) := by
  constructor
  · intro entry other first second different
    simp only [LinkMemory.Apart]
    rcases List.mem_cons.mp first with rfl | first' <;> rcases List.mem_cons.mp second with rfl | second'
    · exact absurd rfl different
    · obtain ⟨c, inside, rfl⟩ := List.mem_map.mp second'
      have := layout.above c inside
      simp only [Block.node]
      omega
    · obtain ⟨b, inside, rfl⟩ := List.mem_map.mp first'
      have := layout.above b inside
      simp only [Block.node]
      omega
    · obtain ⟨b, insideB, rfl⟩ := List.mem_map.mp first'
      obtain ⟨c, insideC, rfl⟩ := List.mem_map.mp second'
      have unlike : b ≠ c := fun same => different (by rw [same])
      rcases layout.apart insideB insideC unlike with before | before
      all_goals
        simp only [Block.stop, Block.footprint, Block.node] at before ⊢
        omega
  · intro entry member
    simp only [LinkMemory.Holds]
    rcases List.mem_cons.mp member with rfl | linked
    · have := layout.room
      omega
    · obtain ⟨b, inside, rfl⟩ := List.mem_map.mp linked
      have := layout.below b inside
      simp only [Block.stop, Block.footprint, Block.node] at this ⊢
      omega

theorem sublist {fewer : List Block} (layout : Layout head blocks) (sub : fewer.Sublist blocks) :
    Layout head fewer :=
  ⟨layout.sorted.sublist sub, layout.room, fun b inside => layout.above b (sub.subset inside),
    fun b inside => layout.below b (sub.subset inside)⟩

end Layout

structure Inscribed (mem : Lib.Memory) (head : Nat) (blocks : List Block) : Prop where
  stored : forall b, b ∈ blocks -> b.Stored mem
  ring : Ring (flink mem) (blink mem) head (blocks.map Block.node)

namespace Inscribed

variable {mem other : Lib.Memory} {head : Nat} {blocks front rear : List Block} {b : Block}

theorem data_write (inscribed : Inscribed mem head blocks) (layout : Layout head blocks) (member : b ∈ blocks)
    (keeps : forall place, ¬ (b.data ≤ place ∧ place < b.data + b.size) -> other place = mem place) :
    Inscribed other head blocks := by
  have outside (c : Block) (inside : c ∈ blocks) (place : Nat) (lower : c.entry ≤ place)
      (upper : place < c.data ∨ c.data + c.size ≤ place ∧ place < c.stop) : other place = mem place := by
    apply keeps
    by_cases same : c = b
    · subst same
      omega
    · rcases layout.apart inside member same with before | before
      all_goals
        simp only [Block.stop, Block.footprint, Block.data] at before upper ⊢
        omega
  constructor
  · intro c inside
    refine (inscribed.stored c inside).congr ?_ ?_
    · intro place lower upper
      exact outside c inside place lower (by simp only [Block.data]; omega)
    · intro place lower upper
      refine outside c inside place ?_ ?_
      all_goals
        simp only [Block.stop, Block.footprint, Block.data] at lower upper ⊢
        omega
  · refine ring_congr inscribed.ring ?_
    intro entry linked place lower upper
    rcases List.mem_cons.mp linked with rfl | linked'
    · apply keeps
      have := layout.above b member
      simp only [Block.data]
      omega
    · obtain ⟨c, inside, rfl⟩ := List.mem_map.mp linked'
      simp only [Block.node] at lower upper
      exact outside c inside place (by omega) (by simp only [Block.data]; omega)

end Inscribed

-- _InitHeapEntry writes the header's magic, size and tag, then its offset and the tail.
def beginEntry (mem : Lib.Memory) (b : Block) : Lib.Memory :=
  ((mem.store 4 b.entry heapMagic).store 4 (b.entry + 0x8) b.size).store 4 (b.entry + 0x4) b.tag

def finishEntry (mem : Lib.Memory) (b : Block) : Lib.Memory :=
  (mem.store 4 (b.entry + 0xC) 0x20).store 4 (b.data + b.size) heapMagic

theorem beginEntry_agrees {mem : Lib.Memory} {b : Block} {start count : Nat}
    (apart : start + count ≤ b.entry ∨ b.entry + 0xC ≤ start) : Agrees (beginEntry mem b) mem start count :=
  (store_agrees (by omega)).trans ((store_agrees (by omega)).trans (store_agrees (by omega)))

theorem finishEntry_agrees {mem : Lib.Memory} {b : Block} {start count : Nat}
    (header : start + count ≤ b.entry + 0xC ∨ b.entry + 0x10 ≤ start)
    (tail : start + count ≤ b.data + b.size ∨ b.stop ≤ start) : Agrees (finishEntry mem b) mem start count := by
  refine (store_agrees ?_).trans (store_agrees (by omega))
  simp only [Block.stop, Block.footprint, Block.data] at tail ⊢
  omega

theorem stored_of_writes {mem between : Lib.Memory} {b : Block} (size : b.size < 2 ^ 32) (tag : b.tag < 2 ^ 32)
    (header : Agrees between (beginEntry mem b) b.entry 0x10) : b.Stored (finishEntry between b) := by
  have kept (offset : Nat) (inside : offset + 4 ≤ 0xC) :
      (finishEntry between b).load 4 (b.entry + offset) = (beginEntry mem b).load 4 (b.entry + offset) := by
    refine (load_congr (finishEntry_agrees ?_ ?_)).trans
      (load_congr fun place lower upper => header place (by omega) (by omega))
    · omega
    · simp only [Block.stop, Block.footprint, Block.data]
      omega
  have magic : heapMagic < 256 ^ 4 := by decide
  constructor
  · refine (kept 0 (by omega)).trans ?_
    rw [beginEntry, load_store_apart (by omega), load_store_apart (by omega), Nat.add_zero, load_store magic]
  · refine (kept 4 (by omega)).trans ?_
    rw [beginEntry, load_store (by omega)]
  · refine (kept 8 (by omega)).trans ?_
    rw [beginEntry, load_store_apart (by omega), load_store (by omega)]
  · rw [offsetOf, finishEntry, load_store_apart (by simp only [Block.data]; omega), load_store (by decide)]
  · rw [finishEntry, load_store magic]

namespace Layout

variable {head : Nat} {blocks : List Block} {b : Block}

theorem fields_off (layout : Layout head blocks) (inside : b ∈ blocks) {entry : Nat}
    (linked : entry ∈ head :: blocks.map Block.node) :
    Off b.entry 0x10 entry ∧ Off (b.data + b.size) 4 entry := by
  simp only [Off, Block.data]
  rcases List.mem_cons.mp linked with rfl | linked'
  · have := layout.above b inside
    omega
  · obtain ⟨c, member, rfl⟩ := List.mem_map.mp linked'
    simp only [Block.node]
    by_cases same : c = b
    · subst same
      omega
    · rcases layout.apart member inside same with before | before
      all_goals
        simp only [Block.stop, Block.footprint] at before
        omega

theorem entry_off (layout : Layout head blocks) (inside : b ∈ blocks) {entry : Nat}
    (linked : entry ∈ head :: blocks.map Block.node) (other : entry ≠ b.node) :
    entry + 0x10 ≤ b.entry ∨ b.stop ≤ entry := by
  rcases List.mem_cons.mp linked with rfl | linked'
  · exact .inl (layout.above b inside)
  · obtain ⟨c, member, rfl⟩ := List.mem_map.mp linked'
    have unlike : c ≠ b := fun same => other (by rw [same])
    rcases layout.apart member inside unlike with before | before
    all_goals
      simp only [Block.stop, Block.footprint, Block.node] at before ⊢
      omega

end Layout

theorem Block.Stored.beside_begin {mem : Lib.Memory} {b c : Block} (stored : c.Stored mem) (apart : c.Apart b) :
    c.Stored (beginEntry mem b) := by
  refine stored.congr (beginEntry_agrees ?_) (beginEntry_agrees ?_)
  all_goals
    simp only [Block.Apart, Block.stop, Block.footprint, Block.data] at apart ⊢
    omega

theorem Block.Stored.beside_finish {mem : Lib.Memory} {b c : Block} (stored : c.Stored mem) (apart : c.Apart b) :
    c.Stored (finishEntry mem b) := by
  refine stored.congr (finishEntry_agrees ?_ ?_) (finishEntry_agrees ?_ ?_)
  all_goals
    simp only [Block.Apart, Block.stop, Block.footprint, Block.data] at apart ⊢
    omega

theorem ring_begin {mem : Lib.Memory} {head : Nat} {nodes : List Nat} {b : Block}
    (ring : Ring (flink mem) (blink mem) head nodes)
    (off : forall entry, entry ∈ head :: nodes -> entry + 0x10 ≤ b.entry ∨ b.stop ≤ entry) :
    Ring (flink (beginEntry mem b)) (blink (beginEntry mem b)) head nodes := by
  refine ring_congr ring fun entry member => beginEntry_agrees ?_
  have away := off entry member
  simp only [Block.stop, Block.footprint] at away
  omega

theorem ring_finish {mem : Lib.Memory} {head : Nat} {nodes : List Nat} {b : Block}
    (ring : Ring (flink mem) (blink mem) head nodes)
    (off : forall entry, entry ∈ head :: nodes ->
      entry = b.node ∨ entry + 0x10 ≤ b.entry ∨ b.stop ≤ entry) :
    Ring (flink (finishEntry mem b)) (blink (finishEntry mem b)) head nodes := by
  refine ring_congr ring fun entry member => finishEntry_agrees ?_ ?_
  all_goals
    have away := off entry member
    simp only [Block.stop, Block.footprint, Block.node, Block.data] at away ⊢
    omega

structure Added (head : Nat) (b : Block) (blocks more : List Block) : Prop where
  layout : Layout head more
  perm : more.Perm (b :: blocks)

namespace Added

variable {head : Nat} {blocks more : List Block} {b c : Block}

theorem new_mem (added : Added head b blocks more) : b ∈ more := added.perm.mem_iff.mpr List.mem_cons_self

theorem old_mem (added : Added head b blocks more) (inside : c ∈ blocks) : c ∈ more :=
  added.perm.mem_iff.mpr (List.mem_cons_of_mem _ inside)

theorem linked (added : Added head b blocks more) {entry : Nat} (member : entry ∈ head :: blocks.map Block.node) :
    entry ∈ head :: more.map Block.node := by
  rcases List.mem_cons.mp member with rfl | listed
  · exact List.mem_cons_self
  · obtain ⟨c, inside, rfl⟩ := List.mem_map.mp listed
    exact List.mem_cons_of_mem _ (List.mem_map_of_mem (added.old_mem inside))

theorem node_mem (added : Added head b blocks more) : b.node ∈ head :: more.map Block.node :=
  List.mem_cons_of_mem _ (List.mem_map_of_mem added.new_mem)

theorem nodup (added : Added head b blocks more) : (b.node :: head :: blocks.map Block.node).Nodup := by
  refine List.Perm.nodup ?_ added.layout.nodup
  exact ((added.perm.map Block.node).cons head).trans (List.Perm.swap _ _ _)

theorem separate (added : Added head b blocks more) :
    Separate Lib.Memory (b.node :: head :: blocks.map Block.node) := by
  have within (entry : Nat) (member : entry ∈ b.node :: head :: blocks.map Block.node) :
      entry ∈ head :: more.map Block.node := by
    rcases List.mem_cons.mp member with rfl | old
    · exact added.node_mem
    · exact added.linked old
  exact ⟨fun entry other first second => added.layout.separate.apart _ _ (within _ first) (within _ second),
    fun entry member => added.layout.separate.holds _ (within _ member)⟩

theorem apart (added : Added head b blocks more) (inside : c ∈ blocks) : c.Apart b := by
  apply added.layout.apart (added.old_mem inside) added.new_mem
  rintro rfl
  have outside := (List.nodup_cons.mp added.nodup).1
  exact outside (List.mem_cons_of_mem _ (List.mem_map_of_mem inside))

theorem entry_off (added : Added head b blocks more) {entry : Nat}
    (member : entry ∈ head :: blocks.map Block.node) : entry + 0x10 ≤ b.entry ∨ b.stop ≤ entry := by
  refine added.layout.entry_off added.new_mem (added.linked member) ?_
  rintro rfl
  exact (List.nodup_cons.mp added.nodup).1 member

end Added

namespace Inscribed

variable {mem : Lib.Memory} {head : Nat} {blocks front rear : List Block} {b p : Block}

theorem append (inscribed : Inscribed mem head blocks) (layout : Layout head (blocks ++ [b]))
    (size : b.size < 2 ^ 32) (tag : b.tag < 2 ^ 32) :
    Inscribed (finishEntry (insertedTail (beginEntry mem b) head b.node) b) head (blocks ++ [b]) := by
  have added : Added head b blocks (blocks ++ [b]) := ⟨layout, List.perm_append_singleton b blocks⟩
  have begun := ring_begin inscribed.ring fun _ => added.entry_off
  have last : blink (beginEntry mem b) head ∈ head :: (blocks ++ [b]).map Block.node := by
    apply added.linked
    rw [begun.back_head]
    exact List.getLastD_mem_cons
  have fields (c : Block) (inside : c ∈ blocks ++ [b]) :
      Agrees (insertedTail (beginEntry mem b) head b.node) (beginEntry mem b) c.entry 0x10 ∧
        Agrees (insertedTail (beginEntry mem b) head b.node) (beginEntry mem b) (c.data + c.size) 4 := by
    have here := layout.fields_off inside added.node_mem
    have there := layout.fields_off inside last
    have first := layout.fields_off inside List.mem_cons_self
    exact ⟨insertedTail_agrees here.1 there.1 first.1, insertedTail_agrees here.2 there.2 first.2⟩
  constructor
  · intro c inside
    rcases List.mem_cons.mp (added.perm.mem_iff.mp inside) with rfl | old
    · exact stored_of_writes size tag (fields c inside).1
    · have stored := (inscribed.stored c old).beside_begin (added.apart old)
      exact (stored.congr (fields c inside).1 (fields c inside).2).beside_finish (added.apart old)
  · rw [List.map_append, List.map_singleton]
    refine ring_finish (insertedTail_ring begun added.nodup added.separate) fun entry member => ?_
    rw [← List.cons_append, List.mem_append, List.mem_singleton] at member
    rcases member with old | same
    · exact .inr (added.entry_off old)
    · exact .inl same

theorem insert (inscribed : Inscribed mem head (front ++ p :: rear))
    (layout : Layout head (front ++ p :: b :: rear)) (size : b.size < 2 ^ 32) (tag : b.tag < 2 ^ 32) :
    Inscribed (insertedHead (finishEntry (beginEntry mem b) b) p.node b.node) head
      (front ++ p :: b :: rear) := by
  have added : Added head b (front ++ p :: rear) (front ++ p :: b :: rear) := by
    refine ⟨layout, ?_⟩
    have moved := @List.perm_middle _ b (front ++ [p]) rear
    simpa using moved
  have written : Ring (flink (finishEntry (beginEntry mem b) b)) (blink (finishEntry (beginEntry mem b) b)) head
      ((front ++ p :: rear).map Block.node) :=
    ring_finish (ring_begin inscribed.ring fun _ => added.entry_off) fun _ member =>
      .inr (added.entry_off member)
  have previous : p.node ∈ head :: (front ++ p :: rear).map Block.node := by simp
  have next := added.linked (written.next_mem previous)
  have fields (c : Block) (inside : c ∈ front ++ p :: b :: rear) (stored : c.Stored (finishEntry (beginEntry mem b) b)) :
      c.Stored (insertedHead (finishEntry (beginEntry mem b) b) p.node b.node) := by
    have here := layout.fields_off inside added.node_mem
    have there := layout.fields_off inside next
    have first := layout.fields_off inside (added.linked previous)
    exact stored.congr (insertedHead_agrees here.1 there.1 first.1) (insertedHead_agrees here.2 there.2 first.2)
  constructor
  · intro c inside
    apply fields c inside
    rcases List.mem_cons.mp (added.perm.mem_iff.mp inside) with rfl | old
    · exact stored_of_writes size tag fun place _ _ => rfl
    · exact ((inscribed.stored c old).beside_begin (added.apart old)).beside_finish (added.apart old)
  · have distinct := added.nodup
    have separate := added.separate
    simp only [List.map_append, List.map_cons] at written distinct separate ⊢
    exact insertedHead_ring written distinct separate

theorem remove (inscribed : Inscribed mem head (front ++ b :: rear)) (layout : Layout head (front ++ b :: rear))
    (pattern : UInt8) :
    Inscribed ((removed mem b.node).fill b.entry b.footprint pattern) head (front ++ rear) := by
  have new : b ∈ front ++ b :: rear := by simp
  have added : Added head b (front ++ rear) (front ++ b :: rear) := ⟨layout, List.perm_middle⟩
  have member : b.node ∈ head :: (front ++ b :: rear).map Block.node := added.node_mem
  have next := inscribed.ring.next_mem member
  have back : blink mem b.node ∈ head :: (front ++ b :: rear).map Block.node := by
    have ring := inscribed.ring
    rw [List.map_append, List.map_cons] at ring ⊢
    rw [ring.back_node]
    exact last_mem
  constructor
  · intro c inside
    have old := added.old_mem inside
    have apart := added.apart inside
    have here := layout.fields_off old next
    have there := layout.fields_off old back
    refine (inscribed.stored c old).congr ((fill_agrees ?_).trans (removed_agrees here.1 there.1))
      ((fill_agrees ?_).trans (removed_agrees here.2 there.2))
    all_goals
      simp only [Block.Apart, Block.stop, Block.footprint, Block.data] at apart ⊢
      omega
  · have ring := inscribed.ring
    have distinct := layout.nodup
    have separate := layout.separate
    simp only [List.map_append, List.map_cons] at ring distinct separate
    have unlinked := removed_ring ring distinct separate
    rw [← List.map_append] at unlinked
    refine ring_congr unlinked fun entry linked => fill_agrees ?_
    have off := added.entry_off linked
    simp only [Block.stop] at off
    omega

end Inscribed

end Hal9000.Heap
