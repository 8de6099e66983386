import Hal9000.CommonLib.LinkedList

set_option autoImplicit false

namespace Hal9000

open Lib (Ring)

-- A LIST_ENTRY in byte memory: Flink at offset 0 and Blink at offset 8.
instance : LinkMemory Lib.Memory Nat where
  flink mem entry := mem.load 8 entry
  blink mem entry := mem.load 8 (entry + 8)
  setFlink mem entry value := mem.store 8 entry value
  setBlink mem entry value := mem.store 8 (entry + 8) value
  Apart entry other := entry + 16 ≤ other ∨ other + 16 ≤ entry
  Holds value := value < 256 ^ 8
  flink_setFlink := Lib.Memory.load_store
  blink_setBlink := Lib.Memory.load_store
  flink_setFlink_apart apart := Lib.Memory.load_store_apart (by omega)
  blink_setBlink_apart apart := Lib.Memory.load_store_apart (by omega)
  flink_setBlink apart := Lib.Memory.load_store_apart (by omega)
  blink_setFlink apart := Lib.Memory.load_store_apart (by omega)

namespace LinkMemory

open Lib.Memory (Agrees load_congr store_agrees)

theorem links_congr {mem other : Lib.Memory} {entry : Nat} (same : Agrees other mem entry 0x10) :
    flink other entry = flink mem entry ∧ blink other entry = blink mem entry :=
  ⟨load_congr fun place lower upper => same place (by omega) (by omega),
    load_congr fun place lower upper => same place (by omega) (by omega)⟩

theorem ring_congr {mem other : Lib.Memory} {head : Nat} {nodes : List Nat}
    (ring : Ring (flink mem) (blink mem) head nodes)
    (same : forall entry, entry ∈ head :: nodes -> Agrees other mem entry 0x10) :
    Ring (flink other) (blink other) head nodes := by
  refine ring.congr ?_ ?_
  · intro entry member
    exact (links_congr (same entry member)).1
  · intro entry member
    refine (links_congr (same entry ?_)).2
    simp only [List.mem_append, List.mem_cons] at member ⊢
    tauto

def Off (start count entry : Nat) : Prop := start + count ≤ entry ∨ entry + 0x10 ≤ start

theorem insertedTail_agrees {mem : Lib.Memory} {head entry start count : Nat} (new : Off start count entry)
    (last : Off start count (blink mem head)) (first : Off start count head) :
    Agrees (insertedTail mem head entry) mem start count := by
  simp only [Off] at new last first
  refine (store_agrees (by omega)).trans ((store_agrees ?_).trans ((store_agrees (by omega)).trans
    (store_agrees (by omega))))
  omega

theorem insertedHead_agrees {mem : Lib.Memory} {head entry start count : Nat} (new : Off start count entry)
    (next : Off start count (flink mem head)) (first : Off start count head) :
    Agrees (insertedHead mem head entry) mem start count := by
  simp only [Off] at new next first
  refine (store_agrees (by omega)).trans ((store_agrees ?_).trans ((store_agrees (by omega)).trans
    (store_agrees (by omega))))
  omega

theorem removed_agrees {mem : Lib.Memory} {entry start count : Nat} (next : Off start count (flink mem entry))
    (back : Off start count (blink mem entry)) : Agrees (removed mem entry) mem start count := by
  simp only [Off] at next back
  refine (store_agrees ?_).trans (store_agrees ?_)
  · omega
  · omega

end LinkMemory

end Hal9000
