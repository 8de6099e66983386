import Hal9000.CommonLib.HeapSearch
import Hal9000.Lib.Transition

set_option autoImplicit false

namespace Hal9000.Heap

open Lib (Ring TransitionSystem)
open LinkMemory

-- A pointer handed out and not freed yet, with the arguments of its allocation.
structure Live where
  address : Nat
  size : Nat
  tag : Nat
  alignment : Nat
  deriving DecidableEq, Repr

def Live.block (l : Live) : Block where
  entry := l.address - 0x20
  size := l.size
  tag := l.tag

def Live.node (l : Live) : Nat := l.address - 0x10

structure State where
  heap : Heap
  live : List Live

inductive Call where
  | allocate (flags allocationSize tag allocationAlignment : Nat)
  | free (l : Live)
  | write (l : Live) (offset : Nat) (byte : UInt8)

def afterAllocate (s : State) (heap : Heap) (address allocationSize tag allocationAlignment : Nat) : State where
  heap := heap
  live := if address = 0 then s.live else
    { address := address, size := allocationSize, tag := tag, alignment := allocationAlignment } :: s.live

inductive Step (s : State) : Call -> State -> Prop where
  | allocate {fuel flags allocationSize tag allocationAlignment address : Nat} {heap : Heap}
      (dwords : allocationSize < 2 ^ 32 ∧ tag < 2 ^ 32 ∧ allocationAlignment < 2 ^ 32)
      (result : clHeapAllocatePoolWithTag fuel s.heap flags allocationSize tag allocationAlignment =
        .ok (heap, address)) :
      Step s (.allocate flags allocationSize tag allocationAlignment)
        (afterAllocate s heap address allocationSize tag allocationAlignment)
  | free {l : Live} {heap : Heap} (live : l ∈ s.live)
      (result : clHeapFreePoolWithTag s.heap l.address l.tag = .ok heap) :
      Step s (.free l) { heap := heap, live := s.live.erase l }
  | write {l : Live} {offset : Nat} {byte : UInt8} (live : l ∈ s.live) (inside : offset < l.size) :
      Step s (.write l offset byte)
        { s with heap := { s.heap with mem := s.heap.mem.fill (l.address + offset) 1 byte } }

def heapSystem (limit : Nat) : TransitionSystem State Call where
  initial s := s.live = [] ∧ ∃ mem baseAddress memoryAvailable,
    clHeapInit mem baseAddress memoryAvailable = (.success, some s.heap) ∧
      baseAddress + memoryAvailable ≤ 2 ^ 64 ∧ memoryAvailable < limit
  step := Step

def CursorLive (s : State) : Prop :=
  s.heap.entryToRestartSearch = s.heap.heapAllocations ∨
    ∃ l, l ∈ s.live ∧ s.heap.entryToRestartSearch = l.node

def aligned (l : Live) : Prop :=
  l.address % (if l.alignment = 0 then heapDefaultAlignment else l.alignment) = 0

def alignmentAllowed (alignment : Nat) : Prop := alignment = 0 ∨ ∃ k, alignment = 2 ^ k

def Allowed (s : State) : Call -> Prop
  | .allocate .. => CursorLive s
  | _ => True

theorem Represents.data_write {h : Heap} {blocks : List Block} {b : Block} (represents : Represents h blocks)
    (inside : b ∈ blocks) {start count : Nat} {byte : UInt8}
    (within : b.data ≤ start ∧ start + count ≤ b.data + b.size) :
    Represents { h with mem := h.mem.fill start count byte } blocks := by
  refine ⟨represents.base, represents.region, represents.layout, represents.valid, ?_, represents.free,
    represents.room, represents.count, represents.remaining⟩
  refine represents.inscribed.data_write represents.layout inside fun place outside => ?_
  exact Lib.Memory.fill_elsewhere (by omega)

theorem Placement.zeroed {h after : Heap} {blocks : List Block} {request : Request} {b : Block}
    (placement : Placement h blocks request after b) :
    Placement h blocks request { after with mem := after.mem.fill b.data request.size 0 } b := by
  obtain ⟨more, perm, represents⟩ := placement.represents
  have inside : b ∈ more := perm.mem_iff.mpr List.mem_cons_self
  have size := placement.size
  exact { placement with
    represents := ⟨more, perm, represents.data_write inside ⟨Nat.le_refl _, by omega⟩⟩ }

def requestOf (allocationSize tag allocationAlignment : Nat) : Request where
  size := allocationSize
  tag := tag
  alignment := if allocationAlignment = 0 then heapDefaultAlignment else allocationAlignment

theorem requestOf_valid {allocationSize tag allocationAlignment : Nat} (size : allocationSize + 0x24 < 2 ^ 32)
    (dwords : tag < 2 ^ 32 ∧ allocationAlignment < 2 ^ 32) :
    (requestOf allocationSize tag allocationAlignment).Valid := by
  refine ⟨size, dwords.1, ?_⟩
  rw [requestOf]
  dsimp only
  split
  · decide
  · omega

theorem sizeRequired_eq {request : Request} (dword : request.size < 2 ^ 32) :
    request.sizeRequired = request.size + 0x24 := by
  simp only [Request.sizeRequired, qword, sizeofHeapEntry, sizeofHeapTail]
  omega

theorem allocate_refused {h : Heap} {blocks : List Block} {request : Request} (dword : request.size < 2 ^ 32)
    (refused : request.tag = 0 ∨ h.heapSizeRemaining < request.size + 0x24) (fuel : Nat) :
    CallEnds h blocks request (h.allocate fuel request) := by
  have required := sizeRequired_eq dword
  unfold allocate
  left
  split
  · exact ⟨_, by decide, rfl⟩
  split
  · exact ⟨_, by decide, rfl⟩
  · rename_i tag
    have little := refused.resolve_left tag
    rw [if_pos (by omega)]
    exact ⟨_, by decide, rfl⟩

theorem clHeapAllocatePoolWithTag_cases {h after : Heap} {blocks : List Block}
    {fuel flags allocationSize tag allocationAlignment address : Nat}
    (result : clHeapAllocatePoolWithTag fuel h flags allocationSize tag allocationAlignment = .ok (after, address))
    (cases : (∃ text, h.allocate fuel (requestOf allocationSize tag allocationAlignment) = .error text) ∨
      CallEnds h blocks (requestOf allocationSize tag allocationAlignment)
        (h.allocate fuel (requestOf allocationSize tag allocationAlignment))) :
    (after = h ∧ address = 0) ∨ ∃ b, address = b.data ∧
      Placement h blocks (requestOf allocationSize tag allocationAlignment) after b := by
  unfold clHeapAllocatePoolWithTag at result
  dsimp only at result
  rw [← requestOf] at result
  have sizes : (requestOf allocationSize tag allocationAlignment).size = allocationSize := rfl
  generalize requestOf allocationSize tag allocationAlignment = request at *
  rcases cases with ⟨text, failed⟩ | ⟨status, unsuccessful, failed⟩ | ⟨placed, b, done, placement⟩
  · rw [failed, Kernel.error_bind] at result
    cases result
  · rw [failed, Kernel.ok_bind] at result
    dsimp only at result
    rw [Kernel.assert_bind_eq_ok, Kernel.assert_bind_eq_ok, if_neg fun both => unsuccessful both.1] at result
    have same := Prod.mk.inj (Except.ok.inj result.2.2)
    exact .inl ⟨same.1.symm, same.2.symm⟩
  · rw [done, Kernel.ok_bind] at result
    dsimp only at result
    rw [Kernel.assert_bind_eq_ok, Kernel.assert_bind_eq_ok] at result
    obtain ⟨_, _, result⟩ := result
    right
    split at result
    · have same := Prod.mk.inj (Except.ok.inj result)
      rw [← same.1, ← sizes]
      exact ⟨b, same.2.symm, placement.zeroed⟩
    · have same := Prod.mk.inj (Except.ok.inj result)
      rw [← same.1]
      exact ⟨b, same.2.symm, placement⟩

structure Faithful (limit : Nat) (s : State) (blocks : List Block) : Prop where
  represents : Represents s.heap blocks
  perm : blocks.Perm (s.live.map Live.block)
  placed : forall l, l ∈ s.live -> 0x20 ≤ l.address ∧ (alignmentAllowed l.alignment -> aligned l)
  small : s.heap.heapSizeMaximum < limit

theorem power_of_allowed {alignment : Nat} (dword : alignment < 2 ^ 32) (allowed : alignmentAllowed alignment) :
    ∃ k, k < 64 ∧ (if alignment = 0 then heapDefaultAlignment else alignment) = 2 ^ k := by
  rcases allowed with rfl | ⟨k, rfl⟩
  · exact ⟨4, by decide, rfl⟩
  · rw [if_neg (Nat.two_pow_pos k).ne']
    have small : k < 32 := (Nat.pow_lt_pow_iff_right (by decide : 1 < 2)).mp dword
    exact ⟨k, by omega, rfl⟩

namespace Faithful

variable {limit : Nat} {s after : State} {blocks : List Block} {l : Live}

theorem block_mem (faithful : Faithful limit s blocks) (live : l ∈ s.live) : l.block ∈ blocks :=
  faithful.perm.mem_iff.mpr (List.mem_map_of_mem live)

theorem data_eq (faithful : Faithful limit s blocks) (live : l ∈ s.live) : l.block.data = l.address := by
  have := (faithful.placed l live).1
  simp only [Block.data, Live.block]
  omega

theorem node_eq (faithful : Faithful limit s blocks) (live : l ∈ s.live) : l.block.node = l.node := by
  have := (faithful.placed l live).1
  simp only [Block.node, Live.block, Live.node]
  omega

theorem cursor_mem (faithful : Faithful limit s blocks) (cursor : CursorLive s) :
    s.heap.entryToRestartSearch ∈ s.heap.heapAllocations :: blocks.map Block.node := by
  rcases cursor with isHead | ⟨l, live, here⟩
  · rw [isHead]
    exact List.mem_cons_self
  · rw [here, ← faithful.node_eq live]
    exact List.mem_cons_of_mem _ (List.mem_map_of_mem (faithful.block_mem live))

theorem start {mem : Lib.Memory} {baseAddress memoryAvailable : Nat} {h : Heap}
    (made : clHeapInit mem baseAddress memoryAvailable = (.success, some h))
    (region : baseAddress + memoryAvailable ≤ 2 ^ 64) (small : memoryAvailable < limit) :
    Faithful limit { heap := h, live := [] } [] := by
  refine ⟨(clHeapInit_represents made region).1, List.Perm.nil, nofun, ?_⟩
  unfold clHeapInit at made
  split at made
  · simp at made
  split at made
  · simp at made
  · rw [← Option.some.inj (Prod.mk.inj made).2]
    exact small

theorem placement {heap : Heap} {b : Block} {allocationSize tag allocationAlignment : Nat}
    (faithful : Faithful limit s blocks) (dword : allocationAlignment < 2 ^ 32)
    (placement : Placement s.heap blocks (requestOf allocationSize tag allocationAlignment) heap b) :
    ∃ more, Faithful limit (afterAllocate s heap b.data allocationSize tag allocationAlignment) more := by
  obtain ⟨more, perm, represents⟩ := placement.represents
  have occupied : b.data ≠ 0 := by simp [Block.data]
  refine ⟨more, represents, ?_, ?_, ?_⟩
  · rw [afterAllocate, if_neg occupied, List.map_cons]
    have new : Live.block ⟨b.data, allocationSize, tag, allocationAlignment⟩ = b := by
      have size : allocationSize = b.size := placement.size.symm
      have tags : tag = b.tag := placement.tag.symm
      simp [Live.block, Block.data, size, tags]
    rw [new]
    exact perm.trans (faithful.perm.cons b)
  · intro l live
    rw [afterAllocate, if_neg occupied] at live
    rcases List.mem_cons.mp live with rfl | old
    · refine ⟨Nat.le_add_left _ _, fun allowed => ?_⟩
      obtain ⟨start, same, behind, positive⟩ := placement.start
      obtain ⟨k, below, power⟩ := power_of_allowed dword allowed
      have up := alignAddressUpper_aligned (start + 0x20) k below
      have entry : b.entry = alignAddressUpper (start + 0x20) (2 ^ k) - 0x20 := by
        rw [same, ← power]
        rfl
      have data : b.data = alignAddressUpper (start + 0x20) (2 ^ k) := by
        rw [Block.data]
        omega
      rw [aligned, power, data, up]
    · exact faithful.placed l old
  · exact placement.maximum.trans_lt faithful.small

theorem free (faithful : Faithful limit s blocks) (live : l ∈ s.live) {heap : Heap}
    (result : clHeapFreePoolWithTag s.heap l.address l.tag = .ok heap) :
    ∃ fewer, Faithful limit { heap := heap, live := s.live.erase l } fewer := by
  obtain ⟨front, rear, split⟩ := List.append_of_mem (faithful.block_mem live)
  have represents := split ▸ faithful.represents
  have freed := represents.free_eq
  have data := faithful.data_eq live
  have tag : l.block.tag = l.tag := rfl
  rw [data, tag, result] at freed
  rw [Except.ok.inj freed]
  refine ⟨front ++ rear, represents.remove, ?_, fun other still => faithful.placed other (List.mem_of_mem_erase still),
    faithful.small⟩
  have perm := (split ▸ faithful.perm).trans ((List.perm_cons_erase live).map Live.block)
  exact (List.perm_middle.symm.trans perm).cons_inv

theorem write (faithful : Faithful limit s blocks) (live : l ∈ s.live) {offset : Nat} (inside : offset < l.size)
    (byte : UInt8) : Faithful limit
      { s with heap := { s.heap with mem := s.heap.mem.fill (l.address + offset) 1 byte } } blocks := by
  have data := faithful.data_eq live
  have size : l.block.size = l.size := rfl
  refine ⟨faithful.represents.data_write (faithful.block_mem live) ?_, faithful.perm, faithful.placed,
    faithful.small⟩
  omega

end Faithful

theorem Faithful.allocate {limit fuel flags allocationSize tag allocationAlignment address : Nat} {s : State}
    {heap : Heap} {blocks : List Block} (faithful : Faithful limit s blocks) (dword : allocationAlignment < 2 ^ 32)
    (cases : (∃ text, s.heap.allocate fuel (requestOf allocationSize tag allocationAlignment) = .error text) ∨
      CallEnds s.heap blocks (requestOf allocationSize tag allocationAlignment)
        (s.heap.allocate fuel (requestOf allocationSize tag allocationAlignment)))
    (result : clHeapAllocatePoolWithTag fuel s.heap flags allocationSize tag allocationAlignment =
      .ok (heap, address)) :
    ∃ more, Faithful limit (afterAllocate s heap address allocationSize tag allocationAlignment) more := by
  rcases clHeapAllocatePoolWithTag_cases result cases with ⟨unchanged, null⟩ | ⟨b, returned, placement⟩
  · rw [unchanged, null, afterAllocate, if_pos rfl]
    exact ⟨blocks, faithful⟩
  · rw [returned]
    exact faithful.placement dword placement

theorem step_faithful {s after : State} {call : Call} {blocks : List Block} (faithful : Faithful (2 ^ 32) s blocks)
    (allowed : Allowed s call) (step : Step s call after) : ∃ more, Faithful (2 ^ 32) after more := by
  cases step with
  | @allocate fuel flags allocationSize tag allocationAlignment address heap dwords result =>
    refine faithful.allocate dwords.2.2 ?_ result
    have small := faithful.small
    have remaining := faithful.represents.remaining
    by_cases large : 2 ^ 32 ≤ allocationSize + 0x24
    · refine .inr (allocate_refused dwords.1 (.inr ?_) fuel)
      change _ < allocationSize + 0x24
      omega
    · exact faithful.represents.allocate_cases (faithful.cursor_mem allowed)
        (requestOf_valid (by omega) dwords.2) (by omega) fuel
  | free live result => exact faithful.free live result
  | @write l offset byte live inside => exact ⟨blocks, faithful.write live inside byte⟩

structure Consistent (s : State) (blocks : List Block) : Prop where
  live : blocks.Perm (s.live.map Live.block)
  list : Ring (flink s.heap.mem) (blink s.heap.mem) s.heap.heapAllocations (blocks.map Block.node)
  sorted : blocks.Pairwise fun b c => b.entry < c.entry
  disjoint : blocks.Pairwise Block.Apart
  inside : forall b, b ∈ blocks -> s.heap.baseAddress + sizeofHeapHeader ≤ b.entry ∧
    b.stop ≤ s.heap.baseAddress + s.heap.heapSizeMaximum
  stored : forall b, b ∈ blocks -> b.Stored s.heap.mem
  aligned : forall l, l ∈ s.live -> alignmentAllowed l.alignment -> aligned l
  count : s.heap.heapNumberOfAllocations = blocks.length
  remaining : s.heap.heapSizeRemaining + (blocks.map fun b => b.size + sizeofHeapEntry + sizeofHeapTail).sum +
    sizeofHeapHeader = s.heap.heapSizeMaximum
  free : s.heap.freeAddress = lastStop (s.heap.baseAddress + sizeofHeapHeader) blocks

theorem Faithful.consistent {limit : Nat} {s : State} {blocks : List Block} (faithful : Faithful limit s blocks) :
    Consistent s blocks := by
  have represents := faithful.represents
  refine ⟨faithful.perm, represents.ring, ?_, represents.layout.sorted.imp Or.inl, ?_,
    represents.inscribed.stored, fun l live => (faithful.placed l live).2, represents.count, represents.remaining,
    represents.free⟩
  · refine represents.layout.sorted.imp fun {b c} before => ?_
    simp only [Block.stop, Block.footprint] at before
    omega
  · intro b member
    have above := represents.layout.above b member
    have stops := represents.span.2 b member
    have room := represents.room
    refine ⟨above, ?_⟩
    omega

theorem heap_consistent {s : State} (reached : (heapSystem (2 ^ 32)).ReachableUnder Allowed s) :
    ∃ blocks, Consistent s blocks := by
  have faithful : ∃ blocks, Faithful (2 ^ 32) s blocks := by
    induction reached with
    | start s initial =>
      obtain ⟨h, live⟩ := s
      obtain ⟨empty, mem, baseAddress, memoryAvailable, made, region, small⟩ := initial
      obtain rfl : live = [] := empty
      exact ⟨[], Faithful.start made region small⟩
    | next s call after _ allowed taken ih =>
      obtain ⟨blocks, faithful⟩ := ih
      exact step_faithful faithful allowed taken
  obtain ⟨blocks, faithful⟩ := faithful
  exact ⟨blocks, faithful.consistent⟩

def callStep (fuel : Nat) (s : State) : Call -> Option State
  | .allocate flags allocationSize tag allocationAlignment =>
    if allocationSize < 2 ^ 32 ∧ tag < 2 ^ 32 ∧ allocationAlignment < 2 ^ 32 then
      match clHeapAllocatePoolWithTag fuel s.heap flags allocationSize tag allocationAlignment with
      | .ok (heap, address) => some (afterAllocate s heap address allocationSize tag allocationAlignment)
      | .error _ => none
    else none
  | .free l =>
    if l ∈ s.live then
      match clHeapFreePoolWithTag s.heap l.address l.tag with
      | .ok heap => some { heap := heap, live := s.live.erase l }
      | .error _ => none
    else none
  | .write l offset byte =>
    if l ∈ s.live ∧ offset < l.size then
      some { s with heap := { s.heap with mem := s.heap.mem.fill (l.address + offset) 1 byte } }
    else none

theorem callStep_step {fuel : Nat} {s after : State} {call : Call} (result : callStep fuel s call = some after) :
    Step s call after := by
  cases call with
  | allocate flags allocationSize tag allocationAlignment =>
    simp only [callStep] at result
    split at result
    · rename_i dwords
      split at result
      · rename_i heap address returned
        rw [← Option.some.inj result]
        exact .allocate dwords returned
      · simp at result
    · simp at result
  | free l =>
    simp only [callStep] at result
    split at result
    · rename_i live
      split at result
      · rename_i heap returned
        rw [← Option.some.inj result]
        exact .free live returned
      · simp at result
    · simp at result
  | write l offset byte =>
    simp only [callStep] at result
    split at result
    · rename_i owned
      rw [← Option.some.inj result]
      exact .write owned.1 owned.2
    · simp at result

instance (s : State) : Decidable (CursorLive s) :=
  inferInstanceAs (Decidable (_ ∨ ∃ l, l ∈ s.live ∧ s.heap.entryToRestartSearch = l.node))

instance (s : State) (call : Call) : Decidable (Allowed s call) :=
  match call with
  | .allocate .. => inferInstanceAs (Decidable (CursorLive s))
  | .free _ => .isTrue trivial
  | .write .. => .isTrue trivial

def sampleHeap : Heap where
  mem := initializeListHead (fun _ => 0) 0x10038
  heapSizeMaximum := 0x10000
  heapSizeRemaining := 0xFFB8
  baseAddress := 0x10000
  freeAddress := 0x10048
  heapNumberOfAllocations := 0
  entryToRestartSearch := 0x10038

theorem sampleHeap_initial (limit : Nat) (large : 0x10000 < limit) :
    (heapSystem limit).initial { heap := sampleHeap, live := [] } :=
  ⟨rfl, fun _ => 0, 0x10000, 0x10000, rfl, by decide, large⟩

def sampleCalls : List Call :=
  [.allocate 0 0x100 1 0, .allocate 0 0x100 1 0, .allocate 0 0xFD00 1 0,
    .free { address := 0x101A0, size := 0x100, tag := 1, alignment := 0 }, .allocate 2 0x80 1 0]

theorem sampleCalls_result : (TransitionSystem.runUnder (fun s call => decide (Allowed s call)) (callStep 8)
    { heap := sampleHeap, live := [] } sampleCalls).any
      (fun s => decide (s.live.length = 3 ∧ s.heap.entryToRestartSearch = 0x10190)) = true := by
  decide +kernel

theorem heap_consistent_sample : ∃ s, (heapSystem (2 ^ 32)).ReachableUnder Allowed s ∧ s.live.length = 3 ∧
    s.heap.entryToRestartSearch = 0x10190 ∧ ∃ blocks, Consistent s blocks := by
  obtain ⟨s, reached, three, cursor⟩ := TransitionSystem.ReachableUnder.of_run
    (fun _ _ _ => callStep_step) (.start _ (sampleHeap_initial (2 ^ 32) (by decide))) sampleCalls sampleCalls_result
  exact ⟨s, reached, three, cursor, heap_consistent reached⟩

end Hal9000.Heap
