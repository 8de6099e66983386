import Hal9000.CommonLib.HeapBlocks
import Mathlib.Algebra.BigOperators.Group.List.Basic

set_option autoImplicit false

namespace Hal9000.Heap

open Lib (Ring)
open Lib.Memory (load_store_apart)
open LinkMemory

-- The block that _InitHeapEntry would place at or behind `start`.
def Request.block (request : Request) (start : Nat) : Block where
  entry := alignAddressUpper (start + 0x20) request.alignment - 0x20
  size := request.size
  tag := request.tag

def Request.Fits (request : Request) (start available : Nat) : Prop :=
  start ≤ (request.block start).entry ∧ (request.block start).stop ≤ start + available

instance (request : Request) (start available : Nat) : Decidable (request.Fits start available) :=
  inferInstanceAs (Decidable (_ ∧ _))

structure Request.Valid (request : Request) : Prop where
  size : request.size + 0x24 < 2 ^ 32
  tag : request.tag < 2 ^ 32
  alignment : 0 < request.alignment ∧ request.alignment < 2 ^ 32

structure Space (start available : Nat) : Prop where
  positive : 0 < start
  header : start + 0x20 < 2 ^ 64
  inside : start + available < 2 ^ 64

section InitHeapEntry

variable {h : Heap} {request : Request} {start available : Nat}

theorem no_room_iff (valid : request.Valid) (space : Space start available) :
    available < ptrOffset (ptrDiff (alignAddressUpper (ptrOffset start sizeofHeapEntry) request.alignment)
        (ptrOffset start sizeofHeapEntry)) (dword (request.size + sizeofHeapEntry + sizeofHeapTail)) ↔
      ¬ request.Fits start available := by
  obtain ⟨size, _, positive, small⟩ := valid
  obtain ⟨_, header, inside⟩ := space
  have unaligned : ptrOffset start sizeofHeapEntry = start + 0x20 := qword_of_lt header
  have bounds := alignAddressUpper_bounds (start + 0x20) request.alignment header positive small
  have upper : alignAddressUpper (start + 0x20) request.alignment < 2 ^ 64 := by
    by_cases wraps : start + 0x20 + request.alignment ≤ 2 ^ 64
    · have := (bounds.1 wraps).2
      omega
    · have := bounds.2 (by omega)
      omega
  rw [unaligned]
  simp only [Request.Fits, Request.block, Block.stop, Block.footprint, ptrOffset, ptrDiff, qword, dword,
    sizeofHeapEntry, sizeofHeapTail]
  generalize alignAddressUpper (start + 0x20) request.alignment = address at bounds upper ⊢
  by_cases wraps : start + 0x20 + request.alignment ≤ 2 ^ 64
  · obtain ⟨low, high⟩ := bounds.1 wraps
    omega
  · have low := bounds.2 (by omega)
    omega

theorem initHeapEntry_no_room (valid : request.Valid) (space : Space start available)
    (full : ¬ request.Fits start available) (add : Bool) :
    initHeapEntry h start request.tag request.size request.alignment add available = .ok (h, start, 0) := by
  simp only [initHeapEntry, if_pos ((no_room_iff valid space).mpr full)]
  rfl

def place (h : Heap) (b : Block) (linked : Lib.Memory) : Heap :=
  { h with
    mem := finishEntry linked b
    heapSizeRemaining := ptrDiff h.heapSizeRemaining b.footprint
    heapNumberOfAllocations := ptrOffset h.heapNumberOfAllocations 1 }

theorem initHeapEntry_fits (valid : request.Valid) (space : Space start available)
    (fits : request.Fits start available) {add : Bool} {linked : Lib.Memory}
    (link : (if add then insertTailList (beginEntry h.mem (request.block start)) h.heapAllocations
      (request.block start).node else pure (beginEntry h.mem (request.block start))) = Except.ok linked)
    (size : sizeOf linked (request.block start).entry = request.size) :
    initHeapEntry h start request.tag request.size request.alignment add available =
      .ok (h.place (request.block start) linked, (request.block start).entry, (request.block start).stop) := by
  have room := mt (no_room_iff valid space).mp (not_not.mpr fits)
  have unaligned : ptrOffset start sizeofHeapEntry = start + 0x20 := qword_of_lt space.header
  have short := valid.size
  have inside := space.inside
  have positive := space.positive
  obtain ⟨after, before⟩ := fits
  generalize placed : request.block start = b at *
  have asked : b.size = request.size ∧ b.tag = request.tag := by
    rw [← placed]
    exact ⟨rfl, rfl⟩
  have address : alignAddressUpper (ptrOffset start sizeofHeapEntry) request.alignment = b.data := by
    have behind : b.entry = alignAddressUpper (start + 0x20) request.alignment - 0x20 := by
      rw [← placed]
      rfl
    rw [unaligned, Block.data]
    omega
  have footprint : dword (request.size + sizeofHeapEntry + sizeofHeapTail) = b.footprint := by
    simp only [dword, sizeofHeapEntry, sizeofHeapTail, Block.footprint]
    omega
  simp only [Block.stop, Block.footprint] at before
  have entry : ptrDiff b.data sizeofHeapEntry = b.entry := by
    simp only [ptrDiff, qword, sizeofHeapEntry, Block.data]
    omega
  have node : listEntry b.entry = b.node := by
    simp only [listEntry, ptrOffset, qword, Block.node]
    omega
  have offset : dword (ptrDiff b.data b.entry) = 0x20 := by
    simp only [ptrDiff, qword, dword, Block.data]
    omega
  have tail : ptrOffset b.data b.size = b.data + b.size := by
    simp only [ptrOffset, qword, Block.data]
    omega
  have stop : ptrOffset (b.data + b.size) sizeofHeapTail = b.stop := by
    simp only [ptrOffset, qword, sizeofHeapTail, Block.data, Block.stop, Block.footprint]
    omega
  have kept : sizeOf (linked.store 4 (b.entry + 0xC) 0x20) b.entry = b.size := by
    rw [sizeOf, load_store_apart (by omega)]
    exact size.trans asked.1.symm
  simp only [initHeapEntry, if_neg room]
  rw [address, entry, node, offset, footprint, ← asked.1, ← asked.2]
  cases add with
  | false =>
    obtain rfl : beginEntry h.mem b = linked := Except.ok.inj link
    change Except.ok _ = Except.ok _
    rw [← beginEntry, kept, tail, stop]
    rfl
  | true =>
    change (insertTailList (beginEntry h.mem b) h.heapAllocations b.node >>= _) = _
    rw [show insertTailList (beginEntry h.mem b) h.heapAllocations b.node = _ from link]
    change Except.ok _ = Except.ok _
    rw [kept, tail, stop]
    rfl

end InitHeapEntry

def lastStop (start : Nat) : List Block -> Nat
  | [] => start
  | b :: rest => lastStop b.stop rest

theorem lastStop_append (start : Nat) (front rear : List Block) :
    lastStop start (front ++ rear) = lastStop (lastStop start front) rear := by
  induction front generalizing start with
  | nil => rfl
  | cons b front ih => exact ih b.stop

theorem lastStop_span {start : Nat} {blocks : List Block}
    (sorted : blocks.Pairwise fun b c => b.stop ≤ c.entry) (above : forall b, b ∈ blocks -> start ≤ b.entry) :
    start + (blocks.map Block.footprint).sum ≤ lastStop start blocks ∧
      forall b, b ∈ blocks -> b.stop ≤ lastStop start blocks := by
  induction blocks generalizing start with
  | nil => simp [lastStop]
  | cons b rest ih =>
    obtain ⟨first, sorted⟩ := List.pairwise_cons.mp sorted
    obtain ⟨span, stops⟩ := ih sorted first
    have here := above b List.mem_cons_self
    simp only [List.map_cons, List.sum_cons, lastStop] at span ⊢
    constructor
    · have : b.stop = b.entry + b.footprint := rfl
      omega
    · intro c member
      rcases List.mem_cons.mp member with rfl | inside
      · omega
      · exact stops c inside

structure Represents (h : Heap) (blocks : List Block) : Prop where
  base : 0 < h.baseAddress
  region : h.baseAddress + h.heapSizeMaximum ≤ 2 ^ 64
  layout : Layout (h.baseAddress + 0x38) blocks
  valid : forall b, b ∈ blocks -> b.footprint < 2 ^ 32 ∧ b.tag < 2 ^ 32 ∧ 0 < b.tag
  inscribed : Inscribed h.mem (h.baseAddress + 0x38) blocks
  free : h.freeAddress = lastStop (h.baseAddress + 0x48) blocks
  room : h.freeAddress + 0x20 ≤ h.baseAddress + h.heapSizeMaximum
  count : h.heapNumberOfAllocations = blocks.length
  remaining : h.heapSizeRemaining + (blocks.map Block.footprint).sum + 0x48 = h.heapSizeMaximum

namespace Represents

variable {h : Heap} {blocks front rear : List Block} {b p c : Block}

theorem head (represents : Represents h blocks) : h.heapAllocations = h.baseAddress + 0x38 := by
  have := represents.layout.room
  simp only [heapAllocations, ptrOffset, qword]
  omega

theorem span (represents : Represents h blocks) :
    h.baseAddress + 0x48 + (blocks.map Block.footprint).sum ≤ h.freeAddress ∧
      forall b, b ∈ blocks -> b.stop ≤ h.freeAddress := by
  rw [represents.free]
  exact lastStop_span represents.layout.sorted represents.layout.above

theorem length_lt (represents : Represents h blocks) : blocks.length + 1 < 2 ^ 64 := by
  have each : blocks.length ≤ (blocks.map Block.footprint).sum := by
    rw [← List.length_map Block.footprint]
    apply List.length_le_sum_of_one_le
    intro size member
    obtain ⟨b, _, rfl⟩ := List.mem_map.mp member
    simp [Block.footprint]
  have := represents.span.1
  have := represents.region
  have := represents.room
  omega

theorem append_layout (represents : Represents h blocks) (behind : h.freeAddress ≤ b.entry)
    (before : b.stop + 0x20 ≤ h.baseAddress + h.heapSizeMaximum) :
    Layout (h.baseAddress + 0x38) (blocks ++ [b]) := by
  have span := represents.span
  have region := represents.region
  refine ⟨?_, represents.layout.room, ?_, ?_⟩
  · refine List.pairwise_append.mpr ⟨represents.layout.sorted, List.pairwise_singleton _ _, ?_⟩
    intro c inside d same
    rw [List.mem_singleton.mp same]
    exact (span.2 c inside).trans behind
  · intro c inside
    rcases List.mem_append.mp inside with old | new
    · exact represents.layout.above c old
    · rw [List.mem_singleton.mp new]
      omega
  · intro c inside
    rcases List.mem_append.mp inside with old | new
    · exact represents.layout.below c old
    · rw [List.mem_singleton.mp new]
      omega

def atEnd (h : Heap) (b : Block) : Heap :=
  h.place b (insertedTail (beginEntry h.mem b) (h.baseAddress + 0x38) b.node)

theorem append (represents : Represents h blocks) (behind : h.freeAddress ≤ b.entry)
    (before : b.stop + 0x20 ≤ h.baseAddress + h.heapSizeMaximum)
    (valid : b.footprint < 2 ^ 32 ∧ b.tag < 2 ^ 32 ∧ 0 < b.tag) :
    Represents { atEnd h b with freeAddress := b.stop } (blocks ++ [b]) := by
  have span := represents.span
  have remaining := represents.remaining
  have length := represents.length_lt
  have count := represents.count
  have region := represents.region
  have layout := represents.append_layout behind before
  have size : b.size < 2 ^ 32 := by
    have := valid.1
    simp only [Block.footprint] at this
    omega
  have stop : b.stop = b.entry + b.footprint := rfl
  refine ⟨represents.base, region, layout, ?_, represents.inscribed.append layout size valid.2.1, ?_, before,
    ?_, ?_⟩
  · intro c inside
    rcases List.mem_append.mp inside with old | new
    · exact represents.valid c old
    · rw [List.mem_singleton.mp new]
      exact valid
  · rw [lastStop_append]
    rfl
  · simp only [atEnd, place, ptrOffset, qword, List.length_append, List.length_singleton, count]
    omega
  · simp only [atEnd, place, ptrDiff, qword, List.map_append, List.sum_append, List.map_singleton,
      List.sum_singleton]
    omega

theorem insert_layout (represents : Represents h (front ++ p :: c :: rear)) (behind : p.stop ≤ b.entry)
    (before : b.stop ≤ c.entry) : Layout (h.baseAddress + 0x38) (front ++ p :: b :: c :: rear) := by
  have sorted := represents.layout.sorted
  have first := represents.layout.above p (by simp)
  have below := represents.layout.below c (by simp)
  have stop : b.stop = b.entry + b.footprint := rfl
  have stop_p : p.stop = p.entry + p.footprint := rfl
  have stop_c : c.stop = c.entry + c.footprint := rfl
  have old (d : Block) (inside : d ∈ front ++ p :: b :: c :: rear) (other : d ≠ b) :
      d ∈ front ++ p :: c :: rear := by
    simpa [other] using inside
  refine ⟨?_, represents.layout.room, ?_, ?_⟩
  · simp only [List.pairwise_append, List.pairwise_cons, List.mem_cons, forall_eq_or_imp] at sorted ⊢
    obtain ⟨sortedFront, ⟨⟨_, pRear⟩, cRear, sortedRear⟩, across⟩ := sorted
    refine ⟨sortedFront, ⟨⟨behind, by omega, pRear⟩, ⟨before, ?_⟩, cRear, sortedRear⟩, ?_⟩
    · intro d inside
      have := cRear d inside
      omega
    · intro d inside
      obtain ⟨toP, toC, toRear⟩ := across d inside
      exact ⟨toP, by omega, toC, toRear⟩
  · intro d inside
    by_cases same : d = b
    · rw [same]
      omega
    · exact represents.layout.above d (old d inside same)
  · intro d inside
    by_cases same : d = b
    · rw [same]
      omega
    · exact represents.layout.below d (old d inside same)

def inGap (h : Heap) (p b : Block) : Heap :=
  { h.place b (beginEntry h.mem b) with
    mem := insertedHead (finishEntry (beginEntry h.mem b) b) p.node b.node
    entryToRestartSearch := b.node }

theorem insert (represents : Represents h (front ++ p :: c :: rear)) (behind : p.stop ≤ b.entry)
    (before : b.stop ≤ c.entry) (valid : b.footprint < 2 ^ 32 ∧ b.tag < 2 ^ 32 ∧ 0 < b.tag) :
    Represents (inGap h p b) (front ++ p :: b :: c :: rear) := by
  have remaining := represents.remaining
  have length := represents.length_lt
  have count := represents.count
  have room := represents.room
  have region := represents.region
  have layout := represents.insert_layout behind before
  have size : b.size < 2 ^ 32 := by
    have := valid.1
    simp only [Block.footprint] at this
    omega
  refine ⟨represents.base, represents.region, layout, ?_, represents.inscribed.insert layout size valid.2.1,
    ?_, room, ?_, ?_⟩
  · intro d inside
    by_cases same : d = b
    · rw [same]
      exact valid
    · exact represents.valid d (by simpa [same] using inside)
  · have free := represents.free
    simp only [lastStop_append, lastStop] at free ⊢
    exact free
  · simp only [List.length_append, List.length_cons] at count length
    simp only [inGap, place, ptrOffset, qword, List.length_append, List.length_cons, count]
    omega
  · have filled := (lastStop_span layout.sorted layout.above).1
    have free := represents.free
    simp only [lastStop_append, lastStop, List.map_append, List.map_cons, List.sum_append,
      List.sum_cons] at free filled remaining
    simp only [inGap, place, ptrDiff, qword, List.map_append, List.map_cons, List.sum_append, List.sum_cons]
    omega

def released (h : Heap) (b : Block) (previousAddress : Nat) : Heap :=
  { h with
    mem := (removed h.mem b.node).fill b.entry b.footprint heapFreePattern
    heapSizeRemaining := ptrOffset h.heapSizeRemaining b.footprint
    heapNumberOfAllocations := ptrDiff h.heapNumberOfAllocations 1
    freeAddress := if b.stop = h.freeAddress then previousAddress else h.freeAddress }

theorem remove (represents : Represents h (front ++ b :: rear)) :
    Represents (released h b (lastStop (h.baseAddress + 0x48) front)) (front ++ rear) := by
  have layout := represents.layout
  have sub : (front ++ rear).Sublist (front ++ b :: rear) :=
    (List.sublist_cons_self b rear).append_left front
  have remaining := represents.remaining
  have count := represents.count
  have length := represents.length_lt
  have region := represents.region
  have room := represents.room
  have span := represents.span
  have fewer := lastStop_span (layout.sublist sub).sorted (layout.sublist sub).above
  have free : (if b.stop = h.freeAddress then lastStop (h.baseAddress + 0x48) front else h.freeAddress) =
      lastStop (h.baseAddress + 0x48) (front ++ rear) := by
    have free := represents.free
    cases rear with
    | nil =>
      simp only [lastStop_append, lastStop] at free ⊢
      rw [if_pos free.symm]
    | cons c rear =>
      have order : b.stop ≤ c.entry := by
        have sorted := layout.sorted
        simp only [List.pairwise_append, List.pairwise_cons, List.mem_cons, forall_eq_or_imp] at sorted
        exact sorted.2.1.1.1
      have stops := span.2 c (by simp)
      have stop_c : c.stop = c.entry + (c.size + 0x24) := rfl
      simp only [lastStop_append, lastStop] at free ⊢
      rw [if_neg (by omega), free]
  refine ⟨represents.base, region, layout.sublist sub, fun c inside => represents.valid c (sub.subset inside),
    represents.inscribed.remove layout heapFreePattern, free, ?_, ?_, ?_⟩
  · change (if b.stop = h.freeAddress then lastStop (h.baseAddress + 0x48) front else h.freeAddress) + 0x20 ≤ _
    split
    · have front_le : lastStop (h.baseAddress + 0x48) front ≤ h.freeAddress := by
        have before := lastStop_span (layout.sublist (List.sublist_append_left front (b :: rear))).sorted
          (layout.sublist (List.sublist_append_left front (b :: rear))).above
        rcases List.eq_nil_or_concat front with rfl | ⟨start, last, rfl⟩
        · simp only [lastStop]
          omega
        · rw [List.concat_eq_append, lastStop_append]
          exact span.2 last (by simp)
      change _ ≤ h.baseAddress + h.heapSizeMaximum
      omega
    · exact room
  · simp only [List.length_append, List.length_cons] at count length
    simp only [released, ptrDiff, qword, List.length_append, count]
    omega
  · simp only [List.map_append, List.map_cons, List.sum_append, List.sum_cons] at remaining span
    simp only [released, ptrOffset, qword, List.map_append, List.sum_append]
    omega

theorem stop_eq (represents : Represents h blocks) (inside : b ∈ blocks) :
    ptrOffset (ptrOffset (ptrOffset b.entry sizeofHeapEntry) (sizeOf h.mem b.entry)) sizeofHeapTail =
      b.stop := by
  have stops := represents.span.2 b inside
  have room := represents.room
  have region := represents.region
  rw [(represents.inscribed.stored b inside).size]
  simp only [ptrOffset, qword, sizeofHeapEntry, sizeofHeapTail, Block.stop, Block.footprint] at stops ⊢
  omega

theorem listEntry_eq (represents : Represents h blocks) (inside : b ∈ blocks) : listEntry b.entry = b.node := by
  have below := represents.layout.below b inside
  simp only [listEntry, ptrOffset, qword, Block.node, Block.stop, Block.footprint] at below ⊢
  omega

theorem containingRecord_eq (represents : Represents h blocks) (inside : b ∈ blocks) :
    containingRecord b.node = b.entry := by
  have below := represents.layout.below b inside
  simp only [containingRecord, ptrDiff, qword, Block.node, Block.stop, Block.footprint] at below ⊢
  omega

end Represents

theorem Block.Stored.validate {mem : Lib.Memory} {b : Block} (stored : b.Stored mem) (positive : 0 < b.entry)
    (below : b.stop ≤ 2 ^ 64) (valid : b.footprint < 2 ^ 32 ∧ b.tag < 2 ^ 32 ∧ 0 < b.tag) :
    validateHeapEntry mem b.entry b.tag = .ok true := by
  simp only [Block.stop, Block.footprint] at below valid
  have tail : ptrDiff (ptrOffset b.entry (dword (sizeofHeapEntry + b.size + sizeofHeapTail))) sizeofHeapTail =
      b.data + b.size := by
    simp only [ptrDiff, ptrOffset, qword, dword, sizeofHeapEntry, sizeofHeapTail, Block.data]
    omega
  have entry : (b.entry != 0) = true := bne_iff_ne.mpr (by omega)
  have tag : (b.tag != 0) = true := bne_iff_ne.mpr (by omega)
  simp only [validateHeapEntry, stored.size, tail, stored.magic, stored.tail, stored.tag, entry, tag,
    assert_true, beq_self_eq_true, Bool.and_self, Kernel.ok_bind, Kernel.pure_eq]

namespace Represents

variable {h : Heap} {blocks front rear : List Block} {b p c : Block}

theorem validate (represents : Represents h blocks) (inside : b ∈ blocks) :
    validateHeapEntry h.mem b.entry b.tag = .ok true :=
  (represents.inscribed.stored b inside).validate (by have := represents.layout.above b inside; omega)
    (represents.layout.below b inside) (represents.valid b inside)

theorem free_eq (represents : Represents h (front ++ b :: rear)) :
    clHeapFreePoolWithTag h b.data b.tag =
      .ok (released h b (lastStop (h.baseAddress + 0x48) front)) := by
  have inside : b ∈ front ++ b :: rear := by simp
  have stops := represents.span.2 b inside
  have above := represents.layout.above b inside
  have room := represents.room
  have region := represents.region
  have valid := represents.valid b inside
  have stored := represents.inscribed.stored b inside
  have ring := represents.inscribed.ring
  have distinct := represents.layout.nodup
  simp only [List.map_append, List.map_cons] at ring distinct
  simp only [Block.stop, Block.footprint] at stops valid
  have entry : ptrDiff b.data sizeofHeapEntry = b.entry := by
    simp only [ptrDiff, qword, sizeofHeapEntry, Block.data]
    omega
  have stop : ptrOffset (ptrOffset b.data b.size) sizeofHeapTail = b.stop := by
    simp only [ptrOffset, qword, sizeofHeapTail, Block.data, Block.stop, Block.footprint]
    omega
  have previous : (if h.heapAllocations = blink h.mem b.node then ptrOffset h.baseAddress sizeofHeapHeader
      else ptrOffset (ptrOffset (ptrOffset (containingRecord (blink h.mem b.node)) sizeofHeapEntry)
        (sizeOf h.mem (containingRecord (blink h.mem b.node)))) sizeofHeapTail) =
      lastStop (h.baseAddress + 0x48) front := by
    rw [ring.back_node, represents.head]
    rcases List.eq_nil_or_concat front with rfl | ⟨start, last, rfl⟩
    · rw [if_pos (by rfl)]
      simp only [ptrOffset, qword, sizeofHeapHeader, lastStop]
      omega
    · rw [List.concat_eq_append] at represents distinct ⊢
      have member : last ∈ start ++ [last] ++ b :: rear := by simp
      have other : h.baseAddress + 0x38 ≠ last.node := by
        intro same
        simp [same] at distinct
      rw [List.map_append, List.map_singleton, List.getLastD_concat, if_neg other,
        represents.containingRecord_eq member, represents.stop_eq member, lastStop_append]
      rfl
  have unlinked : removeEntryList h.mem b.node = .ok (removed h.mem b.node, _) :=
    removeEntryList_eq (validateListEntry_of_ring ring (by simp))
  have back : blink h.mem b.node ∈ (h.baseAddress + 0x38) :: (front ++ b :: rear).map Block.node := by
    rw [ring.back_node, List.map_append]
    exact last_mem
  have next := represents.inscribed.ring.next_mem
    (List.mem_cons_of_mem (h.baseAddress + 0x38) (List.mem_map_of_mem inside))
  have kept : sizeOf (removed h.mem b.node) b.entry = b.size := by
    have header := removed_agrees (represents.layout.fields_off inside next).1
      (represents.layout.fields_off inside back).1
    exact (Lib.Memory.load_congr fun place lower upper => header place (by omega) (by omega)).trans stored.size
  have footprint : qword (b.size + sizeofHeapEntry + sizeofHeapTail) = b.footprint := by
    simp only [qword, sizeofHeapEntry, sizeofHeapTail, Block.footprint]
    omega
  have short : dword b.footprint = b.footprint := dword_of_lt (by simp only [Block.footprint]; omega)
  have small : b.footprint ≤ maxDword := by
    simp only [Block.footprint, maxDword]
    omega
  have address : (b.data != 0) = true := bne_iff_ne.mpr (by simp [Block.data])
  have tag : (b.tag != 0) = true := bne_iff_ne.mpr (by omega)
  simp only [clHeapFreePoolWithTag, address, tag, assert_true, Kernel.ok_bind, entry, stored.size, stop,
    represents.validate inside, represents.listEntry_eq inside, previous, unlinked, kept, footprint,
    decide_eq_true small, short, Kernel.pure_eq, released]

end Represents

end Hal9000.Heap
