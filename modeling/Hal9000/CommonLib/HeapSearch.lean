import Hal9000.CommonLib.HeapInvariant

set_option autoImplicit false

namespace Hal9000.Heap

open Lib (Ring)
open Lib.Memory (load_store load_store_apart load_congr)
open LinkMemory

theorem clHeapInit_represents {mem : Lib.Memory} {baseAddress memoryAvailable : Nat} {h : Heap}
    (made : clHeapInit mem baseAddress memoryAvailable = (.success, some h))
    (region : baseAddress + memoryAvailable ≤ 2 ^ 64) :
    Represents h [] ∧ h.entryToRestartSearch = h.heapAllocations := by
  unfold clHeapInit at made
  split at made
  · simp at made
  · split at made
    · simp at made
    · rename_i positive large
      simp only [Prod.mk.injEq, Option.some.injEq, true_and] at made
      simp only [heapMinimumSize, not_lt] at large
      have head : ptrOffset baseAddress 0x38 = baseAddress + 0x38 := qword_of_lt (by omega)
      rw [head] at made
      subst made
      refine ⟨⟨?_, region, ⟨List.Pairwise.nil, ?_, nofun, nofun⟩, nofun, ⟨nofun, ?_⟩, ?_, ?_, rfl, ?_⟩, ?_⟩
      · exact Nat.pos_of_ne_zero positive
      · change baseAddress + 0x38 + 0x10 ≤ 2 ^ 64
        omega
      · refine initializeListHead_ring ?_
        change baseAddress + 0x38 < 256 ^ 8
        omega
      · simp only [ptrOffset, qword, sizeofHeapHeader, lastStop]
        omega
      · simp only [ptrOffset, qword, sizeofHeapHeader]
        omega
      · simp only [ptrDiff, qword, sizeofHeapHeader, List.map_nil, List.sum_nil]
        omega
      · exact head.symm

theorem Request.Valid.sizeRequired {request : Request} (valid : request.Valid) :
    request.sizeRequired = request.size + 0x24 := by
  have := valid.size
  simp only [Request.sizeRequired, qword, sizeofHeapEntry, sizeofHeapTail]
  omega

theorem int64_of_lt {value : Nat} (small : value < 2 ^ 63) : int64 value = value := if_pos small

theorem le_of_int64_le {small value : Nat} (bound : small < 2 ^ 63) (le : int64 small ≤ int64 value) :
    small ≤ value := by
  rw [int64_of_lt bound, int64] at le
  split at le <;> omega

theorem sizeOf_beginEntry {mem : Lib.Memory} {b : Block} (small : b.size < 2 ^ 32) :
    sizeOf (beginEntry mem b) b.entry = b.size := by
  rw [sizeOf, beginEntry, load_store_apart (by omega), load_store (by omega)]

def Request.FitsAtEnd (request : Request) (h : Heap) : Prop :=
  int64 request.sizeRequired ≤ int64 h.remainingSizeUntilEnd ∧
    request.Fits h.freeAddress h.remainingSizeUntilEnd

instance (request : Request) (h : Heap) : Decidable (request.FitsAtEnd h) :=
  inferInstanceAs (Decidable (_ ∧ _))

namespace Represents

variable {h : Heap} {blocks front rear : List Block} {b p c : Block} {request : Request}

theorem remainingSizeUntilEnd_eq (represents : Represents h blocks) :
    h.remainingSizeUntilEnd = h.baseAddress + h.heapSizeMaximum - h.freeAddress - 0x20 := by
  have region := represents.region
  have room := represents.room
  have span := represents.span.1
  have remaining := represents.remaining
  have base := represents.base
  simp only [remainingSizeUntilEnd, ptrDiff, ptrOffset, qword, sizeofHeapEntry]
  omega

theorem remainingSizeBeforeCurrent_eq (represents : Represents h blocks) :
    h.baseAddress + 0x48 + (blocks.map Block.footprint).sum + h.remainingSizeBeforeCurrent = h.freeAddress := by
  have region := represents.region
  have room := represents.room
  have span := represents.span.1
  have remaining := represents.remaining
  simp only [remainingSizeBeforeCurrent, represents.remainingSizeUntilEnd_eq, ptrDiff, qword, sizeofHeapEntry]
  omega

theorem block_valid (valid : request.Valid) (tag : request.tag ≠ 0) (start : Nat) :
    (request.block start).footprint < 2 ^ 32 ∧ (request.block start).tag < 2 ^ 32 ∧
      0 < (request.block start).tag :=
  ⟨valid.size, valid.tag, Nat.pos_of_ne_zero tag⟩

theorem allocateAtEnd_cases (represents : Represents h blocks) (valid : request.Valid) (tag : request.tag ≠ 0) :
    (¬ request.FitsAtEnd h ∧ ∃ entry, h.allocateAtEnd request = .ok (h, entry, 0)) ∨
      ∃ b, b = request.block h.freeAddress ∧ h.freeAddress ≤ b.entry ∧
        h.allocateAtEnd request = .ok (atEnd h b, b.entry, b.stop) ∧
        Represents { atEnd h b with freeAddress := b.stop } (blocks ++ [b]) := by
  have remaining := represents.remainingSizeUntilEnd_eq
  have region := represents.region
  have room := represents.room
  have span := represents.span.1
  have base := represents.base
  have size := valid.size
  unfold allocateAtEnd
  rw [valid.sizeRequired]
  split
  · rename_i enough
    have available := le_of_int64_le (by omega) enough
    have space : Space h.freeAddress h.remainingSizeUntilEnd := ⟨by omega, by omega, by omega⟩
    by_cases fits : request.Fits h.freeAddress h.remainingSizeUntilEnd
    · right
      have placing := @initHeapEntry_fits h request _ _ valid space fits true
      have allowed := block_valid valid tag h.freeAddress
      have asked : (request.block h.freeAddress).size = request.size := rfl
      obtain ⟨behind, before⟩ := fits
      generalize request.block h.freeAddress = b at *
      have before' : b.stop + 0x20 ≤ h.baseAddress + h.heapSizeMaximum := by omega
      have layout := represents.append_layout behind before'
      have added : Added (h.baseAddress + 0x38) b blocks (blocks ++ [b]) :=
        ⟨layout, List.perm_append_singleton _ blocks⟩
      have begun := ring_begin represents.inscribed.ring fun _ => added.entry_off
      have short : b.size < 2 ^ 32 := by omega
      have stored := (represents.inscribed.append layout short allowed.2.1).stored b (by simp)
      refine ⟨b, rfl, behind, ?_, represents.append behind before' allowed⟩
      apply placing
      · rw [if_pos rfl, represents.head]
        exact insertTailList_eq (validateListEntry_of_ring begun List.mem_cons_self)
      · refine Eq.trans (load_congr fun place lower upper => ?_) (stored.size.trans asked)
        refine (finishEntry_agrees ?_ ?_ place lower upper).symm
        · omega
        · simp only [Block.stop, Block.footprint, Block.data]
          omega
    · left
      exact ⟨fun both => fits both.2, _, initHeapEntry_no_room valid space fits true⟩
  · rename_i short
    left
    rw [← valid.sizeRequired] at short
    exact ⟨fun both => short both.1, 0, rfl⟩

end Represents

def Request.FitsBetween (request : Request) (p c : Block) : Prop :=
  int64 request.sizeRequired ≤ int64 (c.entry - p.stop) ∧ request.Fits p.stop (c.entry - p.stop)

instance (request : Request) (p c : Block) : Decidable (request.FitsBetween p c) :=
  inferInstanceAs (Decidable (_ ∧ _))

namespace Represents

variable {h : Heap} {blocks front rear : List Block} {p q c : Block} {request : Request} {search : Search}

theorem node_ne_head (represents : Represents h blocks) (inside : p ∈ blocks) : p.node ≠ h.heapAllocations := by
  rw [represents.head]
  rintro same
  exact (List.nodup_cons.mp represents.layout.nodup).1 (same ▸ List.mem_map_of_mem inside)

theorem searchRound_skip (skipped : search.curEntry = h.heapAllocations ∨ search.previousEntry = h.heapAllocations) :
    searchRound h request search = .ok (h, .inl (nextLoop h.mem search)) := by
  rw [searchRound, if_pos skipped]
  rfl

theorem searchRound_null (represents : Represents h blocks) (before : p ∈ blocks) (inside : c ∈ blocks)
    (previous : search.previousEntry = p.node) (current : search.curEntry = c.node)
    (null : search.previousHeapEntry = 0) :
    searchRound h request search = .error "NULL != pPreviousHeapEntry" := by
  have measured : ¬ (search.curEntry = h.heapAllocations ∨ search.previousEntry = h.heapAllocations) := by
    rw [previous, current]
    exact not_or.mpr ⟨represents.node_ne_head inside, represents.node_ne_head before⟩
  rw [searchRound, if_neg measured]
  simp only [null, bne_self_eq_false, assert_false, Kernel.error_bind]

theorem searchRound_eq (represents : Represents h blocks) (before : p ∈ blocks) (inside : c ∈ blocks)
    (measuring : q ∈ blocks) (previous : search.previousEntry = p.node) (current : search.curEntry = c.node)
    (shadow : search.previousHeapEntry = q.entry) :
    searchRound h request search =
      if int64 request.sizeRequired ≤ int64 (ptrDiff c.entry q.stop) then
        squeezeEntry h request { search with curHeapEntry := c.entry } q.stop (ptrDiff c.entry q.stop)
      else .ok (h, .inl (nextLoop h.mem { search with curHeapEntry := c.entry })) := by
  have measured : ¬ (search.curEntry = h.heapAllocations ∨ search.previousEntry = h.heapAllocations) := by
    rw [previous, current]
    exact not_or.mpr ⟨represents.node_ne_head inside, represents.node_ne_head before⟩
  have entry : (q.entry != 0) = true :=
    bne_iff_ne.mpr (by have := represents.layout.above q measuring; omega)
  rw [searchRound, if_neg measured, shadow, entry, assert_true, Kernel.ok_bind, current,
    represents.containingRecord_eq inside]
  dsimp only
  rw [represents.stop_eq measuring, Kernel.pure_eq]

-- Measured from an entry behind the current one the gap is negative.
theorem searchRound_stale (represents : Represents h blocks) (before : p ∈ blocks) (inside : c ∈ blocks)
    (measuring : q ∈ blocks) (previous : search.previousEntry = p.node) (current : search.curEntry = c.node)
    (shadow : search.previousHeapEntry = q.entry) (valid : request.Valid) (backwards : c.entry < q.stop)
    (near : q.stop ≤ c.entry + 2 ^ 63) :
    searchRound h request search =
      .ok (h, .inl (nextLoop h.mem { search with curHeapEntry := c.entry })) := by
  rw [represents.searchRound_eq before inside measuring previous current shadow, if_neg]
  have below := represents.layout.below q measuring
  have size := valid.size
  have negative : ptrDiff c.entry q.stop = c.entry + 2 ^ 64 - q.stop := by
    simp only [ptrDiff, qword]
    omega
  rw [valid.sizeRequired, negative, int64, int64, if_pos (by omega), if_neg (by omega)]
  omega

theorem gap_eq (represents : Represents h (front ++ p :: c :: rear)) :
    p.stop ≤ c.entry ∧ ptrDiff c.entry p.stop = c.entry - p.stop := by
  have sorted := represents.layout.sorted
  have below := represents.layout.below c (by simp)
  have stop_c : c.stop = c.entry + c.footprint := rfl
  have footprint : c.footprint = c.size + 0x24 := rfl
  simp only [List.pairwise_append, List.pairwise_cons, List.mem_cons, forall_eq_or_imp] at sorted
  have order : p.stop ≤ c.entry := sorted.2.1.1.1
  refine ⟨order, ?_⟩
  simp only [ptrDiff, qword]
  omega

theorem squeezeEntry_placed {start between entry stop : Nat} {placed : Heap} {mem : Lib.Memory}
    (placing : initHeapEntry h start request.tag request.size request.alignment false between =
      .ok (placed, entry, stop)) (occupied : stop ≠ 0)
    (checked : validateHeapEntry placed.mem search.previousHeapEntry
      (tagOf placed.mem search.previousHeapEntry) = .ok true)
    (inserted : insertHeadList placed.mem search.previousEntry (listEntry entry) = .ok mem) :
    squeezeEntry h request search start between =
      .ok ({ placed with mem := mem, entryToRestartSearch := listEntry entry }, .inr entry) := by
  simp only [squeezeEntry, placing, Kernel.ok_bind, if_neg occupied, checked, assert_true, inserted,
    Kernel.pure_eq]

theorem squeezeEntry_no_room {start between entry : Nat}
    (placing : initHeapEntry h start request.tag request.size request.alignment false between =
      .ok (h, entry, 0)) :
    squeezeEntry h request search start between = .ok (h, .inl (nextLoop h.mem search)) := by
  simp only [squeezeEntry, placing, Kernel.ok_bind, if_true, Kernel.pure_eq]

theorem searchRound_adjacent (represents : Represents h (front ++ p :: c :: rear))
    (previous : search.previousEntry = p.node) (current : search.curEntry = c.node)
    (shadow : search.previousHeapEntry = p.entry) (valid : request.Valid) (tag : request.tag ≠ 0) :
    searchRound h request search =
      if request.FitsBetween p c then
        .ok (inGap h p (request.block p.stop), .inr (request.block p.stop).entry)
      else .ok (h, .inl (nextLoop h.mem { search with curHeapEntry := c.entry })) := by
  obtain ⟨order, gap⟩ := represents.gap_eq
  have inside : p ∈ front ++ p :: c :: rear := by simp
  have above := represents.layout.above p inside
  have below := represents.layout.below c (by simp)
  have room := represents.room
  have region := represents.region
  have stops := represents.span.2 c (by simp)
  have stop_c : c.stop = c.entry + c.footprint := rfl
  have stop_p : p.stop = p.entry + p.footprint := rfl
  have footprint : p.footprint = p.size + 0x24 := rfl
  have footprint_c : c.footprint = c.size + 0x24 := rfl
  rw [represents.searchRound_eq inside (by simp) inside previous current shadow, gap]
  have space : Space p.stop (c.entry - p.stop) := ⟨by omega, by omega, by omega⟩
  by_cases enough : int64 request.sizeRequired ≤ int64 (c.entry - p.stop)
  · rw [if_pos enough]
    by_cases fits : request.Fits p.stop (c.entry - p.stop)
    · rw [if_pos ⟨enough, fits⟩]
      have placing := @initHeapEntry_fits h request _ _ valid space fits false _ rfl
        (sizeOf_beginEntry (b := request.block p.stop) (Nat.lt_of_add_right_lt valid.size))
      have allowed := block_valid valid tag p.stop
      obtain ⟨behind, before⟩ := fits
      generalize request.block p.stop = b at *
      have fits_before : b.stop ≤ c.entry := by omega
      have layout := represents.insert_layout behind fits_before
      have added : Added (h.baseAddress + 0x38) b (front ++ p :: c :: rear) (front ++ p :: b :: c :: rear) := by
        refine ⟨layout, ?_⟩
        have moved := @List.perm_middle _ b (front ++ [p]) (c :: rear)
        simpa using moved
      have stored := ((represents.inscribed.stored p inside).beside_begin (added.apart inside)).beside_finish
        (added.apart inside)
      have linked := ring_finish (ring_begin represents.inscribed.ring fun _ => added.entry_off)
        fun _ member => .inr (added.entry_off member)
      have stop_b : b.stop = b.entry + b.footprint := rfl
      have footprint_b : b.footprint = b.size + 0x24 := rfl
      have occupied : b.stop ≠ 0 := by omega
      have node : listEntry b.entry = b.node := by
        simp only [listEntry, ptrOffset, qword, Block.node]
        omega
      have checked := stored.validate (by omega) (by omega) (represents.valid p inside)
      have inserted : insertHeadList (finishEntry (beginEntry h.mem b) b) p.node b.node = _ :=
        insertHeadList_eq (validateListEntry_of_ring linked (by simp))
      rw [← node] at inserted
      have squeezed : squeezeEntry h request { search with curHeapEntry := c.entry } p.stop
          (c.entry - p.stop) = _ :=
        squeezeEntry_placed placing occupied (by rw [shadow, place, stored.tag]; exact checked)
          (by rw [previous]; exact inserted)
      rw [squeezed, node]
      rfl
    · rw [squeezeEntry_no_room (initHeapEntry_no_room valid space fits false), if_neg fun both => fits both.2]
  · rw [if_neg enough, if_neg fun both => enough both.1]

end Represents

-- The pointers of the search in any round: they go round the ring, and the shadow of the previous entry is
-- the previous entry, the last entry left over from before the wrap, or NULL.
structure Searching (h : Heap) (blocks : List Block) (search : Search) : Prop where
  previous : search.previousEntry ∈ h.heapAllocations :: blocks.map Block.node
  current : search.curEntry = flink h.mem search.previousEntry
  shadow : search.previousEntry = h.heapAllocations ∨ search.previousHeapEntry = 0 ∨
    ∃ q, q ∈ blocks ∧ search.previousHeapEntry = q.entry ∧
      (q.node = search.previousEntry ∨ blocks.getLast? = some q)
  passed : search.curHeapEntry = 0 ∨ ∃ q, q ∈ blocks ∧ search.curHeapEntry = q.entry ∧
    (q.node = search.previousEntry ∨ blocks.getLast? = some q)

namespace Represents

variable {h : Heap} {blocks : List Block} {p c : Block} {request : Request} {search : Search}

theorem ring (represents : Represents h blocks) :
    Ring (flink h.mem) (blink h.mem) h.heapAllocations (blocks.map Block.node) := by
  rw [represents.head]
  exact represents.inscribed.ring

theorem searching_start (represents : Represents h blocks)
    (cursor : h.entryToRestartSearch ∈ h.heapAllocations :: blocks.map Block.node) :
    Searching h blocks h.startSearch := by
  have next := represents.ring.next_mem cursor
  unfold startSearch
  refine ⟨next, rfl, ?_, .inl rfl⟩
  rcases List.mem_cons.mp next with isHead | linked
  · exact .inl isHead
  · obtain ⟨q, inside, same⟩ := List.mem_map.mp linked
    refine .inr (.inr ⟨q, inside, ?_, .inl same⟩)
    dsimp only
    rw [← same, represents.containingRecord_eq inside]

theorem neighbours (represents : Represents h blocks) (before : p ∈ blocks) (inside : c ∈ blocks)
    (follows : flink h.mem p.node = c.node) : ∃ front rear, blocks = front ++ p :: c :: rear := by
  obtain ⟨front, rest, rfl⟩ := List.append_of_mem before
  have ring := represents.ring
  rw [List.map_append, List.map_cons] at ring
  have next := ring.next_node
  rw [follows] at next
  cases rest with
  | nil => exact absurd next (represents.node_ne_head inside)
  | cons d rear =>
    have same : c = d := represents.layout.node_injective inside (by simp) next
    exact ⟨front, rear, by rw [same]⟩

theorem last_of_next_head (represents : Represents h blocks) (before : p ∈ blocks)
    (follows : flink h.mem p.node = h.heapAllocations) : blocks.getLast? = some p := by
  obtain ⟨front, rest, rfl⟩ := List.append_of_mem before
  have ring := represents.ring
  rw [List.map_append, List.map_cons] at ring
  have next := ring.next_node
  rw [follows] at next
  cases rest with
  | nil => simp
  | cons d rear => exact absurd next.symm (represents.node_ne_head (by simp))

theorem stop_le_last (represents : Represents h blocks) (inside : p ∈ blocks) {q : Block}
    (last : blocks.getLast? = some q) : p.stop ≤ q.stop := by
  have free := represents.free
  have stops := represents.span.2 p inside
  obtain ⟨front, same⟩ := List.getLast?_eq_some_iff.mp last
  rw [same, lastStop_append] at free
  rw [free] at stops
  exact stops

theorem searchRound_cases (represents : Represents h blocks) (searching : Searching h blocks search)
    (valid : request.Valid) (tag : request.tag ≠ 0) (small : h.heapSizeMaximum ≤ 2 ^ 63) :
    (∃ text, searchRound h request search = .error text) ∨
      (∃ next, searchRound h request search = .ok (h, .inl next) ∧ Searching h blocks next) ∨
      ∃ front p c rear, blocks = front ++ p :: c :: rear ∧ request.FitsBetween p c ∧
        searchRound h request search = .ok (inGap h p (request.block p.stop),
          .inr (request.block p.stop).entry) := by
  obtain ⟨inRing, current, shadow, passed⟩ := searching
  have curRing : search.curEntry ∈ h.heapAllocations :: blocks.map Block.node :=
    current ▸ represents.ring.next_mem inRing
  rcases List.mem_cons.mp inRing with isHead | linked
  · -- The previous entry is the list head.
    refine .inr (.inl ⟨_, Represents.searchRound_skip (.inr isHead), curRing, rfl, ?_, ?_⟩)
    all_goals
      rcases passed with zero | ⟨q, inside, entry, here | last⟩
      · first | exact .inr (.inl zero) | exact .inl zero
      · exact absurd (here.trans isHead) (represents.node_ne_head inside)
      · first | exact .inr (.inr ⟨q, inside, entry, .inr last⟩) | exact .inr ⟨q, inside, entry, .inr last⟩
  obtain ⟨p, before, atP⟩ := List.mem_map.mp linked
  rcases List.mem_cons.mp curRing with curHead | curLinked
  · -- The current entry is the list head, so the previous one is the last block.
    have last := represents.last_of_next_head before (by rw [atP, ← current, curHead])
    refine .inr (.inl ⟨_, Represents.searchRound_skip (.inl curHead), curRing, rfl, .inl curHead, ?_⟩)
    rcases passed with zero | ⟨q, inside, entry, here | isLast⟩
    · exact .inl zero
    · have same := represents.layout.node_injective inside before (here.trans atP.symm)
      exact .inr ⟨q, inside, entry, .inr (same ▸ last)⟩
    · exact .inr ⟨q, inside, entry, .inr isLast⟩
  obtain ⟨c, inside, atC⟩ := List.mem_map.mp curLinked
  have follows : flink h.mem p.node = c.node := by rw [atP, ← current, atC]
  obtain ⟨front, rear, split⟩ := represents.neighbours before inside follows
  have goesOn : Searching h blocks (nextLoop h.mem { search with curHeapEntry := c.entry }) := by
    have reached : ∃ q, q ∈ blocks ∧ c.entry = q.entry ∧
        (q.node = search.curEntry ∨ blocks.getLast? = some q) := ⟨c, inside, rfl, .inl atC⟩
    exact ⟨curRing, rfl, .inr (.inr reached), .inr reached⟩
  rcases shadow with isHead | zero | ⟨q, measuring, entry, here | last⟩
  · exact absurd (atP.trans isHead) (represents.node_ne_head before)
  · exact .inl ⟨_, represents.searchRound_null before inside atP.symm atC.symm zero⟩
  · have same := represents.layout.node_injective measuring before (here.trans atP.symm)
    subst same
    have round : searchRound h request search = _ :=
      (split ▸ represents).searchRound_adjacent atP.symm atC.symm entry valid tag
    by_cases fits : request.FitsBetween q c
    · rw [if_pos fits] at round
      exact .inr (.inr ⟨front, q, c, rear, split, fits, round⟩)
    · rw [if_neg fits] at round
      exact .inr (.inl ⟨_, round, goesOn⟩)
  · have stops := represents.stop_le_last inside last
    have stop_c : c.stop = c.entry + (c.size + 0x24) := rfl
    have near : q.stop ≤ c.entry + 2 ^ 63 := by
      have := represents.span.2 q measuring
      have := represents.room
      have := represents.layout.above c inside
      omega
    exact .inr (.inl ⟨_, represents.searchRound_stale before inside measuring atP.symm atC.symm entry valid
      (by omega) near, goesOn⟩)

theorem searchLoop_cases (represents : Represents h blocks) (searching : Searching h blocks search)
    (valid : request.Valid) (tag : request.tag ≠ 0) (small : h.heapSizeMaximum ≤ 2 ^ 63) (fuel : Nat) :
    (∃ text, searchLoop request fuel h search = .error text) ∨
      searchLoop request fuel h search = .ok (h, none) ∨
      ∃ front p c rear, blocks = front ++ p :: c :: rear ∧ request.FitsBetween p c ∧
        searchLoop request fuel h search = .ok (inGap h p (request.block p.stop),
          some (request.block p.stop).entry) := by
  induction fuel generalizing search with
  | zero => exact .inl ⟨_, rfl⟩
  | succ fuel ih =>
    rw [searchLoop]
    split
    · exact .inr (.inl rfl)
    · rcases represents.searchRound_cases searching valid tag small with
        ⟨text, round⟩ | ⟨next, round, searching⟩ | ⟨front, p, c, rear, split, fits, round⟩
      · refine .inl ⟨text, ?_⟩
        rw [round, Kernel.error_bind]
      · rw [round, Kernel.ok_bind]
        exact ih searching
      · refine .inr (.inr ⟨front, p, c, rear, split, fits, ?_⟩)
        rw [round, Kernel.ok_bind]
        rfl

end Represents

theorem Block.Stored.mapped {h : Heap} {b : Block} (stored : b.Stored h.mem) (below : b.stop ≤ 2 ^ 64) :
    h.mappedAddress b.entry = b.data := by
  simp only [Block.stop, Block.footprint] at below
  simp only [mappedAddress, stored.offset, ptrOffset, qword, Block.data]
  omega

structure Placement (h : Heap) (blocks : List Block) (request : Request) (after : Heap) (b : Block) : Prop where
  start : ∃ start, b = request.block start ∧ start ≤ b.entry ∧ 0 < start
  size : b.size = request.size
  tag : b.tag = request.tag
  maximum : after.heapSizeMaximum = h.heapSizeMaximum
  base : after.baseAddress = h.baseAddress
  represents : ∃ more, more.Perm (b :: blocks) ∧ Represents after more
  cursor : after.entryToRestartSearch = h.entryToRestartSearch ∨ after.entryToRestartSearch = b.node

namespace Represents

variable {h : Heap} {blocks front rear : List Block} {p c : Block} {request : Request}

theorem placement_end (represents : Represents h blocks) {b : Block} (placed : b = request.block h.freeAddress)
    (behind : h.freeAddress ≤ b.entry)
    (appended : Represents { atEnd h b with freeAddress := b.stop } (blocks ++ [b])) :
    Placement h blocks request { atEnd h b with freeAddress := b.stop } b := by
  have span := represents.span.1
  refine ⟨⟨h.freeAddress, placed, behind, by omega⟩, ?_, ?_, rfl, rfl,
    ⟨_, List.perm_append_singleton b blocks, appended⟩, .inl rfl⟩
  · rw [placed]
    rfl
  · rw [placed]
    rfl

theorem placement_gap (represents : Represents h (front ++ p :: c :: rear)) {b : Block}
    (placed : b = request.block p.stop) (behind : p.stop ≤ b.entry)
    (inserted : Represents (inGap h p b) (front ++ p :: b :: c :: rear)) :
    Placement h (front ++ p :: c :: rear) request (inGap h p b) b := by
  have above := represents.layout.above p (by simp)
  have stop_p : p.stop = p.entry + p.footprint := rfl
  have moved : (front ++ p :: b :: c :: rear).Perm (b :: (front ++ p :: c :: rear)) := by
    have middle := @List.perm_middle _ b (front ++ [p]) (c :: rear)
    simpa using middle
  refine ⟨⟨p.stop, placed, behind, by omega⟩, ?_, ?_, rfl, rfl, ⟨_, moved, inserted⟩, .inr rfl⟩
  · rw [placed]
    rfl
  · rw [placed]
    rfl

end Represents

structure Searches (h : Heap) (request : Request) : Prop where
  size : request.size ≠ 0
  tag : request.tag ≠ 0
  remaining : request.sizeRequired ≤ h.heapSizeRemaining
  full : ¬ request.FitsAtEnd h
  gaps : int64 request.sizeRequired ≤ int64 h.remainingSizeBeforeCurrent

def SearchEnds (h : Heap) (blocks : List Block) (request : Request) (result : Kernel (Heap × Option Nat)) : Prop :=
  result = .ok (h, none) ∨
    ∃ front p c rear, blocks = front ++ p :: c :: rear ∧ request.FitsBetween p c ∧
      result = .ok (Represents.inGap h p (request.block p.stop), some (request.block p.stop).entry)

def CallEnds (h : Heap) (blocks : List Block) (request : Request) (result : Kernel (Heap × Status × Nat)) : Prop :=
  (∃ status, status ≠ .success ∧ result = .ok (h, status, 0)) ∨
    ∃ after b, result = .ok (after, .success, b.data) ∧ Placement h blocks request after b

namespace Represents

variable {h : Heap} {blocks : List Block} {request : Request}

theorem gaps_nonempty (represents : Represents h blocks) (valid : request.Valid)
    (gaps : int64 request.sizeRequired ≤ int64 h.remainingSizeBeforeCurrent) : blocks ≠ [] := by
  rintro rfl
  have before := represents.remainingSizeBeforeCurrent_eq
  have free := represents.free
  simp only [lastStop, List.map_nil, List.sum_nil] at before free
  have none : h.remainingSizeBeforeCurrent = 0 := by omega
  have size := valid.size
  rw [none, valid.sizeRequired, int64_of_lt (by omega), int64_of_lt (by decide)] at gaps
  omega

theorem searchEnds_callEnds (represents : Represents h blocks) (valid : request.Valid) (tag : request.tag ≠ 0)
    {result : Kernel (Heap × Option Nat)} (ends : SearchEnds h blocks request result) :
    CallEnds h blocks request (result >>= fun
      | (h, none) => pure (h, .heapNoMoreMemory, 0)
      | (h, some newHeapEntry) => pure (h, .success, h.mappedAddress newHeapEntry)) := by
  rcases ends with rfl | ⟨front, p, c, rear, split, fits, rfl⟩
  · exact .inl ⟨.heapNoMoreMemory, by decide, rfl⟩
  · subst split
    have order := represents.gap_eq.1
    obtain ⟨behind, before⟩ := fits.2
    have inserted := represents.insert behind (by omega) (block_valid valid tag p.stop)
    generalize placed : request.block p.stop = b at *
    have inside : b ∈ front ++ p :: b :: c :: rear := by simp
    have mapped := (inserted.inscribed.stored b inside).mapped (inserted.layout.below b inside)
    refine .inr ⟨inGap h p b, b, ?_, represents.placement_gap placed.symm behind inserted⟩
    rw [Kernel.ok_bind]
    simp only [Kernel.pure_eq, mapped]

theorem allocate_of_search (represents : Represents h blocks) (valid : request.Valid) {fuel : Nat}
    {holds : Kernel (Heap × Status × Nat) -> Prop}
    (ends : forall result, CallEnds h blocks request result -> holds result)
    (searched : Searches h request -> holds (searchLoop request fuel h h.startSearch >>= fun
      | (h, none) => pure (h, .heapNoMoreMemory, 0)
      | (h, some newHeapEntry) => pure (h, .success, h.mappedAddress newHeapEntry))) :
    holds (h.allocate fuel request) := by
  unfold allocate
  split
  · exact ends _ (.inl ⟨_, by decide, rfl⟩)
  rename_i size
  split
  · exact ends _ (.inl ⟨_, by decide, rfl⟩)
  rename_i tag
  split
  · exact ends _ (.inl ⟨_, by decide, rfl⟩)
  rename_i remaining
  rcases represents.allocateAtEnd_cases valid tag with ⟨unfit, entry, full⟩ | ⟨b, placed, behind, done, appended⟩
  · rw [full, Kernel.ok_bind]
    simp only [ne_eq, not_true_eq_false, if_false, allocateInGap]
    split
    · exact ends _ (.inl ⟨_, by decide, rfl⟩)
    rename_i gaps
    have enough := Int.not_lt.mp gaps
    have empty : (blocks.map Block.node).isEmpty = false := by
      simpa using represents.gaps_nonempty valid enough
    rw [isListEmpty_of_ring represents.ring (by
      rw [represents.head]
      exact (List.nodup_cons.mp represents.layout.nodup).1), Kernel.ok_bind, empty, Bool.not_false, assert_true,
      Kernel.ok_bind]
    exact searched ⟨size, tag, Nat.not_lt.mp remaining, unfit, enough⟩
  · apply ends
    refine .inr ⟨_, b, ?_, represents.placement_end placed behind appended⟩
    have inside : b ∈ blocks ++ [b] := by simp
    have occupied : b.stop ≠ 0 := by simp [Block.stop, Block.footprint]
    have mapped : (atEnd h b).mappedAddress b.entry = b.data :=
      (appended.inscribed.stored b inside).mapped (appended.layout.below b inside)
    rw [done, Kernel.ok_bind]
    simp only [ne_eq, occupied, not_false_eq_true, if_true, mapped, Kernel.pure_eq]

theorem allocate_cases (represents : Represents h blocks)
    (cursor : h.entryToRestartSearch ∈ h.heapAllocations :: blocks.map Block.node)
    (valid : request.Valid) (small : h.heapSizeMaximum ≤ 2 ^ 63) (fuel : Nat) :
    (∃ text, h.allocate fuel request = .error text) ∨ CallEnds h blocks request (h.allocate fuel request) := by
  refine @allocate_of_search h blocks request represents valid fuel
    (fun result => (∃ text, result = .error text) ∨ CallEnds h blocks request result) ?_ ?_
  · intro result ends
    exact .inr ends
  · intro searches
    rcases represents.searchLoop_cases (represents.searching_start cursor) valid searches.tag small fuel with
      ⟨text, failed⟩ | ends
    · exact .inl ⟨text, by rw [failed, Kernel.error_bind]⟩
    · exact .inr (represents.searchEnds_callEnds valid searches.tag ends)

end Represents

end Hal9000.Heap
