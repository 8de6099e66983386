import Hal9000.CommonLib.HeapRuns

set_option autoImplicit false

namespace Hal9000.Heap

open Lib (Ring TransitionSystem)
open LinkMemory
open Represents (inGap searchRound_skip)

inductive Visited (h : Heap) (request : Request) : Search -> Prop where
  | start : Visited h request h.startSearch
  | next {search after : Search} (visited : Visited h request search)
      (goesOn : h.entryToRestartSearch ≠ search.curEntry)
      (round : searchRound h request search = .ok (h, .inl after)) : Visited h request after

def FitsIn (request : Request) (blocks : List Block) : Prop :=
  ∃ front p c rear, blocks = front ++ p :: c :: rear ∧ request.FitsBetween p c

def CursorFirst (h : Heap) : Prop :=
  flink h.mem h.heapAllocations = h.entryToRestartSearch ∨
    flink h.mem (flink h.mem h.heapAllocations) = h.entryToRestartSearch

def CursorEarly (h : Heap) : Prop := h.entryToRestartSearch = h.heapAllocations ∨ CursorFirst h

-- A search that keeps its shadow pointer, and the rounds it has left at most: it goes forward through the list,
-- passes the head and stops in front of the second entry.
inductive Course (h : Heap) (blocks : List Block) (request : Request) : Nat -> Search -> Prop where
  | forward {front rear : List Block} {p : Block} {search : Search} (split : blocks = front ++ p :: rear)
      (previous : search.previousEntry = p.node) (shadow : search.previousHeapEntry = p.entry)
      (current : search.curEntry = flink h.mem p.node) (wraps : CursorEarly h ∨ FitsIn request (p :: rear)) :
      Course h blocks request (rear.length + 3) search
  | atHead {search : Search} (previous : search.previousEntry = h.heapAllocations)
      (current : search.curEntry = flink h.mem h.heapAllocations) (early : CursorFirst h) :
      Course h blocks request 2 search
  | atFirst {search : Search} (previous : search.previousEntry = flink h.mem h.heapAllocations)
      (current : search.curEntry = h.entryToRestartSearch) : Course h blocks request 1 search

theorem FitsIn.tail {request : Request} {p c : Block} {rest : List Block} (fits : FitsIn request (p :: c :: rest))
    (unfit : ¬ request.FitsBetween p c) : FitsIn request (c :: rest) := by
  obtain ⟨front, p', c', rear, split, fits⟩ := fits
  cases front with
  | nil =>
    simp only [List.nil_append, List.cons.injEq] at split
    obtain ⟨rfl, rfl, rfl⟩ := split
    exact absurd fits unfit
  | cons d front =>
    simp only [List.cons_append, List.cons.injEq] at split
    exact ⟨front, p', c', rear, split.2, fits⟩

theorem not_fitsIn_singleton {request : Request} {p : Block} : ¬ FitsIn request [p] := by
  rintro ⟨front, p', c', rear, split, _⟩
  have length := congrArg List.length split
  simp only [List.length_cons, List.length_nil, List.length_append] at length
  omega

theorem suffix_of_not_mem {α : Type} {front rest front' tail : List α} {x : α}
    (same : front' ++ x :: tail = front ++ rest) (outside : x ∉ front) : ∃ between, rest = between ++ x :: tail := by
  rcases List.append_eq_append_iff.mp same with ⟨more, before, after⟩ | ⟨more, before, after⟩
  · cases more with
    | nil => exact ⟨[], by simpa using after.symm⟩
    | cons y more =>
      simp only [List.cons_append, List.cons.injEq] at after
      exact absurd (by rw [before, after.1]; simp) outside
  · exact ⟨more, after⟩

namespace Represents

variable {h : Heap} {blocks : List Block} {request : Request} {search : Search}

theorem course_round (represents : Represents h blocks) {rounds : Nat} (course : Course h blocks request rounds search)
    (goesOn : h.entryToRestartSearch ≠ search.curEntry) (valid : request.Valid) (tag : request.tag ≠ 0) :
    (∃ fewer after, fewer < rounds ∧ searchRound h request search = .ok (h, .inl after) ∧
      Course h blocks request fewer after) ∨
      ∃ front p c rear, blocks = front ++ p :: c :: rear ∧ request.FitsBetween p c ∧
        searchRound h request search = .ok (inGap h p (request.block p.stop),
          .inr (request.block p.stop).entry) := by
  cases course with
  | @forward front rear p search split previous shadow current wraps =>
    have ring := represents.ring
    rw [split, List.map_append, List.map_cons] at ring
    have next := ring.next_node
    cases rear with
    | nil =>
      have atHead : search.curEntry = h.heapAllocations := current.trans next
      have early := (wraps.resolve_right not_fitsIn_singleton).resolve_left (atHead ▸ goesOn)
      refine .inl ⟨2, _, by omega, searchRound_skip (.inl atHead), .atHead atHead ?_ early⟩
      rw [← atHead]
      rfl
    | cons c rest =>
      have atC : search.curEntry = c.node := current.trans next
      have round := (split ▸ represents).searchRound_adjacent previous atC shadow valid tag
      by_cases fits : request.FitsBetween p c
      · rw [if_pos fits] at round
        exact .inr ⟨front, p, c, rest, split, fits, round⟩
      · rw [if_neg fits] at round
        have split' : blocks = (front ++ [p]) ++ c :: rest := by
          rw [split, List.append_assoc, List.singleton_append]
        refine .inl ⟨rest.length + 3, _, by simp, round, .forward split' atC rfl ?_
          (wraps.imp_right fun ahead => ahead.tail fits)⟩
        rw [← atC]
        rfl
  | atHead previous current early =>
    have skipped := @searchRound_skip h request search (.inr previous)
    refine .inl ⟨1, _, by omega, skipped, .atFirst current ?_⟩
    change flink h.mem search.curEntry = _
    rw [current] at goesOn ⊢
    exact early.resolve_left goesOn.symm
  | atFirst previous current => exact absurd current.symm goesOn

theorem course_loop (represents : Represents h blocks) {rounds : Nat}
    (course : Course h blocks request rounds search) (valid : request.Valid) (tag : request.tag ≠ 0) (fuel : Nat) :
    (fuel ≤ rounds ∧ ∃ text, searchLoop request fuel h search = .error text) ∨
      SearchEnds h blocks request (searchLoop request fuel h search) := by
  induction fuel generalizing rounds search with
  | zero => exact .inl ⟨Nat.zero_le _, _, rfl⟩
  | succ fuel ih =>
    rw [searchLoop]
    split
    · exact .inr (.inl rfl)
    · rename_i goesOn
      rcases represents.course_round course goesOn valid tag with
        ⟨fewer, after, less, round, course⟩ | ⟨front, p, c, rear, split, fits, round⟩
      · rw [round, Kernel.ok_bind]
        exact (ih course).imp_left fun short => ⟨by omega, short.2⟩
      · refine .inr (.inr ⟨front, p, c, rear, split, fits, ?_⟩)
        rw [round, Kernel.ok_bind]
        rfl

theorem course_visited (represents : Represents h blocks) {rounds : Nat}
    (start : Course h blocks request rounds h.startSearch) (valid : request.Valid) (tag : request.tag ≠ 0)
    (visited : Visited h request search) : ∃ fewer, Course h blocks request fewer search := by
  induction visited with
  | start => exact ⟨rounds, start⟩
  | next _ goesOn round ih =>
    obtain ⟨fewer, course⟩ := ih
    rcases represents.course_round course goesOn valid tag with
      ⟨left, after, _, same, course⟩ | ⟨front, p, c, rear, split, fits, placed⟩
    · rw [round] at same
      obtain rfl := Sum.inl.inj (Prod.mk.inj (Except.ok.inj same)).2
      exact ⟨left, course⟩
    · rw [round] at placed
      exact absurd (Prod.mk.inj (Except.ok.inj placed)).2 (by simp)

theorem course_start (represents : Represents h blocks) (nonempty : blocks ≠ [])
    (cursor : h.entryToRestartSearch ∈ h.heapAllocations :: blocks.map Block.node)
    (wraps : CursorEarly h ∨ ∃ front p c rear, blocks = front ++ p :: c :: rear ∧
      h.entryToRestartSearch < p.node ∧ request.FitsBetween p c) :
    ∃ rounds, Course h blocks request rounds h.startSearch := by
  rcases List.mem_cons.mp cursor with isHead | linked
  · obtain ⟨p, rear, rfl⟩ := List.exists_cons_of_ne_nil nonempty
    have first : flink h.mem h.heapAllocations = p.node := represents.ring.next_head
    refine ⟨_, @Course.forward h _ request [] rear p _ rfl ?_ ?_ ?_ (.inl (.inl isHead))⟩
    · simp only [startSearch, isHead, first]
    · simp only [startSearch, isHead, first, represents.containingRecord_eq List.mem_cons_self]
    · simp only [startSearch, isHead, first]
  · obtain ⟨q, inside, here⟩ := List.mem_map.mp linked
    obtain ⟨front, rest, split⟩ := List.append_of_mem inside
    have ring := represents.ring
    rw [split, List.map_append, List.map_cons] at ring
    have next := ring.next_node
    rw [here] at next
    have away : h.entryToRestartSearch ≠ h.heapAllocations := here ▸ represents.node_ne_head inside
    have ahead : CursorFirst h ∨ FitsIn request rest := by
      rcases wraps with early | ⟨front', p, c, rear, split', behind, fits⟩
      · exact .inl (early.resolve_left away)
      · have later : p ∉ front ++ [q] := by
          intro before
          rw [← here] at behind
          rcases List.mem_append.mp before with earlier | same
          · have order := (List.pairwise_append.mp (split ▸ represents.layout.sorted)).2.2 p earlier q
              List.mem_cons_self
            simp only [Block.stop, Block.footprint, Block.node] at order behind
            omega
          · rw [List.mem_singleton.mp same] at behind
            exact absurd behind (Nat.lt_irrefl _)
        rw [split', ← List.singleton_append (x := q), ← List.append_assoc] at split
        obtain ⟨between, same⟩ := suffix_of_not_mem split later
        exact .inr ⟨between, p, c, rear, same, fits⟩
    cases rest with
    | nil =>
      have empty : ¬ FitsIn request [] := by
        rintro ⟨front, p, c, rear, split, _⟩
        simp at split
      have last : flink h.mem h.entryToRestartSearch = h.heapAllocations := next
      refine ⟨2, .atHead ?_ ?_ (ahead.resolve_right empty)⟩
      · simp only [startSearch, last]
      · simp only [startSearch, last]
    | cons p rear =>
      have follows : flink h.mem h.entryToRestartSearch = p.node := next
      have member : p ∈ blocks := by
        rw [split]
        simp
      have split' : blocks = (front ++ [q]) ++ p :: rear := by
        rw [split, List.append_assoc, List.singleton_append]
      refine ⟨_, .forward split' ?_ ?_ ?_ (ahead.imp_left .inr)⟩
      · simp only [startSearch, follows]
      · simp only [startSearch, follows, represents.containingRecord_eq member]
      · simp only [startSearch, follows]

end Represents

-- The search does not have to measure the first two entries, whose shadow is left over from before the head.
def WrapsSafely (s : State) (request : Request) : Prop :=
  CursorEarly s.heap ∨ ∃ p, p ∈ s.live ∧ ∃ c, c ∈ s.live ∧ s.heap.entryToRestartSearch < p.node ∧
    flink s.heap.mem p.node = c.node ∧ request.FitsBetween p.block c.block

def Careful (s : State) : Call -> Prop
  | .allocate _ allocationSize tag allocationAlignment =>
    (tag = 0 ∨ s.heap.heapSizeRemaining < allocationSize + 0x24 ∨ allocationSize + 0x24 < 2 ^ 32) ∧
      (Searches s.heap (requestOf allocationSize tag allocationAlignment) ->
        WrapsSafely s (requestOf allocationSize tag allocationAlignment))
  | .free l => s.heap.entryToRestartSearch ≠ l.node
  | .write .. => True

structure Sound (s : State) (search : Search) : Prop where
  previous : search.previousEntry = s.heap.heapAllocations ∨ ∃ l, l ∈ s.live ∧ search.previousEntry = l.node
  current : search.curEntry = s.heap.heapAllocations ∨ ∃ l, l ∈ s.live ∧ search.curEntry = l.node
  measured : s.heap.entryToRestartSearch ≠ search.curEntry -> search.curEntry ≠ s.heap.heapAllocations ->
    search.previousEntry ≠ s.heap.heapAllocations ->
    ∃ p c, p ∈ s.live ∧ c ∈ s.live ∧ search.previousEntry = p.node ∧ search.curEntry = c.node ∧
      flink s.heap.mem p.node = c.node ∧ search.previousHeapEntry = p.block.entry

def CallSafe (s : State) : Call -> Prop
  | .allocate _ allocationSize tag allocationAlignment =>
    allocationSize < 2 ^ 32 ∧ tag < 2 ^ 32 ∧ allocationAlignment < 2 ^ 32 ->
      (Searches s.heap (requestOf allocationSize tag allocationAlignment) -> forall search,
        Visited s.heap (requestOf allocationSize tag allocationAlignment) search -> Sound s search) ∧
      ∃ fuel result, s.heap.allocate fuel (requestOf allocationSize tag allocationAlignment) = .ok result
  | .free l => l ∈ s.live -> ∃ heap, clHeapFreePoolWithTag s.heap l.address l.tag = .ok heap
  | .write .. => True

theorem CallEnds.returns {h : Heap} {blocks : List Block} {request : Request} {result : Kernel (Heap × Status × Nat)}
    (ends : CallEnds h blocks request result) : ∃ returned, result = .ok returned := by
  rcases ends with ⟨status, _, same⟩ | ⟨after, b, same, _⟩
  · exact ⟨_, same⟩
  · exact ⟨_, same⟩

namespace Faithful

variable {limit : Nat} {s after : State} {blocks : List Block} {request : Request}

theorem live_of_mem (faithful : Faithful limit s blocks) {b : Block} (member : b ∈ blocks) :
    ∃ l, l ∈ s.live ∧ l.block = b ∧ l.node = b.node := by
  obtain ⟨l, live, rfl⟩ := List.mem_map.mp (faithful.perm.mem_iff.mp member)
  exact ⟨l, live, rfl, (faithful.node_eq live).symm⟩

theorem entry_live (faithful : Faithful limit s blocks) {entry : Nat}
    (member : entry ∈ s.heap.heapAllocations :: blocks.map Block.node) :
    entry = s.heap.heapAllocations ∨ ∃ l, l ∈ s.live ∧ entry = l.node := by
  refine (List.mem_cons.mp member).imp_right fun linked => ?_
  obtain ⟨b, inside, rfl⟩ := List.mem_map.mp linked
  obtain ⟨l, live, _, node⟩ := faithful.live_of_mem inside
  exact ⟨l, live, node.symm⟩

theorem wraps (faithful : Faithful limit s blocks) (safely : WrapsSafely s request) :
    CursorEarly s.heap ∨ ∃ front p c rear, blocks = front ++ p :: c :: rear ∧
      s.heap.entryToRestartSearch < p.node ∧ request.FitsBetween p c := by
  refine safely.imp_right ?_
  rintro ⟨p, liveP, c, liveC, behind, follows, fits⟩
  rw [← faithful.node_eq liveP, ← faithful.node_eq liveC] at follows
  obtain ⟨front, rear, split⟩ := faithful.represents.neighbours (faithful.block_mem liveP)
    (faithful.block_mem liveC) follows
  refine ⟨front, p.block, c.block, rear, split, ?_, fits⟩
  rw [faithful.node_eq liveP]
  exact behind

theorem sound (faithful : Faithful limit s blocks) {rounds : Nat} {search : Search}
    (course : Course s.heap blocks request rounds search) (cursor : CursorLive s) : Sound s search := by
  have represents := faithful.represents
  have head : s.heap.heapAllocations ∈ s.heap.heapAllocations :: blocks.map Block.node := List.mem_cons_self
  have first := represents.ring.next_mem head
  cases course with
  | @forward front rear p search split previous shadow current wraps =>
    have inside : p ∈ blocks := by
      rw [split]
      simp
    have linked : p.node ∈ s.heap.heapAllocations :: blocks.map Block.node :=
      List.mem_cons_of_mem _ (List.mem_map_of_mem inside)
    have nextLinked := represents.ring.next_mem linked
    refine ⟨faithful.entry_live (previous ▸ linked), faithful.entry_live (current ▸ nextLinked), ?_⟩
    intro _ away _
    obtain ⟨l, live, block, node⟩ := faithful.live_of_mem inside
    obtain isHead | ⟨c, liveC, atC⟩ := faithful.entry_live (current ▸ nextLinked)
    · exact absurd isHead away
    · refine ⟨l, c, live, liveC, previous.trans node.symm, atC, ?_, ?_⟩
      · rw [node, ← current, atC]
      · rw [block, shadow]
  | atHead previous current early =>
    exact ⟨.inl previous, faithful.entry_live (current ▸ first), fun _ _ away => absurd previous away⟩
  | atFirst previous current =>
    refine ⟨faithful.entry_live (previous ▸ first), ?_, fun goesOn => absurd current.symm goesOn⟩
    rw [current]
    exact cursor

theorem course (faithful : Faithful limit s blocks) (cursor : CursorLive s) (valid : request.Valid)
    (searches : Searches s.heap request) (safely : WrapsSafely s request) :
    ∃ rounds, Course s.heap blocks request rounds s.heap.startSearch :=
  faithful.represents.course_start (faithful.represents.gaps_nonempty valid searches.gaps)
    (faithful.cursor_mem cursor) (faithful.wraps safely)

theorem careful_ends (faithful : Faithful limit s blocks) (cursor : CursorLive s)
    {flags allocationSize tag allocationAlignment : Nat}
    (careful : Careful s (.allocate flags allocationSize tag allocationAlignment))
    (dwords : allocationSize < 2 ^ 32 ∧ tag < 2 ^ 32 ∧ allocationAlignment < 2 ^ 32) :
    ∃ rounds, forall fuel,
      (fuel ≤ rounds ∧ ∃ text, s.heap.allocate fuel (requestOf allocationSize tag allocationAlignment) = .error text) ∨
        CallEnds s.heap blocks (requestOf allocationSize tag allocationAlignment)
          (s.heap.allocate fuel (requestOf allocationSize tag allocationAlignment)) := by
  obtain ⟨size, wraps⟩ := careful
  by_cases refused : tag = 0 ∨ s.heap.heapSizeRemaining < allocationSize + 0x24
  · exact ⟨0, fun fuel => .inr (allocate_refused dwords.1 refused fuel)⟩
  have valid : (requestOf allocationSize tag allocationAlignment).Valid :=
    requestOf_valid (by tauto) dwords.2
  generalize requestOf allocationSize tag allocationAlignment = request at *
  have rounds : ∃ rounds, Searches s.heap request -> Course s.heap blocks request rounds s.heap.startSearch := by
    by_cases searches : Searches s.heap request
    · obtain ⟨rounds, course⟩ := faithful.course cursor valid searches (wraps searches)
      exact ⟨rounds, fun _ => course⟩
    · exact ⟨0, fun searches' => absurd searches' searches⟩
  obtain ⟨rounds, course⟩ := rounds
  refine ⟨rounds, fun fuel => ?_⟩
  refine @Represents.allocate_of_search s.heap blocks request faithful.represents valid fuel
    (fun result => (fuel ≤ rounds ∧ ∃ text, result = .error text) ∨ CallEnds s.heap blocks request result)
    (fun result => .inr) fun searches => ?_
  rcases faithful.represents.course_loop (course searches) valid searches.tag fuel with ⟨short, text, failed⟩ | ends
  · exact .inl ⟨short, text, by rw [failed, Kernel.error_bind]⟩
  · exact .inr (faithful.represents.searchEnds_callEnds valid searches.tag ends)

theorem callSafe (faithful : Faithful limit s blocks) (cursor : CursorLive s) {call : Call}
    (careful : Careful s call) : CallSafe s call := by
  cases call with
  | allocate flags allocationSize tag allocationAlignment =>
    intro dwords
    constructor
    · intro searches search visited
      have remaining := searches.remaining
      rw [sizeRequired_eq dwords.1] at remaining
      have size : allocationSize + 0x24 < 2 ^ 32 := by
        rcases careful.1 with noTag | large | small
        · exact absurd noTag searches.tag
        · exact absurd large (Nat.not_lt.mpr remaining)
        · exact small
      have valid := requestOf_valid size dwords.2
      obtain ⟨rounds, start⟩ := faithful.course cursor valid searches (careful.2 searches)
      obtain ⟨fewer, course⟩ := faithful.represents.course_visited start valid searches.tag visited
      exact faithful.sound course cursor
    · obtain ⟨rounds, ends⟩ := faithful.careful_ends cursor careful dwords
      rcases ends (rounds + 1) with ⟨short, _⟩ | ends
      · exact absurd short (Nat.not_succ_le_self rounds)
      · exact ⟨rounds + 1, ends.returns⟩
  | free l =>
    intro live
    obtain ⟨front, rear, split⟩ := List.append_of_mem (faithful.block_mem live)
    have freed := (split ▸ faithful.represents).free_eq
    rw [faithful.data_eq live] at freed
    exact ⟨_, freed⟩
  | write l offset byte => trivial

end Faithful

theorem cursor_placement {s : State} {blocks : List Block} {request : Request} {heap : Heap} {b : Block}
    {allocationSize tag allocationAlignment : Nat} (cursor : CursorLive s)
    (placement : Placement s.heap blocks request heap b) :
    CursorLive (afterAllocate s heap b.data allocationSize tag allocationAlignment) := by
  have occupied : b.data ≠ 0 := by simp [Block.data]
  have head : heap.heapAllocations = s.heap.heapAllocations := by
    simp only [heapAllocations, placement.base]
  simp only [CursorLive, afterAllocate, if_neg occupied, head]
  rcases placement.cursor with same | new
  · rw [same]
    refine cursor.imp_right ?_
    rintro ⟨l, live, here⟩
    exact ⟨l, List.mem_cons_of_mem _ live, here⟩
  · refine .inr ⟨_, List.mem_cons_self, ?_⟩
    rw [new]
    simp only [Live.node, Block.node, Block.data]
    omega

theorem step_cursor {s after : State} {call : Call} {limit : Nat} {blocks : List Block}
    (faithful : Faithful limit s blocks) (cursor : CursorLive s) (careful : Careful s call)
    (step : Step s call after) : CursorLive after ∧ ∃ more, Faithful limit after more := by
  cases step with
  | @allocate fuel flags allocationSize tag allocationAlignment address heap dwords result =>
    obtain ⟨rounds, ends⟩ := faithful.careful_ends cursor careful dwords
    have cases := (ends fuel).imp_left And.right
    refine ⟨?_, faithful.allocate dwords.2.2 cases result⟩
    rcases clHeapAllocatePoolWithTag_cases result cases with ⟨unchanged, null⟩ | ⟨b, returned, placement⟩
    · rw [unchanged, null, afterAllocate, if_pos rfl]
      exact cursor
    · rw [returned]
      exact cursor_placement cursor placement
  | @free l heap live result =>
    refine ⟨?_, faithful.free live result⟩
    obtain ⟨front, rear, split⟩ := List.append_of_mem (faithful.block_mem live)
    have freed := (split ▸ faithful.represents).free_eq
    have tag : l.block.tag = l.tag := rfl
    rw [faithful.data_eq live, tag, result] at freed
    rw [Except.ok.inj freed]
    refine cursor.imp_right ?_
    rintro ⟨other, still, here⟩
    refine ⟨other, (List.mem_erase_of_ne ?_).mpr still, here⟩
    rintro rfl
    exact careful here
  | @write l offset byte live inside => exact ⟨cursor, blocks, faithful.write live inside byte⟩

theorem cursor_safe {s : State} (reached : (heapSystem (2 ^ 64)).ReachableUnder Careful s) :
    CursorLive s ∧ forall call, Careful s call -> CallSafe s call := by
  have holds : CursorLive s ∧ ∃ blocks, Faithful (2 ^ 64) s blocks := by
    induction reached with
    | start s initial =>
      obtain ⟨h, live⟩ := s
      obtain ⟨empty, mem, baseAddress, memoryAvailable, made, region, small⟩ := initial
      obtain rfl : live = [] := empty
      exact ⟨.inl (clHeapInit_represents made region).2, [], Faithful.start made region small⟩
    | next s call after _ careful taken ih =>
      obtain ⟨cursor, blocks, faithful⟩ := ih
      exact step_cursor faithful cursor careful taken
  obtain ⟨cursor, blocks, faithful⟩ := holds
  exact ⟨cursor, fun call careful => faithful.callSafe cursor careful⟩

instance (h : Heap) (request : Request) : Decidable (Searches h request) :=
  decidable_of_iff (request.size ≠ 0 ∧ request.tag ≠ 0 ∧ request.sizeRequired ≤ h.heapSizeRemaining ∧
      ¬ request.FitsAtEnd h ∧ int64 request.sizeRequired ≤ int64 h.remainingSizeBeforeCurrent)
    ⟨fun ⟨size, tag, remaining, full, gaps⟩ => ⟨size, tag, remaining, full, gaps⟩,
      fun ⟨size, tag, remaining, full, gaps⟩ => ⟨size, tag, remaining, full, gaps⟩⟩

instance (h : Heap) : Decidable (CursorEarly h) :=
  inferInstanceAs (Decidable (_ ∨ _ ∨ _))

instance (s : State) (request : Request) : Decidable (WrapsSafely s request) :=
  inferInstanceAs (Decidable (_ ∨ ∃ p, p ∈ s.live ∧ ∃ c, c ∈ s.live ∧ _ ∧ _ ∧ _))

instance (s : State) (call : Call) : Decidable (Careful s call) :=
  match call with
  | .allocate .. => inferInstanceAs (Decidable (_ ∧ (_ -> _)))
  | .free _ => inferInstanceAs (Decidable (_ ≠ _))
  | .write .. => .isTrue trivial

theorem sampleCalls_careful : (TransitionSystem.runUnder (fun s call => decide (Careful s call)) (callStep 8)
    { heap := sampleHeap, live := [] } sampleCalls).any
      (fun s => decide (s.heap.entryToRestartSearch = 0x10190)) = true := by
  decide +kernel

theorem cursor_safe_sample : ∃ s, (heapSystem (2 ^ 64)).ReachableUnder Careful s ∧
    s.heap.entryToRestartSearch = 0x10190 ∧ CursorLive s ∧ forall call, Careful s call -> CallSafe s call := by
  obtain ⟨s, reached, cursor⟩ := TransitionSystem.ReachableUnder.of_run
    (fun _ _ _ => callStep_step) (.start _ (sampleHeap_initial (2 ^ 64) (by decide))) sampleCalls sampleCalls_careful
  exact ⟨s, reached, cursor, cursor_safe reached⟩

-- The block that was squeezed in is freed again, and the cursor is left behind.
def danglingCalls : List Call :=
  sampleCalls ++ [.free { address := 0x101A0, size := 0x80, tag := 1, alignment := 0 }]

-- With four blocks in front of the last one, the search starts behind the third and meets the first two with
-- the NULL it started from.
def wrappingCalls : List Call :=
  [.allocate 0 0x100 1 0, .allocate 0 0x100 1 0, .allocate 0 0x100 1 0, .allocate 0 0x100 1 0,
    .allocate 0 0xFA00 1 0, .free { address := 0x10400, size := 0x100, tag := 1, alignment := 0 },
    .allocate 0 0x80 1 0, .free { address := 0x101A0, size := 0x100, tag := 1, alignment := 0 }]

def failure {α : Type} : Kernel α -> Option String
  | .ok _ => none
  | .error text => some text

theorem danglingCalls_result : (TransitionSystem.runUnder (fun _ _ => decide True) (callStep 8)
    { heap := sampleHeap, live := [] } danglingCalls).any (fun s => decide (¬ CursorLive s)) = true := by
  decide +kernel

theorem wrappingCalls_result : (TransitionSystem.runUnder (fun _ _ => decide True) (callStep 8)
    { heap := sampleHeap, live := [] } wrappingCalls).any (fun s => decide (CursorLive s ∧
      failure (s.heap.allocate 8 (requestOf 0x80 1 0)) = some "NULL != pPreviousHeapEntry")) = true := by
  decide +kernel

theorem cursor_unsafe : (∃ s, (heapSystem (2 ^ 64)).Reachable s ∧ ¬ CursorLive s) ∧
    ∃ s, (heapSystem (2 ^ 64)).Reachable s ∧ CursorLive s ∧
      failure (s.heap.allocate 8 (requestOf 0x80 1 0)) = some "NULL != pPreviousHeapEntry" :=
  ⟨TransitionSystem.ReachableUnder.of_run (fun _ _ _ => callStep_step)
      (.start _ (sampleHeap_initial (2 ^ 64) (by decide))) danglingCalls danglingCalls_result,
    TransitionSystem.ReachableUnder.of_run (fun _ _ _ => callStep_step)
      (.start _ (sampleHeap_initial (2 ^ 64) (by decide))) wrappingCalls wrappingCalls_result⟩

end Hal9000.Heap
