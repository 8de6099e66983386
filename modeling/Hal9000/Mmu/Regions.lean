import Hal9000.Mmu.Mapping

set_option autoImplicit false

namespace Hal9000.Mmu

variable {tables : PagingTables} {pagingData : PagingData} {patIndex baseAddress rights : Nat} {invalidate : Bool}

def regionEntry (rights patIndex : Nat) (kernelSpace : Bool) (physicalAddress : Nat) : PtEntry :=
  pteMap physicalAddress
    (mapFlags
      { physicalAddressBase := 0
        virtualAddressBase := 0
        pageRights := rights
        invalidate := false
        patIndex := patIndex } kernelSpace)

def regionPages (baseAddress : Nat) (entry : Nat -> PtEntry) (first : Nat) (frames : List Nat) : List (Nat × PtEntry) :=
  frames.mapIdx (fun k physicalAddress => (ptrOffset baseAddress ((first + k) * pageSize), entry physicalAddress))

theorem regionPages_append (entry : Nat -> PtEntry) (first : Nat) (left right : List Nat) :
    regionPages baseAddress entry first (left ++ right) =
      regionPages baseAddress entry first left ++ regionPages baseAddress entry (first + left.length) right := by
  rw [regionPages, List.mapIdx_append, regionPages, regionPages]
  refine congrArg _ (congrArg (fun place => List.mapIdx place right) ?_)
  funext k physicalAddress
  rw [show first + (k + left.length) = first + left.length + k by omega]

theorem walked_pages (invalidate : Bool) {first count physicalAddress : Nat} {kernelSpace : Bool} (low : physicalAddress < 2 ^ 54)
    (short : (first + count) * pageSize < 2 ^ 44) :
    (pageOffsets (count * pageSize)).map (fun offset =>
        pageMapped
          { physicalAddressBase := physicalAddress
            virtualAddressBase := ptrOffset baseAddress (first * pageSize)
            pageRights := rights
            invalidate := invalidate
            patIndex := patIndex } kernelSpace (ptrOffset (ptrOffset baseAddress (first * pageSize)) offset)) =
      regionPages baseAddress (regionEntry rights patIndex kernelSpace) first
        ((List.range count).map (fun i => physicalAddress + i * pageSize)) := by
  have pages : (count * pageSize + (pageSize - 1)) / pageSize = count := by
    simp only [pageSize]
    omega
  rw [pageOffsets, pages, List.map_map]
  refine List.ext_getElem (by simp [regionPages]) (fun i inside _ => ?_)
  simp only [List.length_map, List.length_range] at inside
  simp only [regionPages, List.getElem_map, List.getElem_mapIdx, List.getElem_range, Function.comp_apply, pageMapped]
  have size : pageSize = 4096 := rfl
  have address : ptrOffset (ptrOffset baseAddress (first * pageSize)) (i * pageSize) =
      ptrOffset baseAddress ((first + i) * pageSize) := by
    simp only [ptrOffset, qword, size]
    omega
  have frame : ptrOffset physicalAddress (ptrDiff (ptrOffset baseAddress ((first + i) * pageSize))
      (ptrOffset baseAddress (first * pageSize))) = physicalAddress + i * pageSize := by
    simp only [ptrOffset, ptrDiff, qword, size] at short ⊢
    omega
  rw [address]
  refine congrArg (Prod.mk _) ?_
  rw [mapAddress, frame]
  rfl

def Reachable (tables : PagingTables) (pages : List (Nat × PtEntry)) : Prop :=
  forall page, page ∈ pages -> page.1 ≠ 0 ∧ ¬ tables.Blocked page.1

theorem mapExtent_spec {first count physicalAddress : Nat} {after : PagingTables} {afterData : PagingData}
    (low : physicalAddress < 2 ^ 54) (short : (first + count) * pageSize < 2 ^ 44)
    (distinct : DistinctPages (regionPages baseAddress (regionEntry rights patIndex pagingData.kernelSpace) first
      ((List.range count).map (fun i => physicalAddress + i * pageSize))))
    (mapped : mmuMapMemoryInternal tables pagingData physicalAddress (count * pageSize) rights
      (ptrOffset baseAddress (first * pageSize)) invalidate patIndex = .ok (after, afterData)) :
    Reachable tables (regionPages baseAddress (regionEntry rights patIndex pagingData.kernelSpace) first
        ((List.range count).map (fun i => physicalAddress + i * pageSize))) ∧
      MapsPages tables after invalidate (regionPages baseAddress (regionEntry rights patIndex pagingData.kernelSpace) first
        ((List.range count).map (fun i => physicalAddress + i * pageSize))) ∧
      afterData.kernelSpace = pagingData.kernelSpace := by
  simp only [mmuMapMemoryInternal, vmmMapMemoryInternal, vmWalkPagingTables, Kernel.assert_bind_eq_ok] at mapped
  obtain ⟨_, _, _, _, _, _, walked⟩ := mapped
  rw [← walked_pages invalidate low short] at distinct ⊢
  obtain ⟨reached, maps, kernelSpace⟩ := walkPages_spec distinct walked
  refine ⟨fun page member => ?_, maps, kernelSpace⟩
  obtain ⟨offset, inside, rfl⟩ := List.mem_map.mp member
  exact reached offset inside

theorem mapExtent_succeeds {first count physicalAddress : Nat} (low : physicalAddress < 2 ^ 54)
    (aligned : physicalAddress % pageSize = 0) (some : 0 < count) (short : (first + count) * pageSize < 2 ^ 44)
    (base : baseAddress % pageSize = 0)
    (reachable : Reachable tables (regionPages baseAddress (regionEntry rights patIndex pagingData.kernelSpace) first
      ((List.range count).map (fun i => physicalAddress + i * pageSize))))
    (room : pagingData.currentIndex + 3 * count ≤ pagingData.numberOfFrames) :
    ∃ after afterData, mmuMapMemoryInternal tables pagingData physicalAddress (count * pageSize) rights
        (ptrOffset baseAddress (first * pageSize)) invalidate patIndex = .ok (after, afterData) ∧
      afterData.numberOfFrames = pagingData.numberOfFrames ∧
      afterData.currentIndex ≤ pagingData.currentIndex + 3 * count := by
  have size : pageSize = 4096 := rfl
  have bounded : count * pageSize < 2 ^ 64 :=
    (Nat.mul_le_mul_right pageSize (Nat.le_add_left count first)).trans_lt (short.trans (by decide))
  have nonempty : (0 != count * pageSize) = true := by
    rw [bne_iff_ne, size]
    omega
  have pages : (count * pageSize + (pageSize - 1)) / pageSize = count := by
    simp only [pageSize]
    omega
  have length : (pageOffsets (count * pageSize)).length = count := by
    rw [pageOffsets, pages, List.length_map, List.length_range]
  rw [← walked_pages invalidate low short] at reachable
  have accepted (offset : Nat) (inside : offset ∈ pageOffsets (count * pageSize)) :=
    reachable _ (List.mem_map.mpr ⟨offset, inside, rfl⟩)
  have start := accepted 0 (by
    rw [pageOffsets, pages]
    exact List.mem_map.mpr ⟨0, List.mem_range.mpr some, Nat.zero_mul _⟩)
  have here : ptrOffset (ptrOffset baseAddress (first * pageSize)) 0 = ptrOffset baseAddress (first * pageSize) :=
    qword_of_lt (qword_lt _)
  have nonNull : (0 != ptrOffset baseAddress (first * pageSize)) = true := by
    rw [bne_iff_ne, ← here]
    exact start.1.symm
  have alignedAddress : isAddressAligned (ptrOffset baseAddress (first * pageSize)) pageSize = true := by
    have bound : ptrOffset baseAddress (first * pageSize) < 2 ^ 64 := qword_lt _
    rw [isAddressAligned_page bound, decide_eq_true_eq]
    simp only [ptrOffset, qword, size] at base ⊢
    omega
  have alignedSize : isAddressAligned (count * pageSize) pageSize = true := by
    rw [isAddressAligned_page bounded, decide_eq_true_eq]
    exact Nat.mul_mod_left _ _
  have alignedFrame : isAddressAligned physicalAddress pageSize = true := by
    rw [isAddressAligned_page (low.trans (by decide)), decide_eq_true_eq]
    exact aligned
  obtain ⟨after, afterData, walked, frames, used⟩ := walkPages_succeeds
    { physicalAddressBase := physicalAddress
      virtualAddressBase := ptrOffset baseAddress (first * pageSize)
      pageRights := rights
      invalidate := invalidate
      patIndex := patIndex } accepted (by rw [length]; exact room)
  refine ⟨after, afterData, ?_, frames, by rw [length] at used; exact used⟩
  simp only [mmuMapMemoryInternal, vmmMapMemoryInternal, vmWalkPagingTables, nonNull, alignedAddress, alignedSize,
    alignedFrame, nonempty, Bool.and_self, assert_true, Kernel.ok_bind]
  exact walked

theorem tableIndex_page {base : Nat} (aligned : base % pageSize = 0) {j k : Nat} (left : j < 2 ^ 21) (right : k < 2 ^ 21)
    (same : tableIndex 4 (ptrOffset base (j * pageSize)) = tableIndex 4 (ptrOffset base (k * pageSize))) : j = k := by
  simp only [tableIndex, ptrOffset, qword, pageSize] at *
  omega

end Hal9000.Mmu
