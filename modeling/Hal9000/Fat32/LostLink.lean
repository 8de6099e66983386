import Hal9000.Fat32.Extend

set_option autoImplicit false

namespace Hal9000.Fat32

open Lib (Program SameBlocks)
open Lib.Program (fail stop require attempt Returns Fails Stops)

structure Extended (fatData : FatData) (before after : Lib.Memory) (last cluster : Nat) : Prop where
  behind : LinkedBehind fatData before after last cluster
  data : forall place, fatData.firstDataSector * fatData.bytesPerSector ≤ place -> after place = before place

structure Stranded (fatData : FatData) (before after : Lib.Memory) (cluster : Nat) : Prop where
  valid : IsCluster fatData cluster
  free : isFree fatData before cluster = true
  marked : link fatData after cluster = fat32EocMark
  frame : forall other, other ≠ cluster -> link fatData after other = link fatData before other

-- Two volumes that _AddNewClusterToChain reserves the same clusters of.
structure SameAllocation (fatData : FatData) (before after : Lib.Memory) : Prop where
  free : forall cluster, cluster < fatData.countOfClusters + 2 ->
    isFree fatData after cluster = isFree fatData before cluster
  count : freeCount (fsInfoOf fatData after) = freeCount (fsInfoOf fatData before)
  hint : nxtFree (fsInfoOf fatData after) = nxtFree (fsInfoOf fatData before)

-- What a call of _AddNewClusterToChain that comes back with a cluster leaves behind, and how far the failure is.
inductive Added (fatData : FatData) (bytes : Lib.Memory) (countdown : Option Nat) (last cluster : Nat)
    (after : Lib.Memory) : Option Nat -> Prop
  | stranded (fails : LinkFails fatData countdown (nxtFree (fsInfoOf fatData bytes)) cluster)
      (alone : Stranded fatData bytes after cluster) : Added fatData bytes countdown last cluster after none
  | linked (enough : Enough countdown (extensionCost fatData bytes cluster))
      (extended : Extended fatData bytes after last cluster)
      (same : SameAllocation fatData (volumeBehind fatData bytes cluster) after) :
      Added fatData bytes countdown last cluster after (remaining countdown (extensionCost fatData bytes cluster))
  | uncounted (kept : ¬ LinkFails fatData countdown (nxtFree (fsInfoOf fatData bytes)) cluster)
      (few : ¬ Enough countdown (extensionCost fatData bytes cluster))
      (extended : Extended fatData bytes after last cluster) : Added fatData bytes countdown last cluster after none

def losesLink (fatData : FatData) : (more : Nat) -> Lib.Memory -> Option Nat -> Prop
  | 0, _, _ => False
  | more + 1, bytes, countdown =>
    match firstFree fatData bytes (nxtFree (fsInfoOf fatData bytes))
      (searchEnd fatData - nxtFree (fsInfoOf fatData bytes)) with
    | none => False
    | some reserved =>
      LinkFails fatData countdown (nxtFree (fsInfoOf fatData bytes)) reserved ∨
        Enough countdown (extensionCost fatData bytes reserved + 3) ∧
          losesLink fatData more (volumeBehind fatData bytes reserved)
            (remaining countdown (extensionCost fatData bytes reserved + 3))

def losesLinkAfter (fatData : FatData) (before more : Nat) (bytes : Lib.Memory) (countdown : Option Nat) : Prop :=
  Enough countdown before ∧ losesLink fatData more bytes (remaining countdown before)

-- The clusters that a file of so many does not have for `count` sectors from an offset on.
def missingClusters (fatData : FatData) (length offset count : Nat) : Nat :=
  (offset + count + fatData.sectorsPerCluster - 1) / fatData.sectorsPerCluster - length

section Add

variable {fatData : FatData} {bytes : Lib.Memory} {last reserved : Nat} {countdown : Option Nat}

theorem nxtFree_copy (fsInfo : Lib.Memory) :
    nxtFree (fsInfoOf fatData (bytes.copy (1 * fatData.bytesPerSector) sizeofFsInfo fsInfo)) = nxtFree fsInfo := by
  rw [nxtFree, fsInfoOf, Lib.Memory.load_slice (by decide), Lib.Memory.load_copy (by decide), nxtFree]

theorem isFree_copy (sector : fatData.bytesPerSector = 512) (reservedSectors : 2 ≤ fatData.reservedSectors)
    (fsInfo : Lib.Memory) (cluster : Nat) :
    isFree fatData (bytes.copy (1 * fatData.bytesPerSector) sizeofFsInfo fsInfo) cluster =
      isFree fatData bytes cluster := by
  rw [isFree, link_copy sector reservedSectors, isFree]

theorem setFatEntry_data (volume : Fat32Volume fatData) {cluster value place : Nat}
    (valid : IsCluster fatData cluster) (inside : fatData.firstDataSector * fatData.bytesPerSector ≤ place) :
    setFatEntry fatData bytes cluster value place = bytes place := by
  obtain ⟨entries, whole⟩ := volume.whole
  have table := volume.table
  have upper := valid.2
  apply setFatEntry_elsewhere
  rw [entryAddress_eq whole]
  omega

theorem extended_linkedBytes (volume : Fat32Volume fatData) (sector : fatData.bytesPerSector = 512)
    (ends : EndsChain fatData bytes last) (valid : IsCluster fatData reserved)
    (free : isFree fatData bytes reserved = true) (fsInfo : Lib.Memory) :
    Extended fatData bytes
      ((linkedBytes fatData bytes last reserved).copy (1 * fatData.bytesPerSector) sizeofFsInfo fsInfo) last
      reserved := by
  have large : 2 * fatData.bytesPerSector ≤ fatData.reservedSectors * fatData.bytesPerSector :=
    Nat.mul_le_mul_right _ volume.information
  have table := volume.table
  refine ⟨(linkedBehind volume ends valid free).copy sector volume.information fsInfo, fun place inside => ?_⟩
  rw [Lib.Memory.copy_elsewhere (by rw [sizeofFsInfo]; omega), linkedBytes, setFatEntry_data volume ends.valid inside,
    setFatEntry_data volume valid inside]

theorem stranded_marked (volume : Fat32Volume fatData) (sector : fatData.bytesPerSector = 512)
    (valid : IsCluster fatData reserved) (free : isFree fatData bytes reserved = true) (fsInfo : Lib.Memory) :
    Stranded fatData bytes
      ((setFatEntry fatData bytes reserved fat32EocMark).copy (1 * fatData.bytesPerSector) sizeofFsInfo fsInfo)
      reserved := by
  obtain ⟨entries, whole⟩ := volume.whole
  have same := @link_copy fatData (setFatEntry fatData bytes reserved fat32EocMark) sector volume.information fsInfo
  refine ⟨valid, free, ?_, fun other apart => ?_⟩
  · rw [same, link_setFatEntry (by decide)]
  · rw [same, link_setFatEntry_apart whole (Ne.symm apart)]

theorem sameAllocation_linkedBytes (volume : Fat32Volume fatData) (sector : fatData.bytesPerSector = 512)
    (ends : EndsChain fatData bytes last) (valid : IsCluster fatData reserved)
    (free : isFree fatData bytes reserved = true) {fsInfo : Lib.Memory} (hint : nxtFree fsInfo = reserved)
    (count : freeCount fsInfo = countBehind fatData bytes reserved) :
    SameAllocation fatData (volumeBehind fatData bytes reserved)
      ((linkedBytes fatData bytes last reserved).copy (1 * fatData.bytesPerSector) sizeofFsInfo fsInfo) := by
  obtain ⟨entries, whole⟩ := volume.whole
  have small : countBehind fatData bytes reserved < 2 ^ 32 := by
    rw [← count]
    exact Lib.Memory.load_lt _ 4 _
  have number : reserved < 2 ^ 32 := by
    rw [← hint]
    exact Lib.Memory.load_lt _ 4 _
  have apart : reserved ≠ last := by
    rintro rfl
    have mark := ends.mark
    rw [isFree_iff.mp free] at mark
    exact absurd mark (by decide)
  refine ⟨fun cluster inside => ?_, ?_, ?_⟩
  · rw [isFree_copy sector volume.information, volumeBehind, isFree_copy sector volume.information]
    by_cases here : cluster = reserved
    · rw [here, isFree_reserved volume.whole apart, isFree, link_setFatEntry (by decide)]
      decide
    · rw [isFree_linkedBytes volume ends valid here, isFree, isFree, link_setFatEntry_apart whole (Ne.symm here)]
  · rw [freeCount_copy, volumeBehind, freeCount_copy, freeCount_setFreeCount small, count]
  · rw [nxtFree_copy, volumeBehind, nxtFree_copy, nxtFree_setFreeCount, nxtFree_setNxtFree number, hint]

theorem linkFails_false (enough : Enough countdown (linkCost fatData (nxtFree (fsInfoOf fatData bytes)) reserved)) :
    ¬ LinkFails fatData countdown (nxtFree (fsInfoOf fatData bytes)) reserved :=
  fun fails => (linkFails_iff.mp fails).2 enough

theorem addNewClusterToChain_added (volume : Fat32Volume fatData) (ends : EndsChain fatData bytes last)
    (nonzero : reserved ≠ 0) {device' : Device}
    (result : Returns (addNewClusterToChain fatData last) { bytes := bytes, countdown := countdown } reserved device') :
    fatData.bytesPerSector = 512 ∧
      firstFree fatData bytes (nxtFree (fsInfoOf fatData bytes))
        (searchEnd fatData - nxtFree (fsInfoOf fatData bytes)) = some reserved ∧
      ∃ after left, device' = { bytes := after, countdown := left } ∧
        Added fatData bytes countdown last reserved after left := by
  rw [addNewClusterToChain] at result
  obtain ⟨nothing, first, chained, result⟩ := Program.bind_returns.mp result
  obtain ⟨-, rfl⟩ := Program.require_returns.mp chained
  obtain ⟨⟨fsInfo, cluster⟩, second, tried, result⟩ := Program.bind_returns.mp result
  cases fsInfo with
  | none => exact absurd result Program.stop_returns
  | some fsInfo =>
    obtain ⟨written, third, wrote, result⟩ := Program.bind_returns.mp result
    have wrote := Program.attempt_returns.mp wrote
    cases written with
    | error code =>
      obtain ⟨nothing, fourth, -, result⟩ := Program.bind_returns.mp result
      exact absurd result Program.fail_returns
    | ok written =>
      obtain ⟨nothing, fourth, required, result⟩ := Program.bind_returns.mp result
      obtain ⟨-, rfl⟩ := Program.require_returns.mp required
      obtain ⟨rfl, rfl⟩ := Program.pure_returns.mp result
      obtain ⟨sector, found, valid, done⟩ := reserveAndLink_ends volume ends nonzero tried
      obtain ⟨free, -, -⟩ := firstFree_some.mp found
      refine ⟨sector, found, ?_⟩
      rcases done with ⟨fails, same, rfl⟩ | ⟨enough, info, left, same, accounted, rfl⟩
      · obtain rfl := Option.some.inj same
        obtain ⟨-, -, rfl⟩ := Priced.ioWriteDevice.inv wrote
        exact ⟨_, _, rfl, .stranded fails (stranded_marked volume sector valid free _)⟩
      · obtain rfl := Option.some.inj same
        obtain ⟨one, -, rfl⟩ := Priced.ioWriteDevice.inv wrote
        have extended := extended_linkedBytes volume sector ends valid free fsInfo
        rcases accounted.counted with ⟨all, count, rfl⟩ | ⟨few, rfl⟩
        · have same := sameAllocation_linkedBytes volume sector ends valid free accounted.hint count
          rw [remaining_add]
          exact ⟨_, _, rfl, .linked (enough_add.mpr ⟨all, one⟩) extended same⟩
        · exact ⟨_, _, rfl, .uncounted (linkFails_false enough) (fun whole => few (enough_add.mp whole).1) extended⟩

end Add

section Same

variable {fatData : FatData} {bytes before after : Lib.Memory} {cluster reserved last more : Nat} {countdown left : Option Nat}

theorem SameAllocation.nextFree (volume : Fat32Volume fatData) (same : SameAllocation fatData before after)
    (first : Nat) :
    firstFree fatData after first (searchEnd fatData - first) =
      firstFree fatData before first (searchEnd fatData - first) := by
  obtain ⟨entries, whole⟩ := volume.whole
  have limit := searchEnd_le whole
  have size : entriesPerFat fatData ≤ fatData.countOfClusters + 2 := Nat.mod_le _ _
  apply firstFree_congr
  intro other lower upper
  exact same.free other (by omega)

theorem SameAllocation.recount (volume : Fat32Volume fatData) (same : SameAllocation fatData before after) (fuel : Nat)
    {cluster : Nat} :
    recountCost fatData after fuel cluster = recountCost fatData before fuel cluster ∧
      lastFree fatData after fuel cluster = lastFree fatData before fuel cluster := by
  induction fuel generalizing cluster with
  | zero => exact ⟨rfl, rfl⟩
  | succ fuel ih =>
    have search := same.nextFree volume (cluster + 1)
    rw [recountCost, recountCost, lastFree, lastFree, Fat32.nextFree, Fat32.nextFree, search]
    cases firstFree fatData before (cluster + 1) (searchEnd fatData - (cluster + 1)) with
    | none => exact ⟨rfl, rfl⟩
    | some next =>
      obtain ⟨cost, last⟩ := @ih next
      exact ⟨by simp only [cost], last⟩

theorem SameAllocation.countBehind (volume : Fat32Volume fatData) (same : SameAllocation fatData before after) :
    Fat32.countBehind fatData after reserved = Fat32.countBehind fatData before reserved := by
  obtain ⟨entries, whole⟩ := volume.whole
  have limit := searchEnd_le whole
  have size : entriesPerFat fatData ≤ fatData.countOfClusters + 2 := Nat.mod_le _ _
  have behind : freeBehind fatData after reserved = freeBehind fatData before reserved := by
    apply countP_congr
    intro other lower upper
    exact same.free other (by omega)
  rw [Fat32.countBehind, Fat32.countBehind, same.count, behind]

theorem SameAllocation.extensionCost (volume : Fat32Volume fatData) (same : SameAllocation fatData before after) :
    Fat32.extensionCost fatData after reserved = Fat32.extensionCost fatData before reserved := by
  obtain ⟨cost, last⟩ := @SameAllocation.recount _ _ _ volume same (entriesPerFat fatData + 1) reserved
  rw [Fat32.extensionCost, Fat32.extensionCost, countedCost, countedCost, same.count, same.hint, cost, last]

theorem countBehind_lt (volume : Fat32Volume fatData) : countBehind fatData bytes reserved < 2 ^ 32 := by
  obtain ⟨entries, whole⟩ := volume.whole
  have limit := searchEnd_le whole
  have size : entriesPerFat fatData < 2 ^ 32 := dword_lt _
  have bound : freeCount (fsInfoOf fatData bytes) < 2 ^ 32 := Lib.Memory.load_lt _ 4 _
  have most : freeBehind fatData bytes reserved ≤ searchEnd fatData - (reserved + 1) := by
    refine List.countP_le_length.trans ?_
    rw [List.length_range']
  rw [countBehind]
  by_cases unknown : freeCount (fsInfoOf fatData bytes) = fat32Unknown
  · rw [if_pos unknown]
    omega
  · rw [if_neg unknown]
    omega

theorem SameAllocation.volumeBehind (volume : Fat32Volume fatData) (sector : fatData.bytesPerSector = 512)
    (same : SameAllocation fatData before after) (small : reserved < 2 ^ 32) :
    SameAllocation fatData (Fat32.volumeBehind fatData before reserved)
      (Fat32.volumeBehind fatData after reserved) where
  free cluster inside := by
    obtain ⟨entries, whole⟩ := volume.whole
    rw [Fat32.volumeBehind, isFree_copy sector volume.information, Fat32.volumeBehind,
      isFree_copy sector volume.information, isFree, isFree]
    by_cases here : cluster = reserved
    · rw [here, link_setFatEntry (by decide), link_setFatEntry (by decide)]
    · rw [link_setFatEntry_apart whole (Ne.symm here), link_setFatEntry_apart whole (Ne.symm here), ← isFree, ← isFree,
        same.free cluster inside]
  count := by
    rw [Fat32.volumeBehind, freeCount_copy, freeCount_setFreeCount (countBehind_lt volume), Fat32.volumeBehind,
      freeCount_copy, freeCount_setFreeCount (countBehind_lt volume), same.countBehind volume]
  hint := by
    rw [Fat32.volumeBehind, nxtFree_copy, nxtFree_setFreeCount, nxtFree_setNxtFree small, Fat32.volumeBehind,
      nxtFree_copy, nxtFree_setFreeCount, nxtFree_setNxtFree small]

theorem losesLink_congr (volume : Fat32Volume fatData) (sector : fatData.bytesPerSector = 512 ∨ more = 0)
    (same : SameAllocation fatData before after) :
    losesLink fatData more after countdown ↔ losesLink fatData more before countdown := by
  induction more generalizing before after countdown with
  | zero => exact Iff.rfl
  | succ more ih =>
    have sector := sector.resolve_right (Nat.succ_ne_zero more)
    have search := same.nextFree volume (nxtFree (fsInfoOf fatData before))
    rw [losesLink, losesLink, same.hint, search]
    cases found : firstFree fatData before (nxtFree (fsInfoOf fatData before))
        (searchEnd fatData - nxtFree (fsInfoOf fatData before)) with
    | none => exact Iff.rfl
    | some reserved =>
      obtain ⟨entries, whole⟩ := volume.whole
      have limit := searchEnd_le whole
      have size : entriesPerFat fatData < 2 ^ 32 := dword_lt _
      obtain ⟨-, ⟨lower, upper⟩, -⟩ := firstFree_some.mp found
      dsimp only
      rw [same.extensionCost volume, ih (.inl sector) (same.volumeBehind volume sector (by omega))]

theorem losesLink_none : ¬ losesLink fatData more bytes none := by
  induction more generalizing bytes with
  | zero => exact id
  | succ more ih =>
    rw [losesLink]
    cases firstFree fatData bytes (nxtFree (fsInfoOf fatData bytes))
        (searchEnd fatData - nxtFree (fsInfoOf fatData bytes)) with
    | none => exact id
    | some reserved =>
      rintro (⟨number, impossible, -⟩ | ⟨-, later⟩)
      · cases impossible
      · exact ih later

theorem Added.losesLink (volume : Fat32Volume fatData) (sector : fatData.bytesPerSector = 512)
    (found : firstFree fatData bytes (nxtFree (fsInfoOf fatData bytes))
      (searchEnd fatData - nxtFree (fsInfoOf fatData bytes)) = some reserved)
    (added : Added fatData bytes countdown last reserved after left) :
    Stranded fatData bytes after reserved ∧ left = none ∧ Fat32.losesLink fatData (more + 1) bytes countdown ∨
      Extended fatData bytes after last reserved ∧
        (Fat32.losesLink fatData (more + 1) bytes countdown ↔
          losesLinkAfter fatData 3 more after left) := by
  rw [Fat32.losesLink, found, losesLinkAfter]
  dsimp only
  cases added with
  | stranded fails alone => exact .inl ⟨alone, rfl, .inl fails⟩
  | linked enough extended same =>
    have kept := linkFails_false (enough_add.mp (enough_add.mp enough).1).1
    refine .inr ⟨extended, ?_⟩
    rw [or_iff_right kept, enough_add, and_iff_right enough, remaining_add, losesLink_congr volume (.inl sector) same]
  | uncounted kept few extended =>
    refine .inr ⟨extended, ?_⟩
    rw [or_iff_right kept]
    exact iff_of_false (fun both => few (enough_add.mp both.1).1) fun both => losesLink_none both.2

theorem losesLinkAfter_add {first second : Nat} (enough : Enough countdown first) :
    losesLinkAfter fatData second more bytes (remaining countdown first) ↔
      losesLinkAfter fatData (first + second) more bytes countdown := by
  rw [losesLinkAfter, losesLinkAfter, enough_add, and_iff_right enough, remaining_add]

theorem Fat32Volume.room (volume : Fat32Volume fatData) : entriesPerFatSector fatData ≠ 0 := by
  obtain ⟨entries, whole⟩ := volume.whole
  have positive := (accepted_geometry volume.accepted).sector
  rw [entriesPerFatSector_eq whole]
  omega

theorem nextSector_added (volume : Fat32Volume fatData) (ends : EndsChain fatData bytes last) {offset next : Nat}
    (within : offset < fatData.sectorsPerCluster) {device' : Device}
    (result : Returns (nextSectorInClusterChain fatData (sectorOf fatData last + offset) true)
      { bytes := bytes, countdown := countdown } next device') :
    Enough countdown 2 ∧ fatData.bytesPerSector = 512 ∧
      ∃ cluster after left, next = sectorOf fatData cluster ∧ device' = { bytes := after, countdown := left } ∧
        firstFree fatData bytes (nxtFree (fsInfoOf fatData bytes))
          (searchEnd fatData - nxtFree (fsInfoOf fatData bytes)) = some cluster ∧
        Added fatData bytes (remaining countdown 2) last cluster after left := by
  have geometry := accepted_geometry volume.accepted
  have used : link fatData bytes last ≠ 0 := by
    have mark := ends.mark
    rw [fat32BadCluster] at mark
    omega
  rw [nextSectorInClusterChain] at result
  obtain ⟨current, second, here, result⟩ := Program.bind_returns.mp result
  obtain ⟨rfl, rfl⟩ := (clusterOfSector_sectorOf geometry ends.valid within _).unique here
  obtain ⟨followed, third, looked, result⟩ := Program.bind_returns.mp result
  obtain ⟨enough, same, rfl⟩ := (nextClusterInChain_priced volume.room used).inv looked
  cases same
  rw [followed_end (.inr ends.mark), if_pos rfl, if_pos rfl] at result
  obtain ⟨cluster, fourth, reserved, result⟩ := Program.bind_returns.mp result
  obtain ⟨⟨lower, upper⟩, same, rfl⟩ := firstSectorOfCluster_returns.mp result
  obtain ⟨sector, found, after, left, device, added⟩ := addNewClusterToChain_added volume ends (by omega) reserved
  exact ⟨enough, sector, cluster, after, left, same.symm, device, found, added⟩

end Same

end Hal9000.Fat32
