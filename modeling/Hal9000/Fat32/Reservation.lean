import Hal9000.Fat32.Reserve

set_option autoImplicit false

namespace Hal9000.Fat32

open Lib (Program)
open Lib.Program (fail stop require attempt Returns Fails Stops)

section Count

variable {fatData : FatData} {bytes other : Lib.Memory} {cluster reserved last : Nat}

theorem firstFree_congr {start count : Nat}
    (same : forall cluster, start ≤ cluster -> cluster < start + count ->
      isFree fatData bytes cluster = isFree fatData other cluster) :
    firstFree fatData bytes start count = firstFree fatData other start count := by
  rw [firstFree, firstFree, ← List.head?_filter, ← List.head?_filter]
  congr 1
  apply List.filter_congr
  intro cluster member
  obtain ⟨lower, upper⟩ := List.mem_range'_1.mp member
  exact same cluster lower upper

theorem countP_congr {start count : Nat}
    (same : forall cluster, start ≤ cluster -> cluster < start + count ->
      isFree fatData bytes cluster = isFree fatData other cluster) :
    (List.range' start count).countP (isFree fatData bytes) =
      (List.range' start count).countP (isFree fatData other) := by
  apply List.countP_congr
  intro cluster member
  obtain ⟨lower, upper⟩ := List.mem_range'_1.mp member
  rw [same cluster lower upper]

theorem freeClusters_split (valid : IsCluster fatData cluster) :
    freeClusters fatData bytes =
      (List.range' 2 (cluster - 2)).countP (isFree fatData bytes) + ((isFree fatData bytes cluster).toNat +
        (List.range' (cluster + 1) (fatData.countOfClusters + 2 - (cluster + 1))).countP (isFree fatData bytes)) := by
  obtain ⟨lower, upper⟩ := valid
  have position : 2 + (cluster - 2) = cluster := Nat.add_sub_cancel' lower
  have rest : fatData.countOfClusters - (cluster - 2) = fatData.countOfClusters + 2 - (cluster + 1) + 1 := by omega
  rw [freeClusters, countP_split (show cluster - 2 ≤ fatData.countOfClusters by omega), position, rest,
    List.range'_succ, List.countP_cons]
  cases isFree fatData bytes cluster <;> simp [Nat.add_comm]

theorem countP_zero_iff {start count : Nat} :
    (List.range' start count).countP (isFree fatData bytes) = 0 ↔
      forall cluster, start ≤ cluster -> cluster < start + count -> isFree fatData bytes cluster = false := by
  constructor
  · intro zero cluster lower upper
    rw [List.countP_eq_zero] at zero
    exact Bool.eq_false_iff.mpr (zero cluster (List.mem_range'_1.mpr ⟨lower, upper⟩))
  · exact countP_none

end Count

section Linked

variable {fatData : FatData} {bytes : Lib.Memory} {last reserved : Nat}

theorem isFree_reserved (whole : 4 ∣ fatData.bytesPerSector) (apart : reserved ≠ last) :
    isFree fatData (linkedBytes fatData bytes last reserved) reserved = false := by
  obtain ⟨entries, whole⟩ := whole
  have mark : link fatData (linkedBytes fatData bytes last reserved) reserved = fat32EocMark := by
    rw [linkedBytes, link_setFatEntry_apart whole apart.symm, link_setFatEntry (by decide)]
  rw [isFree, mark]
  decide

theorem isFree_linkedBytes (volume : Fat32Volume fatData) (ends : EndsChain fatData bytes last)
    (valid : IsCluster fatData reserved) {cluster : Nat} (other : cluster ≠ reserved) :
    isFree fatData (linkedBytes fatData bytes last reserved) cluster = isFree fatData bytes cluster := by
  obtain ⟨entries, whole⟩ := volume.whole
  have numbers := volume.numbers
  have bad : fat32BadCluster < 2 ^ 28 := by decide
  have room := valid.2
  have small : reserved < 2 ^ 28 := by omega
  have number : dword reserved = reserved := dword_of_lt (by omega)
  by_cases same : cluster = last
  · subst same
    have mark := ends.mark
    have positive : 0 < fat32BadCluster := by decide
    have lower := valid.1
    rw [isFree, linkedBytes, number, link_setFatEntry small, isFree, beq_eq_false_iff_ne.mpr (by omega),
      beq_eq_false_iff_ne.mpr (by omega)]
  · rw [isFree, linkedBytes, link_setFatEntry_apart whole (Ne.symm same),
      link_setFatEntry_apart whole (Ne.symm other), isFree]

theorem nextFree_linkedBytes (volume : Fat32Volume fatData) (ends : EndsChain fatData bytes last)
    (valid : IsCluster fatData reserved) {cluster : Nat} (behind : reserved ≤ cluster) :
    nextFree fatData (linkedBytes fatData bytes last reserved) cluster = nextFree fatData bytes cluster := by
  apply firstFree_congr
  intro next lower _
  exact isFree_linkedBytes volume ends valid (by omega)

theorem recountCost_linkedBytes (volume : Fat32Volume fatData) (ends : EndsChain fatData bytes last)
    (valid : IsCluster fatData reserved) (fuel : Nat) {cluster : Nat} (behind : reserved ≤ cluster) :
    recountCost fatData (linkedBytes fatData bytes last reserved) fuel cluster =
        recountCost fatData bytes fuel cluster ∧
      lastFree fatData (linkedBytes fatData bytes last reserved) fuel cluster =
        lastFree fatData bytes fuel cluster := by
  induction fuel generalizing cluster with
  | zero => exact ⟨rfl, rfl⟩
  | succ fuel ih =>
    rw [recountCost, recountCost, lastFree, lastFree, nextFree_linkedBytes volume ends valid behind]
    cases found : nextFree fatData bytes cluster with
    | none => exact ⟨rfl, rfl⟩
    | some next =>
      obtain ⟨-, ⟨lower, -⟩, -⟩ := firstFree_some.mp found
      obtain ⟨cost, last⟩ := @ih next (by omega)
      exact ⟨by simp only [cost], last⟩

theorem linkedBehind (volume : Fat32Volume fatData) (ends : EndsChain fatData bytes last)
    (valid : IsCluster fatData reserved) (free : isFree fatData bytes reserved = true) :
    LinkedBehind fatData bytes (linkedBytes fatData bytes last reserved) last reserved := by
  obtain ⟨entries, whole⟩ := volume.whole
  have numbers := volume.numbers
  have bad : fat32BadCluster < 2 ^ 28 := by decide
  have room := valid.2
  have small : reserved < 2 ^ 28 := by omega
  have number : dword reserved = reserved := dword_of_lt (by omega)
  have mark : fat32EocMark < 2 ^ 28 := by decide
  have apart : last ≠ reserved := by
    rintro rfl
    have mark := ends.mark
    rw [isFree_iff.mp free] at mark
    exact absurd mark (by decide)
  exact
    { valid := valid
      free := free
      marked :=
        { link := by rw [linkedBytes, link_setFatEntry_apart whole apart, link_setFatEntry mark]
          reserved := by
            rw [linkedBytes, fatEntry_setFatEntry_apart whole apart, fatEntry_setFatEntry mark]
            omega }
      linked :=
        { link := by rw [linkedBytes, number, link_setFatEntry small]
          reserved := by
            rw [linkedBytes, number, fatEntry_setFatEntry small, fatEntry_setFatEntry_apart whole apart.symm]
            omega }
      frame := by
        intro other _ first second
        rw [linkedBytes, fatEntry_setFatEntry_apart whole second.symm,
          fatEntry_setFatEntry_apart whole first.symm] }

theorem LinkedBehind.copy {before after : Lib.Memory} (behind : LinkedBehind fatData before after last reserved)
    (sector : fatData.bytesPerSector = 512) (information : 2 ≤ fatData.reservedSectors) (fsInfo : Lib.Memory) :
    LinkedBehind fatData before (after.copy (1 * fatData.bytesPerSector) sizeofFsInfo fsInfo) last reserved := by
  have entry := @fatEntry_copy fatData after sector information fsInfo
  have same := @link_copy fatData after sector information fsInfo
  exact
    { valid := behind.valid
      free := behind.free
      marked := ⟨by rw [same, behind.marked.link], by rw [entry, behind.marked.reserved]⟩
      linked := ⟨by rw [same, behind.linked.link], by rw [entry, behind.linked.reserved]⟩
      frame := by
        intro other inside first second
        rw [entry, behind.frame other inside first second] }

theorem atomic_linked_iff (volume : Fat32Volume fatData) (sector : fatData.bytesPerSector = 512)
    (ends : EndsChain fatData bytes last) (valid : IsCluster fatData reserved)
    (free : isFree fatData bytes reserved = true) (fsInfo : Lib.Memory) :
    Atomic fatData bytes last (.ok reserved)
        ((linkedBytes fatData bytes last reserved).copy (1 * fatData.bytesPerSector) sizeofFsInfo fsInfo) ↔
      (freeCount (fsInfoOf fatData bytes) = freeClusters fatData bytes ∨
          freeCount (fsInfoOf fatData bytes) = fat32Unknown ->
        freeCount fsInfo = freeClusters fatData (linkedBytes fatData bytes last reserved)) := by
  have same := @link_copy fatData (linkedBytes fatData bytes last reserved) sector volume.information fsInfo
  have behind := linkedBehind volume ends valid free
  have count : freeClusters fatData
      ((linkedBytes fatData bytes last reserved).copy (1 * fatData.bytesPerSector) sizeofFsInfo fsInfo) =
      freeClusters fatData (linkedBytes fatData bytes last reserved) := by
    apply countP_congr
    intro cluster _ _
    rw [isFree, same, isFree]
  constructor
  · intro atomic
    have counted := atomic.counted
    rw [freeCount_copy, count] at counted
    exact counted
  · intro counted
    exact
      { linked := iff_of_true ⟨reserved, rfl⟩ ⟨reserved, behind.copy sector volume.information fsInfo⟩
        entries := fun _ impossible => by cases impossible
        information := fun _ impossible => by cases impossible
        full := by
          intro none
          rw [freeClusters_split valid, free, Bool.toNat_true] at none
          omega
        counted := by
          rw [freeCount_copy, count]
          exact counted }

theorem unlinked_not_atomic (volume : Fat32Volume fatData) (sector : fatData.bytesPerSector = 512)
    (ends : EndsChain fatData bytes last) {countdown : Option Nat}
    (unlinked : Unlinked fatData { bytes := bytes, countdown := countdown } last) :
    ¬ ReservationIsAtomic fatData { bytes := bytes, countdown := countdown } last := by
  have numbers := volume.numbers
  have chained : fat32Eoc last = false := by
    have inside := ends.valid.2
    rw [fat32Eoc, decide_eq_false_iff_not]
    omega
  rintro ⟨result, device', returns, atomic⟩
  rcases unlinked with ⟨reason, stops⟩ | ⟨fsInfo, reserved, ⟨after, left⟩, tried, kept⟩
  · rw [addNewClusterToChain, chained, Bool.not_false, Program.require_true, Program.pure_bind,
      Program.Stops.bind stops] at returns
    cases returns
  · cases fsInfo with
    | none =>
      rw [addNewClusterToChain, chained, Bool.not_false, Program.require_true, Program.pure_bind,
        Returns.bind tried] at returns
      cases returns
    | some fsInfo =>
      by_cases enough : Enough left 1
      · rw [addNewClusterToChain_run sector chained tried enough] at returns
        cases returns
        obtain ⟨cluster, behind⟩ := atomic.linked.mp ⟨reserved, rfl⟩
        have linked := behind.linked.link
        have mark := ends.mark
        have inside := behind.valid.2
        rw [link_copy sector volume.information] at linked
        change link fatData after last = link fatData bytes last at kept
        omega
      · obtain ⟨reason, stops⟩ := addNewClusterToChain_cut (by rw [sector]; decide) tried enough
        rw [stops] at returns
        cases returns

-- FSINFO is read and written as 512 bytes, and the number of bytes is then compared with BytesPerSector.
theorem other_sector_not_atomic (volume : Fat32Volume fatData) (sector : fatData.bytesPerSector ≠ 512)
    (ends : EndsChain fatData bytes last) {countdown : Option Nat} :
    ¬ ReservationIsAtomic fatData { bytes := bytes, countdown := countdown } last := by
  have numbers := volume.numbers
  have positive := (accepted_geometry volume.accepted).sector
  have read : (sizeofFsInfo == fatData.bytesPerSector) = false := by
    rw [beq_eq_false_iff_ne, sizeofFsInfo]
    exact sector.symm
  have failed : (0 == fatData.bytesPerSector) = false := beq_eq_false_iff_ne.mpr (by omega)
  have chained : fat32Eoc last = false := by
    have inside := ends.valid.2
    rw [fat32Eoc, decide_eq_false_iff_not]
    omega
  rintro ⟨result, device', returns, -⟩
  rw [addNewClusterToChain, chained, Bool.not_false, Program.require_true, Program.pure_bind] at returns
  by_cases one : Enough countdown 1
  case neg =>
    obtain ⟨code, fails⟩ := Priced.allocate.cut one
    have tried : Returns (reserveAndLink fatData last) { bytes := bytes, countdown := countdown } (none, 0) _ :=
      Program.attempt_bind fails
    rw [Returns.bind tried] at returns
    cases returns
  by_cases two : Enough (remaining countdown 1) 1
  case neg =>
    obtain ⟨code, fails⟩ := Priced.ioReadDevice.cut two
    have tried : Returns (reserveAndLink fatData last) { bytes := bytes, countdown := countdown }
        (some fun _ => 0, 0) { bytes := bytes } :=
      (Program.attempt_bind (Priced.allocate.run one)).trans (Program.attempt_bind fails)
    rw [Returns.bind tried] at returns
    have written := @Priced.ioWriteDevice bytes (1 * fatData.bytesPerSector) sizeofFsInfo fun _ => 0
    dsimp only at returns
    rw [Program.attempt_bind written.quiet] at returns
    dsimp only at returns
    rw [read] at returns
    cases returns
  have stops : Program.Stops (reserveAndLink fatData last) { bytes := bytes, countdown := countdown }
      (.assertion "bytesToReadWrite == FatData->BytesPerSector") := by
    rw [Program.Stops, reserveAndLink, Program.attempt_bind (Priced.allocate.run one)]
    dsimp only
    rw [Program.attempt_bind (Priced.ioReadDevice.run two)]
    dsimp only
    rw [read]
    rfl
  rw [stops.bind] at returns
  cases returns

theorem linked_atomic_iff (volume : Fat32Volume fatData) (sector : fatData.bytesPerSector = 512)
    (ends : EndsChain fatData bytes last) (valid : IsCluster fatData reserved)
    (free : isFree fatData bytes reserved = true) {countdown left : Option Nat} {fsInfo : Lib.Memory}
    (tried : reserveAndLink fatData last { bytes := bytes, countdown := countdown } =
      .ok (.ok (some fsInfo, reserved), { bytes := linkedBytes fatData bytes last reserved, countdown := left })) :
    ReservationIsAtomic fatData { bytes := bytes, countdown := countdown } last ↔
      Enough left 1 ∧
        (freeCount (fsInfoOf fatData bytes) = freeClusters fatData bytes ∨
            freeCount (fsInfoOf fatData bytes) = fat32Unknown ->
          freeCount fsInfo = freeClusters fatData (linkedBytes fatData bytes last reserved)) := by
  have numbers := volume.numbers
  have chained : fat32Eoc last = false := by
    have inside := ends.valid.2
    rw [fat32Eoc, decide_eq_false_iff_not]
    omega
  rw [← atomic_linked_iff volume sector ends valid free fsInfo]
  constructor
  · rintro ⟨result, device', returns, atomic⟩
    by_cases enough : Enough left 1
    · rw [addNewClusterToChain_run sector chained tried enough] at returns
      cases returns
      exact ⟨enough, atomic⟩
    · obtain ⟨reason, stops⟩ := addNewClusterToChain_cut (by rw [sector]; decide) tried enough
      rw [stops] at returns
      cases returns
  · rintro ⟨enough, atomic⟩
    exact ⟨_, _, addNewClusterToChain_run sector chained tried enough, atomic⟩

-- The recount has all the free clusters if it is not cut off and there are none before the hint and none
-- behind the end of the search.
theorem freeBehind_eq_iff (volume : Fat32Volume fatData) (ends : EndsChain fatData bytes last) {hint : Nat}
    (found : firstFree fatData bytes hint (searchEnd fatData - hint) = some reserved)
    (valid : IsCluster fatData reserved) :
    freeBehind fatData (linkedBytes fatData bytes last reserved) reserved ≤
        freeClusters fatData (linkedBytes fatData bytes last reserved) ∧
      (freeBehind fatData (linkedBytes fatData bytes last reserved) reserved =
          freeClusters fatData (linkedBytes fatData bytes last reserved) ↔
        forall cluster, IsCluster fatData cluster -> isFree fatData bytes cluster = true ->
          hint ≤ cluster ∧ cluster < searchEnd fatData) := by
  obtain ⟨free, ⟨lower, upper⟩, least⟩ := firstFree_some.mp found
  obtain ⟨entries, whole⟩ := volume.whole
  have limit := searchEnd_le whole
  have numbers := volume.numbers
  have size : entriesPerFat fatData = fatData.countOfClusters + 2 :=
    dword_of_lt (lt_of_le_of_lt numbers (by decide))
  have apart : reserved ≠ last := by
    rintro rfl
    have mark := ends.mark
    rw [isFree_iff.mp free] at mark
    exact absurd mark (by decide)
  have taken := @isFree_reserved fatData bytes last reserved volume.whole apart
  have position : reserved + 1 + (searchEnd fatData - (reserved + 1)) = searchEnd fatData := by omega
  have rest : fatData.countOfClusters + 2 - (reserved + 1) - (searchEnd fatData - (reserved + 1)) =
      fatData.countOfClusters + 2 - searchEnd fatData := by omega
  have split := @freeClusters_split fatData (linkedBytes fatData bytes last reserved) reserved valid
  have behind := @countP_split fatData (linkedBytes fatData bytes last reserved) (reserved + 1)
    (searchEnd fatData - (reserved + 1)) (fatData.countOfClusters + 2 - (reserved + 1)) (by omega)
  rw [position, rest, ← freeBehind] at behind
  rw [taken, Bool.toNat_false, Nat.zero_add, behind] at split
  have before := @countP_zero_iff fatData (linkedBytes fatData bytes last reserved) 2 (reserved - 2)
  have after := @countP_zero_iff fatData (linkedBytes fatData bytes last reserved) (searchEnd fatData)
    (fatData.countOfClusters + 2 - searchEnd fatData)
  have same {cluster : Nat} := @isFree_linkedBytes fatData bytes last reserved volume ends valid cluster
  obtain ⟨two, below⟩ := valid
  refine ⟨by omega, ?_⟩
  constructor
  · intro equal cluster within unused
    obtain ⟨first, second⟩ := within
    constructor
    · by_contra early
      have none := before.mp (by omega) cluster first (by omega)
      rw [same (by omega), unused] at none
      cases none
    · by_contra late
      have none := after.mp (by omega) cluster (by omega) (by omega)
      rw [same (by omega), unused] at none
      cases none
  · intro all
    have nothing : (List.range' 2 (reserved - 2)).countP
        (isFree fatData (linkedBytes fatData bytes last reserved)) = 0 := by
      rw [before]
      intro cluster first second
      rw [same (by omega), Bool.eq_false_iff]
      intro unused
      have inside := (all cluster ⟨first, by omega⟩ unused).1
      rw [least cluster inside (by omega)] at unused
      cases unused
    have later : (List.range' (searchEnd fatData) (fatData.countOfClusters + 2 - searchEnd fatData)).countP
        (isFree fatData (linkedBytes fatData bytes last reserved)) = 0 := by
      rw [after]
      intro cluster first second
      rw [same (by omega), Bool.eq_false_iff]
      intro unused
      have inside := (all cluster ⟨by omega, by omega⟩ unused).2
      omega
    omega

end Linked

theorem enough_one_iff {countdown : Option Nat} {cost : Nat} (enough : Enough countdown cost) :
    Enough (remaining countdown cost) 1 ↔ countdown ≠ some cost := by
  cases countdown with
  | none => simp [Enough, remaining]
  | some count =>
    have least := enough count rfl
    simp only [Enough, remaining, Option.map_some, Option.some.injEq, forall_eq', ne_eq]
    omega

section Reservable

variable {fatData : FatData} {bytes : Lib.Memory} {last : Nat} {countdown : Option Nat}

def countingCost (fatData : FatData) (bytes : Lib.Memory) (reserved : Nat) : Nat :=
  if freeCount (fsInfoOf fatData bytes) = fat32Unknown then
    recountCost fatData bytes (entriesPerFat fatData + 1) reserved
  else 0

def countedCost (fatData : FatData) (bytes : Lib.Memory) (reserved : Nat) : Nat :=
  if freeCount (fsInfoOf fatData bytes) = fat32Unknown then
    recountCost fatData bytes (entriesPerFat fatData + 1) reserved +
      emptyCost fatData (lastFree fatData bytes (entriesPerFat fatData + 1) reserved + 1)
  else 0

-- The failure comes after all clusters are counted, and the write of FSINFO is not what fails.
structure Harmless (fatData : FatData) (bytes : Lib.Memory) (countdown : Option Nat) (reserved : Nat) : Prop where
  late : Enough countdown (linkCost fatData (nxtFree (fsInfoOf fatData bytes)) reserved +
    countingCost fatData bytes reserved)
  written : countdown ≠ some (linkCost fatData (nxtFree (fsInfoOf fatData bytes)) reserved +
    countedCost fatData bytes reserved)

theorem harmless_iff {reserved : Nat} : Harmless fatData bytes countdown reserved ↔
    Enough countdown (linkCost fatData (nxtFree (fsInfoOf fatData bytes)) reserved +
      countingCost fatData bytes reserved) ∧
    countdown ≠ some (linkCost fatData (nxtFree (fsInfoOf fatData bytes)) reserved +
      countedCost fatData bytes reserved) :=
  ⟨fun harmless => ⟨harmless.late, harmless.written⟩, fun both => ⟨both.1, both.2⟩⟩

structure Reservable (fatData : FatData) (device : Device) : Prop where
  sector : fatData.bytesPerSector = 512
  given : freeCount (fsInfoOf fatData device.bytes) ≠ 0
  found : ∃ reserved, firstFree fatData device.bytes (nxtFree (fsInfoOf fatData device.bytes))
      (searchEnd fatData - nxtFree (fsInfoOf fatData device.bytes)) = some reserved ∧
    Harmless fatData device.bytes device.countdown reserved
  all : freeCount (fsInfoOf fatData device.bytes) = fat32Unknown ->
    forall cluster, IsCluster fatData cluster -> isFree fatData device.bytes cluster = true ->
      nxtFree (fsInfoOf fatData device.bytes) ≤ cluster ∧ cluster < searchEnd fatData

theorem hint_lower (allowed : AllowedInfo fatData bytes) : 2 ≤ nxtFree (fsInfoOf fatData bytes) := by
  rcases allowed.hint with unknown | valid
  · rw [unknown]
    decide
  · exact valid.1

theorem isCluster_firstFree (volume : Fat32Volume fatData) {hint reserved : Nat} (lower : 2 ≤ hint)
    (found : firstFree fatData bytes hint (searchEnd fatData - hint) = some reserved) :
    IsCluster fatData reserved := by
  obtain ⟨-, ⟨first, second⟩, -⟩ := firstFree_some.mp found
  obtain ⟨entries, whole⟩ := volume.whole
  have limit := searchEnd_le whole
  have size : entriesPerFat fatData = fatData.countOfClusters + 2 :=
    dword_of_lt (lt_of_le_of_lt volume.numbers (by decide))
  exact ⟨by omega, by omega⟩

theorem known_atomic_iff (volume : Fat32Volume fatData) (sector : fatData.bytesPerSector = 512)
    (allowed : AllowedInfo fatData bytes) (ends : EndsChain fatData bytes last)
    (given : freeCount (fsInfoOf fatData bytes) ≠ 0) (known : freeCount (fsInfoOf fatData bytes) ≠ fat32Unknown)
    {reserved : Nat} (found : firstFree fatData bytes (nxtFree (fsInfoOf fatData bytes))
      (searchEnd fatData - nxtFree (fsInfoOf fatData bytes)) = some reserved)
    (enough : Enough countdown (linkCost fatData (nxtFree (fsInfoOf fatData bytes)) reserved)) :
    ReservationIsAtomic fatData { bytes := bytes, countdown := countdown } last ↔
      Enough (remaining countdown (linkCost fatData (nxtFree (fsInfoOf fatData bytes)) reserved)) 1 := by
  have valid := isCluster_firstFree volume (hint_lower allowed) found
  obtain ⟨free, -, -⟩ := firstFree_some.mp found
  have linked := @reserveAndLink_linked fatData bytes last reserved countdown sector (hint_lower allowed) given
    found enough
  rw [if_neg known.symm] at linked
  rw [linked_atomic_iff volume sector ends valid free linked, and_iff_left]
  rintro (exact | unknown)
  · have count := @freeClusters_split fatData bytes reserved valid
    have after := @freeClusters_split fatData (linkedBytes fatData bytes last reserved) reserved valid
    have apart : reserved ≠ last := by
      rintro rfl
      have mark := ends.mark
      rw [isFree_iff.mp free] at mark
      exact absurd mark (by decide)
    have bound : freeCount (fsInfoOf fatData bytes) < 2 ^ 32 := Lib.Memory.load_lt _ 4 _
    have before := @countP_congr fatData (linkedBytes fatData bytes last reserved) bytes 2 (reserved - 2)
      fun cluster _ _ => isFree_linkedBytes volume ends valid (by omega)
    have behind := @countP_congr fatData (linkedBytes fatData bytes last reserved) bytes (reserved + 1)
      (fatData.countOfClusters + 2 - (reserved + 1))
      fun cluster _ _ => isFree_linkedBytes volume ends valid (by omega)
    rw [free, Bool.toNat_true] at count
    rw [isFree_reserved volume.whole apart, Bool.toNat_false, before, behind] at after
    rw [freeCount_setFreeCount (by omega)]
    omega
  · exact absurd unknown known

theorem unknown_atomic_iff (volume : Fat32Volume fatData) (sector : fatData.bytesPerSector = 512)
    (allowed : AllowedInfo fatData bytes) (ends : EndsChain fatData bytes last)
    (unknown : freeCount (fsInfoOf fatData bytes) = fat32Unknown)
    {reserved : Nat} (found : firstFree fatData bytes (nxtFree (fsInfoOf fatData bytes))
      (searchEnd fatData - nxtFree (fsInfoOf fatData bytes)) = some reserved)
    (enough : Enough countdown (linkCost fatData (nxtFree (fsInfoOf fatData bytes)) reserved)) :
    ReservationIsAtomic fatData { bytes := bytes, countdown := countdown } last ↔
      Harmless fatData bytes countdown reserved ∧
        forall cluster, IsCluster fatData cluster -> isFree fatData bytes cluster = true ->
          nxtFree (fsInfoOf fatData bytes) ≤ cluster ∧ cluster < searchEnd fatData := by
  have valid := isCluster_firstFree volume (hint_lower allowed) found
  obtain ⟨free, ⟨lower, upper⟩, -⟩ := firstFree_some.mp found
  obtain ⟨entries, whole⟩ := volume.whole
  have positive := (accepted_geometry volume.accepted).sector
  have limit := searchEnd_le whole
  have size : entriesPerFat fatData < 2 ^ 32 := dword_lt _
  have start := hint_lower allowed
  have given : freeCount (fsInfoOf fatData bytes) ≠ 0 := by
    rw [unknown]
    decide
  have linked := @reserveAndLink_linked fatData bytes last reserved countdown sector start given found enough
  rw [if_pos unknown.symm] at linked
  have zero : freeCount (setFreeCount (setNxtFree (fsInfoOf fatData bytes) (dword reserved)) 0) = 0 :=
    freeCount_setFreeCount (by decide)
  have most : freeBehind fatData (linkedBytes fatData bytes last reserved) reserved ≤
      searchEnd fatData - (reserved + 1) := by
    refine List.countP_le_length.trans ?_
    rw [List.length_range']
  obtain ⟨cost, final⟩ := recountCost_linkedBytes volume ends valid (entriesPerFat fatData + 1) (le_refl reserved)
  obtain ⟨after, added, left, result, counted, few, exact, spent, cut⟩ :=
    @recount_counts fatData (linkedBytes fatData bytes last reserved) entries reserved whole (by omega)
      (entriesPerFat fatData + 1) (by omega) (by omega) (by omega)
      (setFreeCount (setNxtFree (fsInfoOf fatData bytes) (dword reserved)) 0) (by omega)
      (remaining countdown (linkCost fatData (nxtFree (fsInfoOf fatData bytes)) reserved))
  have count := counted.count
  rw [cost] at exact
  rw [cost, final] at spent cut
  rw [Returns.bind result] at linked
  obtain ⟨least, all⟩ := freeBehind_eq_iff volume ends found valid
  rw [linked_atomic_iff volume sector ends valid free linked, ← all, harmless_iff, countingCost,
    countedCost, if_pos unknown, if_pos unknown, enough_add, and_iff_right enough, ← exact]
  have written : Enough left 1 ↔ countdown ≠ some (linkCost fatData (nxtFree (fsInfoOf fatData bytes)) reserved +
      (recountCost fatData bytes (entriesPerFat fatData + 1) reserved +
        emptyCost fatData (lastFree fatData bytes (entriesPerFat fatData + 1) reserved + 1))) := by
    by_cases whole : Enough (remaining countdown (linkCost fatData (nxtFree (fsInfoOf fatData bytes)) reserved))
        (recountCost fatData bytes (entriesPerFat fatData + 1) reserved +
          emptyCost fatData (lastFree fatData bytes (entriesPerFat fatData + 1) reserved + 1))
    · rw [spent whole, remaining_add, enough_one_iff (enough_add.mpr ⟨enough, whole⟩)]
    · rw [cut whole]
      refine iff_of_true (fun _ impossible => by cases impossible) ?_
      rintro rfl
      refine whole (enough_add.mp ?_).2
      intro other same
      exact le_of_eq (Option.some.inj same)
  rw [written]
  constructor
  · rintro ⟨one, two⟩
    have total := two (.inr unknown)
    exact ⟨⟨by omega, one⟩, by omega⟩
  · rintro ⟨⟨one, two⟩, three⟩
    exact ⟨two, fun _ => by omega⟩

theorem reservation_atomic_iff (volume : Fat32Volume fatData) (allowed : AllowedInfo fatData bytes)
    (ends : EndsChain fatData bytes last) :
    ReservationIsAtomic fatData { bytes := bytes, countdown := countdown } last ↔
      Reservable fatData { bytes := bytes, countdown := countdown } := by
  by_cases sector : fatData.bytesPerSector = 512
  case neg =>
    exact iff_of_false (other_sector_not_atomic volume sector ends) fun reservable => sector reservable.sector
  have start := hint_lower allowed
  by_cases linkable : freeCount (fsInfoOf fatData bytes) ≠ 0 ∧ ∃ reserved,
      firstFree fatData bytes (nxtFree (fsInfoOf fatData bytes))
        (searchEnd fatData - nxtFree (fsInfoOf fatData bytes)) = some reserved ∧
      Enough countdown (linkCost fatData (nxtFree (fsInfoOf fatData bytes)) reserved)
  case neg =>
    have unlinked := @reserveAndLink_unlinked fatData bytes last countdown sector start ends (by
      by_cases given : freeCount (fsInfoOf fatData bytes) = 0
      · exact .inl given
      · exact .inr fun reserved found enough => linkable ⟨given, reserved, found, enough⟩)
    refine iff_of_false (unlinked_not_atomic volume sector ends unlinked) fun reservable => ?_
    obtain ⟨reserved, found, harmless⟩ := reservable.found
    exact linkable ⟨reservable.given, reserved, found, (enough_add.mp harmless.late).1⟩
  obtain ⟨given, reserved, found, enough⟩ := linkable
  have unique : (∃ other, firstFree fatData bytes (nxtFree (fsInfoOf fatData bytes))
      (searchEnd fatData - nxtFree (fsInfoOf fatData bytes)) = some other ∧
      Harmless fatData bytes countdown other) ↔ Harmless fatData bytes countdown reserved := by
    constructor
    · rintro ⟨other, again, harmless⟩
      rw [found] at again
      obtain rfl := Option.some.inj again
      exact harmless
    · intro harmless
      exact ⟨reserved, found, harmless⟩
  have reservable : Reservable fatData { bytes := bytes, countdown := countdown } ↔
      Harmless fatData bytes countdown reserved ∧
        (freeCount (fsInfoOf fatData bytes) = fat32Unknown ->
          forall cluster, IsCluster fatData cluster -> isFree fatData bytes cluster = true ->
            nxtFree (fsInfoOf fatData bytes) ≤ cluster ∧ cluster < searchEnd fatData) :=
    ⟨fun all => ⟨unique.mp all.found, all.all⟩, fun both => ⟨sector, given, unique.mpr both.1, both.2⟩⟩
  rw [reservable]
  by_cases unknown : freeCount (fsInfoOf fatData bytes) = fat32Unknown
  · rw [unknown_atomic_iff volume sector allowed ends unknown found enough, forall_prop_of_true unknown]
  · rw [known_atomic_iff volume sector allowed ends given unknown found enough, enough_one_iff enough,
      harmless_iff, countingCost, countedCost, if_neg unknown, if_neg unknown, forall_prop_of_false unknown]
    simp only [Nat.add_zero, enough, true_and, and_true]

def emptyVolume (count hint : Nat) : Lib.Memory :=
  ((Lib.Memory.store (fun _ => 0) 4 1000 count).store 4 1004 hint).store 4 16392 fat32EocMark

theorem smallVolume_fat32 : Fat32Volume smallVolume where
  accepted := smallVolume_accepted
  whole := by decide
  information := by decide
  table := by decide
  numbers := by decide

theorem reservation_atomic_small :
    ReservationIsAtomic smallVolume { bytes := emptyVolume 65535 3 } 2 := by
  have count : freeCount (fsInfoOf smallVolume (emptyVolume 65535 3)) = 65535 := by decide +kernel
  have hint : nxtFree (fsInfoOf smallVolume (emptyVolume 65535 3)) = 3 := by decide +kernel
  have root : link smallVolume (emptyVolume 65535 3) 2 = fat32EocMark := by decide +kernel
  have free : isFree smallVolume (emptyVolume 65535 3) 3 = true := by decide +kernel
  have allowed : AllowedInfo smallVolume (emptyVolume 65535 3) := by
    refine ⟨.inr ?_, .inr ?_⟩
    · rw [count]
      decide
    · rw [hint]
      exact ⟨by decide, by decide⟩
  have ends : EndsChain smallVolume (emptyVolume 65535 3) 2 := by
    refine ⟨⟨by decide, by decide⟩, ?_⟩
    rw [root]
    decide
  refine (reservation_atomic_iff smallVolume_fat32 allowed ends).mpr ?_
  refine ⟨rfl, ?_, ⟨3, ?_, ?_⟩, ?_⟩
  · rw [count]
    decide
  · rw [hint, firstFree_some]
    exact ⟨free, ⟨by decide, by decide⟩, fun second lower upper => by omega⟩
  · exact ⟨(fun _ impossible => by cases impossible), fun impossible => nomatch impossible⟩
  · rw [count]
    intro unknown
    exact absurd unknown (by decide)

theorem reservation_not_atomic :
    Fat32Volume smallVolume ∧ AllowedInfo smallVolume (emptyVolume fat32Unknown fat32Unknown) ∧
      EndsChain smallVolume (emptyVolume fat32Unknown fat32Unknown) 2 ∧
      ¬ ReservationIsAtomic smallVolume { bytes := emptyVolume fat32Unknown fat32Unknown } 2 := by
  have count : freeCount (fsInfoOf smallVolume (emptyVolume fat32Unknown fat32Unknown)) = fat32Unknown := by
    decide +kernel
  have hint : nxtFree (fsInfoOf smallVolume (emptyVolume fat32Unknown fat32Unknown)) = fat32Unknown := by
    decide +kernel
  have root : link smallVolume (emptyVolume fat32Unknown fat32Unknown) 2 = fat32EocMark := by decide +kernel
  have ends : EndsChain smallVolume (emptyVolume fat32Unknown fat32Unknown) 2 := by
    refine ⟨⟨by decide, by decide⟩, ?_⟩
    rw [root]
    decide
  refine ⟨smallVolume_fat32, ⟨.inl count, .inl hint⟩, ends, ?_⟩
  apply unlinked_not_atomic smallVolume_fat32 rfl ends
  apply reserveAndLink_unlinked rfl (by rw [hint]; decide) ends
  right
  intro reserved found
  obtain ⟨-, ⟨lower, upper⟩, -⟩ := firstFree_some.mp found
  rw [hint] at lower upper
  have limit : searchEnd smallVolume = 61440 := by decide +kernel
  rw [limit, fat32Unknown] at upper
  rw [fat32Unknown] at lower
  omega

end Reservable

end Hal9000.Fat32
