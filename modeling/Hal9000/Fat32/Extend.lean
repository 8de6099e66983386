import Hal9000.Fat32.Reservation
import Hal9000.Fat32.Chain

set_option autoImplicit false

namespace Hal9000.Fat32

open Lib (Program SameBlocks)
open Lib.Program (fail stop require attempt Returns Fails Stops)

def LinkFails (fatData : FatData) (countdown : Option Nat) (hint reserved : Nat) : Prop :=
  ∃ number, countdown = some number ∧ 2 + searchCost fatData true hint (some reserved) ≤ number ∧
    number < 2 + searchCost fatData true hint (some reserved) + 3

def countBehind (fatData : FatData) (bytes : Lib.Memory) (reserved : Nat) : Nat :=
  if freeCount (fsInfoOf fatData bytes) = fat32Unknown then freeBehind fatData bytes reserved
  else freeCount (fsInfoOf fatData bytes) - 1

-- The allocations and requests of a call of _AddNewClusterToChain, and the free clusters and FSINFO behind it.
def extensionCost (fatData : FatData) (bytes : Lib.Memory) (reserved : Nat) : Nat :=
  linkCost fatData (nxtFree (fsInfoOf fatData bytes)) reserved + countedCost fatData bytes reserved + 1

def volumeBehind (fatData : FatData) (bytes : Lib.Memory) (reserved : Nat) : Lib.Memory :=
  (setFatEntry fatData bytes reserved fat32EocMark).copy (1 * fatData.bytesPerSector) sizeofFsInfo
    (setFreeCount (setNxtFree (fsInfoOf fatData bytes) reserved) (countBehind fatData bytes reserved))

section Search

variable {fatData : FatData} {bytes : Lib.Memory} {entries cluster : Nat} {markReserved : Bool} {countdown : Option Nat}
  {device' : Device}

theorem firstFreeInSectors_found (whole : fatData.bytesPerSector = 4 * entries) (room : 0 < entries) {sectors number index : Nat}
    (inside : index ≤ entries) (nonzero : cluster ≠ 0)
    (found : Returns (firstFreeInSectors fatData markReserved sectors (fatData.reservedSectors + number) index)
      { bytes := bytes, countdown := countdown } cluster device') :
    firstFree fatData bytes (number * entries + index) (sectors * entries - index) = some cluster ∧
      (2 ≤ cluster ∧ cluster < entriesPerFat fatData) ∧
      Enough countdown (scanCost fatData markReserved number sectors (some cluster)) ∧
      device' = { bytes := marked fatData bytes markReserved cluster
                  countdown := remaining countdown (scanCost fatData markReserved number sectors (some cluster)) } := by
  induction sectors generalizing number index countdown with
  | zero =>
    obtain ⟨same, -⟩ := Program.pure_returns.mp found
    exact absurd same.symm nonzero
  | succ sectors ih =>
    have sector := @freeIndexInSector_sector fatData bytes entries whole number index inside
    have count : (sectors + 1) * entries - index = entries - index + sectors * entries := by
      rw [Nat.succ_mul]
      omega
    have following : number * entries + index + (entries - index) = (number + 1) * entries + 0 := by
      rw [Nat.succ_mul]
      omega
    rw [firstFreeInSectors, entriesPerFatSector_eq whole] at found
    obtain ⟨data, second, read, found⟩ := Program.bind_returns.mp found
    obtain ⟨one, same, rfl⟩ := Priced.readSector.inv read
    cases same
    rw [count, firstFree_append, ← sector, following]
    cases first : freeIndexInSector
        (bytes.slice ((fatData.reservedSectors + number) * fatData.bytesPerSector) fatData.bytesPerSector) index
        (entries - index) with
    | none =>
      rw [first] at found
      obtain ⟨least, bounds, enough, device⟩ := @ih (remaining countdown 1) (number + 1) 0 (Nat.zero_le _) found
      have later (other : Nat) (same : some cluster = some other) : (number + 1) * entries ≤ other := by
        cases same
        exact (firstFree_some.mp least).2.1.1
      rw [Nat.sub_zero] at least
      rw [Option.map_none, Option.none_or, ← scanCost_succ whole room later markReserved, ← remaining_add]
      exact ⟨least, bounds, enough_add.mpr ⟨one, enough⟩, device⟩
    | some place =>
      rw [first] at found sector
      obtain ⟨-, ⟨lower, upper⟩, -⟩ := firstFree_some.mp sector.symm
      change number * entries + index ≤ number * entries + place at lower
      change number * entries + place < _ at upper
      have index_eq : (fatData.reservedSectors + number - fatData.reservedSectors) * entries + place =
          number * entries + place := by rw [Nat.add_sub_cancel_left]
      have here : (number * entries + place) / entries = number := by
        rw [Nat.mul_comm, Nat.mul_add_div room, Nat.div_eq_of_lt (by omega), Nat.add_zero]
      have cost : scanCost fatData markReserved number (sectors + 1) (some (number * entries + place)) =
          1 + markReserved.toNat := by
        simp only [scanCost, Option.elim_some, entriesPerFatSector_eq whole, here]
        omega
      dsimp only at found
      obtain ⟨nothing, third, mark, found⟩ := Program.bind_returns.mp found
      obtain ⟨two, -, rfl⟩ := (markEntry_priced whole (by omega) markReserved).inv mark
      rw [index_eq] at found
      obtain ⟨nothing, fourth, required, found⟩ := Program.bind_returns.mp found
      obtain ⟨valid, rfl⟩ := Program.require_returns.mp required
      obtain ⟨nothing, fifth, required, found⟩ := Program.bind_returns.mp found
      obtain ⟨-, rfl⟩ := Program.require_returns.mp required
      obtain ⟨rfl, rfl⟩ := Program.pure_returns.mp found
      rw [Bool.and_eq_true, decide_eq_true_iff, decide_eq_true_iff] at valid
      rw [Option.map_some, Option.some_or, cost, ← remaining_add]
      exact ⟨rfl, valid, enough_add.mpr ⟨one, two⟩, rfl⟩

theorem firstFreeCluster_found (whole : fatData.bytesPerSector = 4 * entries) {first : Nat} (nonzero : cluster ≠ 0)
    (found : Returns (firstFreeCluster fatData first markReserved) { bytes := bytes, countdown := countdown } cluster device') :
    firstFree fatData bytes first (searchEnd fatData - first) = some cluster ∧
      (2 ≤ cluster ∧ cluster < entriesPerFat fatData) ∧
      Enough countdown (searchCost fatData markReserved first (some cluster)) ∧
      device' = { bytes := marked fatData bytes markReserved cluster
                  countdown := remaining countdown (searchCost fatData markReserved first (some cluster)) } := by
  rw [firstFreeCluster] at found
  obtain ⟨nothing, second, allocated, found⟩ := Program.bind_returns.mp found
  obtain ⟨one, -, rfl⟩ := Priced.allocate.inv allocated
  by_cases beyond : entriesPerFat fatData ≤ first
  · rw [if_pos beyond] at found
    obtain ⟨same, -⟩ := Program.pure_returns.mp found
    exact absurd same.symm nonzero
  · rw [if_neg beyond, startsAt beyond] at found
    obtain ⟨nothing, third, required, found⟩ := Program.bind_returns.mp found
    obtain ⟨divisor, rfl⟩ := Program.require_returns.mp required
    rw [entriesPerFatSector_eq whole] at divisor
    have room : 0 < entries := Nat.pos_of_ne_zero (bne_iff_ne.mp divisor)
    by_cases outside : sectorsPerFat fatData ≤ entrySector fatData first
    · rw [if_pos outside] at found
      exact absurd found Program.fail_returns
    · have inside := (sector_inside_iff whole room).mp (not_le.mp outside)
      have position := Nat.div_add_mod' first entries
      have count : (sectorsPerFat fatData - entrySector fatData first) * entries - first % entries =
          searchEnd fatData - first := by
        have sector := not_le.mp outside
        have sectors : (first / entries + (sectorsPerFat fatData - entrySector fatData first)) * entries =
            searchEnd fatData := by
          rw [searchEnd, entriesPerFatSector_eq whole]
          rw [entrySector_eq whole] at sector ⊢
          generalize first / entries = number at sector ⊢
          congr 1
          omega
        rw [← sectors, Nat.add_mul]
        omega
      rw [if_neg outside, entryIndex_eq whole] at found
      have start := @entrySector_eq fatData first entries whole
      obtain ⟨least, bounds, enough, device⟩ := firstFreeInSectors_found whole room (le_of_lt (Nat.mod_lt _ room)) nonzero
        (start ▸ found)
      rw [position, ← start, count] at least
      rw [← start] at enough device
      rw [searchCost, entriesPerFatSector_eq whole, ← remaining_add]
      exact ⟨least, bounds, enough_add.mpr ⟨one, enough⟩, device⟩

end Search

theorem linkFails_iff {fatData : FatData} {countdown : Option Nat} {hint reserved : Nat} :
    LinkFails fatData countdown hint reserved ↔
      Enough countdown (1 + (1 + searchCost fatData true hint (some reserved))) ∧
        ¬ Enough countdown (linkCost fatData hint reserved) := by
  cases countdown with
  | none => simp [LinkFails, Enough]
  | some number =>
    simp only [LinkFails, Enough, linkCost, Option.some.injEq, exists_eq_left', forall_eq']
    omega

section Reserve

variable {fatData : FatData} {bytes : Lib.Memory} {last reserved : Nat} {countdown : Option Nat}

theorem nxtFree_setFreeCount {fsInfo : Lib.Memory} {value : Nat} : nxtFree (setFreeCount fsInfo value) = nxtFree fsInfo :=
  Lib.Memory.load_store_apart (by decide)

theorem nxtFree_setNxtFree {fsInfo : Lib.Memory} {value : Nat} (bound : value < 2 ^ 32) :
    nxtFree (setNxtFree fsInfo value) = value :=
  Lib.Memory.load_store bound

theorem CountedUp.nxtFree {before after : Lib.Memory} {added : Nat} (counted : CountedUp before after added) :
    Fat32.nxtFree after = Fat32.nxtFree before := by
  apply Lib.Memory.load_congr
  intro place lower upper
  apply counted.frame
  simp only [fsiNxtFree, fsiFreeCount] at *
  omega

theorem isCluster_of_entry (valid : 2 ≤ reserved ∧ reserved < entriesPerFat fatData) :
    IsCluster fatData reserved := by
  have size : entriesPerFat fatData ≤ fatData.countOfClusters + 2 := Nat.mod_le _ _
  exact ⟨valid.1, by omega⟩

theorem freeBehind_linkedBytes (volume : Fat32Volume fatData) (ends : EndsChain fatData bytes last)
    (valid : IsCluster fatData reserved) :
    freeBehind fatData (linkedBytes fatData bytes last reserved) reserved = freeBehind fatData bytes reserved := by
  apply countP_congr
  intro cluster lower _
  exact isFree_linkedBytes volume ends valid (by omega)

structure Accounted (fatData : FatData) (bytes : Lib.Memory) (countdown : Option Nat) (reserved : Nat) (fsInfo : Lib.Memory)
    (left : Option Nat) : Prop where
  hint : nxtFree fsInfo = reserved
  counted : Enough countdown (linkCost fatData (nxtFree (fsInfoOf fatData bytes)) reserved +
      countedCost fatData bytes reserved) ∧
    freeCount fsInfo = countBehind fatData bytes reserved ∧
    left = remaining countdown (linkCost fatData (nxtFree (fsInfoOf fatData bytes)) reserved +
      countedCost fatData bytes reserved) ∨
    ¬ Enough countdown (linkCost fatData (nxtFree (fsInfoOf fatData bytes)) reserved +
      countedCost fatData bytes reserved) ∧ left = none

theorem recount_accounted (volume : Fat32Volume fatData) (ends : EndsChain fatData bytes last)
    (valid : 2 ≤ reserved ∧ reserved < entriesPerFat fatData)
    (enough : Enough countdown (linkCost fatData (nxtFree (fsInfoOf fatData bytes)) reserved))
    (unknown : freeCount (fsInfoOf fatData bytes) = fat32Unknown) :
    ∃ after left,
      Returns (recount fatData (entriesPerFat fatData + 1) reserved
          (setFreeCount (setNxtFree (fsInfoOf fatData bytes) (dword reserved)) 0))
        { bytes := linkedBytes fatData bytes last reserved
          countdown := remaining countdown (linkCost fatData (nxtFree (fsInfoOf fatData bytes)) reserved) } after
        { bytes := linkedBytes fatData bytes last reserved, countdown := left } ∧
      Accounted fatData bytes countdown reserved after left := by
  obtain ⟨entries, whole⟩ := volume.whole
  have positive := (accepted_geometry volume.accepted).sector
  have cluster := isCluster_of_entry valid
  have limit := searchEnd_le whole
  have size : entriesPerFat fatData < 2 ^ 32 := dword_lt _
  have zero : freeCount (setFreeCount (setNxtFree (fsInfoOf fatData bytes) (dword reserved)) 0) = 0 :=
    freeCount_setFreeCount (by decide)
  have most : freeBehind fatData (linkedBytes fatData bytes last reserved) reserved ≤
      searchEnd fatData - (reserved + 1) := by
    refine List.countP_le_length.trans ?_
    rw [List.length_range']
  obtain ⟨cost, final⟩ := recountCost_linkedBytes volume ends cluster (entriesPerFat fatData + 1) (le_refl reserved)
  obtain ⟨after, added, left, result, counted, few, exact, spent, cut⟩ :=
    @recount_counts fatData (linkedBytes fatData bytes last reserved) entries reserved whole (by omega)
      (entriesPerFat fatData + 1) (by omega) (by omega) (by omega)
      (setFreeCount (setNxtFree (fsInfoOf fatData bytes) (dword reserved)) 0) (by omega)
      (remaining countdown (linkCost fatData (nxtFree (fsInfoOf fatData bytes)) reserved))
  have count := counted.count
  have behind := freeBehind_linkedBytes volume ends cluster
  rw [cost, behind] at exact
  rw [cost, final] at spent cut
  refine ⟨after, left, result, ?_, ?_⟩
  · rw [counted.nxtFree, nxtFree_setFreeCount, dword_of_lt (by omega), nxtFree_setNxtFree (by omega)]
  · rw [countBehind, countedCost, if_pos unknown, if_pos unknown, enough_add, ← remaining_add, and_iff_right enough]
    by_cases all : Enough (remaining countdown (linkCost fatData (nxtFree (fsInfoOf fatData bytes)) reserved))
        (recountCost fatData bytes (entriesPerFat fatData + 1) reserved +
          emptyCost fatData (lastFree fatData bytes (entriesPerFat fatData + 1) reserved + 1))
    · have total := exact.mpr (enough_add.mp all).1
      exact .inl ⟨all, by omega, spent all⟩
    · exact .inr ⟨all, cut all⟩

theorem reserveAndLink_ends (volume : Fat32Volume fatData) (ends : EndsChain fatData bytes last)
    {fsInfo : Option Lib.Memory} {device' : Device} (nonzero : reserved ≠ 0)
    (result : Returns (reserveAndLink fatData last) { bytes := bytes, countdown := countdown } (fsInfo, reserved) device') :
    fatData.bytesPerSector = 512 ∧
      firstFree fatData bytes (nxtFree (fsInfoOf fatData bytes))
        (searchEnd fatData - nxtFree (fsInfoOf fatData bytes)) = some reserved ∧
      IsCluster fatData reserved ∧
      (LinkFails fatData countdown (nxtFree (fsInfoOf fatData bytes)) reserved ∧ fsInfo = some (fsInfoOf fatData bytes) ∧
          device' = { bytes := setFatEntry fatData bytes reserved fat32EocMark } ∨
        Enough countdown (linkCost fatData (nxtFree (fsInfoOf fatData bytes)) reserved) ∧
          ∃ info left, fsInfo = some info ∧ Accounted fatData bytes countdown reserved info left ∧
            device' = { bytes := linkedBytes fatData bytes last reserved, countdown := left }) := by
  rw [reserveAndLink] at result
  rcases Priced.allocate.attempted result with ⟨one, result⟩ | ⟨-, code, result⟩
  case inr =>
    cases result
    exact absurd rfl nonzero
  rcases Priced.ioReadDevice.attempted result with ⟨two, result⟩ | ⟨-, code, result⟩
  case inr =>
    cases result
    exact absurd rfl nonzero
  dsimp only at result
  obtain ⟨nothing, second, required, result⟩ := Program.bind_returns.mp result
  obtain ⟨read, rfl⟩ := Program.require_returns.mp required
  have sector : fatData.bytesPerSector = 4 * 128 := (beq_iff_eq.mp read).symm
  have room : entriesPerFatSector fatData ≠ 0 := by
    rw [entriesPerFatSector_eq sector]
    decide
  rw [← fsInfoOf] at result
  by_cases zero : freeCount (fsInfoOf fatData bytes) = 0
  case pos =>
    rw [if_pos zero] at result
    cases result
    exact absurd rfl nonzero
  rw [if_neg zero] at result
  obtain ⟨found, third, search, result⟩ := Program.bind_returns.mp result
  have search := Program.attempt_returns.mp search
  cases found with
  | error code =>
    cases result
    exact absurd rfl nonzero
  | ok found =>
    dsimp only at result
    by_cases none : found = 0
    case pos =>
      rw [if_pos none] at result
      obtain ⟨nothing, middle, -, result⟩ := Program.bind_returns.mp result
      obtain ⟨same, -⟩ := Program.pure_returns.mp result
      exact absurd (congrArg Prod.snd same).symm nonzero
    rw [if_neg none] at result
    obtain ⟨least, valid, three, rfl⟩ := firstFreeCluster_found sector none search
    have cluster := isCluster_of_entry valid
    have searched := enough_add.mpr ⟨one, enough_add.mpr ⟨two, three⟩⟩
    rcases Priced.allocate.attempted result with ⟨four, result⟩ | ⟨four, code, result⟩
    case inr =>
      cases result
      refine ⟨sector, least, cluster, .inl ⟨linkFails_iff.mpr ⟨searched, fun all => four ?_⟩, rfl, rfl⟩⟩
      exact (enough_add.mp (enough_add.mp (enough_add.mp (enough_add.mp all).2).2).2).1
    rcases Priced.readSector.attempted result with ⟨five, result⟩ | ⟨five, code, result⟩
    case inr =>
      cases result
      refine ⟨sector, least, cluster, .inl ⟨linkFails_iff.mpr ⟨searched, fun all => five ?_⟩, rfl, rfl⟩⟩
      exact (enough_add.mp (enough_add.mp (enough_add.mp (enough_add.mp (enough_add.mp all).2).2).2).2).1
    rcases Priced.writeSector.attempted result with ⟨six, result⟩ | ⟨six, code, result⟩
    case inr =>
      cases result
      refine ⟨sector, least, cluster, .inl ⟨linkFails_iff.mpr ⟨searched, fun all => six ?_⟩, rfl, rfl⟩⟩
      exact (enough_add.mp (enough_add.mp (enough_add.mp (enough_add.mp (enough_add.mp all).2).2).2).2).2
    have enough : Enough countdown (linkCost fatData (nxtFree (fsInfoOf fatData bytes)) found) :=
      enough_add.mpr ⟨one, enough_add.mpr ⟨two, enough_add.mpr ⟨three, enough_add.mpr ⟨four,
        enough_add.mpr ⟨five, six⟩⟩⟩⟩⟩
    dsimp only at result
    rw [copy_sector room, remaining_add, remaining_add, remaining_add, remaining_add, remaining_add] at result
    by_cases unknown : fat32Unknown = freeCount (fsInfoOf fatData bytes)
    · rw [if_pos unknown] at result
      obtain ⟨after, left, run, accounted⟩ := recount_accounted volume ends valid enough unknown.symm
      obtain ⟨counted, middle, count, result⟩ := Program.bind_returns.mp result
      obtain ⟨rfl, rfl⟩ := Returns.unique run count
      cases result
      exact ⟨sector, least, cluster, .inr ⟨enough, after, left, rfl, accounted, rfl⟩⟩
    · rw [if_neg unknown] at result
      cases result
      have bound : freeCount (fsInfoOf fatData bytes) < 2 ^ 32 := Lib.Memory.load_lt _ 4 _
      have small : reserved < 2 ^ 32 := lt_trans valid.2 (dword_lt _)
      refine ⟨sector, least, cluster, .inr ⟨enough, _, _, rfl, ⟨?_, .inl ?_⟩, rfl⟩⟩
      · rw [nxtFree_setFreeCount, dword_of_lt small, nxtFree_setNxtFree small]
      · rw [countBehind, countedCost, if_neg (Ne.symm unknown), if_neg (Ne.symm unknown), Nat.add_zero,
          freeCount_setFreeCount (by omega)]
        exact ⟨enough, rfl, rfl⟩

end Reserve

end Hal9000.Fat32
