import Hal9000.Fat32.Reserve
import Hal9000.Lib.Blocks
import Mathlib.Data.List.Perm.Subperm

set_option autoImplicit false

namespace Hal9000.Fat32

open Lib (Program)
open Lib.Program (fail stop require attempt Returns Fails Stops)

def sectorOf (fatData : FatData) (cluster : Nat) : Nat :=
  (cluster - 2) * fatData.sectorsPerCluster + fatData.firstDataSector

def clusterSectors (fatData : FatData) (cluster : Nat) : List Nat :=
  List.range' (sectorOf fatData cluster) fatData.sectorsPerCluster

def fileSectors (fatData : FatData) (clusters : List Nat) : List Nat := clusters.flatMap (clusterSectors fatData)

-- The clusters from one on, each linked to the one behind it, up to one that ends the chain: its entry is
-- free or a mark. The cluster numbers from the mark of a bad cluster on are marks themselves.
inductive Chain (fatData : FatData) (bytes : Lib.Memory) : List Nat -> Prop
  | last {cluster : Nat} (valid : IsCluster fatData cluster)
      (ends : link fatData bytes cluster = 0 ∨ fat32BadCluster ≤ link fatData bytes cluster) :
      Chain fatData bytes [cluster]
  | step {cluster next : Nat} {rest : List Nat} (valid : IsCluster fatData cluster)
      (linked : link fatData bytes cluster = next) (number : next < fat32BadCluster)
      (following : Chain fatData bytes (next :: rest)) : Chain fatData bytes (cluster :: next :: rest)

section Sectors

variable {fatData : FatData} {cluster other offset sector : Nat} {clusters rest : List Nat}

@[simp] theorem fileSectors_nil : fileSectors fatData [] = [] := rfl

@[simp] theorem fileSectors_cons :
    fileSectors fatData (cluster :: rest) = clusterSectors fatData cluster ++ fileSectors fatData rest := by
  simp [fileSectors]

theorem fileSectors_append : fileSectors fatData (clusters ++ rest) =
    fileSectors fatData clusters ++ fileSectors fatData rest := by
  simp [fileSectors]

@[simp] theorem length_clusterSectors : (clusterSectors fatData cluster).length = fatData.sectorsPerCluster := by
  simp [clusterSectors]

@[simp] theorem length_fileSectors :
    (fileSectors fatData clusters).length = clusters.length * fatData.sectorsPerCluster := by
  induction clusters with
  | nil => simp
  | cons cluster rest ih =>
    rw [fileSectors_cons, List.length_append, length_clusterSectors, ih, List.length_cons, Nat.succ_mul]
    omega

theorem fileSectors_drop (count : Nat) : fileSectors fatData (clusters.drop count) =
    (fileSectors fatData clusters).drop (count * fatData.sectorsPerCluster) := by
  induction clusters generalizing count with
  | nil => simp
  | cons cluster rest ih =>
    cases count with
    | zero => simp
    | succ count =>
      have position : (count + 1) * fatData.sectorsPerCluster =
          (clusterSectors fatData cluster).length + count * fatData.sectorsPerCluster := by
        rw [length_clusterSectors, Nat.succ_mul, Nat.add_comm]
      rw [List.drop_succ_cons, ih, fileSectors_cons, position, List.drop_append]
      simp

theorem mem_clusterSectors : sector ∈ clusterSectors fatData cluster ↔
    sectorOf fatData cluster ≤ sector ∧ sector < sectorOf fatData cluster + fatData.sectorsPerCluster := by
  rw [clusterSectors, List.mem_range'_1]

theorem mem_fileSectors : sector ∈ fileSectors fatData clusters ↔
    ∃ cluster, cluster ∈ clusters ∧ sector ∈ clusterSectors fatData cluster := by
  rw [fileSectors, List.mem_flatMap]

theorem firstDataSector_le_sectorOf : fatData.firstDataSector ≤ sectorOf fatData cluster := Nat.le_add_left _ _

theorem sector_cluster (positive : 0 < fatData.sectorsPerCluster) (lower : 2 ≤ cluster)
    (member : sector ∈ clusterSectors fatData cluster) :
    (sector - fatData.firstDataSector) / fatData.sectorsPerCluster + 2 = cluster := by
  obtain ⟨first, second⟩ := mem_clusterSectors.mp member
  have start : sectorOf fatData cluster =
    (cluster - 2) * fatData.sectorsPerCluster + fatData.firstDataSector := rfl
  have quotient : (sector - fatData.firstDataSector) / fatData.sectorsPerCluster = cluster - 2 := by
    rw [Nat.div_eq_iff positive, Nat.le_sub_iff_add_le (by omega)]
    constructor <;> omega
  omega

theorem clusterSectors_disjoint (positive : 0 < fatData.sectorsPerCluster) (first : 2 ≤ cluster)
    (second : 2 ≤ other) (apart : cluster ≠ other) :
    List.Disjoint (clusterSectors fatData cluster) (clusterSectors fatData other) := by
  intro sector one two
  have same := sector_cluster positive first one
  rw [sector_cluster positive second two] at same
  exact apart same.symm

theorem fileSectors_nodup (positive : 0 < fatData.sectorsPerCluster)
    (valid : forall cluster, cluster ∈ clusters -> 2 ≤ cluster) (distinct : clusters.Nodup) :
    (fileSectors fatData clusters).Nodup := by
  induction clusters with
  | nil => simp
  | cons cluster rest ih =>
    obtain ⟨new, distinct⟩ := List.nodup_cons.mp distinct
    rw [fileSectors_cons, List.nodup_append]
    refine ⟨List.nodup_range', ih (fun other member => valid other (List.mem_cons_of_mem _ member)) distinct, ?_⟩
    rintro sector one second two rfl
    obtain ⟨other, member, inside⟩ := mem_fileSectors.mp two
    have apart : cluster ≠ other := by
      rintro rfl
      exact new member
    exact clusterSectors_disjoint positive (valid cluster List.mem_cons_self)
      (valid other (List.mem_cons_of_mem _ member)) apart one inside

end Sectors

section Follow

variable {fatData : FatData} {bytes : Lib.Memory} {cluster next offset : Nat} {clusters rest : List Nat}

theorem firstSectorOfCluster_valid (geometry : Geometry fatData) (valid : IsCluster fatData cluster)
    (device : Device) : Returns (firstSectorOfCluster fatData cluster) device (sectorOf fatData cluster) device := by
  obtain ⟨lower, upper⟩ := valid
  rw [firstSectorOfCluster_returns, dword_of_lt geometry.count_lt]
  exact ⟨⟨lower, by omega⟩, rfl, rfl⟩

theorem sectorOf_lt (geometry : Geometry fatData) (valid : IsCluster fatData cluster)
    (within : offset < fatData.sectorsPerCluster) : sectorOf fatData cluster + offset < 2 ^ 41 := by
  obtain ⟨lower, upper⟩ := valid
  have count := geometry.count_lt
  have first := geometry.data_lt
  have size := geometry.cluster_lt
  have product : (cluster - 2) * fatData.sectorsPerCluster ≤ 2 ^ 32 * 2 ^ 8 :=
    Nat.mul_le_mul (by omega) (by omega)
  rw [sectorOf]
  omega

theorem clusterOfSector_sectorOf (geometry : Geometry fatData) (valid : IsCluster fatData cluster)
    (within : offset < fatData.sectorsPerCluster) (device : Device) :
    Returns (clusterOfSector fatData (sectorOf fatData cluster + offset)) device cluster device := by
  have small := sectorOf_lt geometry valid within
  have count := geometry.count_lt
  obtain ⟨lower, upper⟩ := valid
  have base : qword (sectorOf fatData cluster + offset + 2 ^ 64 - fatData.firstDataSector) =
      fatData.sectorsPerCluster * (cluster - 2) + offset := by
    have start : sectorOf fatData cluster =
        fatData.sectorsPerCluster * (cluster - 2) + fatData.firstDataSector := by
      rw [sectorOf, Nat.mul_comm]
    rw [qword]
    omega
  have quotient : (fatData.sectorsPerCluster * (cluster - 2) + offset) / fatData.sectorsPerCluster + 2 = cluster := by
    rw [Nat.mul_add_div geometry.cluster, Nat.div_eq_of_lt within]
    omega
  have number : qword cluster = cluster := qword_of_lt (by omega)
  rw [Returns, clusterOfSector, base, quotient, number, dword_of_lt count, if_neg (by omega)]
  rfl

theorem Chain.valid (chain : Chain fatData bytes clusters) (member : cluster ∈ clusters) :
    IsCluster fatData cluster := by
  induction chain with
  | last valid _ =>
    obtain rfl := List.mem_singleton.mp member
    exact valid
  | step valid _ _ _ ih =>
    rcases List.mem_cons.mp member with rfl | later
    · exact valid
    · exact ih later

theorem Chain.drop (chain : Chain fatData bytes clusters) {count : Nat} {first : Nat}
    (found : clusters.drop count = first :: rest) : Chain fatData bytes (first :: rest) := by
  induction chain generalizing count with
  | @last cluster valid ends =>
    cases count with
    | zero =>
      rw [← found]
      exact .last valid ends
    | succ count => simp at found
  | @step cluster next behind valid linked number following ih =>
    cases count with
    | zero =>
      rw [← found]
      exact .step valid linked number following
    | succ count => exact ih found

-- There are no more clusters in a chain than on the volume.
theorem Chain.length_le (chain : Chain fatData bytes clusters) (distinct : clusters.Nodup) :
    clusters.length ≤ fatData.countOfClusters := by
  have inside : clusters ⊆ List.range' 2 fatData.countOfClusters := by
    intro cluster member
    obtain ⟨lower, upper⟩ := chain.valid member
    exact List.mem_range'_1.mpr ⟨lower, by omega⟩
  have length := (distinct.subperm inside).length_le
  rwa [List.length_range'] at length

theorem Chain.nonempty (chain : Chain fatData bytes clusters) : clusters ≠ [] := by
  cases chain <;> simp

theorem Chain.unique (one : Chain fatData bytes (cluster :: clusters)) (two : Chain fatData bytes (cluster :: rest)) :
    clusters = rest := by
  induction clusters generalizing cluster rest with
  | nil =>
    cases one with
    | last _ ends =>
      cases two with
      | last _ _ => rfl
      | step _ linked number following =>
        have lower := (following.valid List.mem_cons_self).1
        omega
  | cons next clusters ih =>
    cases one with
    | step _ linked number following =>
      have lower := (following.valid List.mem_cons_self).1
      cases two with
      | last _ ends => omega
      | step _ linked' _ following' =>
        obtain rfl := linked.symm.trans linked'
        rw [ih following following']

theorem followed_next (lower : 2 ≤ next) (number : next < fat32BadCluster) :
    followed next = next ∧ fat32Eoc next = false := by
  constructor
  · rw [followed, if_neg (by omega)]
  · rw [fat32Eoc, decide_eq_false_iff_not]
    omega

theorem followed_end (ends : next = 0 ∨ fat32BadCluster ≤ next) : fat32Eoc (followed next) = true := by
  rw [fat32Eoc, decide_eq_true_iff, followed]
  by_cases replaced : next = 0 ∨ next = fat32BadCluster
  · rw [if_pos replaced]
    decide
  · rw [if_neg replaced]
    omega

theorem mended_used (used : link fatData bytes cluster ≠ 0) : mended fatData bytes cluster = bytes := if_neg used

theorem nextSector_priced (geometry : Geometry fatData) (room : entriesPerFatSector fatData ≠ 0)
    (valid : IsCluster fatData cluster) (linked : link fatData bytes cluster = next) (number : next < fat32BadCluster)
    (following : IsCluster fatData next) (within : offset < fatData.sectorsPerCluster) (extendChain : Bool) :
    Priced (nextSectorInClusterChain fatData (sectorOf fatData cluster + offset) extendChain) bytes
      (.ok (sectorOf fatData next)) bytes 2 := by
  obtain ⟨same, chained⟩ := followed_next following.1 number
  have used : link fatData bytes cluster ≠ 0 := by
    have lower := following.1
    omega
  have looked := nextClusterInChain_priced room used
  have sector := @firstSectorOfCluster_valid fatData next geometry following
  rw [linked, same] at looked
  rw [nextSectorInClusterChain]
  change Priced _ _ _ _ (0 + 2)
  apply Priced.bind (Priced.of_returns (clusterOfSector_sectorOf geometry valid within))
  apply Priced.finish looked
  intro countdown
  rw [chained]
  exact sector _

theorem nextSector_step (geometry : Geometry fatData) (room : entriesPerFatSector fatData ≠ 0) {device : Device}
    (quiet : device.countdown = none) (valid : IsCluster fatData cluster)
    (linked : link fatData device.bytes cluster = next) (number : next < fat32BadCluster)
    (following : IsCluster fatData next) (within : offset < fatData.sectorsPerCluster) (extendChain : Bool) :
    Returns (nextSectorInClusterChain fatData (sectorOf fatData cluster + offset) extendChain) device
      (sectorOf fatData next) device := by
  obtain ⟨bytes, countdown⟩ := device
  obtain rfl : countdown = none := quiet
  exact (nextSector_priced geometry room valid linked number following within extendChain).quiet

theorem nextSector_end (geometry : Geometry fatData) (room : entriesPerFatSector fatData ≠ 0) {device : Device}
    (quiet : device.countdown = none) (valid : IsCluster fatData cluster)
    (ends : link fatData device.bytes cluster = 0 ∨ fat32BadCluster ≤ link fatData device.bytes cluster)
    (within : offset < fatData.sectorsPerCluster) :
    Returns (nextSectorInClusterChain fatData (sectorOf fatData cluster + offset) false) device 0
      { device with bytes := mended fatData device.bytes cluster } := by
  rw [Returns, nextSectorInClusterChain, Returns.bind (clusterOfSector_sectorOf geometry valid within device),
    Returns.bind (nextClusterInChain_quiet quiet room), followed_end ends]
  rfl

theorem nextSector_stops (geometry : Geometry fatData) (room : entriesPerFatSector fatData = 0) {device : Device}
    (valid : IsCluster fatData cluster) (within : offset < fatData.sectorsPerCluster) (extendChain : Bool) :
    Stops (nextSectorInClusterChain fatData (sectorOf fatData cluster + offset) extendChain) device
      .divideByZero := by
  have divisor : (entriesPerFatSector fatData != 0) = false := by
    rw [room]
    rfl
  rw [Stops, nextSectorInClusterChain, Returns.bind (clusterOfSector_sectorOf geometry valid within device),
    nextClusterInChain, divisor]
  rfl

end Follow

end Hal9000.Fat32
