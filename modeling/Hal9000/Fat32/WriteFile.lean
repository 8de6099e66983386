import Hal9000.Fat32.Writing
import Hal9000.Fat32.ReadFile

set_option autoImplicit false

namespace Hal9000.Fat32

open Lib (Program Gathered Scattered SameBlocks)
open Lib.Program (fail stop require loop Returns Fails Stops)

section Skip

variable {fatData : FatData} {bytes : Lib.Memory} {clusters rest : List Nat} {first sectorOffset traversed fuel : Nat}
variable {countdown : Option Nat}

theorem skipCluster_inv {extendChain : Bool} {current : Nat} {device device' : Device} {turn : Nat × Nat ⊕ Nat}
    (further : endsBefore fatData traversed sectorOffset = true)
    (result : Returns (skipCluster fatData extendChain sectorOffset (current, traversed)) device turn device') :
    ∃ next, Returns (nextSectorInClusterChain fatData current extendChain) device next device' ∧
      turn = .inl (next, qword (traversed + fatData.sectorsPerCluster)) := by
  rw [skipCluster, further, if_pos rfl] at result
  obtain ⟨nothing, middle, required, result⟩ := Program.bind_returns.mp result
  obtain ⟨-, rfl⟩ := Program.require_returns.mp required
  obtain ⟨next, third, step, result⟩ := Program.bind_returns.mp result
  obtain ⟨same, rfl⟩ := Program.pure_returns.mp result
  exact ⟨next, step, same.symm⟩

theorem skipClusters_turn (geometry : Geometry fatData) {extendChain : Bool}
    (small : sectorOffset + fatData.sectorsPerCluster < 2 ^ 64) (offset : sectorOffset = traversed + fatData.sectorsPerCluster)
    {sector current : Nat} {device device' : Device}
    (result : Returns (loop .unfinished (skipCluster fatData extendChain sectorOffset) fuel (sector, traversed)) device
      current device') : Returns (nextSectorInClusterChain fatData sector extendChain) device current device' := by
  have positive := geometry.cluster
  have further : endsBefore fatData traversed sectorOffset = true := by
    rw [endsBefore_eq small (by omega)]
    exact decide_eq_true (by omega)
  have here : endsBefore fatData sectorOffset sectorOffset = false := by
    rw [endsBefore_eq small (le_refl _)]
    exact decide_eq_false (by omega)
  cases fuel with
  | zero => exact absurd result Program.stop_returns
  | succ fuel =>
    obtain ⟨turn, second, first, rest⟩ := Program.bind_returns.mp result
    obtain ⟨next, step, rfl⟩ := skipCluster_inv further first
    dsimp only at rest
    rw [qword_of_lt (by omega), ← offset] at rest
    cases fuel with
    | zero => exact absurd rest Program.stop_returns
    | succ fuel =>
      have turn := @skipCluster_ends fatData second sectorOffset sectorOffset extendChain here next
      have final := @Program.loop_end _ _ _ _ _ _ _ .unfinished _ fuel _ _ turn
      obtain ⟨rfl, rfl⟩ := final.unique rest
      exact step

theorem skipClusters_last (geometry : Geometry fatData) (room : entriesPerFatSector fatData ≠ 0)
    (chain : Chain fatData bytes clusters) (start : clusters = first :: rest)
    (offset : sectorOffset = traversed + clusters.length * fatData.sectorsPerCluster)
    (small : sectorOffset + fatData.sectorsPerCluster < 2 ^ 64) {extendChain : Bool} {current : Nat} {device' : Device}
    (result : Returns (loop .unfinished (skipCluster fatData extendChain sectorOffset) fuel
      (sectorOf fatData first, traversed)) { bytes := bytes, countdown := countdown } current device') :
    Enough countdown (2 * (clusters.length - 1)) ∧
      Returns (nextSectorInClusterChain fatData (sectorOf fatData (clusters.getLastD 0)) extendChain)
        { bytes := bytes, countdown := remaining countdown (2 * (clusters.length - 1)) } current device' := by
  have positive := geometry.cluster
  induction chain generalizing first rest fuel traversed countdown with
  | @last cluster valid ends =>
    cases start
    rw [List.length_singleton, Nat.one_mul] at offset
    have step := skipClusters_turn geometry small offset result
    cases countdown with
    | none => exact ⟨(fun _ impossible => by cases impossible), step⟩
    | some count => exact ⟨(fun _ _ => Nat.zero_le _), step⟩
  | @step cluster next behind valid linked number following ih =>
    cases start
    cases fuel with
    | zero => exact absurd result Program.stop_returns
    | succ fuel =>
      have product : (next :: behind).length * fatData.sectorsPerCluster + fatData.sectorsPerCluster =
          (cluster :: next :: behind).length * fatData.sectorsPerCluster := (Nat.succ_mul _ _).symm
      have cost : 2 * ((cluster :: next :: behind).length - 1) = 2 + 2 * ((next :: behind).length - 1) := by
        rw [List.length_cons, List.length_cons]
        omega
      have further : endsBefore fatData traversed sectorOffset = true := by
        rw [endsBefore_eq small (by omega)]
        exact decide_eq_true (by omega)
      obtain ⟨turn, second, first, rest⟩ := Program.bind_returns.mp result
      obtain ⟨target, step, rfl⟩ := skipCluster_inv further first
      have go := @nextSector_priced fatData bytes cluster next 0 geometry room valid linked number
        (following.valid List.mem_cons_self) positive extendChain
      rw [Nat.add_zero] at go
      obtain ⟨enough, same, rfl⟩ := go.inv step
      cases same
      dsimp only at rest
      rw [qword_of_lt (by omega)] at rest
      obtain ⟨more, result⟩ := ih rfl (by omega) rest
      rw [remaining_add] at result
      rw [cost]
      exact ⟨enough_add.mpr ⟨enough, more⟩, result⟩

theorem skipClusters_extend (volume : Fat32Volume fatData) (file : FileChain fatData bytes (first :: rest))
    (offset : sectorOffset = (first :: rest).length * fatData.sectorsPerCluster)
    (small : sectorOffset + fatData.sectorsPerCluster < 2 ^ 64) {current : Nat} {device' : Device}
    (result : Returns (skipClusters fatData true sectorOffset (sectorOf fatData first))
      { bytes := bytes, countdown := countdown } current device') :
    Enough countdown (2 * (first :: rest).length) ∧ fatData.bytesPerSector = 512 ∧
      ∃ cluster after left, current = sectorOf fatData cluster ∧ device' = { bytes := after, countdown := left } ∧
        firstFree fatData bytes (nxtFree (fsInfoOf fatData bytes))
          (searchEnd fatData - nxtFree (fsInfoOf fatData bytes)) = some cluster ∧
        Added fatData bytes (remaining countdown (2 * (first :: rest).length)) ((first :: rest).getLastD 0) cluster after
          left := by
  have geometry := accepted_geometry volume.accepted
  obtain ⟨enough, step⟩ := skipClusters_last geometry volume.room file.chain rfl (by omega) small result
  rw [← Nat.add_zero (sectorOf fatData _)] at step
  obtain ⟨two, sector, cluster, after, left, current, device, found, reserved⟩ :=
    nextSector_added volume file.ends geometry.cluster step
  have cost : 2 * (first :: rest).length = 2 * ((first :: rest).length - 1) + 2 := by
    rw [List.length_cons]
    omega
  rw [remaining_add, ← cost] at reserved
  rw [cost]
  exact ⟨enough_add.mpr ⟨enough, two⟩, sector, cluster, after, left, current, device, found, reserved⟩

theorem skipClusters_past (volume : Fat32Volume fatData) (file : FileChain fatData bytes (first :: rest))
    (offset : sectorOffset = (first :: rest).length * fatData.sectorsPerCluster)
    (small : sectorOffset + fatData.sectorsPerCluster < 2 ^ 64) {current : Nat} {device' : Device}
    (result : Returns (skipClusters fatData false sectorOffset (sectorOf fatData first)) { bytes := bytes } current
      device') : current = 0 := by
  have geometry := accepted_geometry volume.accepted
  obtain ⟨-, step⟩ := skipClusters_last geometry volume.room file.chain rfl (by omega) small result
  have ends := file.ends
  have go := @nextSector_end fatData ((first :: rest).getLastD 0) 0 geometry volume.room ⟨bytes, none⟩ rfl ends.valid
    (.inr ends.mark) geometry.cluster
  rw [Nat.add_zero] at go
  exact (go.unique step).1.symm

end Skip

-- One of the links that FatWriteFile makes is lost: that of a missing cluster. Each cluster before the one of the
-- offset takes two requests, and each one behind it three.
def WriteLosesLink (fatData : FatData) (bytes : Lib.Memory) (countdown : Option Nat) (length offset count : Nat) : Prop :=
  losesLinkAfter fatData
    (2 * (offset / fatData.sectorsPerCluster) + 3 * (length - offset / fatData.sectorsPerCluster))
    (missingClusters fatData length offset count) bytes countdown

section Join

variable {fatData : FatData} {before middle after buffer : Lib.Memory} {clusters rest added : List Nat}
variable {cluster next first offset count : Nat} {countdown : Option Nat} {lost : Prop}

theorem wantedSectors_add {first : List Nat} (inside : offset / fatData.sectorsPerCluster ≤ clusters.length) :
    wantedSectors fatData (clusters ++ first) offset count =
      wantedSectors fatData (clusters.drop (offset / fatData.sectorsPerCluster) ++ first)
        (offset % fatData.sectorsPerCluster) count := by
  rw [wantedSectors_drop, List.drop_append_of_le_length inside]

theorem missingClusters_add (positive : 0 < fatData.sectorsPerCluster) (early length : Nat) :
    missingClusters fatData (early + length) (early * fatData.sectorsPerCluster + offset) count =
      missingClusters fatData length offset count := by
  have whole : early * fatData.sectorsPerCluster + offset + count + fatData.sectorsPerCluster - 1 =
      offset + count + fatData.sectorsPerCluster - 1 + early * fatData.sectorsPerCluster := by omega
  rw [missingClusters, missingClusters, whole, Nat.add_mul_div_right _ _ positive, Nat.add_comm early length,
    Nat.add_sub_add_right]

theorem WriteEnds.whole {behind : List Nat} (file : FileChain fatData before clusters)
    (dropped : clusters.drop (offset / fatData.sectorsPerCluster) = cluster :: behind)
    (ends : WriteEnds fatData before after (cluster :: behind) added (offset % fatData.sectorsPerCluster) count 0 buffer
      lost) : WriteEnds fatData before after clusters added offset count 0 buffer lost := by
  have length := congrArg List.length dropped
  rw [List.length_drop, List.length_cons] at length
  rcases ends with ⟨kept, written⟩ | ⟨lost, shortened⟩
  · have sectors := @wantedSectors_add fatData clusters offset count added (by omega)
    rw [dropped] at sectors
    refine .inl ⟨kept, written.toGrown.whole file dropped, ?_, ?_⟩
    · rw [sectors]
      exact written.length
    · rw [sectors]
      exact written.scattered
  · refine .inr ⟨lost, shortened.toGrown.whole file dropped, ?_⟩
    have short := shortened.short
    have split := Nat.div_add_mod' offset fatData.sectorsPerCluster
    have total : (clusters ++ added).length = offset / fatData.sectorsPerCluster + (cluster :: behind ++ added).length := by
      rw [List.length_append, List.length_append, List.length_cons]
      omega
    rw [total, Nat.add_mul]
    omega

theorem WriteEnds.extended (volume : Fat32Volume fatData) (file : FileChain fatData before clusters)
    (extended : Extended fatData before middle (clusters.getLastD 0) next)
    (end_ : offset = clusters.length * fatData.sectorsPerCluster)
    (ends : WriteEnds fatData middle after [next] added 0 count 0 buffer lost) :
    WriteEnds fatData before after clusters (next :: added) offset count 0 buffer lost := by
  have geometry := accepted_geometry volume.accepted
  have quotient : offset / fatData.sectorsPerCluster = clusters.length := by
    rw [end_, Nat.mul_div_cancel _ geometry.cluster]
  have remainder : offset % fatData.sectorsPerCluster = 0 := by rw [end_, Nat.mul_mod_left]
  rcases ends with ⟨kept, written⟩ | ⟨lost, shortened⟩
  · have sectors := @wantedSectors_add fatData clusters offset count (next :: added) (le_of_eq quotient)
    rw [quotient, remainder, List.drop_length, List.nil_append] at sectors
    refine .inl ⟨kept, Grown.extended volume file extended written.toGrown, ?_, ?_⟩
    · rw [sectors]
      exact written.length
    · rw [sectors]
      refine Scattered.of_same ?_ written.scattered
      intro sector data place _
      have product := Nat.mul_le_mul_right fatData.bytesPerSector (show fatData.firstDataSector ≤ sector from data)
      exact extended.data _ (by omega)
  · refine .inr ⟨lost, Grown.extended volume file extended shortened.toGrown, ?_⟩
    have short := shortened.short
    rw [List.singleton_append] at short
    rw [List.length_append, Nat.add_mul, end_]
    omega

theorem fatWriteFile_ends (volume : Fat32Volume fatData) (file : FileChain fatData before (first :: rest))
    (inside : offset ≤ (first :: rest).length * fatData.sectorsPerCluster) (more : 1 ≤ count) {current : Nat}
    {second third : Device}
    (skipped : Returns (skipClusters fatData true offset (sectorOf fatData first))
      { bytes := before, countdown := countdown } current second)
    (wrote : Returns (writeClusters fatData (firstTransfer fatData current offset count) buffer) second () third) :
    ∃ after left added, third = { bytes := after, countdown := left } ∧
      WriteEnds fatData before after (first :: rest) added offset count 0 buffer
        (WriteLosesLink fatData before countdown (first :: rest).length offset count) := by
  have geometry := accepted_geometry volume.accepted
  have positive := geometry.cluster
  have few := file.chain.length_le file.distinct
  have clusters := geometry.count_lt
  have cluster_lt := geometry.cluster_lt
  have product : (first :: rest).length * fatData.sectorsPerCluster ≤ 2 ^ 32 * 2 ^ 8 :=
    Nat.mul_le_mul (by omega) (le_of_lt geometry.cluster_lt)
  have within : offset % fatData.sectorsPerCluster < fatData.sectorsPerCluster := Nat.mod_lt _ positive
  rw [WriteLosesLink]
  by_cases early : offset < (first :: rest).length * fatData.sectorsPerCluster
  · obtain ⟨cluster, behind, dropped, run⟩ := skipClusters_chain geometry file.chain rfl (.inl volume.room) (Nat.zero_le _)
      (by omega) (by omega) (show offset - 0 < offset + 1 by omega) true
    rw [Nat.sub_zero] at dropped run
    obtain ⟨enough, same, rfl⟩ := run.inv skipped
    cases same
    obtain ⟨-, after, left, added, rfl, ends⟩ := writeClusters_run volume (file.drop dropped) within wrote
    have length := congrArg List.length dropped
    rw [List.length_drop] at length
    have least : offset / fatData.sectorsPerCluster < (first :: rest).length := (Nat.div_lt_iff_lt_mul positive).mpr early
    have missing := @missingClusters_add fatData (offset % fatData.sectorsPerCluster) count positive
      (offset / fatData.sectorsPerCluster) (cluster :: behind).length
    rw [Nat.div_add_mod', ← length, Nat.add_sub_cancel' (le_of_lt least)] at missing
    rw [losesLinkAfter_add enough, ← length, ← missing] at ends
    exact ⟨after, left, added, rfl, ends.whole file dropped⟩
  · have end_ : offset = (first :: rest).length * fatData.sectorsPerCluster := by omega
    have quotient : offset / fatData.sectorsPerCluster = (first :: rest).length := by
      rw [end_, Nat.mul_div_cancel _ positive]
    have remainder : offset % fatData.sectorsPerCluster = 0 := by rw [end_, Nat.mul_mod_left]
    obtain ⟨enough, sector, cluster, middle, left, rfl, rfl, found, reserved⟩ :=
      skipClusters_extend volume file end_ (by omega) skipped
    have missing : missingClusters fatData (first :: rest).length offset count =
        missingClusters fatData [cluster].length 0 count + 1 := by
      rw [missingClusters_succ positive (by omega), end_, ← Nat.add_zero (_ * _), missingClusters_add positive]
      rfl
    rw [quotient, Nat.sub_self, Nat.mul_zero, Nat.add_zero, missing, losesLinkAfter, and_iff_right enough]
    rcases reserved.losesLink volume sector found with ⟨alone, rfl, lost⟩ | ⟨extended, lost⟩
    · obtain ⟨-, after, left, added, rfl, ends⟩ :=
        writeClusters_run volume (fileChain_single alone.valid alone.marked) within wrote
      refine ⟨after, left, [], rfl, .inr ⟨lost, Grown.stranded file alone ends.grown, ?_⟩⟩
      rw [List.append_nil]
      omega
    · obtain ⟨-, after, left', added, rfl, ends⟩ :=
        writeClusters_run volume (fileChain_single extended.behind.valid extended.behind.marked.link) within wrote
      rw [remainder] at ends
      rw [lost]
      exact ⟨after, left', cluster :: added, rfl, ends.extended volume file extended end_⟩

end Join

end Hal9000.Fat32
