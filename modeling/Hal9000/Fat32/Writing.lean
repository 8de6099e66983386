import Hal9000.Fat32.LostLink
import Hal9000.Fat32.Reading

set_option autoImplicit false

namespace Hal9000.Fat32

open Lib (Program Scattered SameBlocks)
open Lib.Program (fail stop require loop Returns Fails Stops)

-- The chain of a file: its clusters are in use and there is no cycle.
structure FileChain (fatData : FatData) (bytes : Lib.Memory) (clusters : List Nat) : Prop where
  chain : Chain fatData bytes clusters
  used : forall cluster, cluster ∈ clusters -> isFree fatData bytes cluster = false
  distinct : clusters.Nodup

def SameTable (fatData : FatData) (before after : Lib.Memory) : Prop :=
  forall cluster, cluster < fatData.countOfClusters + 2 -> link fatData after cluster = link fatData before cluster

section Table

variable {fatData : FatData} {before middle after : Lib.Memory} {clusters : List Nat} {cluster last added : Nat}

theorem sameTable_of_below (volume : Fat32Volume fatData)
    (same : forall place, place < fatData.firstDataSector * fatData.bytesPerSector -> after place = before place) :
    SameTable fatData before after := by
  intro cluster inside
  obtain ⟨entries, whole⟩ := volume.whole
  have table := volume.table
  apply link_congr
  intro place lower upper
  rw [entryAddress_eq whole] at upper
  exact same place (by omega)

theorem sameAllocation_of_below (volume : Fat32Volume fatData) (sector : fatData.bytesPerSector = 512)
    (same : forall place, place < fatData.firstDataSector * fatData.bytesPerSector -> after place = before place) :
    SameAllocation fatData before after := by
  have large : 2 * fatData.bytesPerSector ≤ fatData.reservedSectors * fatData.bytesPerSector :=
    Nat.mul_le_mul_right _ volume.information
  have table := volume.table
  have info : fsInfoOf fatData after = fsInfoOf fatData before := by
    apply Lib.Memory.slice_congr
    intro place lower upper
    rw [sizeofFsInfo] at upper
    exact same place (by omega)
  refine ⟨fun cluster inside => ?_, by rw [info], by rw [info]⟩
  rw [isFree, sameTable_of_below volume same cluster inside, isFree]

theorem SameTable.isFree (same : SameTable fatData before after) (valid : IsCluster fatData cluster) :
    isFree fatData after cluster = isFree fatData before cluster := by
  rw [Fat32.isFree, same cluster valid.2, Fat32.isFree]

theorem Chain.congr (chain : Chain fatData before clusters)
    (same : forall cluster, cluster ∈ clusters -> link fatData after cluster = link fatData before cluster) :
    Chain fatData after clusters := by
  induction chain with
  | @last cluster valid ends =>
    have here := same cluster List.mem_cons_self
    exact .last valid (by rw [here]; exact ends)
  | @step cluster next rest valid linked number following ih =>
    have here := same cluster List.mem_cons_self
    exact .step valid (by rw [here]; exact linked) number
      (ih fun other member => same other (List.mem_cons_of_mem _ member))

theorem FileChain.congr (file : FileChain fatData before clusters)
    (same : forall cluster, cluster ∈ clusters -> link fatData after cluster = link fatData before cluster) :
    FileChain fatData after clusters where
  chain := file.chain.congr same
  used cluster member := by
    rw [isFree, same cluster member]
    exact file.used cluster member
  distinct := file.distinct

theorem FileChain.drop {rest : List Nat} (file : FileChain fatData before clusters) {count : Nat}
    (found : clusters.drop count = cluster :: rest) : FileChain fatData before (cluster :: rest) where
  chain := file.chain.drop found
  used other member := by
    rw [← found] at member
    exact file.used other (List.mem_of_mem_drop member)
  distinct := by
    rw [← found]
    exact file.distinct.sublist (List.drop_sublist count clusters)

theorem FileChain.tail {rest : List Nat} (file : FileChain fatData before (cluster :: last :: rest)) :
    FileChain fatData before (last :: rest) :=
  @FileChain.drop _ _ _ _ _ file 1 rfl

theorem FileChain.ends (file : FileChain fatData before clusters) : EndsChain fatData before (clusters.getLastD 0) := by
  obtain ⟨chain, used, -⟩ := file
  induction chain with
  | @last cluster valid ends =>
    have busy := used cluster List.mem_cons_self
    rw [isFree, beq_eq_false_iff_ne] at busy
    exact ⟨valid, ends.resolve_left busy⟩
  | step valid linked number following ih =>
    exact ih fun other member => used other (List.mem_cons_of_mem _ member)

theorem FileChain.last_mem (file : FileChain fatData before clusters) : clusters.getLastD 0 ∈ clusters := by
  cases clusters with
  | nil => exact absurd rfl file.chain.nonempty
  | cons first rest =>
    rw [List.getLastD_cons]
    exact List.getLastD_mem_cons

theorem fileChain_single (valid : IsCluster fatData cluster) (marked : link fatData after cluster = fat32EocMark) :
    FileChain fatData after [cluster] where
  chain := by
    apply Chain.last valid
    rw [marked]
    exact .inr (by decide)
  used other member := by
    obtain rfl := List.mem_singleton.mp member
    rw [isFree, marked]
    decide
  distinct := by simp

theorem Extended.link (extended : Extended fatData before after last added) (valid : IsCluster fatData cluster)
    (used : isFree fatData before cluster = false) (apart : cluster ≠ last) :
    Fat32.link fatData after cluster = Fat32.link fatData before cluster := by
  have other : cluster ≠ added := by
    rintro rfl
    rw [extended.behind.free] at used
    cases used
  rw [Fat32.link, extended.behind.frame cluster valid.2 other apart, Fat32.link]

theorem Extended.isFree (extended : Extended fatData before after last added) (valid : IsCluster fatData cluster)
    (other : cluster ≠ added) (apart : cluster ≠ last) :
    Fat32.isFree fatData after cluster = Fat32.isFree fatData before cluster := by
  rw [Fat32.isFree, Fat32.link, extended.behind.frame cluster valid.2 other apart, Fat32.isFree, Fat32.link]

end Table

def bytesWritten (fatData : FatData) (bytes buffer : Lib.Memory) (transfer : Transfer) : Lib.Memory :=
  bytes.copy (transfer.currentSector * fatData.bytesPerSector) (transfer.sectors * fatData.bytesPerSector)
    (buffer.slice transfer.position (transfer.sectors * fatData.bytesPerSector))

def IsData (fatData : FatData) (sector : Nat) : Prop := fatData.firstDataSector ≤ sector

section Turn

variable {fatData : FatData} {bytes buffer : Lib.Memory} {transfer : Transfer}

theorem writeClusterOfFile_inv {countdown : Option Nat} {turn : Transfer ⊕ Unit} {device' : Device}
    (result : Returns (writeClusterOfFile fatData buffer transfer) { bytes := bytes, countdown := countdown } turn device') :
    Enough countdown 1 ∧
      (transfer.sectorsRemaining - transfer.sectors = 0 ∧ turn = .inr () ∧
          device' = { bytes := bytesWritten fatData bytes buffer transfer, countdown := remaining countdown 1 } ∨
        transfer.sectorsRemaining - transfer.sectors ≠ 0 ∧
          ∃ sector, Returns (nextSectorInClusterChain fatData transfer.currentSector true)
              { bytes := bytesWritten fatData bytes buffer transfer, countdown := remaining countdown 1 } sector device' ∧
            turn = .inl (nextTransfer fatData transfer sector (transfer.sectors * fatData.bytesPerSector))) := by
  rw [writeClusterOfFile] at result
  obtain ⟨written, second, wrote, result⟩ := Program.bind_returns.mp result
  obtain ⟨enough, same, rfl⟩ := Priced.ioWriteDevice.inv wrote
  cases same
  rw [beq_self_eq_true, Program.require_true, Program.pure_bind] at result
  refine ⟨enough, ?_⟩
  by_cases done : transfer.sectorsRemaining - transfer.sectors = 0
  · rw [if_pos done] at result
    obtain ⟨same, rfl⟩ := Program.pure_returns.mp result
    exact .inl ⟨done, same.symm, rfl⟩
  · rw [if_neg done] at result
    obtain ⟨sector, third, step, result⟩ := Program.bind_returns.mp result
    obtain ⟨same, rfl⟩ := Program.pure_returns.mp result
    exact .inr ⟨done, sector, step, same.symm⟩

theorem bytesWritten_below (data : fatData.firstDataSector ≤ transfer.currentSector) {place : Nat}
    (below : place < fatData.firstDataSector * fatData.bytesPerSector) :
    bytesWritten fatData bytes buffer transfer place = bytes place := by
  have product := Nat.mul_le_mul_right fatData.bytesPerSector data
  exact Lib.Memory.copy_elsewhere (by omega)

theorem bytesWritten_table (volume : Fat32Volume fatData)
    (data : fatData.firstDataSector ≤ transfer.currentSector) :
    SameTable fatData bytes (bytesWritten fatData bytes buffer transfer) :=
  sameTable_of_below volume fun _ => bytesWritten_below data

end Turn

structure Grown (fatData : FatData) (before after : Lib.Memory) (clusters added : List Nat) : Prop where
  file : FileChain fatData after (clusters ++ added)
  new : forall cluster, cluster ∈ added -> isFree fatData before cluster = true
  links : forall cluster, IsCluster fatData cluster -> isFree fatData before cluster = false -> cluster ∉ clusters ->
    link fatData after cluster = link fatData before cluster

structure Written (fatData : FatData) (before after : Lib.Memory) (clusters added : List Nat)
    (offset count position : Nat) (buffer : Lib.Memory) : Prop extends Grown fatData before after clusters added where
  length : (wantedSectors fatData (clusters ++ added) offset count).length = count
  scattered : Scattered fatData.bytesPerSector (IsData fatData) buffer before after position
    (wantedSectors fatData (clusters ++ added) offset count)

structure Shortened (fatData : FatData) (before after : Lib.Memory) (clusters added : List Nat) (offset count : Nat) : Prop
    extends Grown fatData before after clusters added where
  short : (clusters ++ added).length * fatData.sectorsPerCluster < offset + count

def WriteEnds (fatData : FatData) (before after : Lib.Memory) (clusters added : List Nat) (offset count position : Nat)
    (buffer : Lib.Memory) (lost : Prop) : Prop :=
  ¬ lost ∧ Written fatData before after clusters added offset count position buffer ∨
    lost ∧ Shortened fatData before after clusters added offset count

section Join

variable {fatData : FatData} {before middle after : Lib.Memory} {clusters done rest tail added : List Nat}
variable {cluster next : Nat}

theorem Chain.join (chain : Chain fatData before (done ++ cluster :: rest))
    (same : forall other, other ∈ done -> link fatData after other = link fatData before other)
    (behind : Chain fatData after (cluster :: tail)) : Chain fatData after (done ++ cluster :: tail) := by
  induction done with
  | nil => exact behind
  | cons first done ih =>
    have here := same first List.mem_cons_self
    cases done with
    | nil =>
      cases chain with
      | step valid linked number following => exact .step valid (here.trans linked) number behind
    | cons second done =>
      cases chain with
      | step valid linked number following =>
        exact .step valid (here.trans linked) number
          (ih following fun other member => same other (List.mem_cons_of_mem _ member))

theorem Chain.extend (chain : Chain fatData before clusters) (distinct : clusters.Nodup)
    (same : forall other, other ∈ clusters -> other ≠ clusters.getLastD 0 ->
      link fatData after other = link fatData before other)
    (linked : link fatData after (clusters.getLastD 0) = next) (number : next < fat32BadCluster)
    (behind : Chain fatData after (next :: tail)) : Chain fatData after (clusters ++ next :: tail) := by
  induction chain with
  | @last cluster valid ends => exact .step valid linked number behind
  | @step cluster second rest valid forward small following ih =>
    obtain ⟨fresh, distinct⟩ := List.nodup_cons.mp distinct
    have apart : cluster ≠ (cluster :: second :: rest).getLastD 0 := by
      rw [List.getLastD_cons, List.getLastD_cons]
      intro equal
      rw [equal] at fresh
      exact fresh List.getLastD_mem_cons
    have here := same cluster List.mem_cons_self apart
    refine .step valid (here.trans forward) small (ih distinct ?_ ?_)
    · intro other member different
      exact same other (List.mem_cons_of_mem _ member) different
    · exact linked

theorem Grown.of_table (file : FileChain fatData before clusters) (table : SameTable fatData before after) :
    Grown fatData before after clusters [] where
  file := by
    rw [List.append_nil]
    exact file.congr fun other member => table other (file.chain.valid member).2
  new _ member := by cases member
  links other valid _ _ := table other valid.2

theorem Grown.table_before (table : SameTable fatData before middle) (grown : Grown fatData middle after clusters added) :
    Grown fatData before after clusters added where
  file := grown.file
  new other member := by
    rw [← table.isFree (grown.file.chain.valid (List.mem_append_right _ member))]
    exact grown.new other member
  links other valid busy away := by
    rw [grown.links other valid (by rw [table.isFree valid]; exact busy) away, table other valid.2]

theorem Grown.whole {behind : List Nat} {count : Nat} (file : FileChain fatData before clusters)
    (dropped : clusters.drop count = cluster :: behind) (grown : Grown fatData before after (cluster :: behind) added) :
    Grown fatData before after clusters added := by
  have split : clusters = clusters.take count ++ cluster :: behind := by rw [← dropped, List.take_append_drop]
  have distinct := file.distinct
  rw [split, List.nodup_append] at distinct
  obtain ⟨start, -, apart⟩ := distinct
  have kept (other : Nat) (member : other ∈ clusters.take count) :
      link fatData after other = link fatData before other := by
    have within := List.mem_of_mem_take member
    exact grown.links other (file.chain.valid within) (file.used other within)
      fun inside => apart other member other inside rfl
  have chain := file.chain
  rw [split] at chain
  have list : clusters ++ added = clusters.take count ++ cluster :: (behind ++ added) := by
    rw [← List.cons_append, ← List.append_assoc, ← split]
  exact
    { file :=
        { chain := by
            rw [list]
            exact Chain.join chain kept grown.file.chain
          used := by
            intro other member
            rw [list] at member
            rcases List.mem_append.mp member with early | late
            · rw [isFree, kept other early]
              exact file.used other (List.mem_of_mem_take early)
            · exact grown.file.used other late
          distinct := by
            rw [list, List.nodup_append]
            refine ⟨start, grown.file.distinct, ?_⟩
            rintro other early _ late rfl
            rw [← List.cons_append] at late
            rcases List.mem_append.mp late with inside | new
            · exact apart other early other inside rfl
            · have free := grown.new other new
              rw [file.used other (List.mem_of_mem_take early)] at free
              cases free }
      new := grown.new
      links := by
        intro other valid busy away
        refine grown.links other valid busy fun member => away ?_
        rw [split]
        exact List.mem_append_right _ member }

theorem Grown.extended (volume : Fat32Volume fatData) (file : FileChain fatData before clusters)
    (extended : Extended fatData before middle (clusters.getLastD 0) next)
    (grown : Grown fatData middle after [next] added) : Grown fatData before after clusters (next :: added) := by
  have free := extended.behind.free
  have lower := extended.behind.valid.1
  have last : link fatData middle (clusters.getLastD 0) = next := extended.behind.linked.link
  have inside := file.last_mem
  have foreign (other : Nat) (busy : isFree fatData before other = false) : other ∉ [next] := by
    intro member
    obtain rfl := List.mem_singleton.mp member
    rw [busy] at free
    cases free
  have ending : link fatData after (clusters.getLastD 0) = next := by
    rw [grown.links _ (file.chain.valid inside) ?_ (foreign _ (file.used _ inside)), last]
    rw [isFree, last, beq_eq_false_iff_ne]
    omega
  have kept (other : Nat) (valid : IsCluster fatData other) (busy : isFree fatData before other = false)
      (apart : other ≠ clusters.getLastD 0) : link fatData after other = link fatData before other := by
    have same := extended.link valid busy apart
    rw [grown.links other valid ?_ (foreign other busy), same]
    rw [isFree, same]
    exact busy
  have number : next < fat32BadCluster := lt_of_lt_of_le extended.behind.valid.2 volume.numbers
  have joined := file.chain.extend file.distinct
    (fun other member apart => kept other (file.chain.valid member) (file.used other member) apart) ending number
    grown.file.chain
  have unused (other : Nat) (member : other ∈ next :: added) : isFree fatData before other = true := by
    rcases List.mem_cons.mp member with rfl | member
    · exact free
    · have valid := grown.file.chain.valid (List.mem_append_right _ member)
      have still := grown.new other member
      have first : other ≠ next := by
        rintro rfl
        rw [isFree, extended.behind.marked.link] at still
        exact absurd still (by decide)
      have second : other ≠ clusters.getLastD 0 := by
        rintro rfl
        rw [isFree, last, beq_iff_eq] at still
        omega
      rw [← extended.isFree valid first second]
      exact still
  exact
    { file :=
        { chain := joined
          used := by
            intro other member
            rcases List.mem_append.mp member with early | late
            · by_cases same : other = clusters.getLastD 0
              · rw [isFree, same, ending, beq_eq_false_iff_ne]
                omega
              · rw [isFree, kept other (file.chain.valid early) (file.used other early) same]
                exact file.used other early
            · exact grown.file.used other late
          distinct := by
            rw [List.nodup_append]
            refine ⟨file.distinct, grown.file.distinct, ?_⟩
            rintro other early _ late rfl
            have busy := file.used other early
            rw [unused other late] at busy
            cases busy }
      new := unused
      links := by
        intro other valid busy away
        refine kept other valid busy fun same => away ?_
        rw [same]
        exact inside }

theorem Grown.stranded (file : FileChain fatData before clusters) (alone : Stranded fatData before middle next)
    (grown : Grown fatData middle after [next] added) : Grown fatData before after clusters [] := by
  have free := alone.free
  have kept (other : Nat) (valid : IsCluster fatData other) (busy : isFree fatData before other = false) :
      link fatData after other = link fatData before other := by
    have apart : other ≠ next := by
      rintro rfl
      rw [busy] at free
      cases free
    have same := alone.frame other apart
    rw [grown.links other valid ?_ (fun member => apart (List.mem_singleton.mp member)), same]
    rw [isFree, same]
    exact busy
  exact
    { file := by
        rw [List.append_nil]
        exact file.congr fun other member => kept other (file.chain.valid member) (file.used other member)
      new := fun _ member => by cases member
      links := fun other valid busy _ => kept other valid busy }

end Join

section Run

variable {fatData : FatData} {bytes middle after buffer : Lib.Memory} {cluster next offset count position : Nat}
variable {rest behind later added : List Nat}

theorem scattered_turn {transfer : Transfer} (current : transfer.currentSector = sectorOf fatData cluster + offset)
    (size : transfer.sectors = count) (place : transfer.position = position) :
    Scattered fatData.bytesPerSector (IsData fatData) buffer bytes (bytesWritten fatData bytes buffer transfer) position
      (List.range' (sectorOf fatData cluster + offset) count) := by
  rw [bytesWritten, current, size, place]
  exact Scattered.run _ _

theorem missingClusters_near (positive : 0 < fatData.sectorsPerCluster) (few : offset + count ≤ fatData.sectorsPerCluster)
    {length : Nat} (some : 1 ≤ length) : missingClusters fatData length offset count = 0 := by
  have most : (offset + count + fatData.sectorsPerCluster - 1) / fatData.sectorsPerCluster < 2 :=
    Nat.div_lt_of_lt_mul (by omega)
  rw [missingClusters]
  omega

theorem missingClusters_far (positive : 0 < fatData.sectorsPerCluster) (within : offset < fatData.sectorsPerCluster)
    (many : fatData.sectorsPerCluster - offset < count) {length : Nat} :
    missingClusters fatData (length + 1) offset count =
      missingClusters fatData length 0 (count - (fatData.sectorsPerCluster - offset)) := by
  have whole : offset + count + fatData.sectorsPerCluster - 1 =
      0 + (count - (fatData.sectorsPerCluster - offset)) + fatData.sectorsPerCluster - 1 +
        fatData.sectorsPerCluster := by omega
  rw [missingClusters, missingClusters, whole, Nat.add_div_right _ positive, Nat.add_sub_add_right]

theorem missingClusters_succ (positive : 0 < fatData.sectorsPerCluster) {length : Nat}
    (more : length * fatData.sectorsPerCluster < offset + count) :
    missingClusters fatData length offset count = missingClusters fatData (length + 1) offset count + 1 := by
  have least : length + 1 ≤ (offset + count + fatData.sectorsPerCluster - 1) / fatData.sectorsPerCluster := by
    rw [Nat.le_div_iff_mul_le positive, Nat.succ_mul]
    omega
  rw [missingClusters, missingClusters]
  omega

theorem losesLinkAfter_below (volume : Fat32Volume fatData) {before more : Nat} {countdown : Option Nat}
    (sector : fatData.bytesPerSector = 512 ∨ more = 0)
    (same : forall place, place < fatData.firstDataSector * fatData.bytesPerSector -> after place = bytes place) :
    losesLinkAfter fatData before more after countdown ↔ losesLinkAfter fatData before more bytes countdown := by
  rw [losesLinkAfter, losesLinkAfter]
  rcases sector with sector | rfl
  · rw [losesLink_congr volume (.inl sector) (sameAllocation_of_below volume sector same)]
  · exact Iff.rfl

theorem written_near (volume : Fat32Volume fatData) (file : FileChain fatData bytes (cluster :: rest))
    (within : offset < fatData.sectorsPerCluster) (few : count ≤ fatData.sectorsPerCluster - offset) :
    Written fatData bytes (bytesWritten fatData bytes buffer (chainTransfer fatData cluster offset position count))
      (cluster :: rest) [] offset count position buffer := by
  have near := @wantedSectors_near fatData cluster offset count rest (le_of_lt within) few
  have size : (chainTransfer fatData cluster offset position count).sectors = count := Nat.min_eq_left few
  have data : fatData.firstDataSector ≤ (chainTransfer fatData cluster offset position count).currentSector :=
    le_trans firstDataSector_le_sectorOf (Nat.le_add_right _ _)
  exact
    { toGrown := Grown.of_table file (bytesWritten_table volume data)
      length := by rw [List.append_nil, near, List.length_range']
      scattered := by
        rw [List.append_nil, near]
        exact scattered_turn rfl size rfl }

theorem written_far (geometry : Geometry fatData) (file : FileChain fatData after (cluster :: rest))
    (within : offset < fatData.sectorsPerCluster) (many : fatData.sectorsPerCluster - offset < count)
    (same : SameBlocks fatData.bytesPerSector (IsData fatData)
      (bytesWritten fatData bytes buffer (chainTransfer fatData cluster offset position count)) middle)
    (length : (wantedSectors fatData rest 0 (count - (fatData.sectorsPerCluster - offset))).length =
      count - (fatData.sectorsPerCluster - offset))
    (scattered : Scattered fatData.bytesPerSector (IsData fatData) buffer middle after
      (position + (fatData.sectorsPerCluster - offset) * fatData.bytesPerSector)
      (wantedSectors fatData rest 0 (count - (fatData.sectorsPerCluster - offset)))) :
    (wantedSectors fatData (cluster :: rest) offset count).length = count ∧
      Scattered fatData.bytesPerSector (IsData fatData) buffer bytes after position
        (wantedSectors fatData (cluster :: rest) offset count) := by
  have far := @wantedSectors_far fatData cluster offset count rest (by omega) (by omega)
  have size : (chainTransfer fatData cluster offset position count).sectors = fatData.sectorsPerCluster - offset :=
    Nat.min_eq_right (by omega)
  have away := (List.nodup_cons.mp file.distinct).1
  refine ⟨?_, ?_⟩
  · rw [far, List.length_append, List.length_range', length]
    omega
  · rw [far]
    apply Scattered.append (scattered_turn rfl size rfl)
    · rw [List.length_range']
      exact Scattered.of_same same scattered
    · intro sector member
      obtain ⟨lower, upper⟩ := List.mem_range'_1.mp member
      have start := @firstDataSector_le_sectorOf fatData cluster
      rw [IsData]
      omega
    · intro sector one two
      obtain ⟨other, member, inside⟩ := mem_fileSectors.mp (mem_of_mem_wantedSectors two)
      have apart : cluster ≠ other := by
        rintro rfl
        exact away member
      have first := (file.chain.valid List.mem_cons_self).1
      have second := (file.chain.valid (List.mem_cons_of_mem _ member)).1
      have here : sector ∈ clusterSectors fatData cluster := by
        obtain ⟨lower, upper⟩ := List.mem_range'_1.mp one
        exact mem_clusterSectors.mpr ⟨by omega, by omega⟩
      exact clusterSectors_disjoint geometry.cluster first second apart here inside

theorem WriteEnds.grown {lost : Prop}
    (ends : WriteEnds fatData bytes after rest added offset count position buffer lost) :
    Grown fatData bytes after rest added := by
  rcases ends with ⟨-, written⟩ | ⟨-, shortened⟩
  · exact written.toGrown
  · exact shortened.toGrown

theorem writeEnds_step (geometry : Geometry fatData) (within : offset < fatData.sectorsPerCluster)
    (many : fatData.sectorsPerCluster - offset < count) {lost : Prop}
    (same : SameBlocks fatData.bytesPerSector (IsData fatData)
      (bytesWritten fatData bytes buffer (chainTransfer fatData cluster offset position count)) middle)
    (list : cluster :: (behind ++ later) = rest ++ added)
    (grown : Grown fatData middle after behind later -> Grown fatData bytes after rest added)
    (ends : WriteEnds fatData middle after behind later 0 (count - (fatData.sectorsPerCluster - offset))
      (position + (fatData.sectorsPerCluster - offset) * fatData.bytesPerSector) buffer lost) :
    WriteEnds fatData bytes after rest added offset count position buffer lost := by
  rcases ends with ⟨kept, written⟩ | ⟨lost, shortened⟩
  · have whole := grown written.toGrown
    have file := whole.file
    rw [← list] at file
    obtain ⟨length, scattered⟩ := written_far geometry file within many same written.length written.scattered
    rw [list] at length scattered
    exact .inl ⟨kept, whole, length, scattered⟩
  · have short := shortened.short
    refine .inr ⟨lost, grown shortened.toGrown, ?_⟩
    rw [← list, List.length_cons, Nat.succ_mul]
    omega

theorem writeClusters_run (volume : Fat32Volume fatData) {countdown : Option Nat}
    (file : FileChain fatData bytes (cluster :: rest)) (within : offset < fatData.sectorsPerCluster) {fuel : Nat}
    {device' : Device}
    (result : Returns (loop .unfinished (writeClusterOfFile fatData buffer) fuel
      (chainTransfer fatData cluster offset position count)) { bytes := bytes, countdown := countdown } () device') :
    (fatData.bytesPerSector = 512 ∨ missingClusters fatData (cluster :: rest).length offset count = 0) ∧
      ∃ after left added, device' = { bytes := after, countdown := left } ∧
        WriteEnds fatData bytes after (cluster :: rest) added offset count position buffer
          (losesLinkAfter fatData (3 * (cluster :: rest).length)
            (missingClusters fatData (cluster :: rest).length offset count) bytes countdown) := by
  have geometry := accepted_geometry volume.accepted
  have positive := geometry.cluster
  induction fuel generalizing bytes cluster rest offset count position countdown with
  | zero => exact absurd result Program.stop_returns
  | succ fuel ih =>
    have data : fatData.firstDataSector ≤ (chainTransfer fatData cluster offset position count).currentSector :=
      le_trans firstDataSector_le_sectorOf (Nat.le_add_right _ _)
    have table := @bytesWritten_table fatData bytes buffer _ volume data
    have below (place : Nat) (inside : place < fatData.firstDataSector * fatData.bytesPerSector) :=
      @bytesWritten_below fatData bytes buffer _ data place inside
    have valid := file.chain.valid List.mem_cons_self
    have written := file.congr fun other member => table other (file.chain.valid member).2
    obtain ⟨turn, second, first, rest_⟩ := Program.bind_returns.mp result
    obtain ⟨one, first⟩ := writeClusterOfFile_inv first
    by_cases few : count ≤ fatData.sectorsPerCluster - offset
    case pos =>
      have size : (chainTransfer fatData cluster offset position count).sectors = count := Nat.min_eq_left few
      have done : (chainTransfer fatData cluster offset position count).sectorsRemaining -
          (chainTransfer fatData cluster offset position count).sectors = 0 := by
        rw [size]
        exact Nat.sub_self count
      have none := @missingClusters_near fatData offset count positive (by omega) (cluster :: rest).length
        (by rw [List.length_cons]; omega)
      rw [none]
      rcases first with ⟨-, rfl, rfl⟩ | ⟨more, -⟩
      · obtain ⟨-, rfl⟩ := Program.pure_returns.mp rest_
        exact ⟨.inr rfl, _, _, [], rfl, .inl ⟨fun lost => lost.2, written_near volume file within few⟩⟩
      · exact absurd done more
    case neg =>
      have many : fatData.sectorsPerCluster - offset < count := not_le.mp few
      have size : (chainTransfer fatData cluster offset position count).sectors =
          fatData.sectorsPerCluster - offset := Nat.min_eq_right (le_of_lt many)
      rcases first with ⟨done, -⟩ | ⟨-, sector, step, rfl⟩
      case inl =>
        rw [size] at done
        change count - (fatData.sectorsPerCluster - offset) = 0 at done
        omega
      dsimp only at rest_
      cases rest with
      | nil =>
        obtain ⟨two, sector, next, middle, left, rfl, rfl, found, reserved⟩ :=
          nextSector_added volume written.ends within step
        rw [nextTransfer_chain (le_of_lt many)] at rest_
        rw [remaining_add] at reserved
        have enough : Enough countdown 3 := enough_add.mpr ⟨one, two⟩
        have missing : missingClusters fatData [cluster].length offset count =
            missingClusters fatData [next].length 0 (count - (fatData.sectorsPerCluster - offset)) + 1 := by
          rw [← missingClusters_far positive within many]
          exact missingClusters_succ positive (by rw [List.length_singleton]; omega)
        rw [missing, ← losesLinkAfter_below volume (.inl sector) below]
        refine ⟨.inl sector, ?_⟩
        rcases reserved.losesLink volume sector found with ⟨alone, rfl, lost⟩ | ⟨extended, lost⟩
        · obtain ⟨-, after, left, added, device, ends⟩ := ih (fileChain_single alone.valid alone.marked) positive rest_
          refine ⟨after, left, [], device, .inr ⟨⟨enough, lost⟩, ?_, ?_⟩⟩
          · exact (Grown.stranded written alone ends.grown).table_before table
          · rw [List.append_nil, List.length_singleton]
            omega
        · obtain ⟨-, after, left', added, device, ends⟩ :=
            ih (fileChain_single extended.behind.valid extended.behind.marked.link) positive rest_
          have same : losesLinkAfter fatData (3 * [cluster].length)
              (missingClusters fatData [next].length 0 (count - (fatData.sectorsPerCluster - offset)) + 1)
              (bytesWritten fatData bytes buffer (chainTransfer fatData cluster offset position count)) countdown ↔
              losesLinkAfter fatData (3 * [next].length)
                (missingClusters fatData [next].length 0 (count - (fatData.sectorsPerCluster - offset))) middle left := by
            rw [losesLinkAfter]
            exact (and_iff_right enough).trans lost
          rw [same]
          have list : cluster :: ([next] ++ added) = [cluster] ++ next :: added := rfl
          refine ⟨after, left', next :: added, device, writeEnds_step geometry within many ?_ list ?_ ends⟩
          · intro sector inside place _
            have product := Nat.mul_le_mul_right fatData.bytesPerSector
              (show fatData.firstDataSector ≤ sector from inside)
            exact extended.data _ (by omega)
          · intro grown
            exact (Grown.extended volume written extended grown).table_before table
      | cons next behind =>
        obtain ⟨linked, number, following⟩ : link fatData bytes cluster = next ∧ next < fat32BadCluster ∧
            IsCluster fatData next := by
          cases file.chain with
          | step _ linked number following => exact ⟨linked, number, following.valid List.mem_cons_self⟩
        have linked' := (table cluster valid.2).trans linked
        obtain ⟨two, same, rfl⟩ :=
          (nextSector_priced geometry volume.room valid linked' number following within true).inv step
        cases same
        rw [nextTransfer_chain (le_of_lt many), remaining_add] at rest_
        have enough : Enough countdown 3 := enough_add.mpr ⟨one, two⟩
        obtain ⟨sector, after, left, added, device, ends⟩ := ih written.tail positive rest_
        have missing : missingClusters fatData (cluster :: next :: behind).length offset count =
            missingClusters fatData (next :: behind).length 0 (count - (fatData.sectorsPerCluster - offset)) :=
          missingClusters_far positive within many
        have cost : 3 * (cluster :: next :: behind).length = 3 + 3 * (next :: behind).length := by
          rw [List.length_cons]
          omega
        rw [missing, ← losesLinkAfter_below volume sector below, cost, ← losesLinkAfter_add enough]
        refine ⟨sector, after, left, added, device, writeEnds_step geometry within many SameBlocks.refl rfl ?_ ends⟩
        intro grown
        exact (Grown.table_before table grown).whole file (show (cluster :: next :: behind).drop 1 = _ from rfl)

end Run

end Hal9000.Fat32
