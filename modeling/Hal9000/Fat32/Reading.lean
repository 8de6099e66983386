import Hal9000.Fat32.Chain
import Hal9000.Fat32.ReadWrite

set_option autoImplicit false

namespace Hal9000.Fat32

open Lib (Program Gathered)
open Lib.Program (fail stop require loop Returns Fails Stops)

section Skip

variable {fatData : FatData} {device : Device} {clusters rest : List Nat} {first sectorOffset traversed fuel : Nat}

theorem endsBefore_eq (small : sectorOffset + fatData.sectorsPerCluster < 2 ^ 64) (lower : traversed ≤ sectorOffset) :
    endsBefore fatData traversed sectorOffset = decide (traversed + fatData.sectorsPerCluster ≤ sectorOffset) := by
  rw [endsBefore, qword_of_lt (by omega)]

theorem skipCluster_ends (extendChain : Bool) (here : endsBefore fatData traversed sectorOffset = false)
    (current : Nat) :
    Returns (skipCluster fatData extendChain sectorOffset (current, traversed)) device (.inr current) device := by
  rw [Returns, skipCluster, here]
  rfl

theorem skipCluster_turn {extendChain : Bool} {current next cost : Nat} {bytes : Lib.Memory}
    (further : endsBefore fatData traversed sectorOffset = true) (large : fatData.sectorsPerCluster ≤ sectorOffset)
    (step : Priced (nextSectorInClusterChain fatData current extendChain) bytes (.ok next) bytes cost) :
    Priced (skipCluster fatData extendChain sectorOffset (current, traversed)) bytes
      (.ok (.inl (next, qword (traversed + fatData.sectorsPerCluster)))) bytes cost := by
  rw [skipCluster, further, if_pos rfl, decide_eq_true large, Program.require_true, Program.pure_bind]
  exact step.finish fun _ => rfl

theorem skipClusters_chain (geometry : Geometry fatData) {bytes : Lib.Memory} (chain : Chain fatData bytes clusters)
    (start : clusters = first :: rest)
    (room : entriesPerFatSector fatData ≠ 0 ∨ sectorOffset < traversed + fatData.sectorsPerCluster)
    (lower : traversed ≤ sectorOffset)
    (upper : sectorOffset < traversed + clusters.length * fatData.sectorsPerCluster)
    (small : sectorOffset + fatData.sectorsPerCluster < 2 ^ 64) (enough : sectorOffset - traversed < fuel)
    (extendChain : Bool) :
    ∃ cluster behind, clusters.drop ((sectorOffset - traversed) / fatData.sectorsPerCluster) = cluster :: behind ∧
      Priced (loop .unfinished (skipCluster fatData extendChain sectorOffset) fuel (sectorOf fatData first, traversed))
        bytes (.ok (sectorOf fatData cluster)) bytes (2 * ((sectorOffset - traversed) / fatData.sectorsPerCluster)) := by
  have positive := geometry.cluster
  induction chain generalizing first rest fuel traversed with
  | @last cluster valid ends =>
    cases start
    cases fuel with
    | zero => omega
    | succ fuel =>
      rw [List.length_singleton, Nat.one_mul] at upper
      have quotient : (sectorOffset - traversed) / fatData.sectorsPerCluster = 0 := Nat.div_eq_of_lt (by omega)
      have here : endsBefore fatData traversed sectorOffset = false := by
        rw [endsBefore_eq small lower]
        exact decide_eq_false (by omega)
      refine ⟨cluster, [], by rw [quotient, List.drop_zero], ?_⟩
      rw [quotient]
      exact Priced.of_returns fun _ => Program.loop_end (skipCluster_ends extendChain here _)
  | @step cluster next behind valid linked number following ih =>
    cases start
    cases fuel with
    | zero => omega
    | succ fuel =>
      by_cases further : traversed + fatData.sectorsPerCluster ≤ sectorOffset
      · have table : entriesPerFatSector fatData ≠ 0 := room.resolve_right (by omega)
        have step := nextSector_priced geometry table valid linked number (following.valid List.mem_cons_self)
          positive extendChain
        rw [Nat.add_zero] at step
        have onward : endsBefore fatData traversed sectorOffset = true := by
          rw [endsBefore_eq small lower]
          exact decide_eq_true further
        have turn := skipCluster_turn onward (by omega) step
        rw [qword_of_lt (by omega)] at turn
        have quotient : (sectorOffset - traversed) / fatData.sectorsPerCluster =
            (sectorOffset - (traversed + fatData.sectorsPerCluster)) / fatData.sectorsPerCluster + 1 := by
          rw [← Nat.sub_sub]
          exact Nat.div_eq_sub_div positive (by omega)
        rw [List.length_cons, Nat.succ_mul] at upper
        obtain ⟨target, later, dropped, result⟩ := @ih behind next (traversed + fatData.sectorsPerCluster) fuel rfl
          (.inl table) further (by omega) (by omega)
        refine ⟨target, later, by rw [quotient, List.drop_succ_cons, dropped], ?_⟩
        rw [quotient, Nat.mul_succ, Nat.add_comm _ 2]
        apply Priced.bind turn
        exact result
      · have quotient : (sectorOffset - traversed) / fatData.sectorsPerCluster = 0 := Nat.div_eq_of_lt (by omega)
        have here : endsBefore fatData traversed sectorOffset = false := by
          rw [endsBefore_eq small lower]
          exact decide_eq_false further
        refine ⟨cluster, next :: behind, by rw [quotient, List.drop_zero], ?_⟩
        rw [quotient]
        exact Priced.of_returns fun _ => Program.loop_end (skipCluster_ends extendChain here _)

theorem skipClusters_stops (geometry : Geometry fatData) (room : entriesPerFatSector fatData = 0)
    (valid : IsCluster fatData first) (small : sectorOffset + fatData.sectorsPerCluster < 2 ^ 64)
    (further : fatData.sectorsPerCluster ≤ sectorOffset) (extendChain : Bool) :
    Stops (skipClusters fatData extendChain sectorOffset (sectorOf fatData first)) device .divideByZero := by
  have onward : endsBefore fatData 0 sectorOffset = true := by
    rw [endsBefore_eq small (Nat.zero_le _), Nat.zero_add]
    exact decide_eq_true further
  have step := @nextSector_stops fatData first 0 geometry room device valid geometry.cluster extendChain
  rw [Nat.add_zero] at step
  apply Program.loop_stops
  rw [Stops, skipCluster, onward, if_pos rfl, decide_eq_true further, Program.require_true, Program.pure_bind,
    Program.Stops.bind step]

end Skip

def wantedSectors (fatData : FatData) (clusters : List Nat) (offset count : Nat) : List Nat :=
  ((fileSectors fatData clusters).drop offset).take count

-- A data area that begins with the volume: the first sector of its first cluster is sector 0, which the
-- loops take for the end of the chain.
def Away (fatData : FatData) (sectors : List Nat) : Prop :=
  fatData.firstDataSector = 0 -> forall sector, sector ∈ sectors -> fatData.sectorsPerCluster ≤ sector

def afterReading (fatData : FatData) (bytes : Lib.Memory) (clusters : List Nat) (offset count : Nat) : Lib.Memory :=
  if clusters.length * fatData.sectorsPerCluster < offset + count then mended fatData bytes (clusters.getLastD 0)
  else bytes

section Read

variable {fatData : FatData} {device device' : Device} {cluster offset count : Nat} {rest : List Nat}

theorem mem_of_mem_wantedSectors {clusters : List Nat} {sector : Nat}
    (member : sector ∈ wantedSectors fatData clusters offset count) : sector ∈ fileSectors fatData clusters :=
  List.mem_of_mem_drop (List.mem_of_mem_take member)

theorem wantedSectors_nil : wantedSectors fatData [] offset count = [] := by
  rw [wantedSectors, fileSectors_nil, List.drop_nil, List.take_nil]

theorem wantedSectors_near (within : offset ≤ fatData.sectorsPerCluster)
    (few : count ≤ fatData.sectorsPerCluster - offset) :
    wantedSectors fatData (cluster :: rest) offset count = List.range' (sectorOf fatData cluster + offset) count := by
  rw [wantedSectors, fileSectors_cons,
    List.drop_append_of_le_length (by rw [length_clusterSectors]; exact within), clusterSectors, List.drop_range',
    List.take_append_of_le_length (by rw [List.length_range']; exact few), List.take_range'_of_length_ge few,
    Nat.mul_one]

theorem wantedSectors_far (within : offset ≤ fatData.sectorsPerCluster)
    (many : fatData.sectorsPerCluster - offset ≤ count) :
    wantedSectors fatData (cluster :: rest) offset count =
      List.range' (sectorOf fatData cluster + offset) (fatData.sectorsPerCluster - offset) ++
        wantedSectors fatData rest 0 (count - (fatData.sectorsPerCluster - offset)) := by
  rw [wantedSectors, fileSectors_cons,
    List.drop_append_of_le_length (by rw [length_clusterSectors]; exact within), clusterSectors, List.drop_range',
    List.take_append, List.take_of_length_le (by rw [List.length_range']; exact many), List.length_range',
    Nat.mul_one, wantedSectors, List.drop_zero]

theorem sectorOf_mem_wantedSectors (within : offset < fatData.sectorsPerCluster) (some : 0 < count) :
    sectorOf fatData cluster + offset ∈ wantedSectors fatData (cluster :: rest) offset count := by
  by_cases few : count ≤ fatData.sectorsPerCluster - offset
  · rw [wantedSectors_near (le_of_lt within) few, List.mem_range'_1]
    omega
  · rw [wantedSectors_far (le_of_lt within) (by omega)]
    apply List.mem_append_left
    rw [List.mem_range'_1]
    omega

theorem away_cluster (nonzero : sectorOf fatData cluster ≠ 0) :
    Away fatData (List.range' (sectorOf fatData cluster + offset) count) := by
  intro first sector member
  obtain ⟨least, -⟩ := List.mem_range'_1.mp member
  have product : fatData.sectorsPerCluster ≤ sectorOf fatData cluster := by
    rw [sectorOf, first, Nat.add_zero] at nonzero ⊢
    exact Nat.le_mul_of_pos_left _ (Nat.pos_of_ne_zero fun zero => nonzero (by rw [zero, Nat.zero_mul]))
  omega

theorem away_append {one two : List Nat} (first : Away fatData one) : Away fatData (one ++ two) ↔ Away fatData two := by
  constructor
  · intro both start sector member
    exact both start sector (List.mem_append_right _ member)
  · intro second start sector member
    rcases List.mem_append.mp member with early | late
    · exact first start sector early
    · exact second start sector late

def bufferRead (fatData : FatData) (bytes : Lib.Memory) (transfer : Transfer) (buffer : Lib.Memory) : Lib.Memory :=
  buffer.copy transfer.position (transfer.sectors * fatData.bytesPerSector)
    (bytes.slice (transfer.currentSector * fatData.bytesPerSector) (transfer.sectors * fatData.bytesPerSector))

section Turn

variable {transfer : Transfer} {buffer : Lib.Memory}

theorem readClusterOfFile_read (quiet : device.countdown = none) :
    readClusterOfFile fatData (transfer, buffer) device =
      (if transfer.sectorsRemaining - transfer.sectors = 0 then
        pure (.inr (bufferRead fatData device.bytes transfer buffer, 0))
      else do
        let nextSector <- nextSectorInClusterChain fatData transfer.currentSector false
        if nextSector = 0 then
          pure (.inr (bufferRead fatData device.bytes transfer buffer,
            transfer.sectorsRemaining - transfer.sectors))
        else
          pure (.inl (nextTransfer fatData transfer nextSector (transfer.sectors * fatData.bytesPerSector),
            bufferRead fatData device.bytes transfer buffer)) : Driver _) device := by
  rw [readClusterOfFile, Returns.bind (ioReadDevice_quiet quiet)]
  dsimp only
  rw [beq_self_eq_true, Program.require_true, Program.pure_bind, bufferRead]

theorem readClusterOfFile_done (quiet : device.countdown = none)
    (done : transfer.sectorsRemaining - transfer.sectors = 0) :
    Returns (readClusterOfFile fatData (transfer, buffer)) device
      (.inr (bufferRead fatData device.bytes transfer buffer, 0)) device := by
  rw [Returns, readClusterOfFile_read quiet, if_pos done]
  rfl

theorem readClusterOfFile_cut (quiet : device.countdown = none)
    (more : transfer.sectorsRemaining - transfer.sectors ≠ 0)
    (step : Returns (nextSectorInClusterChain fatData transfer.currentSector false) device 0 device') :
    Returns (readClusterOfFile fatData (transfer, buffer)) device
      (.inr (bufferRead fatData device.bytes transfer buffer, transfer.sectorsRemaining - transfer.sectors))
      device' := by
  rw [Returns, readClusterOfFile_read quiet, if_neg more, Returns.bind step, if_pos rfl]
  rfl

theorem readClusterOfFile_next (quiet : device.countdown = none)
    (more : transfer.sectorsRemaining - transfer.sectors ≠ 0) {next : Nat} (nonzero : next ≠ 0)
    (step : Returns (nextSectorInClusterChain fatData transfer.currentSector false) device next device') :
    Returns (readClusterOfFile fatData (transfer, buffer)) device
      (.inl (nextTransfer fatData transfer next (transfer.sectors * fatData.bytesPerSector),
        bufferRead fatData device.bytes transfer buffer)) device' := by
  rw [Returns, readClusterOfFile_read quiet, if_neg more, Returns.bind step, if_neg nonzero]
  rfl

theorem readClusterOfFile_stops (quiet : device.countdown = none)
    (more : transfer.sectorsRemaining - transfer.sectors ≠ 0) {reason : Stop}
    (step : Stops (nextSectorInClusterChain fatData transfer.currentSector false) device reason) :
    Stops (readClusterOfFile fatData (transfer, buffer)) device reason := by
  rw [Stops, readClusterOfFile_read quiet, if_neg more, step.bind]

end Turn

structure ReadRun (fatData : FatData) (bytes : Lib.Memory) (clusters : List Nat) (offset count position : Nat)
    (buffer buffer' : Lib.Memory) (read : Nat) (device' : Device) : Prop where
  most : read ≤ (wantedSectors fatData clusters offset count).length
  gathered : Gathered fatData.bytesPerSector bytes buffer buffer' position
    ((wantedSectors fatData clusters offset count).take read)
  quiet : device'.countdown = none
  whole : read = (wantedSectors fatData clusters offset count).length ↔
    Away fatData (wantedSectors fatData clusters offset count)
  after : Away fatData (wantedSectors fatData clusters offset count) ->
    device'.bytes = afterReading fatData bytes clusters offset count

def chainTransfer (fatData : FatData) (cluster offset position count : Nat) : Transfer where
  currentSector := sectorOf fatData cluster + offset
  position := position
  sectors := min count (fatData.sectorsPerCluster - offset)
  sectorsRemaining := count

theorem nextTransfer_chain {position next : Nat} (many : fatData.sectorsPerCluster - offset ≤ count) :
    nextTransfer fatData (chainTransfer fatData cluster offset position count) (sectorOf fatData next)
        ((chainTransfer fatData cluster offset position count).sectors * fatData.bytesPerSector) =
      chainTransfer fatData next 0 (position + (fatData.sectorsPerCluster - offset) * fatData.bytesPerSector)
        (count - (fatData.sectorsPerCluster - offset)) := by
  have size : min count (fatData.sectorsPerCluster - offset) = fatData.sectorsPerCluster - offset :=
    Nat.min_eq_right many
  simp only [nextTransfer, chainTransfer, size, Nat.sub_zero, Nat.add_zero, Nat.min_comm]

section Run

variable {clusters : List Nat} {position : Nat} {buffer : Lib.Memory}

theorem gathered_turn {transfer : Transfer}
    (current : transfer.currentSector = sectorOf fatData cluster + offset) (size : transfer.sectors = count)
    (place : transfer.position = position) (bytes : Lib.Memory) :
    Gathered fatData.bytesPerSector bytes buffer (bufferRead fatData bytes transfer buffer) position
      (List.range' (sectorOf fatData cluster + offset) count) := by
  rw [bufferRead, current, size, place]
  exact Gathered.run _ _

theorem readRun_near (quiet : device.countdown = none)
    (nonzero : sectorOf fatData cluster ≠ 0) (within : offset < fatData.sectorsPerCluster)
    (few : count ≤ fatData.sectorsPerCluster - offset) :
    ReadRun fatData device.bytes (cluster :: rest) offset count position buffer
      (bufferRead fatData device.bytes (chainTransfer fatData cluster offset position count) buffer) count device := by
  have near := @wantedSectors_near fatData cluster offset count rest (by omega) few
  have size : (chainTransfer fatData cluster offset position count).sectors = count := Nat.min_eq_left few
  have away : Away fatData (wantedSectors fatData (cluster :: rest) offset count) := by
    rw [near]
    exact away_cluster nonzero
  have length : (wantedSectors fatData (cluster :: rest) offset count).length = count := by
    rw [near, List.length_range']
  exact
    { most := le_of_eq length.symm
      gathered := by
        rw [List.take_of_length_le (le_of_eq length), near]
        exact gathered_turn rfl size rfl device.bytes
      quiet := quiet
      whole := iff_of_true length.symm away
      after := by
        intro _
        have product : fatData.sectorsPerCluster ≤ (rest.length + 1) * fatData.sectorsPerCluster :=
          Nat.le_mul_of_pos_left _ (Nat.succ_pos _)
        rw [afterReading, List.length_cons, if_neg (by omega)] }

theorem readRun_end (nonzero : sectorOf fatData cluster ≠ 0) (within : offset < fatData.sectorsPerCluster)
    (many : fatData.sectorsPerCluster - offset < count) (quiet : device'.countdown = none)
    (after : device'.bytes = mended fatData device.bytes cluster) :
    ReadRun fatData device.bytes [cluster] offset count position buffer
      (bufferRead fatData device.bytes (chainTransfer fatData cluster offset position count) buffer)
      (fatData.sectorsPerCluster - offset) device' := by
  have far := @wantedSectors_far fatData cluster offset count [] (by omega) (by omega)
  rw [wantedSectors_nil, List.append_nil] at far
  have size : (chainTransfer fatData cluster offset position count).sectors = fatData.sectorsPerCluster - offset :=
    Nat.min_eq_right (by omega)
  have away : Away fatData (wantedSectors fatData [cluster] offset count) := by
    rw [far]
    exact away_cluster nonzero
  have length : (wantedSectors fatData [cluster] offset count).length = fatData.sectorsPerCluster - offset := by
    rw [far, List.length_range']
  exact
    { most := le_of_eq length.symm
      gathered := by
        rw [List.take_of_length_le (le_of_eq length), far]
        exact gathered_turn rfl size rfl device.bytes
      quiet := quiet
      whole := iff_of_true length.symm away
      after := by
        intro _
        rw [after, afterReading, List.length_singleton, Nat.one_mul, if_pos (by omega)]
        rfl }

theorem readRun_cut {next : Nat} {behind : List Nat} (zero : sectorOf fatData next = 0)
    (within : offset < fatData.sectorsPerCluster) (many : fatData.sectorsPerCluster - offset < count)
    (quiet : device.countdown = none) :
    ReadRun fatData device.bytes (cluster :: next :: behind) offset count position buffer
      (bufferRead fatData device.bytes (chainTransfer fatData cluster offset position count) buffer)
      (fatData.sectorsPerCluster - offset) device := by
  have far := @wantedSectors_far fatData cluster offset count (next :: behind) (by omega) (by omega)
  have size : (chainTransfer fatData cluster offset position count).sectors = fatData.sectorsPerCluster - offset :=
    Nat.min_eq_right (by omega)
  have taken : (wantedSectors fatData (cluster :: next :: behind) offset count).take
      (fatData.sectorsPerCluster - offset) =
      List.range' (sectorOf fatData cluster + offset) (fatData.sectorsPerCluster - offset) := by
    rw [far]
    exact List.take_left' List.length_range'
  have first : 0 ∈ wantedSectors fatData (next :: behind) 0 (count - (fatData.sectorsPerCluster - offset)) := by
    have member := @sectorOf_mem_wantedSectors fatData next 0 (count - (fatData.sectorsPerCluster - offset))
      behind (by omega) (by omega)
    rwa [zero] at member
  have more : fatData.sectorsPerCluster - offset <
      (wantedSectors fatData (cluster :: next :: behind) offset count).length := by
    have positive := List.length_pos_of_mem first
    rw [far, List.length_append, List.length_range']
    omega
  have near : ¬ Away fatData (wantedSectors fatData (cluster :: next :: behind) offset count) := by
    intro away
    have start : fatData.firstDataSector = 0 := by
      rw [sectorOf] at zero
      omega
    rw [far] at away
    have least := away start 0 (List.mem_append_right _ first)
    omega
  exact
    { most := le_of_lt more
      gathered := by
        rw [taken]
        exact gathered_turn rfl size rfl device.bytes
      quiet := quiet
      whole := iff_of_false (ne_of_lt more) near
      after := fun away => absurd away near }

theorem readRun_step {next : Nat} {behind : List Nat} (nonzero : sectorOf fatData cluster ≠ 0)
    (within : offset < fatData.sectorsPerCluster) (many : fatData.sectorsPerCluster - offset < count)
    {buffer' : Lib.Memory} {read : Nat}
    (run : ReadRun fatData device.bytes (next :: behind) 0 (count - (fatData.sectorsPerCluster - offset))
      (position + (fatData.sectorsPerCluster - offset) * fatData.bytesPerSector)
      (bufferRead fatData device.bytes (chainTransfer fatData cluster offset position count) buffer) buffer'
      read device') :
    ReadRun fatData device.bytes (cluster :: next :: behind) offset count position buffer buffer'
      (fatData.sectorsPerCluster - offset + read) device' := by
  have far := @wantedSectors_far fatData cluster offset count (next :: behind) (by omega) (by omega)
  have size : (chainTransfer fatData cluster offset position count).sectors = fatData.sectorsPerCluster - offset :=
    Nat.min_eq_right (by omega)
  have away := @away_append fatData _
    (wantedSectors fatData (next :: behind) 0 (count - (fatData.sectorsPerCluster - offset)))
    (@away_cluster fatData cluster offset (fatData.sectorsPerCluster - offset) nonzero)
  rw [← far] at away
  have length : (wantedSectors fatData (cluster :: next :: behind) offset count).length =
      fatData.sectorsPerCluster - offset +
        (wantedSectors fatData (next :: behind) 0 (count - (fatData.sectorsPerCluster - offset))).length := by
    rw [far, List.length_append, List.length_range']
  have most := run.most
  have whole := run.whole
  exact
    { most := by omega
      gathered := by
        have first := @gathered_turn fatData cluster offset (fatData.sectorsPerCluster - offset) position buffer
          (chainTransfer fatData cluster offset position count) rfl size rfl device.bytes
        have second := run.gathered
        rw [far, List.take_append, List.length_range', List.take_of_length_le (by rw [List.length_range']; omega),
          Nat.add_sub_cancel_left]
        apply Gathered.append first
        rw [List.length_range']
        exact second
      quiet := run.quiet
      whole := by
        rw [away, ← whole, length]
        omega
      after := by
        intro wanted
        rw [run.after (away.mp wanted), afterReading, afterReading]
        have product : (behind.length + 1 + 1) * fatData.sectorsPerCluster =
            (behind.length + 1) * fatData.sectorsPerCluster + fatData.sectorsPerCluster := Nat.succ_mul _ _
        simp only [List.length_cons, List.getLastD_cons]
        congr 1
        rw [eq_iff_iff]
        omega }

theorem readClusters_chain (geometry : Geometry fatData) (quiet : device.countdown = none)
    (chain : Chain fatData device.bytes clusters) (start : clusters = cluster :: rest)
    (nonzero : sectorOf fatData cluster ≠ 0) (within : offset < fatData.sectorsPerCluster) (some : 0 < count)
    (room : entriesPerFatSector fatData ≠ 0 ∨ offset + count ≤ fatData.sectorsPerCluster) {fuel : Nat}
    (enough : count ≤ fuel) :
    ∃ read buffer' device',
      Returns (loop .unfinished (readClusterOfFile fatData) fuel
        (chainTransfer fatData cluster offset position count, buffer)) device (buffer', count - read) device' ∧
      ReadRun fatData device.bytes clusters offset count position buffer buffer' read device' := by
  have positive := geometry.cluster
  induction chain generalizing cluster rest offset count fuel position buffer with
  | @last last valid ends =>
    cases start
    obtain ⟨fuel, rfl⟩ := Nat.exists_eq_add_of_lt (lt_of_lt_of_le some enough)
    by_cases few : count ≤ fatData.sectorsPerCluster - offset
    · have size : (chainTransfer fatData last offset position count).sectors = count := Nat.min_eq_left few
      have turn := @readClusterOfFile_done fatData device (chainTransfer fatData last offset position count) buffer
        quiet (by rw [size]; exact Nat.sub_self count)
      refine ⟨count, _, device, ?_, readRun_near quiet nonzero within few⟩
      rw [Nat.sub_self, Nat.zero_add]
      exact Program.loop_end turn
    · have size : (chainTransfer fatData last offset position count).sectors = fatData.sectorsPerCluster - offset :=
        Nat.min_eq_right (by omega)
      have more : count - (chainTransfer fatData last offset position count).sectors ≠ 0 := by
        rw [size]
        omega
      have table : entriesPerFatSector fatData ≠ 0 := room.resolve_right (by omega)
      have turn := @readClusterOfFile_cut fatData device _ (chainTransfer fatData last offset position count) buffer
        quiet more (nextSector_end geometry table quiet valid ends within)
      rw [size] at turn
      refine ⟨fatData.sectorsPerCluster - offset, _, { device with bytes := mended fatData device.bytes last }, ?_,
        readRun_end nonzero within (by omega) quiet rfl⟩
      rw [Nat.zero_add]
      exact Program.loop_end turn
  | @step current next behind valid linked number following ih =>
    cases start
    obtain ⟨fuel, rfl⟩ := Nat.exists_eq_add_of_lt (lt_of_lt_of_le some enough)
    by_cases few : count ≤ fatData.sectorsPerCluster - offset
    · have size : (chainTransfer fatData current offset position count).sectors = count := Nat.min_eq_left few
      have turn := @readClusterOfFile_done fatData device (chainTransfer fatData current offset position count) buffer
        quiet (by rw [size]; exact Nat.sub_self count)
      refine ⟨count, _, device, ?_, readRun_near quiet nonzero within few⟩
      rw [Nat.sub_self, Nat.zero_add]
      exact Program.loop_end turn
    · have size : (chainTransfer fatData current offset position count).sectors =
          fatData.sectorsPerCluster - offset := Nat.min_eq_right (by omega)
      have more : count - (chainTransfer fatData current offset position count).sectors ≠ 0 := by
        rw [size]
        omega
      have table : entriesPerFatSector fatData ≠ 0 := room.resolve_right (by omega)
      have step := nextSector_step geometry table quiet valid linked number (following.valid List.mem_cons_self)
        within false
      by_cases zero : sectorOf fatData next = 0
      · rw [zero] at step
        have turn := @readClusterOfFile_cut fatData device _ (chainTransfer fatData current offset position count)
          buffer quiet more step
        rw [size] at turn
        refine ⟨fatData.sectorsPerCluster - offset, _, device, ?_, readRun_cut zero within (by omega) quiet⟩
        rw [Nat.zero_add]
        exact Program.loop_end turn
      · have turn := @readClusterOfFile_next fatData device _ (chainTransfer fatData current offset position count)
          buffer quiet more _ zero step
        obtain ⟨read, buffer', device', result, run⟩ := @ih next 0
          (count - (fatData.sectorsPerCluster - offset)) behind
          (position + (fatData.sectorsPerCluster - offset) * fatData.bytesPerSector)
          (bufferRead fatData device.bytes (chainTransfer fatData current offset position count) buffer) rfl zero
          positive (by omega) (.inl table) fuel (by omega)
        refine ⟨fatData.sectorsPerCluster - offset + read, buffer', device', ?_,
          readRun_step nonzero within (by omega) run⟩
        rw [Nat.zero_add, ← Nat.sub_sub]
        rw [nextTransfer_chain (by omega)] at turn
        exact (Program.loop_next turn).trans result

end Run

end Read

end Hal9000.Fat32
