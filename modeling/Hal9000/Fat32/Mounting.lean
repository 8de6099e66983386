import Hal9000.Fat32.Volume

set_option autoImplicit false

namespace Hal9000.Fat32

open Lib (Program)
open Lib.Program (Returns Stops)

-- The checks that FatInitVolume makes.
structure Mountable (alignment : Nat) (bpb : Lib.Memory) : Prop where
  aligned : isAddressAligned sizeofBpb alignment = true
  signature : bpb.load 2 510 = mbrBootSignature
  divisor : bpb.load 1 13 ≠ 0
  clusters : fat16MaxClusters ≤ dataSectors bpb / bpb.load 1 13
  root : 2 ≤ bpb.load 4 44 ∧ bpb.load 4 44 ≤ dword (dataSectors bpb / bpb.load 1 13 + 1)
  size : alignment ≤ bpb.load 1 13 * bpb.load 2 11

def mountedVolume (alignment : Nat) (bpb : Lib.Memory) : FatData where
  deviceAlignment := alignment
  countOfClusters := dataSectors bpb / bpb.load 1 13
  rootDirectoryStartSector := (bpb.load 4 44 - 2) * bpb.load 1 13 + firstDataSector bpb
  reservedSectors := bpb.load 2 14
  firstDataSector := firstDataSector bpb
  sectorsPerCluster := bpb.load 1 13
  bytesPerSector := bpb.load 2 11
  entriesPerSector := bpb.load 2 11 / sizeofDirEntry
  allocationSize := bpb.load 1 13 * bpb.load 2 11

structure Sound (bpb : Lib.Memory) (fatData : FatData) : Prop where
  cluster : fatData.sectorsPerCluster ≠ 0
  sector : fatData.bytesPerSector ≠ 0
  entries : fatData.entriesPerSector ≠ 0
  data : fatData.firstDataSector + fatData.countOfClusters * fatData.sectorsPerCluster ≤ totalSectors bpb
  table : fatData.reservedSectors * fatData.bytesPerSector + (fatData.countOfClusters + 2) * 4 ≤
    fatData.firstDataSector * fatData.bytesPerSector
  root : fatData.firstDataSector ≤ fatData.rootDirectoryStartSector ∧
    fatData.rootDirectoryStartSector + fatData.sectorsPerCluster ≤
      fatData.firstDataSector + fatData.countOfClusters * fatData.sectorsPerCluster

-- FatInitVolume on the volumes with that first sector, whether the request for it fails or not.
def MountsSound (alignment : Nat) (bytes : Lib.Memory) : Prop :=
  forall countdown, ¬ Stops (fatInitVolume alignment) ⟨bytes, countdown⟩ .divideByZero ∧
    forall fatData device', Returns (fatInitVolume alignment) ⟨bytes, countdown⟩ fatData device' ->
      Sound (bytes.slice 0 sizeofBpb) fatData

structure Consistent (alignment : Nat) (bpb : Lib.Memory) : Prop where
  divisor : isAddressAligned sizeofBpb alignment = true -> bpb.load 2 510 = mbrBootSignature ->
    bpb.load 1 13 ≠ 0
  sector : Mountable alignment bpb -> sizeofDirEntry ≤ bpb.load 2 11
  data : Mountable alignment bpb -> firstDataSector bpb ≤ totalSectors bpb
  table : Mountable alignment bpb ->
    bpb.load 2 14 * bpb.load 2 11 + (dataSectors bpb / bpb.load 1 13 + 2) * 4 ≤
      firstDataSector bpb * bpb.load 2 11

variable {alignment : Nat} {bpb bytes : Lib.Memory} {fatData : FatData} {device device' : Device}

theorem volumeOfBpb_returns (aligned : isAddressAligned sizeofBpb alignment = true)
    (result : Returns (volumeOfBpb alignment bpb) device fatData device') :
    Mountable alignment bpb ∧ fatData = mountedVolume alignment bpb := by
  unfold volumeOfBpb at result
  split at result
  case isTrue => exact absurd result Program.fail_returns
  case isFalse signature =>
    split at result
    case isTrue => exact absurd result Program.stop_returns
    case isFalse divisor =>
      split at result
      case isTrue => exact absurd result Program.fail_returns
      case isFalse =>
        split at result
        case isTrue => exact absurd result Program.fail_returns
        case isFalse enough =>
          obtain ⟨root, device₃, found, result⟩ := Program.bind_returns.mp result
          obtain ⟨bounds, rfl, rfl⟩ := firstSectorOfCluster_returns.mp found
          obtain ⟨nothing, device₄, asserted, result⟩ := Program.bind_returns.mp result
          obtain ⟨large, rfl⟩ := Program.require_returns.mp asserted
          obtain ⟨rfl, -⟩ := Program.pure_returns.mp result
          exact ⟨⟨aligned, not_not.mp signature, divisor, not_lt.mp enough, bounds, of_decide_eq_true large⟩, rfl⟩

theorem volumeOfBpb_mountable (mountable : Mountable alignment bpb) :
    Returns (volumeOfBpb alignment bpb) device (mountedVolume alignment bpb) device := by
  obtain ⟨aligned, signature, divisor, clusters, root, size⟩ := mountable
  have enough : ¬ dataSectors bpb / bpb.load 1 13 < fat12MaxClusters := by
    have more : fat12MaxClusters ≤ fat16MaxClusters := by decide
    omega
  have large : decide (bpb.load 1 13 * bpb.load 2 11 ≥ alignment) = true := decide_eq_true size
  rw [Returns, volumeOfBpb, if_neg (not_not.mpr signature), if_neg divisor, if_neg enough, if_neg (by omega),
    Returns.bind (firstSectorOfCluster_returns.mpr ⟨root, rfl, rfl⟩)]
  change (Program.require (decide (bpb.load 1 13 * bpb.load 2 11 ≥ alignment)) _ >>= _) device = _
  rw [large]
  rfl

theorem firstSectorOfCluster_stops {cluster : Nat} {reason : Stop} :
    ¬ Stops (firstSectorOfCluster fatData cluster) device reason := by
  unfold firstSectorOfCluster
  split
  case isTrue => exact Program.fail_stops
  case isFalse => exact Program.pure_stops

theorem volumeOfBpb_stops (reason : Stops (volumeOfBpb alignment bpb) device .divideByZero) :
    bpb.load 2 510 = mbrBootSignature ∧ bpb.load 1 13 = 0 := by
  unfold volumeOfBpb at reason
  split at reason
  case isTrue => cases reason
  case isFalse signature =>
    split at reason
    case isTrue zero => exact ⟨not_not.mp signature, zero⟩
    case isFalse =>
      split at reason
      case isTrue => cases reason
      case isFalse =>
        split at reason
        case isTrue => cases reason
        case isFalse =>
          rcases Program.bind_stops.mp reason with searched | ⟨root, device₃, -, reason⟩
          · exact absurd searched firstSectorOfCluster_stops
          · rcases Program.bind_stops.mp reason with asserted | ⟨nothing, device₄, -, reason⟩
            · cases (Program.require_stops.mp asserted).2
            · exact absurd reason Program.pure_stops

theorem ioReadDevice_returns {offset length : Nat} {data : Lib.Memory × Nat}
    (result : Returns (ioReadDevice offset length) device data device') :
    data = (device.bytes.slice offset length, length) ∧ device'.bytes = device.bytes := by
  obtain ⟨bytes, countdown⟩ := device
  rcases countdown with - | - | count <;> cases result <;> exact ⟨rfl, rfl⟩

theorem ioReadDevice_stops {offset length : Nat} {reason : Stop} :
    ¬ Stops (ioReadDevice offset length) device reason := by
  obtain ⟨bytes, countdown⟩ := device
  rcases countdown with - | - | count <;> exact fun stops => nomatch stops

theorem fatInitVolume_returns (result : Returns (fatInitVolume alignment) device fatData device') :
    Mountable alignment (device.bytes.slice 0 sizeofBpb) ∧
      fatData = mountedVolume alignment (device.bytes.slice 0 sizeofBpb) := by
  unfold fatInitVolume at result
  split at result
  case isTrue aligned =>
    obtain ⟨⟨bpb, read⟩, device₁, request, result⟩ := Program.bind_returns.mp result
    obtain ⟨first, -⟩ := ioReadDevice_returns request
    have bytes : bpb = device.bytes.slice 0 sizeofBpb := congrArg Prod.fst first
    rw [← bytes]
    exact volumeOfBpb_returns (Bool.and_eq_true_iff.mp aligned).1 result
  case isFalse => exact absurd result Program.fail_returns

theorem fatInitVolume_mountable (mountable : Mountable alignment (bytes.slice 0 sizeofBpb)) :
    Returns (fatInitVolume alignment) ⟨bytes, none⟩ (mountedVolume alignment (bytes.slice 0 sizeofBpb))
      ⟨bytes, none⟩ := by
  have aligned : (isAddressAligned sizeofBpb alignment && isAddressAligned 0 alignment) = true := by
    rw [mountable.aligned, isAddressAligned, qword, Nat.zero_mod, Nat.zero_and]
    rfl
  rw [Returns, fatInitVolume, if_pos aligned, Returns.bind (ioReadDevice_quiet rfl)]
  exact volumeOfBpb_mountable mountable

theorem fatInitVolume_stops (reason : Stops (fatInitVolume alignment) device .divideByZero) :
    isAddressAligned sizeofBpb alignment = true ∧
      (device.bytes.slice 0 sizeofBpb).load 2 510 = mbrBootSignature ∧
        (device.bytes.slice 0 sizeofBpb).load 1 13 = 0 := by
  unfold fatInitVolume at reason
  split at reason
  case isTrue aligned =>
    rcases Program.bind_stops.mp reason with request | ⟨⟨bpb, read⟩, device₁, request, reason⟩
    · exact absurd request ioReadDevice_stops
    · obtain ⟨first, -⟩ := ioReadDevice_returns request
      have bytes : bpb = device.bytes.slice 0 sizeofBpb := congrArg Prod.fst first
      rw [← bytes]
      exact ⟨(Bool.and_eq_true_iff.mp aligned).1, volumeOfBpb_stops reason⟩
  case isFalse => exact absurd reason Program.fail_stops

theorem sound_mounted (mountable : Mountable alignment bpb) : Sound bpb (mountedVolume alignment bpb) ↔
    sizeofDirEntry ≤ bpb.load 2 11 ∧ firstDataSector bpb ≤ totalSectors bpb ∧
      bpb.load 2 14 * bpb.load 2 11 + (dataSectors bpb / bpb.load 1 13 + 2) * 4 ≤
        firstDataSector bpb * bpb.load 2 11 := by
  obtain ⟨-, -, divisor, clusters, ⟨lower, upper⟩, -⟩ := mountable
  have total_lt : totalSectors bpb < 2 ^ 32 := by
    have small := bpb.load_lt 2 19
    have large := bpb.load_lt 4 32
    unfold totalSectors
    split <;> omega
  have first_lt := firstDataSector_lt bpb
  have whole : dataSectors bpb / bpb.load 1 13 * bpb.load 1 13 ≤ dataSectors bpb := Nat.div_mul_le_self _ _
  have sectors : dataSectors bpb = (totalSectors bpb + 2 ^ 32 - firstDataSector bpb) % 2 ^ 32 := rfl
  have some_cluster : 1 ≤ dataSectors bpb / bpb.load 1 13 := le_trans (by decide) clusters
  have one : bpb.load 1 13 ≤ dataSectors bpb / bpb.load 1 13 * bpb.load 1 13 :=
    Nat.le_mul_of_pos_left _ some_cluster
  constructor
  · rintro ⟨-, sector, entries, data, table, -⟩
    refine ⟨?_, ?_, table⟩
    · change bpb.load 2 11 / 32 ≠ 0 at entries
      change 32 ≤ bpb.load 2 11
      omega
    · change firstDataSector bpb + dataSectors bpb / bpb.load 1 13 * bpb.load 1 13 ≤ totalSectors bpb at data
      omega
  · rintro ⟨sector, first, table⟩
    have room : 32 ≤ bpb.load 2 11 := sector
    have bound : bpb.load 4 44 - 2 + 1 ≤ dataSectors bpb / bpb.load 1 13 := by
      have sum : dword (dataSectors bpb / bpb.load 1 13 + 1) ≤ dataSectors bpb / bpb.load 1 13 + 1 := Nat.mod_le _ _
      omega
    have last : (bpb.load 4 44 - 2) * bpb.load 1 13 + bpb.load 1 13 ≤
        dataSectors bpb / bpb.load 1 13 * bpb.load 1 13 := by
      rw [← Nat.succ_mul]
      exact Nat.mul_le_mul_right _ bound
    have zero : bpb.load 2 11 ≠ 0 := by omega
    have entries : bpb.load 2 11 / 32 ≠ 0 := by omega
    have data : firstDataSector bpb + dataSectors bpb / bpb.load 1 13 * bpb.load 1 13 ≤ totalSectors bpb := by
      omega
    have place : firstDataSector bpb ≤ (bpb.load 4 44 - 2) * bpb.load 1 13 + firstDataSector bpb ∧
        (bpb.load 4 44 - 2) * bpb.load 1 13 + firstDataSector bpb + bpb.load 1 13 ≤
          firstDataSector bpb + dataSectors bpb / bpb.load 1 13 * bpb.load 1 13 := by
      omega
    exact ⟨divisor, zero, entries, data, table, place⟩

theorem mounts_sound_iff (alignment : Nat) (bytes : Lib.Memory) :
    MountsSound alignment bytes ↔ Consistent alignment (bytes.slice 0 sizeofBpb) := by
  constructor
  · intro sound
    have mounted := fun mountable =>
      (sound_mounted mountable).mp ((sound none).2 _ _ (fatInitVolume_mountable mountable))
    refine ⟨?_, fun mountable => (mounted mountable).1, fun mountable => (mounted mountable).2.1,
      fun mountable => (mounted mountable).2.2⟩
    intro aligned signature zero
    have request : (isAddressAligned sizeofBpb alignment && isAddressAligned 0 alignment) = true := by
      rw [aligned, isAddressAligned, qword, Nat.zero_mod, Nat.zero_and]
      rfl
    refine (sound none).1 ?_
    rw [Stops, fatInitVolume, if_pos request, Returns.bind (ioReadDevice_quiet rfl)]
    change volumeOfBpb alignment (bytes.slice 0 sizeofBpb) _ = _
    rw [volumeOfBpb, if_neg (not_not.mpr signature), if_pos zero]
    rfl
  · intro consistent countdown
    constructor
    · intro reason
      obtain ⟨aligned, signature, zero⟩ := fatInitVolume_stops reason
      exact consistent.divisor aligned signature zero
    · intro fatData device' result
      obtain ⟨mountable, rfl⟩ := fatInitVolume_returns result
      exact (sound_mounted mountable).mpr
        ⟨consistent.sector mountable, consistent.data mountable, consistent.table mountable⟩

theorem mounts_sound_small : MountsSound 512 smallBpb :=
  (mounts_sound_iff 512 smallBpb).mpr
    { divisor := fun _ _ => by decide +kernel
      sector := fun _ => by decide +kernel
      data := fun _ => by decide +kernel
      table := fun _ => by decide +kernel }

def signedBpb : Lib.Memory
  | 510 => 0x55
  | 511 => 0xAA
  | _ => 0

def crowdedBpb : Lib.Memory
  | 12 => 0x02
  | 13 => 0x01
  | 14 => 0x20
  | 16 => 0x02
  | 32 => 0x10
  | 36 => 0x01
  | 37 => 0x02
  | 44 => 0x02
  | 510 => 0x55
  | 511 => 0xAA
  | _ => 0

theorem mounts_unsound : ¬ MountsSound 512 signedBpb ∧ ¬ MountsSound 512 crowdedBpb := by
  constructor
  · intro sound
    refine (sound none).1 ?_
    have zero : (Lib.Memory.slice signedBpb 0 sizeofBpb).load 1 13 = 0 := by decide +kernel
    have signature : (Lib.Memory.slice signedBpb 0 sizeofBpb).load 2 510 = mbrBootSignature := by decide +kernel
    rw [Stops, fatInitVolume, if_pos (by decide), Returns.bind (ioReadDevice_quiet rfl)]
    change volumeOfBpb 512 (Lib.Memory.slice signedBpb 0 sizeofBpb) _ = _
    rw [volumeOfBpb, if_neg (not_not.mpr signature), if_pos zero]
    rfl
  · intro sound
    have mountable : Mountable 512 (Lib.Memory.slice crowdedBpb 0 sizeofBpb) :=
      { aligned := by decide
        signature := by decide +kernel
        divisor := by decide +kernel
        clusters := by decide +kernel
        root := by decide +kernel
        size := by decide +kernel }
    have far : ¬ firstDataSector (Lib.Memory.slice crowdedBpb 0 sizeofBpb) ≤
        totalSectors (Lib.Memory.slice crowdedBpb 0 sizeofBpb) := by
      decide +kernel
    exact far ((sound_mounted mountable).mp ((sound none).2 _ _ (fatInitVolume_mountable mountable))).2.1

end Hal9000.Fat32
