import Hal9000.CommonLib.Base
import Hal9000.Lib.Memory
import Hal9000.Lib.Program

set_option autoImplicit false

namespace Hal9000.Fat32

open Lib (Program)
open Lib.Program (fail stop require get modify Returns Fails Stops)

inductive Status where
  | unsuccessful
  | heapNoMoreMemory
  | elementNotFound
  | invalidFileName
  | fileNotFound
  | fileTypeInvalid
  | fileAlreadyExists
  | timeInvalid
  | pathNotValid
  | bufferTooSmall
  | diskFull
  | diskMbrNotPresent
  | deviceFilesystemUnsupported
  | deviceClusterInvalid
  | deviceAlignmentNoSatisfied
  -- whatever the drivers below give for a request that failed
  | deviceFailed
  deriving DecidableEq, Repr

-- Why a function never comes back.
inductive Stop where
  | assertion (text : String)
  | divideByZero
  | outOfBounds
  | unfinished
  deriving DecidableEq, Repr

-- The bytes of the volume, and the number of allocations and device requests that still go well before
-- the only one that fails.
structure Device where
  bytes : Lib.Memory
  countdown : Option Nat := none

abbrev Driver (α : Type) := Program Device Stop Status α

def operation : Driver Bool := fun device =>
  match device.countdown with
  | none => .ok (.ok true, device)
  | some 0 => .ok (.ok false, { device with countdown := none })
  | some (count + 1) => .ok (.ok true, { device with countdown := some count })

-- ExAllocatePoolWithTag(PoolAllocateZeroMemory, ...); every caller tests the result against NULL.
def allocate : Driver Unit := do
  if ← operation then pure () else fail .heapNoMoreMemory

def ioReadDevice (offset length : Nat) : Driver (Lib.Memory × Nat) := do
  if ← operation then
    let device <- get
    pure (device.bytes.slice offset length, length)
  else fail .deviceFailed

def ioWriteDevice (offset length : Nat) (buffer : Lib.Memory) : Driver Nat := do
  if ← operation then
    modify fun device => { device with bytes := device.bytes.copy offset length buffer }
    pure length
  else fail .deviceFailed

-- FAT_DATA; of the VolumeDevice only its DeviceAlignment matters.
structure FatData where
  deviceAlignment : Nat
  countOfClusters : Nat
  rootDirectoryStartSector : Nat
  reservedSectors : Nat
  firstDataSector : Nat
  sectorsPerCluster : Nat
  bytesPerSector : Nat
  entriesPerSector : Nat
  allocationSize : Nat
  deriving DecidableEq, Repr

def mbrBootSignature : Nat := 0xAA55
def fat12MaxClusters : Nat := 4085
def fat16MaxClusters : Nat := 65525
def sizeofBpb : Nat := 512
def sizeofDirEntry : Nat := 32

-- `Cluster > FatData->CountOfClusters + 1` is a comparison with a DWORD sum.
def firstSectorOfCluster (fatData : FatData) (cluster : Nat) : Driver Nat :=
  if cluster > dword (fatData.countOfClusters + 1) ∨ cluster < 2 then fail .deviceClusterInvalid
  else pure ((cluster - 2) * fatData.sectorsPerCluster + fatData.firstDataSector)

def clusterOfSector (fatData : FatData) (sector : Nat) : Driver Nat := do
  let cluster :=
    qword (qword (sector + 2 ^ 64 - fatData.firstDataSector) / fatData.sectorsPerCluster + 2)
  if cluster > dword (fatData.countOfClusters + 1) ∨ cluster < 2 then fail .deviceClusterInvalid
  else pure cluster

-- FATSz and TotalSectors: the 16-bit field of the BPB, or the 32-bit one if that is 0.
def fatSize (bpb : Lib.Memory) : Nat := if bpb.load 2 22 ≠ 0 then bpb.load 2 22 else bpb.load 4 36

def totalSectors (bpb : Lib.Memory) : Nat := if bpb.load 2 19 ≠ 0 then bpb.load 2 19 else bpb.load 4 32

def firstDataSector (bpb : Lib.Memory) : Nat := dword (bpb.load 2 14 + dword (bpb.load 1 16 * fatSize bpb))

def dataSectors (bpb : Lib.Memory) : Nat := dword (totalSectors bpb + 2 ^ 32 - firstDataSector bpb)

theorem dataSectors_lt (bpb : Lib.Memory) : dataSectors bpb < 2 ^ 32 := dword_lt _

theorem firstDataSector_lt (bpb : Lib.Memory) : firstDataSector bpb < 2 ^ 32 := dword_lt _

-- FatInitVolume from the signature of the BPB on.
def volumeOfBpb (deviceAlignment : Nat) (bpb : Lib.Memory) : Driver FatData :=
  if bpb.load 2 510 ≠ mbrBootSignature then fail .diskMbrNotPresent
  else if bpb.load 1 13 = 0 then stop .divideByZero
  else if dataSectors bpb / bpb.load 1 13 < fat12MaxClusters then fail .deviceFilesystemUnsupported
  else if dataSectors bpb / bpb.load 1 13 < fat16MaxClusters then fail .deviceFilesystemUnsupported
  else do
    let fatData : FatData :=
      { deviceAlignment := deviceAlignment
        countOfClusters := dataSectors bpb / bpb.load 1 13
        rootDirectoryStartSector := 0
        reservedSectors := bpb.load 2 14
        firstDataSector := firstDataSector bpb
        sectorsPerCluster := bpb.load 1 13
        bytesPerSector := bpb.load 2 11
        entriesPerSector := bpb.load 2 11 / sizeofDirEntry
        allocationSize := bpb.load 1 13 * bpb.load 2 11 }
    let root <- firstSectorOfCluster fatData (bpb.load 4 44)
    require (decide (fatData.allocationSize ≥ deviceAlignment))
      (.assertion "FatData->AllocationSize >= pVolumeDevice->DeviceAlignment")
    pure { fatData with rootDirectoryStartSector := root }

-- FatInitVolume, with the check that IoCallDriver makes on its one request.
def fatInitVolume (deviceAlignment : Nat) : Driver FatData :=
  if isAddressAligned sizeofBpb deviceAlignment && isAddressAligned 0 deviceAlignment then do
    let (bpb, _) <- ioReadDevice 0 sizeofBpb
    volumeOfBpb deviceAlignment bpb
  else fail .deviceAlignmentNoSatisfied

-- The volumes that FatInitVolume takes.
def Accepted (fatData : FatData) : Prop :=
  ∃ alignment device device', Returns (fatInitVolume alignment) device fatData device'

section Quiet

variable {device : Device} {offset length : Nat} {buffer : Lib.Memory}

theorem operation_quiet (quiet : device.countdown = none) : operation device = .ok (.ok true, device) := by
  simp [operation, quiet]

theorem allocate_quiet (quiet : device.countdown = none) : Returns allocate device () device := by
  rw [Returns, allocate, Returns.bind (operation_quiet quiet)]
  rfl

theorem ioReadDevice_quiet (quiet : device.countdown = none) :
    Returns (ioReadDevice offset length) device (device.bytes.slice offset length, length) device := by
  rw [Returns, ioReadDevice, Returns.bind (operation_quiet quiet)]
  rfl

theorem ioWriteDevice_quiet (quiet : device.countdown = none) :
    Returns (ioWriteDevice offset length buffer) device length
      { device with bytes := device.bytes.copy offset length buffer } := by
  rw [Returns, ioWriteDevice, Returns.bind (operation_quiet quiet)]
  rfl

end Quiet

-- A call that makes `cost` allocations and requests: what it does when none of them fails. When one of
-- them fails, so does the call, and the volume is as it was.
structure Priced {α : Type} (program : Driver α) (bytes : Lib.Memory) (result : Except Status α) (bytes' : Lib.Memory)
    (cost : Nat) : Prop where
  quiet : program { bytes := bytes } = .ok (result, { bytes := bytes' })
  enough : forall count, program { bytes := bytes, countdown := some (cost + count) } =
    .ok (result, { bytes := bytes', countdown := some count })
  short : forall count, count < cost ->
    ∃ code, program { bytes := bytes, countdown := some count } = .ok (.error code, { bytes := bytes })

def Enough (countdown : Option Nat) (cost : Nat) : Prop := forall count, countdown = some count -> cost ≤ count

def remaining (countdown : Option Nat) (cost : Nat) : Option Nat := countdown.map (· - cost)

theorem enough_add {countdown : Option Nat} {first second : Nat} :
    Enough countdown (first + second) ↔ Enough countdown first ∧ Enough (remaining countdown first) second := by
  cases countdown with
  | none => simp [Enough, remaining]
  | some count =>
    simp only [Enough, remaining, Option.map_some, Option.some.injEq, forall_eq']
    omega

theorem remaining_add (countdown : Option Nat) (first second : Nat) :
    remaining (remaining countdown first) second = remaining countdown (first + second) := by
  cases countdown with
  | none => rfl
  | some count => simp only [remaining, Option.map_some, Nat.sub_sub]

namespace Priced

variable {α β : Type} {bytes bytes' : Lib.Memory} {value : α} {program : Driver α} {rest : α -> Driver β}
variable {result : Except Status β} {cost more : Nat}

theorem pure : Priced (Pure.pure value) bytes (.ok value) bytes 0 where
  quiet := rfl
  enough count := by
    rw [Nat.zero_add]
    rfl
  short _ bound := absurd bound (Nat.not_lt_zero _)

theorem of_returns (returns : forall device, Returns program device value device) :
    Priced program bytes (.ok value) bytes 0 where
  quiet := returns _
  enough count := by
    rw [Nat.zero_add]
    exact returns _
  short _ bound := absurd bound (Nat.not_lt_zero _)

theorem bind (first : Priced program bytes (.ok value) bytes cost)
    (next : Priced (rest value) bytes result bytes' more) :
    Priced (program >>= rest) bytes result bytes' (cost + more) where
  quiet := (Returns.bind first.quiet).trans next.quiet
  enough count := by
    rw [Nat.add_assoc]
    exact (Returns.bind (first.enough (more + count))).trans (next.enough count)
  short count bound := by
    by_cases early : count < cost
    · obtain ⟨code, fails⟩ := first.short count early
      exact ⟨code, Fails.bind fails⟩
    · obtain ⟨code, fails⟩ := next.short (count - cost) (by omega)
      have start := first.enough (count - cost)
      rw [Nat.add_sub_cancel' (not_lt.mp early)] at start
      exact ⟨code, (Returns.bind start).trans fails⟩

theorem finish (first : Priced program bytes (.ok value) bytes' cost)
    (next : forall countdown, rest value { bytes := bytes', countdown := countdown } =
      .ok (result, { bytes := bytes', countdown := countdown })) :
    Priced (program >>= rest) bytes result bytes' cost where
  quiet := (Returns.bind first.quiet).trans (next none)
  enough count := (Returns.bind (first.enough count)).trans (next (some count))
  short count bound := by
    obtain ⟨code, fails⟩ := first.short count bound
    exact ⟨code, Fails.bind fails⟩

theorem operation_enough (count : Nat) :
    operation { bytes := bytes, countdown := some (1 + count) } =
      .ok (.ok true, { bytes := bytes, countdown := some count }) := by
  rw [Nat.add_comm]
  rfl

theorem allocate : Priced allocate bytes (.ok ()) bytes 1 where
  quiet := allocate_quiet rfl
  enough count := by
    rw [Fat32.allocate, Returns.bind (operation_enough count)]
    rfl
  short count bound := by
    obtain rfl := Nat.lt_one_iff.mp bound
    exact ⟨.heapNoMoreMemory, rfl⟩

theorem ioReadDevice {offset length : Nat} :
    Priced (ioReadDevice offset length) bytes (.ok (bytes.slice offset length, length)) bytes 1 where
  quiet := ioReadDevice_quiet rfl
  enough count := by
    rw [Fat32.ioReadDevice, Returns.bind (operation_enough count)]
    rfl
  short count bound := by
    obtain rfl := Nat.lt_one_iff.mp bound
    exact ⟨.deviceFailed, rfl⟩

theorem ioWriteDevice {offset length : Nat} {buffer : Lib.Memory} :
    Priced (ioWriteDevice offset length buffer) bytes (.ok length) (bytes.copy offset length buffer) 1 where
  quiet := ioWriteDevice_quiet rfl
  enough count := by
    rw [Fat32.ioWriteDevice, Returns.bind (operation_enough count)]
    rfl
  short count bound := by
    obtain rfl := Nat.lt_one_iff.mp bound
    exact ⟨.deviceFailed, rfl⟩

theorem run {result : Except Status α} (priced : Priced program bytes result bytes' cost)
    {countdown : Option Nat} (enough : Enough countdown cost) :
    program { bytes := bytes, countdown := countdown } =
      .ok (result, { bytes := bytes', countdown := remaining countdown cost }) := by
  cases countdown with
  | none => exact priced.quiet
  | some count =>
    have spent := priced.enough (count - cost)
    rw [Nat.add_sub_cancel' (enough count rfl)] at spent
    exact spent

theorem cut {result : Except Status α} (priced : Priced program bytes result bytes' cost)
    {countdown : Option Nat} (few : ¬ Enough countdown cost) :
    ∃ code, program { bytes := bytes, countdown := countdown } = .ok (.error code, { bytes := bytes }) := by
  cases countdown with
  | none => exact absurd (fun count impossible => nomatch impossible) few
  | some count =>
    refine priced.short count (not_le.mp fun enough => few ?_)
    intro other same
    rw [← Option.some.inj same]
    exact enough

theorem inv {result : Except Status α} (priced : Priced program bytes result bytes' cost) {countdown : Option Nat}
    {device' : Device} (returns : Returns program { bytes := bytes, countdown := countdown } value device') :
    Enough countdown cost ∧ result = .ok value ∧ device' = { bytes := bytes', countdown := remaining countdown cost } := by
  by_cases enough : Enough countdown cost
  · rw [Returns, priced.run enough] at returns
    cases returns
    exact ⟨enough, rfl, rfl⟩
  · obtain ⟨code, fails⟩ := priced.cut enough
    rw [Returns, fails] at returns
    cases returns

theorem attempted {result : Except Status α} (priced : Priced program bytes result bytes' cost)
    {countdown : Option Nat} {next : Except Status α -> Driver β} {value : β} {device' : Device}
    (returns : Returns (Program.attempt program >>= next) { bytes := bytes, countdown := countdown } value device') :
    Enough countdown cost ∧
        Returns (next result) { bytes := bytes', countdown := remaining countdown cost } value device' ∨
      ¬ Enough countdown cost ∧ ∃ code, Returns (next (.error code)) { bytes := bytes } value device' := by
  by_cases enough : Enough countdown cost
  · rw [Returns, Program.attempt_bind (priced.run enough)] at returns
    exact .inl ⟨enough, returns⟩
  · obtain ⟨code, fails⟩ := priced.cut enough
    rw [Returns, Program.attempt_bind fails] at returns
    exact .inr ⟨enough, code, returns⟩

end Priced

-- What FatInitVolume makes sure of.
structure Geometry (fatData : FatData) : Prop where
  cluster : 0 < fatData.sectorsPerCluster
  cluster_lt : fatData.sectorsPerCluster < 2 ^ 8
  sector : 0 < fatData.bytesPerSector
  sector_lt : fatData.bytesPerSector < 2 ^ 16
  reserved_lt : fatData.reservedSectors < 2 ^ 16
  data_lt : fatData.firstDataSector < 2 ^ 32
  count : fat16MaxClusters ≤ fatData.countOfClusters
  count_lt : fatData.countOfClusters + 1 < 2 ^ 32
  entries : fatData.entriesPerSector = fatData.bytesPerSector / sizeofDirEntry
  size : fatData.allocationSize = fatData.sectorsPerCluster * fatData.bytesPerSector
  alignment : fatData.deviceAlignment ≤ fatData.allocationSize

theorem firstSectorOfCluster_returns {fatData : FatData} {cluster sector : Nat} {device device' : Device} :
    Returns (firstSectorOfCluster fatData cluster) device sector device' ↔
      (2 ≤ cluster ∧ cluster ≤ dword (fatData.countOfClusters + 1)) ∧
        (cluster - 2) * fatData.sectorsPerCluster + fatData.firstDataSector = sector ∧ device = device' := by
  unfold firstSectorOfCluster
  split
  case isTrue invalid =>
    constructor
    · intro result
      exact absurd result Program.fail_returns
    · rintro ⟨⟨lower, upper⟩, -⟩
      omega
  case isFalse valid =>
    rw [Program.pure_returns]
    constructor
    · rintro ⟨rfl, rfl⟩
      exact ⟨by omega, rfl, rfl⟩
    · rintro ⟨-, same⟩
      exact same

theorem volumeOfBpb_geometry {alignment : Nat} {bpb : Lib.Memory} {fatData : FatData} {device device' : Device}
    (positive : 0 < alignment) (result : Returns (volumeOfBpb alignment bpb) device fatData device') :
    Geometry fatData := by
  unfold volumeOfBpb at result
  split at result
  case isTrue => exact absurd result Program.fail_returns
  case isFalse =>
    split at result
    case isTrue => exact absurd result Program.stop_returns
    case isFalse divisor =>
      split at result
      case isTrue => exact absurd result Program.fail_returns
      case isFalse =>
        split at result
        case isTrue => exact absurd result Program.fail_returns
        case isFalse enough =>
          obtain ⟨root, device₃, found, result⟩ := Program.bind_returns.mp result
          obtain ⟨⟨lower, upper⟩, -, rfl⟩ := firstSectorOfCluster_returns.mp found
          obtain ⟨nothing, device₄, asserted, result⟩ := Program.bind_returns.mp result
          obtain ⟨large, rfl⟩ := Program.require_returns.mp asserted
          obtain ⟨same, -⟩ := Program.pure_returns.mp result
          have large := of_decide_eq_true large
          have count : dataSectors bpb / bpb.load 1 13 < 2 ^ 32 :=
            lt_of_le_of_lt (Nat.div_le_self _ _) (dataSectors_lt bpb)
          have below : dataSectors bpb / bpb.load 1 13 + 1 < 2 ^ 32 := by
            change 2 ≤ bpb.load 4 44 at lower
            change bpb.load 4 44 ≤ dword (dataSectors bpb / bpb.load 1 13 + 1) at upper
            simp only [dword] at upper
            omega
          have sector : 0 < bpb.load 2 11 := by
            refine Nat.pos_of_ne_zero fun zero => ?_
            change bpb.load 1 13 * bpb.load 2 11 ≥ alignment at large
            rw [zero, Nat.mul_zero] at large
            omega
          subst same
          exact
            { cluster := Nat.pos_of_ne_zero divisor
              cluster_lt := bpb.load_lt 1 13
              sector := sector
              sector_lt := bpb.load_lt 2 11
              reserved_lt := bpb.load_lt 2 14
              data_lt := firstDataSector_lt bpb
              count := not_lt.mp enough
              count_lt := below
              entries := rfl
              size := rfl
              alignment := large }

theorem accepted_geometry {fatData : FatData} (accepted : Accepted fatData) : Geometry fatData := by
  obtain ⟨alignment, device, device', result⟩ := accepted
  unfold fatInitVolume at result
  split at result
  case isTrue aligned =>
    have positive : 0 < alignment := by
      refine Nat.pos_of_ne_zero fun zero => ?_
      rw [zero] at aligned
      revert aligned
      decide
    obtain ⟨⟨bpb, read⟩, device₁, -, result⟩ := Program.bind_returns.mp result
    exact volumeOfBpb_geometry positive result
  case isFalse => exact absurd result Program.fail_returns

-- A volume of 65536 clusters of one sector, behind 32 reserved sectors and two FATs of 513 sectors.
def smallVolume : FatData where
  deviceAlignment := 512
  countOfClusters := 65536
  rootDirectoryStartSector := 1058
  reservedSectors := 32
  firstDataSector := 1058
  sectorsPerCluster := 1
  bytesPerSector := 512
  entriesPerSector := 16
  allocationSize := 512

def smallBpb : Lib.Memory
  | 12 => 0x02
  | 13 => 0x01
  | 14 => 0x20
  | 16 => 0x02
  | 32 => 0x22
  | 33 => 0x04
  | 34 => 0x01
  | 36 => 0x01
  | 37 => 0x02
  | 44 => 0x02
  | 510 => 0x55
  | 511 => 0xAA
  | _ => 0

theorem smallVolume_accepted : Accepted smallVolume := by
  have aligned : (isAddressAligned sizeofBpb 512 && isAddressAligned 0 512) = true := by decide
  have signature : (Lib.Memory.slice smallBpb 0 sizeofBpb).load 2 510 = mbrBootSignature := by decide +kernel
  have cluster : (Lib.Memory.slice smallBpb 0 sizeofBpb).load 1 13 = 1 := by decide +kernel
  have sector : (Lib.Memory.slice smallBpb 0 sizeofBpb).load 2 11 = 512 := by decide +kernel
  have reserved : (Lib.Memory.slice smallBpb 0 sizeofBpb).load 2 14 = 32 := by decide +kernel
  have root : (Lib.Memory.slice smallBpb 0 sizeofBpb).load 4 44 = 2 := by decide +kernel
  have first : firstDataSector (Lib.Memory.slice smallBpb 0 sizeofBpb) = 1058 := by decide +kernel
  have count : dataSectors (Lib.Memory.slice smallBpb 0 sizeofBpb) = 65536 := by decide +kernel
  refine ⟨512, { bytes := smallBpb }, { bytes := smallBpb }, ?_⟩
  rw [Returns, fatInitVolume, if_pos aligned, Returns.bind (ioReadDevice_quiet rfl)]
  change volumeOfBpb 512 (Lib.Memory.slice smallBpb 0 sizeofBpb) _ = _
  rw [volumeOfBpb, signature, cluster, sector, reserved, root, first, count, if_neg (by decide),
    if_neg (by decide), if_neg (by decide), if_neg (by decide)]
  rfl

end Hal9000.Fat32
