import Hal9000.Fat32.Table
import Mathlib.Tactic.Ring

set_option autoImplicit false

namespace Hal9000.Fat32

open Lib (Program)
open Lib.Program (fail stop require attempt Returns Fails Stops)

def entryAddress (fatData : FatData) (cluster : Nat) : Nat :=
  entrySector fatData cluster * fatData.bytesPerSector + sizeofFat32Entry * entryIndex fatData cluster

def fatEntry (fatData : FatData) (bytes : Lib.Memory) (cluster : Nat) : Nat :=
  bytes.load sizeofFat32Entry (entryAddress fatData cluster)

def link (fatData : FatData) (bytes : Lib.Memory) (cluster : Nat) : Nat :=
  fatEntry fatData bytes cluster &&& fat32ClusterMask

def isFree (fatData : FatData) (bytes : Lib.Memory) (cluster : Nat) : Bool := link fatData bytes cluster == 0

def setFatEntry (fatData : FatData) (bytes : Lib.Memory) (cluster value : Nat) : Lib.Memory :=
  bytes.store sizeofFat32Entry (entryAddress fatData cluster) (relink (fatEntry fatData bytes cluster) value)

theorem fat32ClusterMask_eq : fat32ClusterMask = 2 ^ 28 - 1 := rfl

theorem mask_eq_mod (entry : Nat) : entry &&& fat32ClusterMask = entry % 2 ^ 28 := by
  rw [fat32ClusterMask_eq, Nat.and_two_pow_sub_one_eq_mod]

theorem reserved_bits (entry : Nat) (bound : entry < 2 ^ 32) :
    entry &&& (2 ^ 32 - 1 - fat32ClusterMask) = 2 ^ 28 * (entry / 2 ^ 28) := by
  have mask : 2 ^ 32 - 1 - fat32ClusterMask = 2 ^ 28 * (2 ^ 4 - 1) := rfl
  apply Nat.eq_of_testBit_eq
  intro i
  rw [mask, Nat.testBit_land, Nat.mul_comm, Nat.testBit_mul_two_pow, Nat.testBit_two_pow_sub_one, Nat.mul_comm,
    Nat.testBit_mul_two_pow, Nat.testBit_div_two_pow]
  by_cases low : 28 ≤ i
  · have index : i - 28 + 28 = i := by omega
    by_cases high : i - 28 < 4
    · simp [low, high, index]
    · have zero : entry.testBit i = false :=
        Nat.testBit_lt_two_pow (lt_of_lt_of_le bound (Nat.pow_le_pow_right (by omega) (by omega)))
      simp [low, high, index, zero]
  · simp [low]

theorem relink_eq {entry value : Nat} (bound : entry < 2 ^ 32) (small : value < 2 ^ 28) :
    relink entry value = 2 ^ 28 * (entry / 2 ^ 28) + value := by
  rw [relink, reserved_bits entry bound, Nat.two_pow_add_eq_or_of_lt small]

theorem relink_lt {entry value : Nat} (bound : entry < 2 ^ 32) (small : value < 2 ^ 28) :
    relink entry value < 2 ^ 32 := by
  rw [relink_eq bound small]
  omega

theorem fatEntry_lt (fatData : FatData) (bytes : Lib.Memory) (cluster : Nat) :
    fatEntry fatData bytes cluster < 2 ^ 32 :=
  Lib.Memory.load_lt bytes 4 _

theorem isFree_iff {fatData : FatData} {bytes : Lib.Memory} {cluster : Nat} :
    isFree fatData bytes cluster = true ↔ link fatData bytes cluster = 0 := by
  simp [isFree]

section Entries

variable {fatData : FatData} {bytes other : Lib.Memory} {cluster value : Nat}

theorem fatEntry_setFatEntry (small : value < 2 ^ 28) :
    fatEntry fatData (setFatEntry fatData bytes cluster value) cluster =
      2 ^ 28 * (fatEntry fatData bytes cluster / 2 ^ 28) + value := by
  have bound := relink_lt (fatEntry_lt fatData bytes cluster) small
  rw [fatEntry, setFatEntry, Lib.Memory.load_store bound, relink_eq (fatEntry_lt fatData bytes cluster) small]

theorem link_setFatEntry (small : value < 2 ^ 28) :
    link fatData (setFatEntry fatData bytes cluster value) cluster = value := by
  rw [link, mask_eq_mod, fatEntry_setFatEntry small]
  omega

theorem setFatEntry_elsewhere {place : Nat}
    (outside : ¬ (entryAddress fatData cluster ≤ place ∧ place < entryAddress fatData cluster + 4)) :
    setFatEntry fatData bytes cluster value place = bytes place :=
  Lib.Memory.store_elsewhere outside

theorem link_congr (same : Lib.Memory.Agrees bytes other (entryAddress fatData cluster) 4) :
    link fatData bytes cluster = link fatData other cluster := by
  rw [link, link, fatEntry, fatEntry]
  exact congrArg (· &&& fat32ClusterMask) (Lib.Memory.load_congr same)

end Entries

section Whole

variable {fatData : FatData} {bytes : Lib.Memory} {cluster second value entries : Nat}

theorem entriesPerFatSector_eq (whole : fatData.bytesPerSector = 4 * entries) :
    entriesPerFatSector fatData = entries := by
  rw [entriesPerFatSector, whole]
  exact Nat.mul_div_cancel_left entries (by decide)

theorem entryIndex_eq (whole : fatData.bytesPerSector = 4 * entries) :
    entryIndex fatData cluster = cluster % entries := by
  have per := entriesPerFatSector_eq whole
  rw [entriesPerFatSector] at per
  rw [entryIndex, per]

theorem entrySector_eq (whole : fatData.bytesPerSector = 4 * entries) :
    entrySector fatData cluster = fatData.reservedSectors + cluster / entries := by
  rw [entrySector, whole, sizeofFat32Entry, Nat.mul_comm cluster 4, Nat.mul_div_mul_left _ _ (by decide)]

theorem entryAddress_eq (whole : fatData.bytesPerSector = 4 * entries) :
    entryAddress fatData cluster = fatData.reservedSectors * fatData.bytesPerSector + 4 * cluster := by
  have split := Nat.div_add_mod cluster entries
  calc entryAddress fatData cluster
      = (fatData.reservedSectors + cluster / entries) * fatData.bytesPerSector + 4 * (cluster % entries) := by
        rw [entryAddress, entrySector_eq whole, entryIndex_eq whole, sizeofFat32Entry]
    _ = fatData.reservedSectors * fatData.bytesPerSector +
          4 * (entries * (cluster / entries) + cluster % entries) := by
        rw [whole]
        ring
    _ = fatData.reservedSectors * fatData.bytesPerSector + 4 * cluster := by rw [split]

theorem fatEntry_setFatEntry_apart (whole : fatData.bytesPerSector = 4 * entries) (apart : cluster ≠ second) :
    fatEntry fatData (setFatEntry fatData bytes cluster value) second = fatEntry fatData bytes second := by
  apply Lib.Memory.load_congr
  apply Lib.Memory.store_agrees
  rw [entryAddress_eq whole, entryAddress_eq whole, sizeofFat32Entry]
  omega

theorem link_setFatEntry_apart (whole : fatData.bytesPerSector = 4 * entries) (apart : cluster ≠ second) :
    link fatData (setFatEntry fatData bytes cluster value) second = link fatData bytes second := by
  rw [link, fatEntry_setFatEntry_apart whole apart, link]

end Whole

theorem Priced.readSector {fatData : FatData} {bytes : Lib.Memory} {sector : Nat} :
    Priced (readSector fatData sector) bytes
      (.ok (bytes.slice (sector * fatData.bytesPerSector) fatData.bytesPerSector)) bytes 1 := by
  apply Priced.finish Priced.ioReadDevice
  intro countdown
  simp

theorem Priced.writeSector {fatData : FatData} {bytes entries : Lib.Memory} {sector : Nat} :
    Priced (writeSector fatData sector entries) bytes (.ok ())
      (bytes.copy (sector * fatData.bytesPerSector) fatData.bytesPerSector entries) 1 := by
  apply Priced.finish Priced.ioWriteDevice
  intro countdown
  simp

section Sector

variable {fatData : FatData} {bytes : Lib.Memory} {sector cluster value : Nat}

theorem entryIndex_lt (room : entriesPerFatSector fatData ≠ 0) :
    sizeofFat32Entry * entryIndex fatData cluster + sizeofFat32Entry ≤ fatData.bytesPerSector := by
  have index : entryIndex fatData cluster < fatData.bytesPerSector / sizeofFat32Entry :=
    Nat.mod_lt _ (Nat.pos_of_ne_zero room)
  have whole := Nat.div_mul_le_self fatData.bytesPerSector sizeofFat32Entry
  simp only [sizeofFat32Entry] at *
  omega

theorem entryAt_slice {index : Nat}
    (inside : sizeofFat32Entry * index + sizeofFat32Entry ≤ fatData.bytesPerSector) :
    entryAt (bytes.slice (sector * fatData.bytesPerSector) fatData.bytesPerSector) index =
      bytes.load sizeofFat32Entry (sector * fatData.bytesPerSector + sizeofFat32Entry * index) :=
  Lib.Memory.load_slice inside

theorem entryAt_sector (room : entriesPerFatSector fatData ≠ 0) :
    entryAt (bytes.slice (entrySector fatData cluster * fatData.bytesPerSector) fatData.bytesPerSector)
      (entryIndex fatData cluster) = fatEntry fatData bytes cluster :=
  entryAt_slice (entryIndex_lt room)

theorem copy_setEntryAt {index : Nat}
    (inside : sizeofFat32Entry * index + sizeofFat32Entry ≤ fatData.bytesPerSector) :
    bytes.copy (sector * fatData.bytesPerSector) fatData.bytesPerSector
      (setEntryAt (bytes.slice (sector * fatData.bytesPerSector) fatData.bytesPerSector) index value) =
      bytes.store sizeofFat32Entry (sector * fatData.bytesPerSector + sizeofFat32Entry * index)
        (relink (bytes.load sizeofFat32Entry
          (sector * fatData.bytesPerSector + sizeofFat32Entry * index)) value) := by
  rw [setEntryAt, entryAt_slice inside, Lib.Memory.copy_store_slice inside]

theorem copy_sector (room : entriesPerFatSector fatData ≠ 0) :
    bytes.copy (entrySector fatData cluster * fatData.bytesPerSector) fatData.bytesPerSector
      (setEntryAt (bytes.slice (entrySector fatData cluster * fatData.bytesPerSector)
        fatData.bytesPerSector) (entryIndex fatData cluster) value) =
      setFatEntry fatData bytes cluster value :=
  copy_setEntryAt (entryIndex_lt room)

end Sector

section Quiet

variable {fatData : FatData} {device : Device} {sector cluster value : Nat} {entries : Lib.Memory}

theorem readSector_quiet (quiet : device.countdown = none) :
    Returns (readSector fatData sector) device
      (device.bytes.slice (sector * fatData.bytesPerSector) fatData.bytesPerSector) device := by
  rw [Returns, readSector, Returns.bind (ioReadDevice_quiet quiet)]
  simp

theorem writeSector_quiet (quiet : device.countdown = none) :
    Returns (writeSector fatData sector entries) device ()
      { device with
        bytes := device.bytes.copy (sector * fatData.bytesPerSector) fatData.bytesPerSector entries } := by
  rw [Returns, writeSector, Returns.bind (ioWriteDevice_quiet quiet)]
  simp

-- What NextClusterInChain makes of an entry.
def followed (next : Nat) : Nat := if next = 0 ∨ next = fat32BadCluster then fat32EocMark else next

def mended (fatData : FatData) (bytes : Lib.Memory) (cluster : Nat) : Lib.Memory :=
  if link fatData bytes cluster = 0 then setFatEntry fatData bytes cluster fat32EocMark else bytes

theorem nextClusterInChain_quiet (quiet : device.countdown = none) (room : entriesPerFatSector fatData ≠ 0) :
    Returns (nextClusterInChain fatData cluster) device (followed (link fatData device.bytes cluster))
      { device with bytes := mended fatData device.bytes cluster } := by
  have nonzero : (entriesPerFatSector fatData != 0) = true := bne_iff_ne.mpr room
  rw [Returns, nextClusterInChain, nonzero, Program.require_true, Program.pure_bind,
    Returns.bind (allocate_quiet quiet), Returns.bind (readSector_quiet quiet),
    entryAt_sector room, ← link, followed, mended]
  by_cases free : link fatData device.bytes cluster = 0
  · rw [if_pos free, if_pos (.inl free), if_pos free, Returns.bind (writeSector_quiet quiet), copy_sector room]
    rfl
  · rw [if_neg free, if_neg free]
    by_cases bad : link fatData device.bytes cluster = fat32BadCluster
    · rw [if_pos bad, if_pos (.inr bad)]
      rfl
    · rw [if_neg bad, if_neg (by tauto)]
      rfl

end Quiet

theorem nextClusterInChain_priced {fatData : FatData} {bytes : Lib.Memory} {cluster : Nat}
    (room : entriesPerFatSector fatData ≠ 0) (used : link fatData bytes cluster ≠ 0) :
    Priced (nextClusterInChain fatData cluster) bytes (.ok (followed (link fatData bytes cluster))) bytes 2 := by
  have nonzero : (entriesPerFatSector fatData != 0) = true := bne_iff_ne.mpr room
  rw [nextClusterInChain, nonzero, Program.require_true, Program.pure_bind]
  change Priced _ _ _ _ (1 + 1)
  apply Priced.bind Priced.allocate
  apply Priced.finish Priced.readSector
  intro countdown
  rw [entryAt_sector room, ← link, if_neg used, followed]
  by_cases bad : link fatData bytes cluster = fat32BadCluster
  · rw [if_pos bad, if_pos (.inr bad)]
    rfl
  · rw [if_neg bad, if_neg (by tauto)]
    rfl

end Hal9000.Fat32
