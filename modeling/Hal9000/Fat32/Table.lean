import Hal9000.Fat32.Volume

set_option autoImplicit false

namespace Hal9000.Fat32

open Lib (Program)
open Lib.Program (fail stop require attempt Returns Fails Stops)

def fat32ClusterMask : Nat := 0x0FFFFFFF
def fat32EocMark : Nat := 0x0FFFFFFF
def fat32BadCluster : Nat := 0x0FFFFFF7
def fat32Unknown : Nat := 0xFFFFFFFF

def fat32Eoc (cluster : Nat) : Bool := decide (cluster > fat32BadCluster)

def sizeofFat32Entry : Nat := 4
def sizeofFsInfo : Nat := 512

def fsiFreeCount : Nat := 488
def fsiNxtFree : Nat := 492

-- `entry &= ~FAT32_CLUSTER_MASK; entry |= value`
def relink (entry value : Nat) : Nat := (entry &&& (2 ^ 32 - 1 - fat32ClusterMask)) ||| value

def entrySector (fatData : FatData) (cluster : Nat) : Nat :=
  fatData.reservedSectors + cluster * sizeofFat32Entry / fatData.bytesPerSector

def entryIndex (fatData : FatData) (cluster : Nat) : Nat :=
  cluster % (fatData.bytesPerSector / sizeofFat32Entry)

def entriesPerFatSector (fatData : FatData) : Nat := fatData.bytesPerSector / sizeofFat32Entry

def entryAt (entries : Lib.Memory) (index : Nat) : Nat := entries.load sizeofFat32Entry (sizeofFat32Entry * index)

def setEntryAt (entries : Lib.Memory) (index value : Nat) : Lib.Memory :=
  entries.store sizeofFat32Entry (sizeofFat32Entry * index) (relink (entryAt entries index) value)

def readSector (fatData : FatData) (sector : Nat) : Driver Lib.Memory := do
  let (entries, read) <- ioReadDevice (sector * fatData.bytesPerSector) fatData.bytesPerSector
  require (read == fatData.bytesPerSector) (.assertion "bytesToReadWrite == FatData->BytesPerSector")
  pure entries

def writeSector (fatData : FatData) (sector : Nat) (entries : Lib.Memory) : Driver Unit := do
  let written <- ioWriteDevice (sector * fatData.bytesPerSector) fatData.bytesPerSector entries
  require (written == fatData.bytesPerSector) (.assertion "bytesToReadWrite == FatData->BytesPerSector")

def nextClusterInChain (fatData : FatData) (currentCluster : Nat) : Driver Nat := do
  require (entriesPerFatSector fatData != 0) .divideByZero
  allocate
  let entries <- readSector fatData (entrySector fatData currentCluster)
  let nextCluster := entryAt entries (entryIndex fatData currentCluster) &&& fat32ClusterMask
  if nextCluster = 0 then
    -- treated as the end of the chain, and the mark is written so that the cluster is not free
    writeSector fatData (entrySector fatData currentCluster)
      (setEntryAt entries (entryIndex fatData currentCluster) fat32EocMark)
    pure fat32EocMark
  else if nextCluster = fat32BadCluster then pure fat32EocMark
  else pure nextCluster

def freeIndexInSector (entries : Lib.Memory) (indexInSector : Nat) : (count : Nat) -> Option Nat
  | 0 => none
  | count + 1 =>
    if entryAt entries indexInSector &&& fat32ClusterMask = 0 then some indexInSector
    else freeIndexInSector entries (indexInSector + 1) count

def entriesPerFat (fatData : FatData) : Nat := dword (fatData.countOfClusters + 2)

def sectorsPerFat (fatData : FatData) : Nat := entriesPerFat fatData * sizeofFat32Entry / fatData.bytesPerSector

-- The EOC mark of a free entry, written back only if the cluster is to be reserved.
def markEntry (fatData : FatData) (markReserved : Bool) (currentSector : Nat) (entries : Lib.Memory) (index : Nat) :
    Driver Unit :=
  if markReserved then writeSector fatData currentSector (setEntryAt entries index fat32EocMark) else pure ()

def firstFreeInSectors (fatData : FatData) (markReserved : Bool) : (sectors : Nat) -> Nat -> Nat -> Driver Nat
  | 0, _, _ => pure 0
  | sectors + 1, currentSector, indexInSector => do
    let entries <- readSector fatData currentSector
    match freeIndexInSector entries indexInSector (entriesPerFatSector fatData - indexInSector) with
    | none => firstFreeInSectors fatData markReserved sectors (currentSector + 1) 0
    | some index =>
      markEntry fatData markReserved currentSector entries index
      let clusterIndex := (currentSector - fatData.reservedSectors) * entriesPerFatSector fatData + index
      require (decide (2 ≤ clusterIndex) && decide (clusterIndex < entriesPerFat fatData))
        (.assertion "2 <= clusterIndex && clusterIndex < entriesPerFat")
      require (fat32Unknown != clusterIndex) (.assertion "FAT32_UNKNOWN != clusterIndex")
      pure clusterIndex

-- With no sector to look at, status is still STATUS_UNSUCCESSFUL at the end.
def firstFreeCluster (fatData : FatData) (firstCheckedCluster : Nat) (markReserved : Bool) : Driver Nat := do
  allocate
  if entriesPerFat fatData ≤ firstCheckedCluster then pure 0
  else
    let first := if fat32Unknown = firstCheckedCluster then 2 else firstCheckedCluster
    require (entriesPerFatSector fatData != 0) .divideByZero
    if sectorsPerFat fatData ≤ entrySector fatData first then fail .unsuccessful
    else
      firstFreeInSectors fatData markReserved (sectorsPerFat fatData - entrySector fatData first)
        (entrySector fatData first) (entryIndex fatData first)

def freeCount (fsInfo : Lib.Memory) : Nat := fsInfo.load 4 fsiFreeCount

def nxtFree (fsInfo : Lib.Memory) : Nat := fsInfo.load 4 fsiNxtFree

def setFreeCount (fsInfo : Lib.Memory) (value : Nat) : Lib.Memory := fsInfo.store 4 fsiFreeCount value

def setNxtFree (fsInfo : Lib.Memory) (value : Nat) : Lib.Memory := fsInfo.store 4 fsiNxtFree value

-- The loop that counts the clusters still free. A search that fails ends it as well as one that finds none.
def recount (fatData : FatData) : (fuel : Nat) -> Nat -> Lib.Memory -> Driver Lib.Memory
  | 0, _, _ => stop .unfinished
  | fuel + 1, freeCluster, fsInfo => do
    match ← attempt (firstFreeCluster fatData (freeCluster + 1) false) with
    | .error _ => pure fsInfo
    | .ok freeCluster =>
      if freeCluster = 0 then pure fsInfo
      else recount fatData fuel freeCluster (setFreeCount fsInfo (dword (freeCount fsInfo + 1)))

-- The __try block of _AddNewClusterToChain: pFsInfo and reservedCluster as they are when it is left. Its
-- status is lost, since __finally assigns it again.
def reserveAndLink (fatData : FatData) (lastClusterFromChain : Nat) : Driver (Option Lib.Memory × Nat) := do
  let .ok _ <- attempt allocate | pure (none, 0)
  let .ok (fsInfo, read) <- attempt (ioReadDevice (1 * fatData.bytesPerSector) sizeofFsInfo)
    | pure (some fun _ => 0, 0)
  require (read == fatData.bytesPerSector) (.assertion "bytesToReadWrite == FatData->BytesPerSector")
  if freeCount fsInfo = 0 then pure (some (setNxtFree fsInfo fat32Unknown), 0)
  else
    let .ok reservedCluster <- attempt (firstFreeCluster fatData (nxtFree fsInfo) true)
      | pure (some fsInfo, 0)
    if reservedCluster = 0 then
      require (fat32Unknown == freeCount fsInfo) (.assertion "FAT32_UNKNOWN == pFsInfo->FSI_Free_Count")
      pure (some (setNxtFree (setFreeCount fsInfo 0) fat32Unknown), 0)
    else
      let .ok _ <- attempt allocate | pure (some fsInfo, reservedCluster)
      let .ok entries <- attempt (readSector fatData (entrySector fatData lastClusterFromChain))
        | pure (some fsInfo, reservedCluster)
      let .ok _ <- attempt (writeSector fatData (entrySector fatData lastClusterFromChain)
          (setEntryAt entries (entryIndex fatData lastClusterFromChain) (dword reservedCluster)))
        | pure (some fsInfo, reservedCluster)
      if fat32Unknown = freeCount fsInfo then
        let counted <- recount fatData (entriesPerFat fatData + 1) reservedCluster
          (setFreeCount (setNxtFree fsInfo (dword reservedCluster)) 0)
        pure (some counted, reservedCluster)
      else
        pure (some (setFreeCount (setNxtFree fsInfo (dword reservedCluster)) (freeCount fsInfo - 1)),
          reservedCluster)

def addNewClusterToChain (fatData : FatData) (lastClusterFromChain : Nat) : Driver Nat := do
  require (!fat32Eoc lastClusterFromChain) (.assertion "!FAT32_EOC(LastClusterFromChain)")
  let (fsInfo, reservedCluster) <- reserveAndLink fatData lastClusterFromChain
  let some fsInfo := fsInfo | stop (.assertion "NULL != Buffer")
  match ← attempt (ioWriteDevice (1 * fatData.bytesPerSector) sizeofFsInfo fsInfo) with
  | .error code =>
    -- the number of bytes transferred is 0 then
    require (0 == fatData.bytesPerSector) (.assertion "bytesToReadWrite == FatData->BytesPerSector")
    fail code
  | .ok written =>
    require (written == fatData.bytesPerSector) (.assertion "bytesToReadWrite == FatData->BytesPerSector")
    pure reservedCluster

def nextSectorInClusterChain (fatData : FatData) (currentSector : Nat) (extendChain : Bool) : Driver Nat := do
  let currentCluster <- clusterOfSector fatData currentSector
  let nextCluster <- nextClusterInChain fatData currentCluster
  if fat32Eoc nextCluster then
    if extendChain then
      let nextCluster <- addNewClusterToChain fatData currentCluster
      firstSectorOfCluster fatData nextCluster
    else pure 0
  else firstSectorOfCluster fatData nextCluster

end Hal9000.Fat32
