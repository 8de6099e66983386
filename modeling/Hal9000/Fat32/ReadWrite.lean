import Hal9000.Fat32.DirEntry

set_option autoImplicit false

namespace Hal9000.Fat32

open Lib (Program)
open Lib.Program (fail stop require loop Returns Fails Stops)

-- sectorsTraversed + SectorsPerCluster <= SectorOffset
def endsBefore (fatData : FatData) (sectorsTraversed sectorOffset : Nat) : Bool :=
  decide (qword (sectorsTraversed + fatData.sectorsPerCluster) ≤ sectorOffset)

def skipCluster (fatData : FatData) (extendChain : Bool) (sectorOffset : Nat) :
    Nat × Nat -> Driver (Nat × Nat ⊕ Nat)
  | (currentSector, sectorsTraversed) =>
    if endsBefore fatData sectorsTraversed sectorOffset then do
      require (decide (fatData.sectorsPerCluster ≤ sectorOffset))
        (.assertion "SectorOffset >= FatData->SectorsPerCluster")
      let nextSector <- nextSectorInClusterChain fatData currentSector extendChain
      pure (.inl (nextSector, qword (sectorsTraversed + fatData.sectorsPerCluster)))
    else pure (.inr currentSector)

def skipClusters (fatData : FatData) (extendChain : Bool) (sectorOffset currentSector : Nat) : Driver Nat :=
  loop .unfinished (skipCluster fatData extendChain sectorOffset) (sectorOffset + 1) (currentSector, 0)

structure Transfer where
  currentSector : Nat
  position : Nat
  sectors : Nat
  sectorsRemaining : Nat

def firstTransfer (fatData : FatData) (currentSector sectorOffset sectors : Nat) : Transfer where
  currentSector := currentSector + sectorOffset % fatData.sectorsPerCluster
  position := 0
  sectors := min sectors (fatData.sectorsPerCluster - sectorOffset % fatData.sectorsPerCluster)
  sectorsRemaining := sectors

def nextTransfer (fatData : FatData) (transfer : Transfer) (nextSector transferred : Nat) : Transfer where
  currentSector := nextSector
  position := transfer.position + transferred
  sectors := min fatData.sectorsPerCluster (transfer.sectorsRemaining - transfer.sectors)
  sectorsRemaining := transfer.sectorsRemaining - transfer.sectors

def readClusterOfFile (fatData : FatData) : Transfer × Lib.Memory -> Driver ((Transfer × Lib.Memory) ⊕ (Lib.Memory × Nat))
  | (transfer, buffer) => do
    let (data, read) <- ioReadDevice (transfer.currentSector * fatData.bytesPerSector)
      (transfer.sectors * fatData.bytesPerSector)
    require (read == transfer.sectors * fatData.bytesPerSector)
      (.assertion "bytesToRead == sectorsToRead * FatData->BytesPerSector")
    if transfer.sectorsRemaining - transfer.sectors = 0 then
      pure (.inr (buffer.copy transfer.position read data, 0))
    else
      let nextSector <- nextSectorInClusterChain fatData transfer.currentSector false
      if nextSector = 0 then
        pure (.inr (buffer.copy transfer.position read data, transfer.sectorsRemaining - transfer.sectors))
      else
        pure (.inl (nextTransfer fatData transfer nextSector read, buffer.copy transfer.position read data))

def readClusters (fatData : FatData) (transfer : Transfer) (buffer : Lib.Memory) : Driver (Lib.Memory × Nat) :=
  loop .unfinished (readClusterOfFile fatData) transfer.sectorsRemaining (transfer, buffer)

def fatReadFile (fatData : FatData) (now : DateTime) (baseFileSector sectorOffset dirEntrySector : Nat)
    (buffer : Lib.Memory) (sectorsToRead : Nat) : Driver (Lib.Memory × Nat) := do
  require (isAddressAligned baseFileSector fatData.sectorsPerCluster)
    (.assertion "IsAddressAligned(BaseFileSector, FatData->SectorsPerCluster)")
  if sectorsToRead = 0 then pure (buffer, 0)
  else
    let currentSector <- skipClusters fatData false sectorOffset baseFileSector
    require (currentSector != 0) (.assertion "0 != currentSector")
    let (buffer, sectorsRemaining) <- readClusters fatData
      (firstTransfer fatData currentSector sectorOffset sectorsToRead) buffer
    let (dirEntryIndex, dirEntry) <- getDirEntryFromSector fatData dirEntrySector baseFileSector
    writeDirEntryToSector fatData dirEntrySector dirEntryIndex (setLstAccDate dirEntry (convertDateToFatDate now))
    pure (buffer, sectorsToRead - sectorsRemaining)

def writeClusterOfFile (fatData : FatData) (buffer : Lib.Memory) (transfer : Transfer) : Driver (Transfer ⊕ Unit) := do
  let written <- ioWriteDevice (transfer.currentSector * fatData.bytesPerSector)
    (transfer.sectors * fatData.bytesPerSector)
    (buffer.slice transfer.position (transfer.sectors * fatData.bytesPerSector))
  require (written == transfer.sectors * fatData.bytesPerSector)
    (.assertion "bytesToWrite == sectorsToWrite * FatData->BytesPerSector")
  if transfer.sectorsRemaining - transfer.sectors = 0 then pure (.inr ())
  else
    let nextSector <- nextSectorInClusterChain fatData transfer.currentSector true
    pure (.inl (nextTransfer fatData transfer nextSector written))

def writeClusters (fatData : FatData) (transfer : Transfer) (buffer : Lib.Memory) : Driver Unit :=
  loop .unfinished (writeClusterOfFile fatData buffer) transfer.sectorsRemaining transfer

def touchedEntry (now : DateTime) (nextByteToWrite : Nat) (dirEntry : Lib.Memory) : Lib.Memory :=
  setWrtTime (setWrtDate (setLstAccDate
    (if nextByteToWrite > dirFileSize dirEntry then setFileSize dirEntry nextByteToWrite else dirEntry)
    (convertDateToFatDate now)) (convertDateToFatDate now)) (convertTimeToFatTime now)

def fatWriteFile (fatData : FatData) (now : DateTime) (baseFileSector sectorOffset dirEntrySector : Nat)
    (buffer : Lib.Memory) (sectorsToWrite : Nat) : Driver Nat := do
  require (isAddressAligned baseFileSector fatData.sectorsPerCluster)
    (.assertion "IsAddressAligned(BaseFileSector, FatData->SectorsPerCluster)")
  if sectorsToWrite = 0 then pure 0
  else
    let currentSector <- skipClusters fatData true sectorOffset baseFileSector
    require (currentSector != 0) (.assertion "0 != currentSector")
    writeClusters fatData (firstTransfer fatData currentSector sectorOffset sectorsToWrite) buffer
    let (dirEntryIndex, dirEntry) <- getDirEntryFromSector fatData dirEntrySector baseFileSector
    writeDirEntryToSector fatData dirEntrySector dirEntryIndex
      (touchedEntry now (dword (dword (sectorOffset + sectorsToWrite) * fatData.bytesPerSector)) dirEntry)
    pure sectorsToWrite

end Hal9000.Fat32
