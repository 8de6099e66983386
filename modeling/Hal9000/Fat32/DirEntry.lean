import Hal9000.Fat32.Table

set_option autoImplicit false

namespace Hal9000.Fat32

open Lib (Program)
open Lib.Program (fail stop require attempt Returns Fails Stops)

def freeEntry : Nat := 0xE5
def freeJapEntry : Nat := 0x05

def attrLongName : Nat := 0x0F
def attrLongNameMask : Nat := 0x3F

-- The fields of a DIR_ENTRY.
def dirAttr (entry : Lib.Memory) : Nat := entry.load 1 11
def dirFstClusHi (entry : Lib.Memory) : Nat := entry.load 2 20
def dirFstClusLo (entry : Lib.Memory) : Nat := entry.load 2 26
def dirFileSize (entry : Lib.Memory) : Nat := entry.load 4 28

def setLstAccDate (entry : Lib.Memory) (date : Nat) : Lib.Memory := entry.store 2 18 date
def setWrtTime (entry : Lib.Memory) (time : Nat) : Lib.Memory := entry.store 2 22 time
def setWrtDate (entry : Lib.Memory) (date : Nat) : Lib.Memory := entry.store 2 24 date
def setFileSize (entry : Lib.Memory) (size : Nat) : Lib.Memory := entry.store 4 28 size

def wordsToDword (hi lo : Nat) : Nat := 2 ^ 16 * hi + lo

def dirCluster (entry : Lib.Memory) : Nat := wordsToDword (dirFstClusHi entry) (dirFstClusLo entry)

def isUnusedEntry (entry : Lib.Memory) : Bool := freeEntry == entry.load 1 0 || freeJapEntry == entry.load 1 0

def isLongEntry (entry : Lib.Memory) : Bool := dirAttr entry &&& attrLongNameMask == attrLongName

def dirEntryAt (entries : Lib.Memory) (index : Nat) : Lib.Memory := entries.slice (sizeofDirEntry * index) sizeofDirEntry

def setDirEntryAt (entries : Lib.Memory) (index : Nat) (entry : Lib.Memory) : Lib.Memory :=
  entries.copy (sizeofDirEntry * index) sizeofDirEntry entry

structure DateTime where
  day : Nat
  month : Nat
  year : Nat
  second : Nat
  minute : Nat
  hour : Nat
  deriving DecidableEq, Repr

def fatStartYear : Nat := 1980

def convertDateToFatDate (now : DateTime) : Nat :=
  now.day % 2 ^ 5 + 2 ^ 5 * (now.month % 2 ^ 4) + 2 ^ 9 * ((now.year + 2 ^ 16 - fatStartYear) % 2 ^ 7)

def convertTimeToFatTime (now : DateTime) : Nat :=
  now.second / 2 % 2 ^ 5 + 2 ^ 5 * (now.minute % 2 ^ 6) + 2 ^ 11 * (now.hour % 2 ^ 5)

def clusterBytes (fatData : FatData) : Nat := fatData.bytesPerSector * fatData.sectorsPerCluster

def readCluster (fatData : FatData) (sector : Nat) : Driver Lib.Memory := do
  let (entries, read) <- ioReadDevice (qword (sector * fatData.bytesPerSector)) (clusterBytes fatData)
  require (read == clusterBytes fatData)
    (.assertion "bytesToRead == FatData->BytesPerSector * FatData->SectorsPerCluster")
  pure entries

def writeCluster (fatData : FatData) (sector : Nat) (entries : Lib.Memory) : Driver Unit := do
  let written <- ioWriteDevice (qword (sector * fatData.bytesPerSector)) (clusterBytes fatData) entries
  require (written == clusterBytes fatData)
    (.assertion "bytesToReadWrite == FatData->BytesPerSector * FatData->SectorsPerCluster")

-- The test of one entry in GetDirEntryFromSector.
def refersTo (cluster : Nat) (entry : Lib.Memory) : Bool :=
  if isUnusedEntry entry then false
  else if isLongEntry entry then false
  else cluster == dirCluster entry

def findDirEntry (entries : Lib.Memory) (cluster : Nat) : (count : Nat) -> Nat -> Option Nat
  | 0, _ => none
  | count + 1, index =>
    if refersTo cluster (dirEntryAt entries index) then some index
    else findDirEntry entries cluster count (index + 1)

-- *EntryIndex and *DirEntry.
def getDirEntryFromSector (fatData : FatData) (entrySector dirFirstSector : Nat) : Driver (Nat × Lib.Memory) := do
  allocate
  let entries <- readCluster fatData entrySector
  let dirFstClusterToSearch <- clusterOfSector fatData dirFirstSector
  match findDirEntry entries dirFstClusterToSearch (clusterBytes fatData / sizeofDirEntry) 0 with
  | some index => pure (index, dirEntryAt entries index)
  | none => fail .elementNotFound

def writeDirEntryToSector (fatData : FatData) (entrySector entryIndex : Nat) (dirEntry : Lib.Memory) : Driver Unit := do
  allocate
  let entries <- readCluster fatData entrySector
  writeCluster fatData entrySector (setDirEntryAt entries entryIndex dirEntry)

end Hal9000.Fat32
