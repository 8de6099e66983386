import Hal9000.CommonLib.Bitmap

set_option autoImplicit false

namespace Hal9000.Pmm

inductive Status where
  | success
  | invalidParameter1
  | invalidParameter2
  | invalidParameter3
  | invalidParameter4
  deriving DecidableEq, Repr

def mbSize : Nat := 1024 * 1024

def memoryMapTypeUsableRAM : Nat := 1

def memoryMapTypeMax : Nat := 6

def memoryMapEntryEaValidEntry : Nat := 1

-- INT15_MEMORY_MAP_ENTRY
structure MemoryMapEntry where
  baseAddress : Nat
  length : Nat
  type : Nat
  extendedAttributes : Nat
  deriving DecidableEq, Repr

-- MEMORY_REGION_LIST
structure MemoryRegion where
  type : Nat := 0
  numberOfEntries : Nat := 0
  deriving DecidableEq, Repr

-- PMM_DATA without its lock: nobody competes during initialization.
structure PmmData where
  highestPhysicalAddressAvailable : Nat := 0
  highestPhysicalAddressPresent : Nat := 0
  physicalMemorySize : Nat := 0
  memoryRegionList : List MemoryRegion
  allocationBitmap : Bitmap := {}
  deriving DecidableEq, Repr

def pmmPreinitSystem : PmmData where
  memoryRegionList := (List.range memoryMapTypeMax).map fun i =>
    if memoryMapTypeUsableRAM ≤ i then { type := i } else {}

def pmmReserveMemoryEx (memory : Memory) (data : PmmData) (noOfFrames minPhysAddr : Nat) : Kernel (Nat × Memory) :=
  if noOfFrames = 0 then pure (0, memory)
  else if !isAddressAligned minPhysAddr pageSize then pure (0, memory)
  else
    let startIdx := minPhysAddr / pageSize
    if startIdx > maxDword then pure (0, memory)
    else do
      let (idx, memory) ← data.allocationBitmap.scanFromAndFlip memory (dword startIdx) noOfFrames false
      if idx = maxDword then pure (0, memory)
      else pure (qword (idx * pageSize), memory)

def pmmReleaseMemory (memory : Memory) (data : PmmData) (physicalAddr noOfFrames : Nat) : Kernel Memory := do
  assert (isAddressAligned physicalAddr pageSize) "IsAddressAligned(PhysicalAddr, PAGE_SIZE)"
  let index := physicalAddr / pageSize
  assert (decide (index ≤ maxDword)) "index <= MAX_DWORD"
  data.allocationBitmap.setBitsValue memory (dword index) noOfFrames false

-- The locals of _PmmDetermineMemoryLimits and the regions it counts in.
structure Limits where
  sizeOfAvailableMemory : Nat := 0
  highestMemoryAddressPresent : Nat := 0
  highestMemoryAddressAvailable : Nat := 0
  memoryRegions : List MemoryRegion

def countEntry (memoryRegions : List MemoryRegion) (memoryType : Nat) : Kernel (List MemoryRegion) :=
  if memoryType < memoryRegions.length then
    pure (memoryRegions.modify memoryType fun region =>
      { region with numberOfEntries := dword (region.numberOfEntries + 1) })
  else
    -- The array has no such element; C gives the increment no meaning.
    .error "MemoryRegions[memoryType].NumberOfEntries++"

def isValid (entry : MemoryMapEntry) : Bool := isBooleanFlagOn entry.extendedAttributes memoryMapEntryEaValidEntry

def limitsOfEntry (limits : Limits) (entry : MemoryMapEntry) : Kernel Limits := do
  let last := qword (entry.baseAddress + entry.length)
  let limits := if last > limits.highestMemoryAddressPresent
    then { limits with highestMemoryAddressPresent := last } else limits
  if !isValid entry then
    pure limits
  else
    let memoryRegions ← countEntry limits.memoryRegions entry.type
    let limits := { limits with memoryRegions := memoryRegions }
    if memoryMapTypeUsableRAM ≠ entry.type then
      pure limits
    else
      let limits := if last > limits.highestMemoryAddressAvailable
        then { limits with highestMemoryAddressAvailable := last } else limits
      pure { limits with sizeOfAvailableMemory := qword (limits.sizeOfAvailableMemory + entry.length) }

def pmmDetermineMemoryLimits (memoryMap : List MemoryMapEntry) (memoryRegions : List MemoryRegion) :
    Kernel Limits := do
  assert (memoryMap.length != 0) "0 != NoOfEntries"
  memoryMap.foldlM limitsOfEntry { memoryRegions := memoryRegions }

def isUsable (entry : MemoryMapEntry) : Bool :=
  isValid entry && memoryMapTypeUsableRAM == entry.type && !decide (entry.baseAddress < 1 * mbSize)

def freeEntry (data : PmmData) (memory : Memory) (entry : MemoryMapEntry) : Kernel Memory :=
  if !isValid entry then pure memory
  else if memoryMapTypeUsableRAM ≠ entry.type then pure memory
  else if entry.baseAddress < 1 * mbSize then pure memory
  else do
    let physAddr := alignAddressUpper entry.baseAddress pageSize
    let noOfFrames := entry.length / pageSize
    assert (decide (noOfFrames ≤ maxDword)) "noOfFrames <= MAX_DWORD"
    pmmReleaseMemory memory data physAddr (dword noOfFrames)

-- The new memory, the allocator with its bitmap and *SizeReserved.
def pmmInitializeAllocationBitmap (memory : Memory) (data : PmmData) (currentVirtualAddress highestMemoryAddress : Nat)
    (memoryEntries : List MemoryMapEntry) : Kernel (Memory × PmmData × Nat) := do
  assert (0 != currentVirtualAddress) "NULL != CurrentVirtualAddress"
  assert (0 != highestMemoryAddress) "0 != HighestMemoryAddress"
  let noOfPhysicalFrames := highestMemoryAddress / pageSize
  assert (decide (noOfPhysicalFrames ≤ maxDword)) "noOfPhysicalFrames <= MAX_DWORD"
  let bitmap ← Bitmap.preinit (dword noOfPhysicalFrames)
  let (memory, bitmap) ← bitmap.initEx memory currentVirtualAddress false
  let data := { data with allocationBitmap := bitmap }
  let (_, memory) ← pmmReserveMemoryEx memory data bitmap.bitCount 0
  let memory ← memoryEntries.foldlM (freeEntry data) memory
  pure (memory, data, bitmap.bufferSize)

def pmmInitSystem (memory : Memory) (data : PmmData) (baseAddress : Nat) (memoryEntries : Option (List MemoryMapEntry))
    (sizeReserved : Nat) : Kernel (Status × Memory × PmmData × Nat) :=
  if baseAddress = 0 then pure (.invalidParameter1, memory, data, 0)
  else match memoryEntries with
  | none => pure (.invalidParameter2, memory, data, 0)
  | some entries =>
    if entries.length = 0 then pure (.invalidParameter3, memory, data, 0)
    else if sizeReserved = 0 then pure (.invalidParameter4, memory, data, 0)
    else do
      let limits ← pmmDetermineMemoryLimits entries data.memoryRegionList
      let data := { data with
        physicalMemorySize := limits.sizeOfAvailableMemory
        highestPhysicalAddressPresent := limits.highestMemoryAddressPresent
        highestPhysicalAddressAvailable := limits.highestMemoryAddressAvailable
        memoryRegionList := limits.memoryRegions }
      let (memory, data, size) ←
        pmmInitializeAllocationBitmap memory data baseAddress limits.highestMemoryAddressPresent entries
      pure (.success, memory, data, dword (alignAddressUpper size pageSize))

end Hal9000.Pmm
