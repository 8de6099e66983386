import Hal9000.CommonLib.ListEntry

set_option autoImplicit false

namespace Hal9000

open LinkMemory

namespace Heap

inductive Status where
  | success
  | invalidParameter1
  | invalidParameter2
  | invalidParameter3
  | heapTooSmall
  | heapNoMoreMemory
  deriving DecidableEq, Repr

def heapMinimumSize : Nat := 64 * 1024
def heapMagic : Nat := 0xACE2302E
def heapFreePattern : UInt8 := 0xAF
def heapDefaultAlignment : Nat := 16

def poolAllocateZeroMemory : Nat := 0x2
def poolAllocatePanicIfFail : Nat := 0x4

def sizeofHeapHeader : Nat := 0x48
def sizeofHeapEntry : Nat := 0x20
def sizeofHeapTail : Nat := 4

def magicOf (mem : Lib.Memory) (heapEntry : Nat) : Nat := mem.load 4 heapEntry
def tagOf (mem : Lib.Memory) (heapEntry : Nat) : Nat := mem.load 4 (heapEntry + 0x4)
def sizeOf (mem : Lib.Memory) (heapEntry : Nat) : Nat := mem.load 4 (heapEntry + 0x8)
def offsetOf (mem : Lib.Memory) (heapEntry : Nat) : Nat := mem.load 4 (heapEntry + 0xC)
def listEntry (heapEntry : Nat) : Nat := ptrOffset heapEntry 0x10

-- CONTAINING_RECORD(entry, HEAP_ENTRY, ListEntry)
def containingRecord (entry : Nat) : Nat := ptrDiff entry 0x10

def int64 (value : Nat) : Int := if value < 2 ^ 63 then value else value - 2 ^ 64

end Heap

-- The scalar fields of HEAP_HEADER; the list head HeapAllocations is in memory, at offset 0x38 of the header.
structure Heap where
  mem : Lib.Memory
  heapSizeMaximum : Nat
  heapSizeRemaining : Nat
  baseAddress : Nat
  freeAddress : Nat
  heapNumberOfAllocations : Nat
  entryToRestartSearch : Nat

namespace Heap

def heapAllocations (h : Heap) : Nat := ptrOffset h.baseAddress 0x38

def clHeapInit (mem : Lib.Memory) (baseAddress memoryAvailable : Nat) : Status × Option Heap :=
  if baseAddress = 0 then (.invalidParameter1, none)
  else if memoryAvailable < heapMinimumSize then (.heapTooSmall, none)
  else
    let heapAllocations := ptrOffset baseAddress 0x38
    (.success, some {
      mem := initializeListHead mem heapAllocations
      heapSizeMaximum := memoryAvailable
      heapSizeRemaining := ptrDiff memoryAvailable sizeofHeapHeader
      baseAddress := baseAddress
      freeAddress := ptrOffset baseAddress sizeofHeapHeader
      heapNumberOfAllocations := 0
      entryToRestartSearch := heapAllocations })

def validateHeapEntry (mem : Lib.Memory) (heapEntry tag : Nat) : Kernel Bool := do
  assert (heapEntry != 0) "NULL != HeapEntry"
  assert (tag != 0) "0 != Tag"
  let totalSize := dword (sizeofHeapEntry + sizeOf mem heapEntry + sizeofHeapTail)
  let heapTail := ptrDiff (ptrOffset heapEntry totalSize) sizeofHeapTail
  return magicOf mem heapEntry == heapMagic && mem.load 4 heapTail == heapMagic &&
    tagOf mem heapEntry != 0 && tag == tagOf mem heapEntry

-- Returns the heap, *HeapEntry and the address behind the new entry, which is 0 if there is no room.
def initHeapEntry (h : Heap) (heapEntry tag size alignment : Nat) (addToLinkedList : Bool)
    (sizeAvailable : Nat) : Kernel (Heap × Nat × Nat) := do
  let unalignedDataAddress := ptrOffset heapEntry sizeofHeapEntry
  let dataAddress := alignAddressUpper unalignedDataAddress alignment
  let heapEntrySize := dword (size + sizeofHeapEntry + sizeofHeapTail)
  if sizeAvailable < ptrOffset (ptrDiff dataAddress unalignedDataAddress) heapEntrySize then
    return (h, heapEntry, 0)
  else
    let heapEntry := ptrDiff dataAddress sizeofHeapEntry
    let mem := h.mem.store 4 heapEntry heapMagic
    let mem := mem.store 4 (heapEntry + 0x8) size
    let mem := mem.store 4 (heapEntry + 0x4) tag
    let mem <- if addToLinkedList then insertTailList mem h.heapAllocations (listEntry heapEntry) else pure mem
    let mem := mem.store 4 (heapEntry + 0xC) (dword (ptrDiff dataAddress heapEntry))
    let heapTail := ptrOffset dataAddress (sizeOf mem heapEntry)
    let mem := mem.store 4 heapTail heapMagic
    return ({ h with
      mem := mem
      heapSizeRemaining := ptrDiff h.heapSizeRemaining heapEntrySize
      heapNumberOfAllocations := ptrOffset h.heapNumberOfAllocations 1 }, heapEntry,
      ptrOffset heapTail sizeofHeapTail)

structure Request where
  size : Nat
  tag : Nat
  alignment : Nat

def Request.sizeRequired (request : Request) : Nat :=
  qword (request.size + sizeofHeapEntry + sizeofHeapTail)

structure Search where
  previousEntry : Nat
  previousHeapEntry : Nat
  curEntry : Nat
  curHeapEntry : Nat
  deriving DecidableEq, Repr

def nextLoop (mem : Lib.Memory) (search : Search) : Search :=
  { previousEntry := search.curEntry
    previousHeapEntry := search.curHeapEntry
    curEntry := flink mem search.curEntry
    curHeapEntry := search.curHeapEntry }

def squeezeEntry (h : Heap) (request : Request) (search : Search) (startAddress sizeBetweenEntries : Nat) :
    Kernel (Heap × (Search ⊕ Nat)) := do
  let (h, newHeapEntry, tempAddress) <- initHeapEntry h startAddress request.tag request.size
    request.alignment false sizeBetweenEntries
  if tempAddress = 0 then return (h, .inl (nextLoop h.mem search))
  else
    let valid <- validateHeapEntry h.mem search.previousHeapEntry (tagOf h.mem search.previousHeapEntry)
    assert valid "_ValidateHeapEntry(pPreviousHeapEntry, pPreviousHeapEntry->Tag)"
    let mem <- insertHeadList h.mem search.previousEntry (listEntry newHeapEntry)
    return ({ h with mem := mem, entryToRestartSearch := listEntry newHeapEntry }, .inr newHeapEntry)

def searchRound (h : Heap) (request : Request) (search : Search) : Kernel (Heap × (Search ⊕ Nat)) :=
  if search.curEntry = h.heapAllocations ∨ search.previousEntry = h.heapAllocations then
    pure (h, .inl (nextLoop h.mem search))
  else do
    assert (search.previousHeapEntry != 0) "NULL != pPreviousHeapEntry"
    let search := { search with curHeapEntry := containingRecord search.curEntry }
    let startAddress := ptrOffset (ptrOffset (ptrOffset search.previousHeapEntry sizeofHeapEntry)
      (sizeOf h.mem search.previousHeapEntry)) sizeofHeapTail
    let sizeBetweenEntries := ptrDiff search.curHeapEntry startAddress
    if int64 request.sizeRequired ≤ int64 sizeBetweenEntries then
      squeezeEntry h request search startAddress sizeBetweenEntries
    else return (h, .inl (nextLoop h.mem search))

-- The fuel bounds the rounds: a search that never comes back to where it started has no result.
def searchLoop (request : Request) : (fuel : Nat) -> Heap -> Search -> Kernel (Heap × Option Nat)
  | 0, _, _ => .error "the search has not ended"
  | fuel + 1, h, search =>
    if h.entryToRestartSearch = search.curEntry then pure (h, none)
    else do
      match <- searchRound h request search with
      | (h, .inl search) => searchLoop request fuel h search
      | (h, .inr newHeapEntry) => return (h, some newHeapEntry)

def startSearch (h : Heap) : Search :=
  let previousEntry := flink h.mem h.entryToRestartSearch
  { previousEntry := previousEntry
    previousHeapEntry := containingRecord previousEntry
    curEntry := flink h.mem previousEntry
    curHeapEntry := 0 }

def mappedAddress (h : Heap) (heapEntry : Nat) : Nat := ptrOffset heapEntry (offsetOf h.mem heapEntry)

def remainingSizeUntilEnd (h : Heap) : Nat :=
  ptrDiff (ptrDiff (ptrOffset h.baseAddress h.heapSizeMaximum) h.freeAddress) sizeofHeapEntry

def remainingSizeBeforeCurrent (h : Heap) : Nat :=
  ptrDiff (ptrDiff h.heapSizeRemaining h.remainingSizeUntilEnd) sizeofHeapEntry

def allocateAtEnd (h : Heap) (request : Request) : Kernel (Heap × Nat × Nat) :=
  if int64 request.sizeRequired ≤ int64 h.remainingSizeUntilEnd then
    initHeapEntry h h.freeAddress request.tag request.size request.alignment true h.remainingSizeUntilEnd
  else pure (h, 0, 0)

def allocateInGap (fuel : Nat) (h : Heap) (request : Request) : Kernel (Heap × Status × Nat) :=
  if int64 h.remainingSizeBeforeCurrent < int64 request.sizeRequired then
    pure (h, .heapNoMoreMemory, 0)
  else do
    let empty <- isListEmpty h.mem h.heapAllocations
    assert (!empty) "!IsListEmpty(&(HeapHeader->HeapAllocations))"
    match <- searchLoop request fuel h h.startSearch with
    | (h, none) => return (h, .heapNoMoreMemory, 0)
    | (h, some newHeapEntry) => return (h, .success, h.mappedAddress newHeapEntry)

-- The __try block: the heap, the status and mappedAddress.
def allocate (fuel : Nat) (h : Heap) (request : Request) : Kernel (Heap × Status × Nat) :=
  if request.size = 0 then pure (h, .invalidParameter2, 0)
  else if request.tag = 0 then pure (h, .invalidParameter3, 0)
  else if h.heapSizeRemaining < request.sizeRequired then pure (h, .heapNoMoreMemory, 0)
  else do
    let (placed, newHeapEntry, tempAddress) <- h.allocateAtEnd request
    if tempAddress ≠ 0 then
      return ({ placed with freeAddress := tempAddress }, .success, placed.mappedAddress newHeapEntry)
    else placed.allocateInGap fuel request

def clHeapAllocatePoolWithTag (fuel : Nat) (h : Heap) (flags allocationSize tag allocationAlignment : Nat) :
    Kernel (Heap × Nat) := do
  let alignment := if allocationAlignment = 0 then heapDefaultAlignment else allocationAlignment
  let (h, status, mappedAddress) <- h.allocate fuel
    { size := allocationSize, tag := tag, alignment := alignment }
  assert (!isFlagOn flags poolAllocatePanicIfFail || status == .success) "SUCCEEDED(status)"
  assert (!isFlagOn flags poolAllocatePanicIfFail || mappedAddress != 0) "NULL != mappedAddress"
  if status = .success ∧ isFlagOn flags poolAllocateZeroMemory then
    return ({ h with mem := h.mem.fill mappedAddress allocationSize 0 }, mappedAddress)
  else return (h, mappedAddress)

def clHeapFreePoolWithTag (h : Heap) (memoryAddress tag : Nat) : Kernel Heap := do
  assert (memoryAddress != 0) "NULL != MemoryAddress"
  assert (tag != 0) "0 != Tag"
  let heapEntry := ptrDiff memoryAddress sizeofHeapEntry
  let endAddress := ptrOffset (ptrOffset memoryAddress (sizeOf h.mem heapEntry)) sizeofHeapTail
  let valid <- validateHeapEntry h.mem heapEntry tag
  assert valid "_ValidateHeapEntry(pHeapEntry,Tag)"
  let back := blink h.mem (listEntry heapEntry)
  let previousAddress :=
    if h.heapAllocations = back then ptrOffset h.baseAddress sizeofHeapHeader
    else
      let previousHeapEntry := containingRecord back
      ptrOffset (ptrOffset (ptrOffset previousHeapEntry sizeofHeapEntry) (sizeOf h.mem previousHeapEntry))
        sizeofHeapTail
  let (mem, _) <- removeEntryList h.mem (listEntry heapEntry)
  let heapEntrySize := qword (sizeOf mem heapEntry + sizeofHeapEntry + sizeofHeapTail)
  assert (decide (heapEntrySize ≤ maxDword)) "heapEntrySize <= MAX_DWORD"
  let mem := mem.fill heapEntry (dword heapEntrySize) heapFreePattern
  return { h with
    mem := mem
    heapSizeRemaining := ptrOffset h.heapSizeRemaining heapEntrySize
    heapNumberOfAllocations := ptrDiff h.heapNumberOfAllocations 1
    freeAddress := if endAddress = h.freeAddress then previousAddress else h.freeAddress }

end Heap

end Hal9000
