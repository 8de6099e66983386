import Hal9000.CommonLib.ListEntry

set_option autoImplicit false

namespace Hal9000

open LinkMemory

structure HashTable where
  maxKeys : Nat := 0
  keySize : Nat := 0
  numberOfElements : Nat := 0
  offsetToKey : Int := 0
  hashFunc : Nat -> Nat -> Nat -> Nat := fun _ _ _ => 0
  tableData : Nat := 0

namespace HashTable

def sizeofHashEntry : Nat := 0x10

-- &HashTable->TableData->Entries[index]
def entry (table : HashTable) (index : Nat) : Nat := table.tableData + sizeofHashEntry * index

-- (PBYTE)Element + HashTable->OffsetToKey, a sum of a QWORD and a signed number.
def obtainKeyAddress (table : HashTable) (element : Nat) : Nat :=
  ((element + table.offsetToKey) % 2 ^ 64).toNat

-- The loop of cl_rmemcmp over the bytes at count - 1, ..., 0.
def rmemcmpLoop (mem : Lib.Memory) (ptr1 ptr2 : Nat) : Nat -> Int
  | 0 => 0
  | count + 1 =>
    if mem (ptr1 + count) ≠ mem (ptr2 + count) then
      (mem (ptr1 + count)).toNat - (mem (ptr2 + count)).toNat
    else rmemcmpLoop mem ptr1 ptr2 count

def rmemcmp (mem : Lib.Memory) (ptr1 ptr2 size : Nat) : Int :=
  if ptr1 = 0 ∨ ptr2 = 0 then size
  else rmemcmpLoop mem ptr1 ptr2 (dword (size + (2 ^ 32 - 1)) + 1)

structure SearchCtx where
  placeholderEntry : Nat
  result : Int

def searchElem (mem : Lib.Memory) (table : HashTable) (firstElem key : Nat) : SearchCtx :=
  { placeholderEntry := firstElem
    result := rmemcmp mem (table.obtainKeyAddress firstElem) key table.keySize }

def listSearchLoop (mem : Lib.Memory) (table : HashTable) (listHead key : Nat) :
    (fuel : Nat) -> Nat -> SearchCtx -> Kernel (Option Nat × SearchCtx)
  | 0, _, _ => .error "the search has not ended"
  | fuel + 1, curEntry, ctx =>
    if curEntry = listHead then pure (none, ctx)
    else
      let ctx := searchElem mem table curEntry key
      if ctx.result = 0 then pure (some curEntry, ctx)
      else if ctx.result > 0 then pure (none, ctx)
      else listSearchLoop mem table listHead key fuel (flink mem curEntry) ctx

def listSearchForElement (fuel : Nat) (mem : Lib.Memory) (table : HashTable) (listHead key : Nat)
    (ctx : SearchCtx) : Kernel (Option Nat × SearchCtx) := do
  assert (validateListEntry mem listHead) "_ValidateListEntry(ListHead)"
  listSearchLoop mem table listHead key fuel (flink mem listHead) ctx

-- Whether the key is in the bucket, and *Placeholder.
def searchKeyInBucket (fuel : Nat) (mem : Lib.Memory) (table : HashTable) (bucket key : Nat) :
    Kernel (Bool × Nat) := do
  assert (key != 0) "Key != NULL"
  let (result, ctx) <- listSearchForElement fuel mem table bucket key { placeholderEntry := bucket, result := 0 }
  assert (result.all (· == ctx.placeholderEntry)) "pResult == searchCtx.PlaceholderEntry"
  assert (result.isNone || ctx.result == 0) "searchCtx.Result == 0"
  let placeholder := if ctx.result > 0 then blink mem ctx.placeholderEntry else ctx.placeholderEntry
  pure (result.isSome, placeholder)

def hashTablePreinit (maxKeys keySize : Nat) : Kernel (HashTable × Nat) := do
  assert (decide (0 < maxKeys) && decide (maxKeys < maxDword / sizeofHashEntry))
    "0 < MaxKeys && MaxKeys < MAX_DWORD / sizeof(HASH_ENTRY)"
  pure ({ maxKeys := maxKeys, keySize := keySize }, maxKeys * sizeofHashEntry)

def initializeEntries (mem : Lib.Memory) (table : HashTable) : Nat -> Lib.Memory
  | 0 => mem
  | count + 1 => initializeListHead (initializeEntries mem table count) (table.entry count)

def hashTableInit (mem : Lib.Memory) (table : HashTable) (tableData : Nat) (hashFunction : Nat -> Nat -> Nat -> Nat)
    (offsetToKey : Int) : Kernel (Lib.Memory × HashTable) := do
  assert (tableData != 0) "TableData != NULL"
  let table := { table with tableData := tableData, hashFunc := hashFunction, offsetToKey := offsetToKey }
  pure (initializeEntries mem table table.maxKeys, table)

-- HashTable->HashFunc on the key at an address.
def hashOf (mem : Lib.Memory) (table : HashTable) (key : Nat) : Nat :=
  table.hashFunc (mem.load table.keySize key) table.keySize table.maxKeys

def hashTableInsert (fuel : Nat) (mem : Lib.Memory) (table : HashTable) (element : Nat) :
    Kernel (Lib.Memory × HashTable × Option Nat) := do
  assert (element != 0) "Element != NULL"
  let key := table.obtainKeyAddress element
  let hIndex := table.hashOf mem key
  assert (decide (hIndex < table.maxKeys)) "hIndex < HashTable->MaxKeys"
  let (elementAlreadyInHash, placeToInsertInBucket) <- searchKeyInBucket fuel mem table (table.entry hIndex) key
  let mem <- insertHeadList mem placeToInsertInBucket element
  if elementAlreadyInHash then
    let (mem, _) <- removeEntryList mem placeToInsertInBucket
    pure (mem, table, some placeToInsertInBucket)
  else
    pure (mem, { table with numberOfElements := dword (table.numberOfElements + 1) }, none)

def hashTableLookup (fuel : Nat) (mem : Lib.Memory) (table : HashTable) (key : Nat) : Kernel (Option Nat) := do
  assert (key != 0) "Key != NULL"
  let hIndex := table.hashOf mem key
  let (elementInHash, result) <- searchKeyInBucket fuel mem table (table.entry hIndex) key
  pure (if elementInHash then some result else none)

def hashTableRemoveEntry (mem : Lib.Memory) (table : HashTable) (element : Nat) :
    Kernel (Lib.Memory × HashTable) := do
  assert (element != 0) "Element != NULL"
  let (mem, _) <- removeEntryList mem element
  pure (mem, { table with numberOfElements := dword (table.numberOfElements + (2 ^ 32 - 1)) })

def hashTableRemove (fuel : Nat) (mem : Lib.Memory) (table : HashTable) (key : Nat) :
    Kernel (Lib.Memory × HashTable × Option Nat) := do
  assert (key != 0) "Key != NULL"
  match <- hashTableLookup fuel mem table key with
  | none => pure (mem, table, none)
  | some hashEntry =>
    let (mem, table) <- hashTableRemoveEntry mem table hashEntry
    pure (mem, table, some hashEntry)

structure HashIterator where
  keyIndex : Nat
  listHead : Nat
  currentEntry : Nat

-- ListIteratorInit on the entry of a key. Past the last key it reads a link that nobody looks at.
def iteratorAt (mem : Lib.Memory) (table : HashTable) (keyIndex : Nat) : HashIterator :=
  { keyIndex := keyIndex
    listHead := table.entry keyIndex
    currentEntry := flink mem (table.entry keyIndex) }

def hashTableIteratorInit (mem : Lib.Memory) (table : HashTable) : HashIterator := iteratorAt mem table 0

def listIteratorNext (mem : Lib.Memory) (it : HashIterator) : HashIterator × Option Nat :=
  if it.currentEntry ≠ it.listHead then
    ({ it with currentEntry := flink mem it.currentEntry }, some it.currentEntry)
  else (it, none)

-- The loop of HashTableIteratorNext, with the keys from `it.keyIndex` on still to go.
def iteratorNextLoop (mem : Lib.Memory) (table : HashTable) : (keys : Nat) -> HashIterator -> HashIterator × Option Nat
  | 0, it => (it, none)
  | keys + 1, it =>
    match listIteratorNext mem it with
    | (it, some result) => (it, some result)
    | (it, none) => iteratorNextLoop mem table keys (iteratorAt mem table (it.keyIndex + 1))

def hashTableIteratorNext (mem : Lib.Memory) (table : HashTable) (it : HashIterator) : HashIterator × Option Nat :=
  iteratorNextLoop mem table (table.maxKeys - it.keyIndex) it

-- The loop of HashTableClear; the last component lists the elements the free function was called on.
def clearLoop (freeFunction : Option (Lib.Memory -> Nat -> Lib.Memory)) :
    (fuel : Nat) -> Lib.Memory -> HashTable -> HashIterator -> Kernel (Lib.Memory × HashTable × List Nat)
  | 0, _, _, _ => .error "the loop has not ended"
  | fuel + 1, mem, table, it =>
    match hashTableIteratorNext mem table it with
    | (_, none) => pure (mem, table, [])
    | (it, some entry) => do
      let (mem, table) <- hashTableRemoveEntry mem table entry
      match freeFunction with
      | none => clearLoop freeFunction fuel mem table it
      | some free =>
        let (mem, table, freed) <- clearLoop freeFunction fuel (free mem entry) table it
        pure (mem, table, entry :: freed)

def hashTableClear (fuel : Nat) (mem : Lib.Memory) (table : HashTable)
    (freeFunction : Option (Lib.Memory -> Nat -> Lib.Memory)) : Kernel (Lib.Memory × HashTable × List Nat) :=
  clearLoop freeFunction fuel mem table (hashTableIteratorInit mem table)

end HashTable

end Hal9000
