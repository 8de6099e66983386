import Hal9000.CommonLib.Links
import Hal9000.CommonLib.RefCount
import Mathlib.Data.List.Nodup

set_option autoImplicit false

namespace Hal9000.Threads

open LinkMemory

inductive ListNode where
  | null
  | allThreadsList
  | readyThreadsList
  | threadList (process : Nat)
  | allList (thread : Nat)
  | readyList (thread : Nat)
  | processList (thread : Nat)
  deriving DecidableEq, Repr

inductive ThreadState where
  | running
  | ready
  | blocked
  | dying
  deriving DecidableEq, Repr

inductive Status where
  | success
  | invalidParameter1
  | invalidParameter3
  | invalidParameter5
  | invalidParameter6
  | heapInsufficientResources
  | memoryCannotBeCommited
  deriving DecidableEq, Repr

structure InitialState where
  startFunction : Nat
  firstArgument : Nat
  secondArgument : Nat
  userStack : Option Nat
  deriving DecidableEq, Repr

-- `THREAD` as zeroed memory at first; pointers are addresses, 0 for NULL.
structure Thread where
  referenceCount : Nat := 0
  self : Nat := 0
  terminationEvt : Option Bool := none
  stack : Nat := 0
  initialStackBase : Nat := 0
  stackSize : Nat := 0
  name : Nat := 0
  nameText : List UInt8 := []
  id : Nat := 0
  state : ThreadState := .running
  priority : Nat := 0
  userStack : Nat := 0
  process : Nat := 0
  initialState : Option InitialState := none
  deriving DecidableEq, Repr

structure Process where
  referenceCount : Nat
  numberOfThreads : Nat
  activeThreads : Nat
  kernelSpace : Bool
  addressOfEntryPoint : Nat := 0
  numberOfArguments : Nat := 0
  deriving DecidableEq, Repr

structure System where
  threads : Nat -> Thread
  processes : Nat -> Process
  links : Links ListNode
  allocations : List Nat
  currentTid : Nat
  idleThread : Nat

-- What the four allocations answer, 0 where one fails, and the destructor of processes.
structure Allocator where
  thread : Nat
  kernelStack : Nat
  name : Nat
  userStack : Nat
  processDestroy : System -> Nat -> System

def threadPriorityMaximum : Nat := 31
def stackDefaultSize : Nat := 8 * pageSize
def tidIncrement : Nat := 4
def shadowStackSize : Nat := 0x20
def sizeofInterruptStack : Nat := 0x28

namespace System

def setThread (system : System) (thread : Nat) (value : Thread) : System :=
  { system with threads := Function.update system.threads thread value }

def setProcess (system : System) (process : Nat) (value : Process) : System :=
  { system with processes := Function.update system.processes process value }

def allocated (system : System) (address : Nat) : System :=
  { system with allocations := address :: system.allocations }

def freed (system : System) (address : Nat) : System :=
  { system with allocations := system.allocations.erase address }

end System

@[simp] theorem System.setThread_self (system : System) (thread : Nat) (value : Thread) :
    (system.setThread thread value).threads thread = value := Function.update_self ..

def processReference (system : System) (process : Nat) : Kernel System := do
  let count <- rfcReference (system.processes process).referenceCount
  pure (system.setProcess process { system.processes process with referenceCount := count })

def processDereference (allocator : Allocator) (system : System) (process : Nat) : Kernel System := do
  let count <- rfcDereference (system.processes process).referenceCount
  let system := system.setProcess process { system.processes process with referenceCount := count }
  pure (if count = 0 then allocator.processDestroy system process else system)

def processInsertThreadInList (system : System) (process thread : Nat) : Kernel System := do
  let system := system.setThread thread { system.threads thread with process := process }
  assert (decide ((system.processes process).numberOfThreads < maxDword)) "Process->NumberOfThreads < MAX_DWORD"
  let numberOfThreads := dword ((system.processes process).numberOfThreads + 1)
  let activeThreads := dword ((system.processes process).activeThreads + 1)
  assert (decide (activeThreads ≤ numberOfThreads)) "activeThreads <= Process->NumberOfThreads"
  let links <- insertTailList system.links (.threadList process) (.processList thread)
  let system := system.setProcess process
    { system.processes process with numberOfThreads := numberOfThreads, activeThreads := activeThreads }
  processReference { system with links := links } process

def processRemoveThreadFromList (allocator : Allocator) (system : System) (thread : Nat) : Kernel System := do
  let process := (system.threads thread).process
  assert (process != 0) "pProcess != NULL"
  let remainingThreads := dword ((system.processes process).numberOfThreads + maxDword)
  assert (remainingThreads != maxDword) "remainingThreads != MAX_DWORD"
  let (links, _) <- removeEntryList system.links (.processList thread)
  let system := system.setProcess process { system.processes process with numberOfThreads := remainingThreads }
  let system <- processDereference allocator { system with links := links } process
  if remainingThreads = 0 then processDereference allocator system process else pure system

-- The destructor of _ThreadInit, called when the reference count reaches 0.
def threadDestroy (allocator : Allocator) (system : System) (thread : Nat) : Kernel System := do
  let (links, _) <- removeEntryList system.links (.allList thread)
  let system := { system with links := links }
  let userStack := (system.threads thread).userStack
  let system :=
    if userStack ≠ 0 then (system.freed userStack).setThread thread { system.threads thread with userStack := 0 }
    else system
  let system <- processRemoveThreadFromList allocator system thread
  let name := (system.threads thread).name
  let system :=
    if name ≠ 0 then (system.freed name).setThread thread { system.threads thread with name := 0 } else system
  let stack := (system.threads thread).stack
  let system :=
    if stack ≠ 0 then (system.freed stack).setThread thread { system.threads thread with stack := 0 } else system
  pure (system.freed thread)

def threadReference (system : System) (thread : Nat) : Kernel System := do
  let count <- rfcReference (system.threads thread).referenceCount
  pure (system.setThread thread { system.threads thread with referenceCount := count })

def threadDereference (allocator : Allocator) (system : System) (thread : Nat) : Kernel System := do
  let count <- rfcDereference (system.threads thread).referenceCount
  let system := system.setThread thread { system.threads thread with referenceCount := count }
  if count = 0 then threadDestroy allocator system thread else pure system

def zeroedThread (system : System) (thread : Nat) : System :=
  { (system.allocated thread).setThread thread
      { referenceCount := rfcInit, self := thread, terminationEvt := some false } with
    links := ((system.links.point (.allList thread) .null).point (.readyList thread) .null).point
      (.processList thread) .null }

def threadSystemGetNextTid (system : System) : Nat × System :=
  (system.currentTid, { system with currentTid := qword (system.currentTid + tidIncrement) })

def threadInit (allocator : Allocator) (system : System) (name : List UInt8) (priority : Nat)
    (allocateKernelStack : Bool) : Kernel (System × Status × Nat) := do
  assert (decide (priority ≤ threadPriorityMaximum))
    "ThreadPriorityLowest <= Priority && Priority <= ThreadPriorityMaximum"
  let thread := allocator.thread
  if thread = 0 then pure (system, .heapInsufficientResources, 0)
  else
    let system := zeroedThread system thread
    if allocateKernelStack && allocator.kernelStack == 0 then
      let system <- threadDereference allocator system thread
      pure (system, .memoryCannotBeCommited, 0)
    else
      let stack := allocator.kernelStack
      let system :=
        if allocateKernelStack then
          (system.allocated stack).setThread thread
            { system.threads thread with stack := stack, initialStackBase := stack, stackSize := stackDefaultSize }
        else system
      if allocator.name = 0 then
        let system <- threadDereference allocator system thread
        pure (system, .heapInsufficientResources, 0)
      else
        let (id, system) := threadSystemGetNextTid (system.allocated allocator.name)
        let system := system.setThread thread
          { system.threads thread with
            name := allocator.name
            nameText := name
            id := id
            state := .blocked
            priority := priority }
        let links <- insertTailList system.links .allThreadsList (.allList thread)
        pure ({ system with links := links }, .success, thread)

def threadSetupMainThreadUserStack (initialStack process : Nat) : Kernel (Status × Nat) := do
  assert (initialStack != 0) "InitialStack != NULL"
  assert (process != 0) "Process != NULL"
  pure (.success, initialStack)

-- `sizeofProcessorState` is the size of `COMPLETE_PROCESSOR_STATE`.
def threadSetupInitialState (sizeofProcessorState : Nat) (value : Thread) (startFunction firstArgument
    secondArgument : Nat) (kernelStack : Bool) : Kernel (Status × Thread) := do
  assert (startFunction != 0) "NULL != StartFunction"
  let stack := ptrDiff (ptrDiff value.stack ((4 + 1) * 8)) sizeofInterruptStack
  assert (kernelStack || value.userStack != 0) "Thread->UserStack != NULL"
  pure (.success,
    { value with
      stack := ptrDiff (ptrDiff stack 8) sizeofProcessorState
      initialState := some
        { startFunction := startFunction
          firstArgument := firstArgument
          secondArgument := secondArgument
          userStack := if kernelStack then none else some value.userStack } })

def threadUnblock (system : System) (thread : Nat) : Kernel System := do
  assert ((system.threads thread).state == .blocked) "ThreadStateBlocked == Thread->State"
  let links <- insertTailList system.links .readyThreadsList (.readyList thread)
  pure { system.setThread thread { system.threads thread with state := .ready } with links := links }

-- The addresses of `_ThreadKernelFunction` and the size of the state that a thread switch restores.
structure Image where
  threadKernelFunction : Nat
  sizeofProcessorState : Nat

structure Request where
  name : Option (List UInt8)
  priority : Nat
  function : Nat
  context : Nat
  thread : Nat
  process : Nat

def threadStart (image : Image) (system : System) (thread startFunction firstArg secondArg : Nat)
    (kernelSpace : Bool) : Kernel (System × Status × Nat) := do
  let (_, value) <- threadSetupInitialState image.sizeofProcessorState (system.threads thread) startFunction firstArg
    secondArg kernelSpace
  let system := system.setThread thread value
  if system.idleThread = 0 then
    let system := system.setThread thread { system.threads thread with state := .ready }
    pure ({ system with idleThread := thread }, .success, thread)
  else
    let system <- threadUnblock system thread
    pure (system, .success, thread)

def threadStartUser (allocator : Allocator) (image : Image) (system : System) (request : Request) (thread : Nat) :
    Kernel (System × Status × Nat) := do
  let process := request.process
  if allocator.userStack = 0 then pure (system, .memoryCannotBeCommited, 0)
  else
    let system := (system.allocated allocator.userStack).setThread thread
      { system.threads thread with userStack := allocator.userStack }
    let initialThread := request.function == (system.processes process).addressOfEntryPoint
    if initialThread then do
      assert ((system.processes process).numberOfThreads == 1) "Process->NumberOfThreads == 1"
      let (_, userStack) <- threadSetupMainThreadUserStack (system.threads thread).userStack process
      let system := system.setThread thread { system.threads thread with userStack := userStack }
      threadStart image system thread (system.processes process).addressOfEntryPoint
        (system.processes process).numberOfArguments (ptrOffset userStack (shadowStackSize + 8)) false
    else
      let userStack := ptrDiff (system.threads thread).userStack (shadowStackSize + 8)
      let system := system.setThread thread { system.threads thread with userStack := userStack }
      threadStart image system thread request.function request.context 0 false

-- The last component is what `*Thread` has become, 0 where it was not written or is NULL.
def threadCreateEx (allocator : Allocator) (image : Image) (hasPcpu : Bool) (system : System) (request : Request) :
    Kernel (System × Status × Nat) :=
  match request.name with
  | none => pure (system, .invalidParameter1, 0)
  | some name =>
    if request.function = 0 then pure (system, .invalidParameter3, 0)
    else if request.thread = 0 then pure (system, .invalidParameter5, 0)
    else if request.process = 0 then pure (system, .invalidParameter6, 0)
    else do
      assert hasPcpu "NULL != pCpu"
      let (system, status, thread) <- threadInit allocator system name request.priority true
      if status ≠ .success then pure (system, status, 0)
      else do
        let system <- processInsertThreadInList system request.process thread
        let system <- threadReference system thread
        if (system.processes request.process).kernelSpace then
          threadStart image system thread image.threadKernelFunction request.function request.context true
        else threadStartUser allocator image system request thread

structure ListsThreads (system : System) (head : ListNode) (entry : Nat -> ListNode) (threads : List Nat) : Prop where
  ring : Lib.Ring (flink system.links) (blink system.links) head (threads.map entry)
  distinct : threads.Nodup

structure Enrolled (system : System) (process : Nat) (all members ready : List Nat)
    (numberOfThreads activeThreads referenceCount : Nat) : Prop where
  all : ListsThreads system .allThreadsList .allList all
  members : ListsThreads system (.threadList process) .processList members
  ready : ListsThreads system .readyThreadsList .readyList ready
  numberOfThreads : (system.processes process).numberOfThreads = numberOfThreads
  activeThreads : (system.processes process).activeThreads = activeThreads
  referenceCount : (system.processes process).referenceCount = referenceCount

-- A state between two calls. What lies at NULL reads as NULL, so that the check of an entry that was never linked
-- fails; without the check the kernel faults there.
structure Consistent (system : System) (process : Nat) (all members ready : List Nat) : Prop where
  enrolled : Enrolled system process all members ready members.length (system.processes process).activeThreads
    (system.processes process).referenceCount
  known : forall thread, thread ∈ members ∨ thread ∈ ready -> thread ∈ all
  live : forall thread, thread ∈ all -> thread ∈ system.allocations
  active : (system.processes process).activeThreads ≤ (system.processes process).numberOfThreads
  references : (system.processes process).referenceCount < 2 ^ 32
  null : flink system.links .null = .null ∧ blink system.links .null = .null

structure Unchanged (before after : System) (process : Nat) (all members : List Nat) : Prop where
  all : ListsThreads after .allThreadsList .allList all
  members : ListsThreads after (.threadList process) .processList members
  numberOfThreads : (after.processes process).numberOfThreads = (before.processes process).numberOfThreads
  activeThreads : (after.processes process).activeThreads = (before.processes process).activeThreads
  referenceCount : (after.processes process).referenceCount = (before.processes process).referenceCount
  allocations : after.allocations = before.allocations

structure Created (before after : System) (process thread : Nat) (all members : List Nat) : Prop where
  all : ListsThreads after .allThreadsList .allList (all ++ [thread])
  members : ListsThreads after (.threadList process) .processList (members ++ [thread])
  numberOfThreads : (after.processes process).numberOfThreads = (before.processes process).numberOfThreads + 1
  activeThreads : (after.processes process).activeThreads = (before.processes process).activeThreads + 1
  referenceCount : (after.processes process).referenceCount = (before.processes process).referenceCount + 1

-- The check that RemoveEntryList makes of the entry it is to take out.
def unlinkCheck : String := "_ValidateListEntry(Entry)"

structure AllOrNothing (allocator : Allocator) (image : Image) (hasPcpu : Bool) (before : System) (request : Request)
    (all members : List Nat) : Prop where
  unlinks : threadCreateEx allocator image hasPcpu before request ≠ .error unlinkCheck
  failed : forall after status thread,
    threadCreateEx allocator image hasPcpu before request = .ok (after, status, thread) -> status ≠ .success ->
    Unchanged before after request.process all members
  succeeded : forall after thread,
    threadCreateEx allocator image hasPcpu before request = .ok (after, .success, thread) ->
    Created before after request.process thread all members

structure Accepted (hasPcpu : Bool) (request : Request) : Prop where
  name : request.name ≠ none
  function : request.function ≠ 0
  thread : request.thread ≠ 0
  process : request.process ≠ 0
  pcpu : hasPcpu = true
  priority : request.priority ≤ threadPriorityMaximum

def CanInsert (process : Process) : Prop :=
  process.numberOfThreads < maxDword ∧ process.referenceCount + 1 < maxDword

instance (process : Process) : Decidable (CanInsert process) := inferInstanceAs (Decidable (_ ∧ _))

-- Once the THREAD is allocated, no allocation that the call gets to fails.
def LaterAllocationsSucceed (allocator : Allocator) (hasPcpu : Bool) (before : System) (request : Request) : Prop :=
  Accepted hasPcpu request -> allocator.thread ≠ 0 ->
    allocator.kernelStack ≠ 0 ∧ allocator.name ≠ 0 ∧
      ((before.processes request.process).kernelSpace = false -> CanInsert (before.processes request.process) ->
        allocator.userStack ≠ 0)

section Lists

variable {system : System} {head : ListNode} {entry : Nat -> ListNode} {threads : List Nat} {thread : Nat}

theorem insertTailList_lists (lists : ListsThreads system head entry threads) (node : ListNode) :
    insertTailList system.links head node = .ok (insertedTail system.links head node) :=
  insertTailList_eq (validateListEntry_of_ring lists.ring List.mem_cons_self)

theorem ListsThreads.insert (lists : ListsThreads system head entry threads) (injective : entry.Injective)
    (headOutside : forall other, entry other ≠ head) (fresh : thread ∉ threads) :
    ListsThreads { system with links := insertedTail system.links head (entry thread) } head entry
      (threads ++ [thread]) := by
  have outside : entry thread ∉ threads.map entry := by
    intro member
    obtain ⟨other, inside, same⟩ := List.mem_map.mp member
    exact fresh (injective same ▸ inside)
  have headFresh : head ∉ threads.map entry := by
    intro member
    obtain ⟨other, _, same⟩ := List.mem_map.mp member
    exact headOutside other same
  constructor
  · rw [List.map_append, List.map_singleton]
    refine insertedTail_ring lists.ring ?_ (Links.separate _)
    refine List.nodup_cons.mpr ⟨?_, List.nodup_cons.mpr ⟨headFresh, lists.distinct.map injective⟩⟩
    rw [List.mem_cons]
    exact not_or.mpr ⟨headOutside thread, outside⟩
  · refine List.nodup_append.mpr ⟨lists.distinct, List.nodup_singleton _, fun other inside same member => ?_⟩
    rw [List.mem_singleton.mp member]
    rintro rfl
    exact fresh inside

theorem ListsThreads.keep {otherHead : ListNode} {otherEntry : Nat -> ListNode} {others : List Nat}
    (lists : ListsThreads system head entry threads) (kept : ListsThreads system otherHead otherEntry others)
    (heads : otherHead ≠ head) (headOutside : forall other, otherEntry other ≠ head)
    (headApart : forall other, entry other ≠ otherHead) (apart : forall one other, otherEntry one ≠ entry other)
    (new : Nat) :
    ListsThreads { system with links := insertedTail system.links head (entry new) } otherHead otherEntry others := by
  refine ⟨Links.insertedTail_keeps lists.ring kept.ring (fun node member inside => ?_), kept.distinct⟩
  rcases List.mem_cons.mp member with rfl | mapped
  · rcases List.mem_cons.mp inside with same | rest
    · exact headApart new same.symm
    · rcases List.mem_cons.mp rest with same | listed
      · exact heads same
      · obtain ⟨other, _, same⟩ := List.mem_map.mp listed
        exact headApart other same
  · obtain ⟨one, _, rfl⟩ := List.mem_map.mp mapped
    rcases List.mem_cons.mp inside with same | rest
    · exact apart one new same
    · rcases List.mem_cons.mp rest with same | listed
      · exact headOutside one same
      · obtain ⟨other, _, same⟩ := List.mem_map.mp listed
        exact apart one other same.symm

theorem ListsThreads.point (lists : ListsThreads system head entry threads) {node : ListNode} (value : ListNode)
    (notHead : node ≠ head) (outside : forall other, other ∈ threads -> entry other ≠ node) :
    ListsThreads { system with links := system.links.point node value } head entry threads := by
  refine ⟨Links.point_keeps lists.ring (fun member => ?_), lists.distinct⟩
  rcases List.mem_cons.mp member with same | listed
  · exact notHead same
  · obtain ⟨other, inside, same⟩ := List.mem_map.mp listed
    exact outside other inside same

end Lists

section Enrolled

variable {system after : System} {process thread numberOfThreads activeThreads referenceCount : Nat}
  {all members ready : List Nat}

theorem Enrolled.congr
    (enrolled : Enrolled system process all members ready numberOfThreads activeThreads referenceCount)
    (links : after.links = system.links) (processes : after.processes = system.processes) :
    Enrolled after process all members ready numberOfThreads activeThreads referenceCount := by
  obtain ⟨⟨ring1, distinct1⟩, ⟨ring2, distinct2⟩, ⟨ring3, distinct3⟩, number, active, references⟩ := enrolled
  refine ⟨⟨?_, distinct1⟩, ⟨?_, distinct2⟩, ⟨?_, distinct3⟩, ?_, ?_, ?_⟩
  · rw [links]
    exact ring1
  · rw [links]
    exact ring2
  · rw [links]
    exact ring3
  · rw [processes]
    exact number
  · rw [processes]
    exact active
  · rw [processes]
    exact references

theorem Enrolled.zeroed
    (enrolled : Enrolled system process all members ready numberOfThreads activeThreads referenceCount)
    (freshAll : thread ∉ all) (freshMembers : thread ∉ members) (freshReady : thread ∉ ready) :
    Enrolled (zeroedThread system thread) process all members ready numberOfThreads activeThreads referenceCount := by
  have point {system : System}
      (enrolled : Enrolled system process all members ready numberOfThreads activeThreads referenceCount)
      {node : ListNode} (heads : node ≠ .allThreadsList ∧ node ≠ .threadList process ∧ node ≠ .readyThreadsList)
      (first : forall other, other ∈ all -> .allList other ≠ node)
      (second : forall other, other ∈ members -> .processList other ≠ node)
      (third : forall other, other ∈ ready -> .readyList other ≠ node) :
      Enrolled { system with links := system.links.point node .null } process all members ready numberOfThreads
        activeThreads referenceCount :=
    ⟨enrolled.all.point _ heads.1 first, enrolled.members.point _ heads.2.1 second,
      enrolled.ready.point _ heads.2.2 third, enrolled.numberOfThreads, enrolled.activeThreads,
      enrolled.referenceCount⟩
  have start : Enrolled ((system.allocated thread).setThread thread
      { referenceCount := rfcInit, self := thread, terminationEvt := some false }) process all members ready
        numberOfThreads activeThreads referenceCount := enrolled.congr rfl rfl
  have one := @point _ start (.allList thread) (by simp) (fun other inside same => by
    cases same
    exact freshAll inside) (fun _ _ => by simp) (fun _ _ => by simp)
  have two := @point _ one (.readyList thread) (by simp) (fun _ _ => by simp) (fun _ _ => by simp)
    (fun other inside same => by
      cases same
      exact freshReady inside)
  exact @point _ two (.processList thread) (by simp) (fun _ _ => by simp) (fun other inside same => by
    cases same
    exact freshMembers inside) (fun _ _ => by simp)

theorem Enrolled.insertAll
    (enrolled : Enrolled system process all members ready numberOfThreads activeThreads referenceCount)
    (fresh : thread ∉ all) :
    Enrolled { system with links := insertedTail system.links .allThreadsList (.allList thread) } process
      (all ++ [thread]) members ready numberOfThreads activeThreads referenceCount where
  all := enrolled.all.insert (fun _ _ same => by cases same; rfl) (fun _ => by simp) fresh
  members := enrolled.all.keep enrolled.members (by simp) (by simp) (by simp) (by simp) thread
  ready := enrolled.all.keep enrolled.ready (by simp) (by simp) (by simp) (by simp) thread
  numberOfThreads := enrolled.numberOfThreads
  activeThreads := enrolled.activeThreads
  referenceCount := enrolled.referenceCount

theorem Enrolled.insertMember
    (enrolled : Enrolled system process all members ready numberOfThreads activeThreads referenceCount)
    (fresh : thread ∉ members) :
    Enrolled { system with links := insertedTail system.links (.threadList process) (.processList thread) } process
      all (members ++ [thread]) ready numberOfThreads activeThreads referenceCount where
  all := enrolled.members.keep enrolled.all (by simp) (by simp) (by simp) (by simp) thread
  members := enrolled.members.insert (fun _ _ same => by cases same; rfl) (fun _ => by simp) fresh
  ready := enrolled.members.keep enrolled.ready (by simp) (by simp) (by simp) (by simp) thread
  numberOfThreads := enrolled.numberOfThreads
  activeThreads := enrolled.activeThreads
  referenceCount := enrolled.referenceCount

theorem Enrolled.insertReady
    (enrolled : Enrolled system process all members ready numberOfThreads activeThreads referenceCount)
    (fresh : thread ∉ ready) :
    Enrolled { system with links := insertedTail system.links .readyThreadsList (.readyList thread) } process
      all members (ready ++ [thread]) numberOfThreads activeThreads referenceCount where
  all := enrolled.ready.keep enrolled.all (by simp) (by simp) (by simp) (by simp) thread
  members := enrolled.ready.keep enrolled.members (by simp) (by simp) (by simp) (by simp) thread
  ready := enrolled.ready.insert (fun _ _ same => by cases same; rfl) (fun _ => by simp) fresh
  numberOfThreads := enrolled.numberOfThreads
  activeThreads := enrolled.activeThreads
  referenceCount := enrolled.referenceCount

end Enrolled

section Steps

variable {allocator : Allocator} {image : Image} {system after : System} {name : List UInt8}
  {process thread priority numberOfThreads activeThreads referenceCount : Nat} {all members ready : List Nat}

-- An ASSERT other than the one of RemoveEntryList.
def StopsElsewhere {α : Type} (result : Kernel α) : Prop := ∃ text, result = .error text ∧ text ≠ unlinkCheck

theorem rfcReference_full (references : referenceCount < 2 ^ 32) (full : ¬ referenceCount + 1 < maxDword) :
    StopsElsewhere (rfcReference referenceCount) := by
  unfold maxDword at full
  obtain rfl | rfl : referenceCount = 2 ^ 32 - 2 ∨ referenceCount = 2 ^ 32 - 1 := by omega
  · exact ⟨"MAX_DWORD > newRefCount", by decide, by decide⟩
  · exact ⟨"1 <= newRefCount", by decide, by decide⟩

-- Giving up the only reference on a thread that was never linked ends in the check of RemoveEntryList.
theorem threadDereference_unlinked (count : (system.threads thread).referenceCount = 1)
    (entry : flink system.links (.allList thread) = .null ∧ blink system.links (.allList thread) = .null)
    (null : flink system.links .null = .null ∧ blink system.links .null = .null) :
    threadDereference allocator system thread = .error unlinkCheck := by
  have released : rfcDereference (system.threads thread).referenceCount = .ok 0 := by
    rw [count]
    exact rfcDereference_eq (by decide) (by decide)
  have invalid : validateListEntry system.links (.allList thread) = false := by
    rw [validateListEntry, entry.1, entry.2, null.1, null.2]
    rfl
  rw [threadDereference, released, Kernel.ok_bind]
  simp only [if_true, threadDestroy, removeEntryList, System.setThread, invalid]
  rfl

theorem zeroedThread_links (null : flink system.links .null = .null ∧ blink system.links .null = .null) :
    (flink (zeroedThread system thread).links (.allList thread) = .null ∧
        blink (zeroedThread system thread).links (.allList thread) = .null) ∧
      flink (zeroedThread system thread).links .null = .null ∧
      blink (zeroedThread system thread).links .null = .null := by
  have others {node other : ListNode} (links : Links ListNode) (different : other ≠ node) :=
    links.point_other .null different
  constructor
  · dsimp only [zeroedThread]
    rw [(others _ (by simp)).1, (others _ (by simp)).2, (others _ (by simp)).1, (others _ (by simp)).2]
    exact Links.point_self _ _ _
  · dsimp only [zeroedThread]
    rw [(others _ (by simp)).1, (others _ (by simp)).2, (others _ (by simp)).1, (others _ (by simp)).2,
      (others _ (by simp)).1, (others _ (by simp)).2]
    exact null

theorem zeroedThread_thread : (zeroedThread system thread).threads thread =
    { referenceCount := rfcInit, self := thread, terminationEvt := some false } := Function.update_self ..

theorem threadInit_stops (bounded : priority ≤ threadPriorityMaximum) (thread : allocator.thread ≠ 0)
    (fails : allocator.kernelStack = 0 ∨ allocator.name = 0)
    (null : flink system.links .null = .null ∧ blink system.links .null = .null) :
    threadInit allocator system name priority true = .error unlinkCheck := by
  obtain ⟨entry, still⟩ := @zeroedThread_links system allocator.thread null
  rw [threadInit, decide_eq_true bounded, assert_true, Kernel.ok_bind]
  dsimp only
  rw [if_neg thread]
  by_cases stack : allocator.kernelStack = 0
  · rw [if_pos (by rw [stack]; rfl), threadDereference_unlinked (by rw [zeroedThread_thread]; rfl) entry still]
    rfl
  · rw [if_neg (by simpa using stack), if_pos (fails.resolve_left stack), if_pos rfl,
      threadDereference_unlinked]
    · rfl
    · dsimp only [System.setThread, System.allocated]
      rw [Function.update_self, zeroedThread_thread]
      rfl
    · exact entry
    · exact still

theorem threadInit_succeeds
    (enrolled : Enrolled system process all members ready numberOfThreads activeThreads referenceCount)
    (bounded : priority ≤ threadPriorityMaximum) (thread : allocator.thread ≠ 0)
    (stack : allocator.kernelStack ≠ 0) (named : allocator.name ≠ 0) (freshAll : allocator.thread ∉ all)
    (freshMembers : allocator.thread ∉ members) (freshReady : allocator.thread ∉ ready) :
    ∃ after, threadInit allocator system name priority true = .ok (after, .success, allocator.thread) ∧
      Enrolled after process (all ++ [allocator.thread]) members ready numberOfThreads activeThreads referenceCount ∧
      after.processes = system.processes ∧
      (after.threads allocator.thread).referenceCount = 1 ∧
      (after.threads allocator.thread).state = .blocked := by
  have zeroed := enrolled.zeroed freshAll freshMembers freshReady
  have check : (true && allocator.kernelStack == 0) = false := by simpa using stack
  rw [threadInit, decide_eq_true bounded, assert_true, Kernel.ok_bind]
  dsimp only
  rw [if_neg thread, check, if_neg (by decide), if_pos rfl, if_neg named]
  dsimp only [threadSystemGetNextTid, System.allocated, System.setThread]
  rw [insertTailList_lists zeroed.all]
  refine ⟨_, rfl, (zeroed.insertAll freshAll).congr rfl rfl, rfl, ?_, ?_⟩
  · dsimp only
    rw [Function.update_self, Function.update_self, zeroedThread_thread]
    rfl
  · dsimp only
    rw [Function.update_self]

def withThread (system : System) (process thread : Nat) : System :=
  { (system.setThread thread { system.threads thread with process := process }).setProcess process
      { system.processes process with
        numberOfThreads := (system.processes process).numberOfThreads + 1
        activeThreads := (system.processes process).activeThreads + 1 } with
    links := insertedTail system.links (.threadList process) (.processList thread) }

theorem processInsertThreadInList_eq (lists : ListsThreads system (.threadList process) .processList members)
    (active : (system.processes process).activeThreads ≤ (system.processes process).numberOfThreads)
    (room : (system.processes process).numberOfThreads < maxDword) :
    processInsertThreadInList system process thread = processReference (withThread system process thread) process := by
  have more : dword ((system.processes process).numberOfThreads + 1) = (system.processes process).numberOfThreads + 1 :=
    dword_of_lt (by unfold maxDword at room; omega)
  have moreActive :
      dword ((system.processes process).activeThreads + 1) = (system.processes process).activeThreads + 1 :=
    dword_of_lt (by unfold maxDword at room; omega)
  have ordered : (system.processes process).activeThreads + 1 ≤ (system.processes process).numberOfThreads + 1 := by omega
  simp only [processInsertThreadInList, System.setThread, room, more, moreActive, ordered, decide_true, assert_true,
    Kernel.ok_bind, insertTailList_lists lists]
  rfl

theorem processInsertThreadInList_succeeds
    (enrolled : Enrolled system process all members ready numberOfThreads activeThreads referenceCount)
    (active : activeThreads ≤ numberOfThreads) (can : CanInsert (system.processes process))
    (fresh : thread ∉ members) :
    ∃ after, processInsertThreadInList system process thread = .ok after ∧
      Enrolled after process all (members ++ [thread]) ready (numberOfThreads + 1) (activeThreads + 1)
        (referenceCount + 1) ∧
      after.threads thread = { system.threads thread with process := process } ∧
      (after.processes process).kernelSpace = (system.processes process).kernelSpace := by
  obtain ⟨allKept, membersKept, readyKept, _, _, _⟩ := enrolled.insertMember fresh
  obtain ⟨_, listed, _, rfl, rfl, rfl⟩ := enrolled
  obtain ⟨room, fits⟩ := can
  have counted : rfcReference (system.processes process).referenceCount =
      .ok ((system.processes process).referenceCount + 1) := (rfcReference_eq_ok (by omega)).mpr ⟨rfl, fits⟩
  rw [processInsertThreadInList_eq listed active room]
  dsimp only [processReference, withThread, System.setProcess]
  rw [Function.update_self, counted]
  refine ⟨_, rfl, ⟨⟨allKept.ring, allKept.distinct⟩, ⟨membersKept.ring, membersKept.distinct⟩,
    ⟨readyKept.ring, readyKept.distinct⟩, ?_, ?_, ?_⟩, ?_, ?_⟩
  · dsimp only
    rw [Function.update_self]
  · dsimp only
    rw [Function.update_self]
  · dsimp only
    rw [Function.update_self]
  · exact Function.update_self ..
  · dsimp only
    rw [Function.update_self]

theorem processInsertThreadInList_stops
    (enrolled : Enrolled system process all members ready numberOfThreads activeThreads referenceCount)
    (active : activeThreads ≤ numberOfThreads) (references : referenceCount < 2 ^ 32)
    (full : ¬ CanInsert (system.processes process)) :
    StopsElsewhere (processInsertThreadInList system process thread) := by
  obtain ⟨_, listed, _, rfl, rfl, rfl⟩ := enrolled
  by_cases room : (system.processes process).numberOfThreads < maxDword
  · obtain ⟨text, stops, different⟩ := rfcReference_full references (fun fits => full ⟨room, fits⟩)
    refine ⟨text, ?_, different⟩
    rw [processInsertThreadInList_eq listed active room]
    dsimp only [processReference, withThread, System.setProcess]
    rw [Function.update_self, stops]
    rfl
  · refine ⟨"Process->NumberOfThreads < MAX_DWORD", ?_, by decide⟩
    simp only [processInsertThreadInList, System.setThread, room, decide_false]
    rfl

theorem threadReference_new
    (enrolled : Enrolled system process all members ready numberOfThreads activeThreads referenceCount)
    (count : (system.threads thread).referenceCount = 1) :
    ∃ after, threadReference system thread = .ok after ∧
      Enrolled after process all members ready numberOfThreads activeThreads referenceCount ∧
      (after.threads thread).state = (system.threads thread).state ∧ after.processes = system.processes := by
  have counted : rfcReference (system.threads thread).referenceCount = .ok 2 := by
    rw [count]
    rfl
  rw [threadReference, counted]
  refine ⟨_, rfl, enrolled.congr rfl rfl, ?_, rfl⟩
  dsimp only [System.setThread]
  rw [Function.update_self]

def Starts (result : Kernel (System × Status × Nat)) (process thread : Nat) (all members : List Nat)
    (numberOfThreads activeThreads referenceCount : Nat) : Prop :=
  StopsElsewhere result ∨ ∃ after ready, result = .ok (after, .success, thread) ∧
    Enrolled after process all members ready numberOfThreads activeThreads referenceCount

theorem threadSetupInitialState_spec (size : Nat) (value : Thread) (startFunction firstArg secondArg : Nat)
    (kernelStack : Bool) :
    StopsElsewhere (threadSetupInitialState size value startFunction firstArg secondArg kernelStack) ∨
      ∃ started, threadSetupInitialState size value startFunction firstArg secondArg kernelStack =
        .ok (.success, started) ∧ started.state = value.state := by
  unfold threadSetupInitialState
  cases startFunction != 0 with
  | false => exact .inl ⟨"NULL != StartFunction", rfl, by decide⟩
  | true =>
    cases kernelStack || value.userStack != 0 with
    | false => exact .inl ⟨"Thread->UserStack != NULL", rfl, by decide⟩
    | true => exact .inr ⟨_, rfl, rfl⟩

theorem threadUnblock_succeeds
    (enrolled : Enrolled system process all members ready numberOfThreads activeThreads referenceCount)
    (fresh : thread ∉ ready) (blocked : (system.threads thread).state = .blocked) :
    ∃ after, threadUnblock system thread = .ok after ∧
      Enrolled after process all members (ready ++ [thread]) numberOfThreads activeThreads referenceCount := by
  rw [threadUnblock, blocked, insertTailList_lists enrolled.ready]
  exact ⟨_, rfl, (enrolled.insertReady fresh).congr rfl rfl⟩

theorem threadStart_spec
    (enrolled : Enrolled system process all members ready numberOfThreads activeThreads referenceCount)
    (fresh : thread ∉ ready) (blocked : (system.threads thread).state = .blocked)
    (startFunction firstArg secondArg : Nat) (kernelSpace : Bool) :
    Starts (threadStart image system thread startFunction firstArg secondArg kernelSpace) process thread all members
      numberOfThreads activeThreads referenceCount := by
  unfold threadStart
  rcases threadSetupInitialState_spec image.sizeofProcessorState (system.threads thread) startFunction firstArg secondArg
    kernelSpace with ⟨text, stops, different⟩ | ⟨started, sets, state⟩
  · rw [stops]
    exact .inl ⟨text, rfl, different⟩
  · rw [sets, Kernel.ok_bind]
    dsimp only
    have here : Enrolled (system.setThread thread started) process all members ready numberOfThreads activeThreads
        referenceCount := enrolled.congr rfl rfl
    split
    next => exact .inr ⟨_, ready, rfl, enrolled.congr rfl rfl⟩
    next =>
      obtain ⟨after, unblocked, kept⟩ := threadUnblock_succeeds here fresh (by
        rw [System.setThread_self, state, blocked])
      rw [unblocked]
      exact .inr ⟨after, _, rfl, kept⟩

theorem threadStartUser_spec {request : Request}
    (enrolled : Enrolled system process all members ready numberOfThreads activeThreads referenceCount)
    (fresh : thread ∉ ready) (blocked : (system.threads thread).state = .blocked) (stack : allocator.userStack ≠ 0) :
    Starts (threadStartUser allocator image system request thread) process thread all members numberOfThreads
      activeThreads referenceCount := by
  have started {system : System}
      (enrolled : Enrolled system process all members ready numberOfThreads activeThreads referenceCount)
      (blocked : (system.threads thread).state = .blocked) := @threadStart_spec image system process thread
        numberOfThreads activeThreads referenceCount all members ready enrolled fresh blocked
  unfold threadStartUser
  rw [if_neg stack]
  dsimp only
  split
  next =>
    cases ((((system.allocated allocator.userStack).setThread thread
        { system.threads thread with userStack := allocator.userStack }).processes request.process).numberOfThreads ==
          1) with
    | false => exact .inl ⟨"Process->NumberOfThreads == 1", rfl, by decide⟩
    | true =>
      have given : (allocator.userStack != 0) = true := bne_iff_ne.mpr stack
      rw [System.setThread_self]
      cases known : request.process != 0 with
      | false =>
        refine .inl ⟨"Process != NULL", ?_, by decide⟩
        rw [threadSetupMainThreadUserStack, given, known]
        rfl
      | true =>
        rw [threadSetupMainThreadUserStack, given, known]
        apply started
        · exact enrolled.congr rfl rfl
        · rw [System.setThread_self]
          exact blocked
  next =>
    apply started
    · exact enrolled.congr rfl rfl
    · rw [System.setThread_self, System.setThread_self]
      exact blocked

end Steps

section Call

variable {allocator : Allocator} {image : Image} {hasPcpu : Bool} {before : System} {request : Request}
  {all members ready : List Nat}

theorem unchanged_refl (consistent : Consistent before request.process all members ready) :
    Unchanged before before request.process all members :=
  ⟨consistent.enrolled.all, consistent.enrolled.members, rfl, rfl, rfl, rfl⟩

theorem threadCreateEx_refused (refused : ¬ Accepted hasPcpu request) :
    StopsElsewhere (threadCreateEx allocator image hasPcpu before request) ∨
      ∃ status, status ≠ .success ∧ threadCreateEx allocator image hasPcpu before request = .ok (before, status, 0) := by
  unfold threadCreateEx
  cases named : request.name with
  | none => exact .inr ⟨.invalidParameter1, by decide, rfl⟩
  | some name =>
    dsimp only
    split
    next => exact .inr ⟨.invalidParameter3, by decide, rfl⟩
    next function =>
      split
      next => exact .inr ⟨.invalidParameter5, by decide, rfl⟩
      next thread =>
        split
        next => exact .inr ⟨.invalidParameter6, by decide, rfl⟩
        next process =>
          cases hasPcpu with
          | false => exact .inl ⟨"NULL != pCpu", rfl, by decide⟩
          | true =>
            have priority : ¬ request.priority ≤ threadPriorityMaximum := by
              intro bounded
              exact refused ⟨by rw [named]; simp, function, thread, process, rfl, bounded⟩
            refine .inl ⟨"ThreadPriorityLowest <= Priority && Priority <= ThreadPriorityMaximum", ?_, by decide⟩
            rw [threadInit, decide_eq_false priority]
            rfl

theorem threadCreateEx_accepted (accepted : Accepted hasPcpu request) :
    ∃ name, threadCreateEx allocator image hasPcpu before request =
      (threadInit allocator before name request.priority true >>= fun (system, status, thread) =>
        if status ≠ .success then pure (system, status, 0)
        else do
          let system <- processInsertThreadInList system request.process thread
          let system <- threadReference system thread
          if (system.processes request.process).kernelSpace then
            threadStart image system thread image.threadKernelFunction request.function request.context true
          else threadStartUser allocator image system request thread) := by
  cases named : request.name with
  | none => exact absurd named accepted.name
  | some name =>
    refine ⟨name, ?_⟩
    rw [threadCreateEx, named]
    dsimp only
    rw [if_neg accepted.function, if_neg accepted.thread, if_neg accepted.process, accepted.pcpu]
    rfl

theorem threadCreateEx_unallocated (accepted : Accepted hasPcpu request) (none_ : allocator.thread = 0) :
    threadCreateEx allocator image hasPcpu before request = .ok (before, .heapInsufficientResources, 0) := by
  obtain ⟨name, run⟩ := @threadCreateEx_accepted allocator image hasPcpu before request accepted
  rw [run, threadInit, decide_eq_true accepted.priority, assert_true, Kernel.ok_bind]
  dsimp only
  rw [if_pos none_]
  rfl

theorem threadCreateEx_unlinks (consistent : Consistent before request.process all members ready)
    (accepted : Accepted hasPcpu request) (thread : allocator.thread ≠ 0)
    (fails : allocator.kernelStack = 0 ∨ allocator.name = 0) :
    threadCreateEx allocator image hasPcpu before request = .error unlinkCheck := by
  obtain ⟨name, run⟩ := @threadCreateEx_accepted allocator image hasPcpu before request accepted
  rw [run, threadInit_stops accepted.priority thread fails consistent.null]
  rfl

theorem threadCreateEx_inserts (consistent : Consistent before request.process all members ready)
    (fresh : allocator.thread ∉ before.allocations) (accepted : Accepted hasPcpu request)
    (thread : allocator.thread ≠ 0) (stack : allocator.kernelStack ≠ 0) (named : allocator.name ≠ 0) :
    if CanInsert (before.processes request.process) then
      if (before.processes request.process).kernelSpace = false ∧ allocator.userStack = 0 then
        ∃ after, threadCreateEx allocator image hasPcpu before request = .ok (after, .memoryCannotBeCommited, 0) ∧
          (after.processes request.process).numberOfThreads = members.length + 1
      else
        Starts (threadCreateEx allocator image hasPcpu before request) request.process allocator.thread
          (all ++ [allocator.thread]) (members ++ [allocator.thread]) (members.length + 1)
          ((before.processes request.process).activeThreads + 1)
          ((before.processes request.process).referenceCount + 1)
    else StopsElsewhere (threadCreateEx allocator image hasPcpu before request) := by
  have freshAll : allocator.thread ∉ all := mt (consistent.live _) fresh
  have freshMembers : allocator.thread ∉ members := fun inside => freshAll (consistent.known _ (.inl inside))
  have freshReady : allocator.thread ∉ ready := fun inside => freshAll (consistent.known _ (.inr inside))
  have active : (before.processes request.process).activeThreads ≤ members.length := by
    rw [← consistent.enrolled.numberOfThreads]
    exact consistent.active
  obtain ⟨name, run⟩ := @threadCreateEx_accepted allocator image hasPcpu before request accepted
  obtain ⟨initialized, init, enrolled, processes, count, blocked⟩ := @threadInit_succeeds allocator before name
    request.process request.priority _ _ _ all members ready consistent.enrolled accepted.priority thread stack named
    freshAll freshMembers freshReady
  rw [run, init, Kernel.ok_bind]
  dsimp only
  have proceed : ¬ Status.success ≠ Status.success := not_not_intro rfl
  rw [if_neg proceed]
  split
  next can =>
    rw [← processes] at can
    obtain ⟨inserted, insert, enrolled, new, space⟩ :=
      @processInsertThreadInList_succeeds _ _ allocator.thread _ _ _ _ _ _ enrolled active can freshMembers
    obtain ⟨referenced, reference, enrolled, state, same⟩ :=
      threadReference_new enrolled (by rw [new]; exact count)
    have ready_ : (referenced.threads allocator.thread).state = .blocked := by
      rw [state, new]
      exact blocked
    rw [insert, Kernel.ok_bind, reference, Kernel.ok_bind, same, space, processes]
    by_cases kernelSpace : (before.processes request.process).kernelSpace = true
    · rw [if_pos kernelSpace, if_neg (by rw [kernelSpace]; simp)]
      exact threadStart_spec enrolled freshReady ready_ _ _ _ _
    · rw [if_neg kernelSpace]
      by_cases user : allocator.userStack = 0
      · rw [if_pos ⟨Bool.eq_false_of_not_eq_true kernelSpace, user⟩, threadStartUser, if_pos user]
        exact ⟨_, rfl, enrolled.numberOfThreads⟩
      · rw [if_neg (fun both => user both.2)]
        exact threadStartUser_spec enrolled freshReady ready_ user
  next full =>
    rw [← processes] at full
    obtain ⟨text, stops, different⟩ :=
      @processInsertThreadInList_stops _ _ allocator.thread _ _ _ _ _ _ enrolled active consistent.references full
    rw [stops]
    exact ⟨text, rfl, different⟩

theorem allOrNothing_of_stops (stops : StopsElsewhere (threadCreateEx allocator image hasPcpu before request)) :
    AllOrNothing allocator image hasPcpu before request all members := by
  obtain ⟨text, stopped, different⟩ := stops
  refine ⟨fun unlinks => ?_, fun after status thread call => ?_, fun after thread call => ?_⟩
  · rw [stopped] at unlinks
    exact different (Except.error.inj unlinks)
  · rw [stopped] at call
    cases call
  · rw [stopped] at call
    cases call

theorem allOrNothing_of_failure (consistent : Consistent before request.process all members ready) {status : Status}
    (unsuccessful : status ≠ .success)
    (fails : threadCreateEx allocator image hasPcpu before request = .ok (before, status, 0)) :
    AllOrNothing allocator image hasPcpu before request all members := by
  refine ⟨fun unlinks => ?_, fun after other thread call _ => ?_, fun after thread call => ?_⟩
  · rw [fails] at unlinks
    cases unlinks
  · rw [fails] at call
    cases call
    exact unchanged_refl consistent
  · rw [fails] at call
    cases call
    exact absurd rfl unsuccessful

theorem allOrNothing_of_starts (consistent : Consistent before request.process all members ready) {thread : Nat}
    (starts : Starts (threadCreateEx allocator image hasPcpu before request) request.process thread (all ++ [thread])
      (members ++ [thread]) (members.length + 1) ((before.processes request.process).activeThreads + 1)
      ((before.processes request.process).referenceCount + 1)) :
    AllOrNothing allocator image hasPcpu before request all members := by
  rcases starts with stops | ⟨after, now, starts, enrolled⟩
  · exact allOrNothing_of_stops stops
  · refine ⟨fun unlinks => ?_, fun other status address call unsuccessful => ?_, fun other address call => ?_⟩
    · rw [starts] at unlinks
      cases unlinks
    · rw [starts] at call
      cases call
      exact absurd rfl unsuccessful
    · rw [starts] at call
      cases call
      refine ⟨enrolled.all, enrolled.members, ?_, enrolled.activeThreads, enrolled.referenceCount⟩
      rw [enrolled.numberOfThreads, consistent.enrolled.numberOfThreads]

-- `fresh` is what the heap promises about a block it hands out.
theorem creation_allOrNothing_iff (consistent : Consistent before request.process all members ready)
    (fresh : allocator.thread ∉ before.allocations) :
    AllOrNothing allocator image hasPcpu before request all members ↔
      LaterAllocationsSucceed allocator hasPcpu before request := by
  constructor
  · intro sound accepted thread
    have both : ¬ (allocator.kernelStack = 0 ∨ allocator.name = 0) := fun fails =>
      sound.unlinks (threadCreateEx_unlinks consistent accepted thread fails)
    obtain ⟨stack, named⟩ := not_or.mp both
    refine ⟨stack, named, fun user can none_ => ?_⟩
    have call := @threadCreateEx_inserts allocator image _ _ _ _ _ _ consistent fresh accepted thread stack named
    rw [if_pos can, if_pos ⟨user, none_⟩] at call
    obtain ⟨after, fails, counted⟩ := call
    have unchanged := (sound.failed after _ _ fails (by decide)).numberOfThreads
    rw [counted, consistent.enrolled.numberOfThreads] at unchanged
    omega
  · intro succeed
    by_cases accepted : Accepted hasPcpu request
    · by_cases thread : allocator.thread = 0
      · exact allOrNothing_of_failure consistent (by decide) (threadCreateEx_unallocated accepted thread)
      · obtain ⟨stack, named, user⟩ := succeed accepted thread
        have call := @threadCreateEx_inserts allocator image _ _ _ _ _ _ consistent fresh accepted thread stack named
        split at call
        next can =>
          rw [if_neg (fun both => user both.1 can both.2)] at call
          exact allOrNothing_of_starts consistent call
        next => exact allOrNothing_of_stops call
    · rcases threadCreateEx_refused accepted with stops | ⟨status, unsuccessful, fails⟩
      · exact allOrNothing_of_stops stops
      · exact allOrNothing_of_failure consistent unsuccessful fails

end Call

def emptyLinks : ListNode -> ListNode
  | .allThreadsList => .allThreadsList
  | .readyThreadsList => .readyThreadsList
  | .threadList process => .threadList process
  | _ => .null

def sampleSystem : System where
  threads _ := {}
  processes _ := { referenceCount := 2, numberOfThreads := 0, activeThreads := 0, kernelSpace := true }
  links := { next := emptyLinks, back := emptyLinks }
  allocations := []
  currentTid := 0
  idleThread := 0

theorem sampleSystem_consistent : Consistent sampleSystem 7 [] [] [] where
  enrolled := ⟨⟨⟨rfl, rfl⟩, List.nodup_nil⟩, ⟨⟨rfl, rfl⟩, List.nodup_nil⟩, ⟨⟨rfl, rfl⟩, List.nodup_nil⟩, rfl, rfl, rfl⟩
  known _ member := by simp at member
  live _ member := by simp at member
  active := Nat.le_refl 0
  references := by decide
  null := ⟨rfl, rfl⟩

def sampleRequest : Request :=
  { name := some [0x61], priority := 16, function := 0x2000, context := 0, thread := 0x3000, process := 7 }

def sampleAllocator (name : Nat) : Allocator :=
  { thread := 0x10000, kernelStack := 0x20000, name := name, userStack := 0, processDestroy := fun system _ => system }

def sampleImage : Image := { threadKernelFunction := 0x4000, sizeofProcessorState := 0x290 }

theorem sampleRequest_accepted : Accepted true sampleRequest :=
  ⟨by simp [sampleRequest], by decide, by decide, by decide, rfl, by decide⟩

theorem creation_allOrNothing_sample :
    AllOrNothing (sampleAllocator 0x30000) sampleImage true sampleSystem sampleRequest [] [] ∧
      (threadCreateEx (sampleAllocator 0x30000) sampleImage true sampleSystem sampleRequest).toOption.map
        (fun result => result.2) = some (.success, 0x10000) :=
  ⟨(creation_allOrNothing_iff sampleSystem_consistent (by decide)).mpr
    (fun _ _ => ⟨by decide, by decide, fun user => by cases user⟩), rfl⟩

-- Without memory for the name, the thread is destroyed as if it were in the lists.
theorem creation_unlinks_unlinked :
    ¬ forall allocator image hasPcpu before request all members ready,
      Consistent before request.process all members ready -> allocator.thread ∉ before.allocations ->
      AllOrNothing allocator image hasPcpu before request all members := by
  intro claim
  have sound := claim (sampleAllocator 0) sampleImage true sampleSystem sampleRequest [] [] []
    sampleSystem_consistent (by decide)
  exact sound.unlinks (threadCreateEx_unlinks sampleSystem_consistent sampleRequest_accepted (by decide) (.inr rfl))

end Hal9000.Threads
