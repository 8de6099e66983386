import Hal9000.CommonLib.Strings
import Mathlib.Logic.Function.Basic

set_option autoImplicit false

namespace Hal9000.FileObjects

open Function (update)

-- A STATUS that is no success. The codes of FatCreateDirectoryEntry and FatSearch are passed on as they are.
inductive Failure where
  | invalidFileName
  | deviceDoesNotExist
  | deviceNoFilesystemMounted
  | heapNoMoreMemory
  | fileSystem (code : Nat)
  deriving DecidableEq, Repr

abbrev Status := Except Failure Unit

structure FileInformation where
  creationTime : Nat
  lastWriteTime : Nat
  fileSize : Nat
  fileAttributes : Nat

structure FileObject where
  fileSystemDevice : Nat
  asynchronous : Bool
  create : Bool
  directoryFile : Bool
  fsContext2 : Nat := 0
  fileName : List UInt8
  relatedFileObject : Nat := 0
  currentByteOffset : Nat := 0
  fileSize : Nat := 0

structure Fcb where
  fileOffsetInVolume : Nat
  parentOffsetInVolume : Nat
  fileInformation : FileInformation

inductive MajorFunction where
  | create
  | close
  deriving DecidableEq

structure IoStackLocation where
  majorFunction : MajorFunction := .create
  deviceObject : Nat := 0
  fileObject : Nat := 0

structure Irp where
  status : Status := .ok ()
  information : Nat := 0
  completed : Bool := false
  currentStackLocation : Nat
  stackLocations : Nat -> IoStackLocation

structure Vpb where
  filesystemDevice : Nat
  mounted : Bool
  volumeLetter : UInt8

structure Devices where
  vpbs : List Vpb
  stackSize : Nat -> Nat

-- What is allocated, by address.
@[ext]
structure Pools where
  irps : Nat -> Option Irp := fun _ => none
  fileObjects : Nat -> Option FileObject := fun _ => none
  fcbs : Nat -> Option Fcb := fun _ => none

structure Found where
  fileSector : Nat
  parentSector : Nat
  fileInformation : FileInformation

-- What the allocator, FatCreateDirectoryEntry and FatSearch answer during a call.
structure Answers where
  irp : Option Nat
  fileObject : Option Nat
  created : Status
  found : Except Failure Found
  fcb : Option Nat

section Io

variable (p : Pools)

def readIrp (irp : Nat) : Kernel Irp :=
  match p.irps irp with
  | some value => .ok value
  | none => .error "no IRP is allocated there"

def readFileObject (fileObject : Nat) : Kernel FileObject :=
  match p.fileObjects fileObject with
  | some value => .ok value
  | none => .error "no FILE_OBJECT is allocated there"

def writeIrp (irp : Nat) (value : Irp) : Pools := { p with irps := update p.irps irp (some value) }

def writeFileObject (fileObject : Nat) (value : FileObject) : Pools :=
  { p with fileObjects := update p.fileObjects fileObject (some value) }

def ioAllocateIrp (stackSize : Nat) (given : Option Nat) : Kernel (Pools × Option Nat) := do
  assert (decide (0 < stackSize)) "StackSize > 0"
  match given with
  | none => pure (p, none)
  | some irp => pure (writeIrp p irp { currentStackLocation := stackSize, stackLocations := fun _ => {} }, some irp)

def ioFreeIrp (irp : Nat) : Kernel Pools := do
  assert (irp != 0) "NULL != Irp"
  let _ <- readIrp p irp
  pure { p with irps := update p.irps irp none }

def ioGetCurrentIrpStackLocation (irp : Irp) : Kernel IoStackLocation := do
  assert (irp.currentStackLocation != 0xFF) "MAX_BYTE != Irp->CurrentStackLocation"
  pure (irp.stackLocations irp.currentStackLocation)

def setNextIrpStackLocation (irp : Irp) (location : IoStackLocation) : Kernel Irp := do
  assert (irp.currentStackLocation != 0) "0 != Irp->CurrentStackLocation"
  pure { irp with stackLocations := update irp.stackLocations (irp.currentStackLocation - 1) location }

def ioCompleteIrp (irp : Nat) (value : Irp) : Kernel Pools := do
  assert (value.completed == false) "FALSE == Irp->Flags.Completed"
  pure (writeIrp p irp { value with completed := true })

-- The __try block of _FatDispatchCreate. Without memory for the FCB it is left with the status as it is.
def fatCreate (fileObject : Nat) (file : FileObject) (answers : Answers) : Pools × Status :=
  match if file.create then answers.created else .ok () with
  | .error code => (p, .error code)
  | .ok () =>
    match answers.found with
    | .error code => (p, .error code)
    | .ok found =>
      match answers.fcb with
      | none => (p, .ok ())
      | some fcb =>
        let block : Fcb :=
          { fileOffsetInVolume := found.fileSector
            parentOffsetInVolume := found.parentSector
            fileInformation := found.fileInformation }
        let file := { file with fileSize := found.fileInformation.fileSize, fsContext2 := fcb }
        (writeFileObject { p with fcbs := update p.fcbs fcb (some block) } fileObject file, .ok ())

def fatDispatchCreate (irp : Nat) (answers : Answers) : Kernel (Pools × Status) := do
  let value <- readIrp p irp
  let location <- ioGetCurrentIrpStackLocation value
  assert (location.majorFunction == .create) "IRP_MJ_CREATE == pStackLocation->MajorFunction"
  let file <- readFileObject p location.fileObject
  assert (file.relatedFileObject == 0) "NULL == pStackLocation->FileObject->RelatedFileObject"
  let (p, status) := fatCreate p location.fileObject file answers
  let p <- ioCompleteIrp p irp { value with status := status, information := 0 }
  pure (p, .ok ())

def fatDispatchClose (irp : Nat) : Kernel (Pools × Status) := do
  let value <- readIrp p irp
  let location <- ioGetCurrentIrpStackLocation value
  assert (location.majorFunction == .close) "IRP_MJ_CLOSE == pStackLocation->MajorFunction"
  assert (location.fileObject != 0) "NULL != pStackLocation->FileObject"
  let file <- readFileObject p location.fileObject
  assert (file.fsContext2 != 0) "NULL != pFcb"
  assert (p.fcbs file.fsContext2).isSome "no FCB is allocated there"
  let p := { p with fcbs := update p.fcbs file.fsContext2 none }
  let p := writeFileObject p location.fileObject { file with fsContext2 := 0 }
  let p <- ioCompleteIrp p irp { value with status := .ok () }
  pure (p, .ok ())

def dispatchFunctions (irp : Nat) (answers : Answers) : MajorFunction -> Kernel (Pools × Status)
  | .create => fatDispatchCreate p irp answers
  | .close => fatDispatchClose p irp

-- A create or close has no Length and Offset to check.
def ioCallDriver (irp : Nat) (answers : Answers) : Kernel (Pools × Status) := do
  let value <- readIrp p irp
  assert (value.currentStackLocation != 0) "0 != Irp->CurrentStackLocation"
  let value := { value with currentStackLocation := value.currentStackLocation - 1 }
  let location <- ioGetCurrentIrpStackLocation value
  dispatchFunctions (writeIrp p irp value) irp answers location.majorFunction

end Io

def toupper (c : UInt8) : UInt8 := c &&& ~~~0x20

-- The offset of what cl_strrchr points to.
def strrchr (chars : List UInt8) (c : UInt8) : Nat :=
  chars.zipIdx.foldl (fun last char => if char.1 = c then char.2 else last) 0

def fileNameMinLen : Nat := 3

def ioIsFilePathValid (fileName : CString) : Bool :=
  if fileName.length < fileNameMinLen then false
  else strrchr fileName.chars 0x5C != 0

def iomuSearchForVpb (devices : Devices) (driveLetter : UInt8) : Option Vpb :=
  devices.vpbs.find? fun vpb => tolower vpb.volumeLetter == tolower driveLetter

structure Request where
  fileName : CString
  directory : Bool
  create : Bool
  asynchronous : Bool

section Files

variable (devices : Devices) (p : Pools)

def ioAllocateFileObject (device : Nat) (request : Request) (given : Option Nat) : Kernel (Pools × Nat) :=
  match given with
  | none => .error "NULL != pFileObject"
  | some fileObject =>
    .ok (writeFileObject p fileObject
      { fileSystemDevice := device
        asynchronous := request.asynchronous
        create := request.create
        directoryFile := request.directory
        fileName := request.fileName.chars.drop (fileNameMinLen - 1) }, fileObject)

def ioFreeFileObject (fileObject : Nat) : Kernel Pools := do
  assert (fileObject != 0) "NULL != FileObject"
  let _ <- readFileObject p fileObject
  pure { p with fileObjects := update p.fileObjects fileObject none }

def callStatus (irp : Nat) (status : Status) : Kernel Status :=
  match status with
  | .error code => pure (.error code)
  | .ok () => do
    let value <- readIrp p irp
    pure value.status

-- IoCreateFile once it has its IRP; sendClose is the same of IoCloseFile.
def sendCreate (device irp : Nat) (request : Request) (answers : Answers) : Kernel (Pools × Except Failure Nat) := do
  let value <- readIrp p irp
  let value <- setNextIrpStackLocation value { majorFunction := .create, deviceObject := device }
  let (p, fileObject) <- ioAllocateFileObject p device request answers.fileObject
  let value <- setNextIrpStackLocation value { majorFunction := .create, deviceObject := device, fileObject := fileObject }
  let (p, status) <- ioCallDriver (writeIrp p irp value) irp answers
  match <- callStatus p irp status with
  | .error code => do
    let p <- ioFreeFileObject p fileObject
    let p <- ioFreeIrp p irp
    pure (p, .error code)
  | .ok () => do
    let p <- ioFreeIrp p irp
    pure (p, .ok fileObject)

def ioCreateFile (request : Request) (answers : Answers) : Kernel (Pools × Except Failure Nat) :=
  if !ioIsFilePathValid request.fileName then pure (p, .error .invalidFileName)
  else
    match iomuSearchForVpb devices (toupper (request.fileName.at_ 0)) with
    | none => pure (p, .error .deviceDoesNotExist)
    | some vpb =>
      if !vpb.mounted then pure (p, .error .deviceNoFilesystemMounted)
      else do
        assert (vpb.filesystemDevice != 0) "NULL != pFileSystemDevice"
        match <- ioAllocateIrp p (devices.stackSize vpb.filesystemDevice) answers.irp with
        | (p, none) => pure (p, .error .heapNoMoreMemory)
        | (p, some irp) => sendCreate p vpb.filesystemDevice irp request answers

def sendClose (irp handle : Nat) (answers : Answers) : Kernel (Pools × Status) := do
  let value <- readIrp p irp
  let value <- setNextIrpStackLocation value { majorFunction := .close, fileObject := handle }
  let (p, status) <- ioCallDriver (writeIrp p irp value) irp answers
  let status <- callStatus p irp status
  let p <- ioFreeIrp p irp
  pure (p, status)

def ioCloseFile (handle : Nat) (answers : Answers) : Kernel (Pools × Status) := do
  assert (handle != 0) "NULL != FileHandle"
  let file <- readFileObject p handle
  assert (file.fileSystemDevice != 0) "NULL != pFileSystemDevice"
  match <- ioAllocateIrp p (devices.stackSize file.fileSystemDevice) answers.irp with
  | (p, none) => pure (p, .error .heapNoMoreMemory)
  | (p, some irp) => sendClose p irp handle answers

end Files

section Driver

variable {p after : Pools} {irp fileObject : Nat} {value value' : Irp} {location : IoStackLocation} {object : FileObject}
  {answers : Answers} {status : Status}

@[simp] theorem writeIrp_irps : (writeIrp p irp value).irps = update p.irps irp (some value) := rfl

@[simp] theorem writeIrp_fileObjects : (writeIrp p irp value).fileObjects = p.fileObjects := rfl

@[simp] theorem writeIrp_fcbs : (writeIrp p irp value).fcbs = p.fcbs := rfl

@[simp] theorem writeFileObject_irps : (writeFileObject p fileObject object).irps = p.irps := rfl

@[simp] theorem writeFileObject_fileObjects :
    (writeFileObject p fileObject object).fileObjects = update p.fileObjects fileObject (some object) := rfl

@[simp] theorem writeFileObject_fcbs : (writeFileObject p fileObject object).fcbs = p.fcbs := rfl

theorem readIrp_eq_ok : readIrp p irp = .ok value ↔ p.irps irp = some value := by
  unfold readIrp
  cases p.irps irp <;> simp

theorem readFileObject_eq_ok : readFileObject p fileObject = .ok object ↔ p.fileObjects fileObject = some object := by
  unfold readFileObject
  cases p.fileObjects fileObject <;> simp

theorem ioGetCurrentIrpStackLocation_eq_ok : ioGetCurrentIrpStackLocation value = .ok location ↔
    value.currentStackLocation ≠ 0xFF ∧ value.stackLocations value.currentStackLocation = location := by
  rw [ioGetCurrentIrpStackLocation, Kernel.assert_bind_eq_ok, bne_iff_ne, Kernel.pure_eq, Except.ok.injEq]

theorem setNextIrpStackLocation_eq_ok : setNextIrpStackLocation value location = .ok value' ↔
    value.currentStackLocation ≠ 0 ∧
      { value with stackLocations := update value.stackLocations (value.currentStackLocation - 1) location } = value' := by
  rw [setNextIrpStackLocation, Kernel.assert_bind_eq_ok, bne_iff_ne, Kernel.pure_eq, Except.ok.injEq]

theorem ioCompleteIrp_eq_ok : ioCompleteIrp p irp value = .ok after ↔
    value.completed = false ∧ writeIrp p irp { value with completed := true } = after := by
  rw [ioCompleteIrp, Kernel.assert_bind_eq_ok, beq_iff_eq, Kernel.pure_eq, Except.ok.injEq]

theorem ioFreeIrp_eq_ok : ioFreeIrp p irp = .ok after ↔
    irp ≠ 0 ∧ (∃ value, p.irps irp = some value) ∧ { p with irps := update p.irps irp none } = after := by
  rw [ioFreeIrp, Kernel.assert_bind_eq_ok, bne_iff_ne, Kernel.bind_eq_ok]
  simp only [readIrp_eq_ok, Kernel.pure_eq, Except.ok.injEq, exists_and_right]

theorem ioFreeFileObject_eq_ok : ioFreeFileObject p fileObject = .ok after ↔
    fileObject ≠ 0 ∧ (∃ object, p.fileObjects fileObject = some object) ∧
      { p with fileObjects := update p.fileObjects fileObject none } = after := by
  rw [ioFreeFileObject, Kernel.assert_bind_eq_ok, bne_iff_ne, Kernel.bind_eq_ok]
  simp only [readFileObject_eq_ok, Kernel.pure_eq, Except.ok.injEq, exists_and_right]

theorem fatDispatchCreate_inv (live : p.irps irp = some value)
    (there : value.stackLocations value.currentStackLocation = location)
    (file : p.fileObjects location.fileObject = some object)
    (result : fatDispatchCreate p irp answers = .ok (after, status)) :
    status = .ok () ∧ ∃ done, after = writeIrp (fatCreate p location.fileObject object answers).1 irp done ∧
      done.status = (fatCreate p location.fileObject object answers).2 := by
  obtain ⟨read, given, result⟩ := Kernel.bind_eq_ok.mp result
  obtain rfl := Option.some.inj (live.symm.trans (readIrp_eq_ok.mp given))
  obtain ⟨place, given, result⟩ := Kernel.bind_eq_ok.mp result
  obtain ⟨-, same⟩ := ioGetCurrentIrpStackLocation_eq_ok.mp given
  obtain rfl := same.symm.trans there
  obtain ⟨-, result⟩ := Kernel.assert_bind_eq_ok.mp result
  obtain ⟨opened, given, result⟩ := Kernel.bind_eq_ok.mp result
  obtain rfl := Option.some.inj (file.symm.trans (readFileObject_eq_ok.mp given))
  obtain ⟨-, result⟩ := Kernel.assert_bind_eq_ok.mp result
  obtain ⟨last, given, result⟩ := Kernel.bind_eq_ok.mp result
  obtain ⟨-, rfl⟩ := ioCompleteIrp_eq_ok.mp given
  obtain ⟨rfl, rfl⟩ := Prod.mk.inj (Except.ok.inj result)
  exact ⟨rfl, _, rfl, rfl⟩

end Driver

section Calls

variable {devices : Devices} {p after : Pools} {irp fileObject handle : Nat} {value : Irp} {object : FileObject}
  {request : Request} {answers : Answers} {status : Status}

-- What FatCreateDirectoryEntry and FatSearch have to answer for the FCB to be allocated.
def Answered (create : Bool) (answers : Answers) : Prop :=
  (create = true -> answers.created = .ok ()) ∧ ∃ found, answers.found = .ok found

inductive CreateEnds (p : Pools) (fileObject : Nat) (object : FileObject) (answers : Answers) : Pools × Status -> Prop
  | failed (code : Failure) (unanswered : ¬ Answered object.create answers) :
      CreateEnds p fileObject object answers (p, .error code)
  | bare (answered : Answered object.create answers) (short : answers.fcb = none) :
      CreateEnds p fileObject object answers (p, .ok ())
  | attached (answered : Answered object.create answers) (fcb size : Nat) (block : Fcb) (given : answers.fcb = some fcb) :
      CreateEnds p fileObject object answers (writeFileObject { p with fcbs := update p.fcbs fcb (some block) } fileObject
        { object with fileSize := size, fsContext2 := fcb }, .ok ())

theorem fatCreate_ends (p : Pools) (fileObject : Nat) (object : FileObject) (answers : Answers) :
    CreateEnds p fileObject object answers (fatCreate p fileObject object answers) := by
  unfold fatCreate
  cases made : (if object.create then answers.created else .ok ()) with
  | error code =>
    refine .failed code (fun answered => ?_)
    by_cases create : object.create = true
    · rw [if_pos create, answered.1 create] at made
      cases made
    · rw [if_neg create] at made
      cases made
  | ok done =>
    have created (create : object.create = true) : answers.created = .ok () := by
      rw [if_pos create] at made
      exact made
    dsimp only
    cases searched : answers.found with
    | error code =>
      refine .failed code (fun answered => ?_)
      obtain ⟨_, found⟩ := answered.2
      cases searched.symm.trans found
    | ok found =>
      have answered : Answered object.create answers := ⟨created, found, searched⟩
      dsimp only
      cases given : answers.fcb with
      | none => exact .bare answered given
      | some fcb => exact .attached answered fcb _ _ given

theorem fatDispatchClose_inv {location : IoStackLocation} (live : p.irps irp = some value)
    (there : value.stackLocations value.currentStackLocation = location)
    (result : fatDispatchClose p irp = .ok (after, status)) :
    status = .ok () ∧ ∃ object done, p.fileObjects location.fileObject = some object ∧ object.fsContext2 ≠ 0 ∧
      done.status = .ok () ∧
      after = writeIrp (writeFileObject { p with fcbs := update p.fcbs object.fsContext2 none } location.fileObject
        { object with fsContext2 := 0 }) irp done := by
  obtain ⟨read, given, result⟩ := Kernel.bind_eq_ok.mp result
  obtain rfl := Option.some.inj (live.symm.trans (readIrp_eq_ok.mp given))
  obtain ⟨place, given, result⟩ := Kernel.bind_eq_ok.mp result
  obtain ⟨-, same⟩ := ioGetCurrentIrpStackLocation_eq_ok.mp given
  obtain rfl := same.symm.trans there
  obtain ⟨-, result⟩ := Kernel.assert_bind_eq_ok.mp result
  obtain ⟨-, result⟩ := Kernel.assert_bind_eq_ok.mp result
  obtain ⟨object, given, result⟩ := Kernel.bind_eq_ok.mp result
  have file := readFileObject_eq_ok.mp given
  obtain ⟨attached, result⟩ := Kernel.assert_bind_eq_ok.mp result
  obtain ⟨-, result⟩ := Kernel.assert_bind_eq_ok.mp result
  obtain ⟨last, given, result⟩ := Kernel.bind_eq_ok.mp result
  obtain ⟨-, rfl⟩ := ioCompleteIrp_eq_ok.mp given
  obtain ⟨rfl, rfl⟩ := Prod.mk.inj (Except.ok.inj result)
  exact ⟨rfl, object, _, file, bne_iff_ne.mp attached, rfl, rfl⟩

end Calls

section Requests

variable {devices : Devices} {p after : Pools} {irp handle : Nat} {value : Irp} {location : IoStackLocation}
  {request : Request} {answers : Answers} {status : Status} {opened : Except Failure Nat}

theorem ioCallDriver_inv (live : p.irps irp = some value)
    (there : value.stackLocations (value.currentStackLocation - 1) = location)
    (result : ioCallDriver p irp answers = .ok (after, status)) :
    ∃ sent : Irp, sent.stackLocations sent.currentStackLocation = location ∧
      dispatchFunctions (writeIrp p irp sent) irp answers location.majorFunction = .ok (after, status) := by
  obtain ⟨read, given, result⟩ := Kernel.bind_eq_ok.mp result
  obtain rfl := Option.some.inj (live.symm.trans (readIrp_eq_ok.mp given))
  obtain ⟨-, result⟩ := Kernel.assert_bind_eq_ok.mp result
  obtain ⟨place, given, result⟩ := Kernel.bind_eq_ok.mp result
  obtain ⟨-, same⟩ := ioGetCurrentIrpStackLocation_eq_ok.mp given
  obtain rfl := same.symm.trans there
  exact ⟨_, same, result⟩

theorem ioAllocateIrp_inv {stackSize : Nat} {given found : Option Nat}
    (result : ioAllocateIrp p stackSize given = .ok (after, found)) :
    given = none ∧ found = none ∧ after = p ∨
      ∃ irp value, given = some irp ∧ found = some irp ∧ after = writeIrp p irp value := by
  obtain ⟨-, result⟩ := Kernel.assert_bind_eq_ok.mp result
  cases given with
  | none =>
    obtain ⟨rfl, rfl⟩ := Prod.mk.inj (Except.ok.inj result)
    exact .inl ⟨rfl, rfl, rfl⟩
  | some irp =>
    obtain ⟨rfl, rfl⟩ := Prod.mk.inj (Except.ok.inj result)
    exact .inr ⟨irp, _, rfl, rfl, rfl⟩

-- Whether IoCreateFile comes to the allocation of the FCB.
def Reaches (devices : Devices) (request : Request) (answers : Answers) : Prop :=
  ioIsFilePathValid request.fileName = true ∧
    (∃ vpb, iomuSearchForVpb devices (toupper (request.fileName.at_ 0)) = some vpb ∧ vpb.mounted = true) ∧
    answers.irp.isSome ∧ Answered request.create answers

inductive Creates (devices : Devices) (p : Pools) (request : Request) (answers : Answers) (after : Pools) :
    Except Failure Nat -> Prop
  | refused (code : Failure) (unreached : ¬ Reaches devices request answers) (kept : after = p) :
      Creates devices p request answers after (.error code)
  | bare (reaches : Reaches devices request answers) (short : answers.fcb = none) (fileObject : Nat) (object : FileObject)
      (given : answers.fileObject = some fileObject) (context : object.fsContext2 = 0)
      (made : after = writeFileObject p fileObject object) : Creates devices p request answers after (.ok fileObject)
  | attached (reaches : Reaches devices request answers) (fcb : Nat) (room : answers.fcb = some fcb) (fileObject : Nat)
      (object : FileObject) (block : Fcb) (given : answers.fileObject = some fileObject)
      (context : object.fsContext2 = fcb)
      (made : after = writeFileObject { p with fcbs := update p.fcbs fcb (some block) } fileObject object) :
      Creates devices p request answers after (.ok fileObject)

structure Fresh (p : Pools) (answers : Answers) : Prop where
  irp : forall a, answers.irp = some a -> a ≠ 0 ∧ p.irps a = none
  fileObject : forall a, answers.fileObject = some a -> a ≠ 0 ∧ p.fileObjects a = none
  fcb : forall a, answers.fcb = some a -> a ≠ 0 ∧ p.fcbs a = none

theorem ioAllocateFileObject_inv {device fileObject : Nat} {given : Option Nat}
    (result : ioAllocateFileObject p device request given = .ok (after, fileObject)) :
    given = some fileObject ∧ ∃ object : FileObject, object.fsContext2 = 0 ∧ object.create = request.create ∧
      after = writeFileObject p fileObject object := by
  cases given with
  | none => cases result
  | some place =>
    obtain ⟨rfl, rfl⟩ := Prod.mk.inj (Except.ok.inj result)
    exact ⟨rfl, _, rfl, rfl, rfl⟩

theorem callStatus_inv {sent : Status} (live : p.irps irp = some value)
    (result : callStatus p irp (.ok ()) = .ok sent) : sent = value.status := by
  obtain ⟨read, given, result⟩ := Kernel.bind_eq_ok.mp result
  obtain rfl := Option.some.inj (live.symm.trans (readIrp_eq_ok.mp given))
  exact (Except.ok.inj result).symm

theorem sendCreate_creates {device : Nat} (fresh : Fresh p answers) (given : answers.irp = some irp)
    (reaches : Reaches devices request answers ↔ Answered request.create answers)
    (result : sendCreate (writeIrp p irp value) device irp request answers = .ok (after, opened)) :
    Creates devices p request answers after opened := by
  obtain ⟨first, -, result⟩ := Kernel.bind_eq_ok.mp result
  obtain ⟨next, -, result⟩ := Kernel.bind_eq_ok.mp result
  obtain ⟨⟨second, fileObject⟩, allocated, result⟩ := Kernel.bind_eq_ok.mp result
  obtain ⟨file, object, empty, create, rfl⟩ := ioAllocateFileObject_inv allocated
  rw [← create] at reaches
  obtain ⟨third, placed, result⟩ := Kernel.bind_eq_ok.mp result
  obtain ⟨-, rfl⟩ := setNextIrpStackLocation_eq_ok.mp placed
  obtain ⟨⟨fourth, status⟩, called, result⟩ := Kernel.bind_eq_ok.mp result
  obtain ⟨sent, there, dispatched⟩ := ioCallDriver_inv (Function.update_self ..) (Function.update_self ..) called
  obtain ⟨rfl, done, rfl, status⟩ :=
    fatDispatchCreate_inv (Function.update_self ..) there (Function.update_self ..) dispatched
  obtain ⟨last, answered, result⟩ := Kernel.bind_eq_ok.mp result
  obtain rfl := callStatus_inv (Function.update_self ..) answered
  rw [status] at result
  revert result
  generalize same : writeIrp _ irp sent = q
  intro result
  have irps : update q.irps irp none = p.irps := by
    rw [← same]
    simp only [writeIrp_irps, writeFileObject_irps, Function.update_idem]
    rw [← (fresh.irp irp given).2, Function.update_eq_self]
  have files : q.fileObjects = update p.fileObjects fileObject (some object) := by
    rw [← same]
    rfl
  have fcbs : q.fcbs = p.fcbs := by
    rw [← same]
    rfl
  have ends := fatCreate_ends q fileObject object answers
  generalize fatCreate q fileObject object answers = outcome at ends result
  cases ends with
  | failed code unanswered =>
    obtain ⟨fifth, freed, result⟩ := Kernel.bind_eq_ok.mp result
    obtain ⟨-, -, rfl⟩ := ioFreeFileObject_eq_ok.mp freed
    obtain ⟨sixth, freed, result⟩ := Kernel.bind_eq_ok.mp result
    obtain ⟨-, -, rfl⟩ := ioFreeIrp_eq_ok.mp freed
    obtain ⟨rfl, rfl⟩ := Prod.mk.inj (Except.ok.inj result)
    refine .refused _ (fun reached => unanswered (reaches.mp reached)) (Pools.ext ?_ ?_ fcbs)
    · simp only [writeIrp_irps, Function.update_idem]
      exact irps
    · simp only [writeIrp_fileObjects, files, Function.update_idem]
      rw [← (fresh.fileObject fileObject file).2, Function.update_eq_self]
  | bare answered short =>
    obtain ⟨fifth, freed, result⟩ := Kernel.bind_eq_ok.mp result
    obtain ⟨-, -, rfl⟩ := ioFreeIrp_eq_ok.mp freed
    obtain ⟨rfl, rfl⟩ := Prod.mk.inj (Except.ok.inj result)
    refine .bare (reaches.mpr answered) short fileObject object file empty (Pools.ext ?_ files fcbs)
    simp only [writeIrp_irps, Function.update_idem]
    exact irps
  | attached answered fcb size block room =>
    obtain ⟨fifth, freed, result⟩ := Kernel.bind_eq_ok.mp result
    obtain ⟨-, -, rfl⟩ := ioFreeIrp_eq_ok.mp freed
    obtain ⟨rfl, rfl⟩ := Prod.mk.inj (Except.ok.inj result)
    refine .attached (reaches.mpr answered) fcb room fileObject { object with fileSize := size, fsContext2 := fcb } block file
      rfl (Pools.ext ?_ ?_ ?_)
    · simp only [writeIrp_irps, writeFileObject_irps, Function.update_idem]
      exact irps
    · simp only [writeIrp_fileObjects, writeFileObject_fileObjects, files, Function.update_idem]
    · simp only [writeIrp_fcbs, writeFileObject_fcbs, fcbs]

theorem ioCreateFile_creates (fresh : Fresh p answers)
    (result : ioCreateFile devices p request answers = .ok (after, opened)) :
    Creates devices p request answers after opened := by
  unfold ioCreateFile at result
  cases valid : ioIsFilePathValid request.fileName with
  | false =>
    rw [valid] at result
    obtain ⟨rfl, rfl⟩ := Prod.mk.inj (Except.ok.inj result)
    refine .refused _ (fun reaches => ?_) rfl
    exact absurd (valid.symm.trans reaches.1) (by decide)
  | true =>
    simp only [valid, Bool.not_true, Bool.false_eq_true, if_false] at result
    cases search : iomuSearchForVpb devices (toupper (request.fileName.at_ 0)) with
    | none =>
      rw [search] at result
      obtain ⟨rfl, rfl⟩ := Prod.mk.inj (Except.ok.inj result)
      refine .refused _ (fun reaches => ?_) rfl
      obtain ⟨vpb, found, _⟩ := reaches.2.1
      cases search.symm.trans found
    | some vpb =>
      rw [search] at result
      cases mounted : vpb.mounted with
      | false =>
        simp only [mounted] at result
        obtain ⟨rfl, rfl⟩ := Prod.mk.inj (Except.ok.inj result)
        refine .refused _ (fun reaches => ?_) rfl
        obtain ⟨other, found, there⟩ := reaches.2.1
        cases search.symm.trans found
        cases mounted.symm.trans there
      | true =>
        simp only [mounted, Bool.not_true, Bool.false_eq_true, if_false] at result
        obtain ⟨-, result⟩ := Kernel.assert_bind_eq_ok.mp result
        obtain ⟨⟨first, allocated⟩, given, sent⟩ := Kernel.bind_eq_ok.mp result
        rcases ioAllocateIrp_inv given with ⟨none_, rfl, rfl⟩ | ⟨irp, value, some_, rfl, rfl⟩
        · obtain ⟨rfl, rfl⟩ := Prod.mk.inj (Except.ok.inj sent)
          refine .refused _ (fun reaches => ?_) rfl
          have some_ := reaches.2.2.1
          rw [none_] at some_
          cases some_
        · refine sendCreate_creates fresh some_ ?_ sent
          rw [Reaches, and_iff_right valid, and_iff_right ⟨vpb, search, mounted⟩,
            and_iff_right (Option.isSome_of_eq_some some_)]

end Requests

section Closing

variable {devices : Devices} {p after : Pools} {irp handle : Nat} {value : Irp} {answers : Answers} {status : Status}

inductive Closes (p : Pools) (handle : Nat) (answers : Answers) (after : Pools) : Status -> Prop
  | refused (code : Failure) (short : answers.irp = none) (kept : after = p) : Closes p handle answers after (.error code)
  | closed (room : answers.irp.isSome) (object : FileObject) (file : p.fileObjects handle = some object)
      (attached : object.fsContext2 ≠ 0)
      (made : after = writeFileObject { p with fcbs := update p.fcbs object.fsContext2 none } handle
        { object with fsContext2 := 0 }) : Closes p handle answers after (.ok ())

theorem sendClose_closes (fresh : Fresh p answers) (given : answers.irp = some irp)
    (result : sendClose (writeIrp p irp value) irp handle answers = .ok (after, status)) :
    Closes p handle answers after status := by
  obtain ⟨first, -, result⟩ := Kernel.bind_eq_ok.mp result
  obtain ⟨second, placed, result⟩ := Kernel.bind_eq_ok.mp result
  obtain ⟨-, rfl⟩ := setNextIrpStackLocation_eq_ok.mp placed
  obtain ⟨⟨third, returned⟩, called, result⟩ := Kernel.bind_eq_ok.mp result
  obtain ⟨sent, there, dispatched⟩ := ioCallDriver_inv (Function.update_self ..) (Function.update_self ..) called
  obtain ⟨rfl, object, done, file, attached, fine, rfl⟩ :=
    fatDispatchClose_inv (Function.update_self ..) there dispatched
  obtain ⟨last, answered, result⟩ := Kernel.bind_eq_ok.mp result
  obtain rfl := callStatus_inv (Function.update_self ..) answered
  obtain ⟨fourth, freed, result⟩ := Kernel.bind_eq_ok.mp result
  obtain ⟨-, -, rfl⟩ := ioFreeIrp_eq_ok.mp freed
  obtain ⟨rfl, rfl⟩ := Prod.mk.inj (Except.ok.inj result)
  rw [fine]
  refine .closed (Option.isSome_of_eq_some given) object file attached (Pools.ext ?_ rfl rfl)
  simp only [writeIrp_irps, writeFileObject_irps, Function.update_idem]
  rw [← (fresh.irp irp given).2, Function.update_eq_self]

theorem ioCloseFile_closes (fresh : Fresh p answers)
    (result : ioCloseFile devices p handle answers = .ok (after, status)) : Closes p handle answers after status := by
  obtain ⟨-, result⟩ := Kernel.assert_bind_eq_ok.mp result
  obtain ⟨object, -, result⟩ := Kernel.bind_eq_ok.mp result
  obtain ⟨-, result⟩ := Kernel.assert_bind_eq_ok.mp result
  obtain ⟨⟨first, allocated⟩, given, sent⟩ := Kernel.bind_eq_ok.mp result
  rcases ioAllocateIrp_inv given with ⟨none_, rfl, rfl⟩ | ⟨irp, value, some_, rfl, rfl⟩
  · obtain ⟨rfl, rfl⟩ := Prod.mk.inj (Except.ok.inj sent)
    exact .refused _ none_ rfl
  · exact sendClose_closes fresh some_ sent

end Closing

end Hal9000.FileObjects
