import Hal9000.Net.Configuration

set_option autoImplicit false

namespace Hal9000.NetworkPort

open Lib (Program Standing)
open Lib.Program (Decides Keeps)

section Ends

variable {succeeds : Step -> Bool} {registration : MiniportRegistration} {i : Nat} {direction : Direction}
  {object : Object} {field : Field} {value : Option Object} {code : Status}

def BuffersReady (succeeds : Step -> Bool) (direction : Direction) (numberOfBuffers : Nat) : Prop :=
  succeeds (.bufferArray direction) = true ∧ (forall k, k < numberOfBuffers -> succeeds (.buffer direction k) = true) ∧
    succeeds (.descriptorArray direction) = true

def ReceiveReady (succeeds : Step -> Bool) (registration : MiniportRegistration) : Prop :=
  (succeeds .device = true ∧ succeeds .deviceExtension = true) ∧ succeeds .miniport = true ∧
    (registration.deviceContextSize ≠ 0 -> succeeds .miniportExtension = true) ∧
    BuffersReady succeeds .rx (registration.buffers .rx).numberOfBuffers

def PortReady (succeeds : Step -> Bool) (registration : MiniportRegistration) : Prop :=
  BuffersReady succeeds .tx (registration.buffers .tx).numberOfBuffers ∧
    succeeds .miniportInitializeDevice = true ∧ succeeds (.framesListNotEmptyEvent .rx) = true ∧
    succeeds (.framesListNotEmptyEvent .tx) = true ∧ succeeds .descriptorsAvailable = true ∧
    succeeds .transmitWorkerThread = true

theorem read_decides : Decides (read object field) True := fun _ => .inl ⟨trivial, _, _, rfl⟩

theorem allocateOr_decides {condition : Bool} : Decides (allocateOr condition object code) (condition = true) := by
  cases condition with
  | false => exact (Decides.fail code).congr (by simp)
  | true => exact (Decides.modify _).congr (by simp)

theorem succeedOr_decides {condition : Bool} : Decides (succeedOr condition code) (condition = true) := by
  cases condition with
  | false => exact (Decides.fail code).congr (by simp)
  | true => exact (Decides.pure ()).congr (by simp)

theorem whenSome_decides {rest : Object -> PortProgram Unit} (next : forall object, Decides (rest object) True) :
    Decides (whenSome value rest) True := by
  cases value with
  | none => exact Decides.pure ()
  | some object => exact next object

theorem createPort_decides : Decides (createPort succeeds i)
    (succeeds .device = true ∧ succeeds .deviceExtension = true) := by
  have object : Decides (createDeviceObject succeeds i)
      (succeeds .device = true ∧ succeeds .deviceExtension = true) := by
    refine allocateOr_decides.bind fun _ => ?_
    cases succeeds .deviceExtension with
    | false => exact ((Decides.modify _).bind fun _ => Decides.fail _).congr (by simp)
    | true => exact ((Decides.modify _).bind fun _ => Decides.modify _).congr (by simp)
  have device : Decides (ioCreateDevice succeeds i)
      (succeeds .device = true ∧ succeeds .deviceExtension = true) :=
    (object.bind fun _ => Decides.modify _).congr (by simp)
  refine (device.bind fun _ => ?_).congr (by rw [and_true])
  exact Decides.always read_decides fun _ => Decides.always (Decides.modify _) fun _ => Decides.modify _

theorem allocateMiniport_decides : Decides (allocateMiniport succeeds i) (succeeds .miniport = true) :=
  (allocateOr_decides.bind fun _ => Decides.always (Decides.modify _) fun _ => Decides.modify _).congr (by simp)

theorem allocateMiniportExtension_decides : Decides (allocateMiniportExtension succeeds registration i)
    (registration.deviceContextSize ≠ 0 -> succeeds .miniportExtension = true) := by
  unfold allocateMiniportExtension
  split
  next some_ => exact (allocateOr_decides.bind fun _ => Decides.modify _).congr (by simp [some_])
  next none_ => exact (Decides.pure ()).congr (by simp [none_])

theorem fillBuffers_decides {ks : List Nat} : Decides (fillBuffers succeeds i direction ks)
    (forall k, k ∈ ks -> succeeds (.buffer direction k) = true) := by
  induction ks with
  | nil => exact (Decides.pure ()).congr (by simp)
  | cons k ks ih =>
    refine (allocateOr_decides.bind fun _ => (Decides.modify _).bind fun _ => (Decides.modify _).bind fun _ => ih).congr ?_
    simp

theorem freeEach_decides {array : Object} {ks : List Nat} : Decides (freeEach array ks) True := by
  induction ks with
  | nil => exact Decides.pure ()
  | cons k ks ih =>
    refine Decides.always read_decides fun _ => Decides.always (whenSome_decides fun _ => ?_) fun _ => ih
    exact Decides.always (Decides.modify _) fun _ => Decides.modify _

theorem freeBuffers_decides {array : Object} {numberOfBuffers : Nat} :
    Decides (freeBuffers array numberOfBuffers) True :=
  Decides.always freeEach_decides fun _ => Decides.modify _

theorem allocateBuffers_decides {numberOfBuffers : Nat} : Decides (allocateBuffers succeeds i direction numberOfBuffers)
    (BuffersReady succeeds direction numberOfBuffers) := by
  refine (allocateOr_decides.bind fun _ => (Decides.modify _).bind fun _ => fillBuffers_decides.bind fun _ =>
    allocateOr_decides.bind fun _ => Decides.modify _).congr ?_
  simp [BuffersReady]

theorem initializeMiniportBuffers_decides {numberOfBuffers : Nat} :
    Decides (initializeMiniportBuffers succeeds i direction numberOfBuffers)
      (BuffersReady succeeds direction numberOfBuffers) := by
  have freed : Decides (freeMiniportBuffers numberOfBuffers) True :=
    Decides.always Decides.get fun _ => Decides.always (whenSome_decides fun _ => Decides.modify _) fun _ =>
      whenSome_decides fun _ => freeBuffers_decides
  exact ((Decides.modify _).bind fun _ => (allocateBuffers_decides.onFailure freed).bind fun _ =>
    Decides.modify _).congr (by simp)

theorem freeMiniport_decides {miniport : Object} : Decides (freeMiniport miniport) True :=
  Decides.always read_decides fun _ => Decides.always
    (whenSome_decides fun _ => Decides.always (Decides.modify _) fun _ => Decides.modify _) fun _ => Decides.modify _

theorem networkPortDeviceUninit_decides {portDevice : Object} :
    Decides (networkPortDeviceUninit registration portDevice) True := by
  have uninitialized (miniport : Object) : Decides (uninitializeMiniport registration miniport) True := by
    refine Decides.always read_decides fun _ => whenSome_decides fun _ => Decides.always (Decides.modify _) fun _ =>
      Decides.always Decides.get fun _ => whenSome_decides fun _ => Decides.always (Decides.modify _) fun _ => ?_
    split
    next => exact Decides.modify _
    next => exact Decides.pure ()
  have freed (direction : Direction) : Decides (freePortBuffers portDevice direction) True :=
    Decides.always read_decides fun _ => whenSome_decides fun _ =>
      Decides.always (Decides.modify _) fun _ => Decides.modify _
  refine Decides.always read_decides fun _ => Decides.always (whenSome_decides fun miniport => ?_) fun _ =>
    Decides.always (freed .rx) fun _ => Decides.always (freed .tx) fun _ => Decides.modify _
  exact Decides.always (uninitialized miniport) fun _ => freeMiniport_decides

theorem configureCleanup_decides : Decides (configureCleanup registration) True := by
  have deleted (device : Object) : Decides (ioDeleteDevice device) True :=
    Decides.always read_decides fun _ => Decides.always
      (whenSome_decides fun _ => Decides.always (Decides.modify _) fun _ => Decides.modify _) fun _ => Decides.modify _
  exact Decides.always Decides.get fun _ =>
    Decides.always (whenSome_decides fun _ => networkPortDeviceUninit_decides) fun _ =>
    Decides.always (whenSome_decides deleted) fun _ =>
    Decides.always (whenSome_decides fun _ => freeMiniport_decides) fun _ =>
    Decides.always (whenSome_decides fun _ => freeBuffers_decides) fun _ =>
    whenSome_decides fun _ => freeBuffers_decides

def configureFront (succeeds : Step -> Bool) (registration : MiniportRegistration) (i : Nat) : PortProgram Unit := do
  createPort succeeds i
  allocateMiniport succeeds i
  allocateMiniportExtension succeeds registration i
  initializeMiniportBuffers succeeds i .rx (registration.buffers .rx).numberOfBuffers

def configureRest (succeeds : Step -> Bool) (registration : MiniportRegistration) (i : Nat) : PortProgram Unit := do
  initializeMiniportBuffers succeeds i .tx (registration.buffers .tx).numberOfBuffers
  miniportInitializeDevice succeeds i
  networkPortDeviceInit succeeds i

theorem configureRest_decides : Decides (configureRest succeeds registration i) (PortReady succeeds registration) := by
  have event (direction : Direction) : Decides (deviceInitBuffers succeeds i direction)
      (succeeds (.framesListNotEmptyEvent direction) = true) :=
    (Decides.get.bind fun _ => (Decides.modify _).bind fun _ => succeedOr_decides).congr (by simp)
  have initialized : Decides (networkPortDeviceInit succeeds i) (succeeds (.framesListNotEmptyEvent .rx) = true ∧
      succeeds (.framesListNotEmptyEvent .tx) = true ∧ succeeds .descriptorsAvailable = true ∧
      succeeds .transmitWorkerThread = true) :=
    (Decides.get.bind fun _ => (Decides.modify _).bind fun _ => (event .rx).bind fun _ => (event .tx).bind fun _ =>
      succeedOr_decides.bind fun _ => succeedOr_decides).congr (by simp)
  have miniport : Decides (miniportInitializeDevice succeeds i) (succeeds .miniportInitializeDevice = true) :=
    ((Decides.modify _).bind fun _ => succeedOr_decides).congr (by simp)
  exact initializeMiniportBuffers_decides.bind fun _ => miniport.bind fun _ => initialized

theorem configureDevice_decides : Decides (configureDevice succeeds registration i)
    (ReceiveReady succeeds registration ∧ PortReady succeeds registration) := by
  have body : Decides (configureBody succeeds registration i)
      (ReceiveReady succeeds registration ∧ PortReady succeeds registration) := by
    refine (createPort_decides.bind fun _ => allocateMiniport_decides.bind fun _ =>
      allocateMiniportExtension_decides.bind fun _ => initializeMiniportBuffers_decides.bind fun _ =>
      configureRest_decides).congr ?_
    simp only [ReceiveReady, and_assoc]
  exact ((Decides.modify _).bind fun _ => body.onFailure configureCleanup_decides).congr (by rw [true_and])

end Ends

-- The objects of the i-th device that the pointers of the code can reach: no field holds a ring but that of the
-- initialization, which nobody reads.
def Movable (i : Nat) (object : Object) : Prop :=
  object.owner = some i ∧ forall direction, object ≠ .descriptorArray i direction

-- What the configuration of the i-th device leaves alone: the objects in `kept` and all that is not the device's.
structure Frame (i : Nat) (kept : Object -> Prop) (start p : Port) : Prop where
  standing : forall object, kept object -> p.heap.standing object = start.heap.standing object
  elsewhere : forall object, object.owner ≠ some i -> p.heap.pointer object = start.heap.pointer object
  pointers : forall object field target, object.owner = some i -> p.heap.pointer object field = some target ->
    Movable i target
  devObj : forall object, p.devObj = some object -> Movable i object
  portDevice : forall object, p.portDevice = some object -> Movable i object
  miniportDevice : forall object, p.miniportDevice = some object -> Movable i object
  buffers : forall direction object, p.buffers direction = some object -> Movable i object
  bufferArray : forall object, p.bufferArray = some object -> Movable i object
  descriptorArray : forall object, p.descriptorArray = some object -> object.owner = some i ∧ ¬kept object
  driverExtension : p.driverExtension = start.driverExtension
  pciDevices : p.pciDevices = start.pciDevices
  physicalAddresses : p.physicalAddresses = start.physicalAddresses
  noOfDevicesInitialized : p.noOfDevicesInitialized = start.noOfDevicesInitialized
  results : p.results = start.results

structure Keepable (i : Nat) (kept : Object -> Prop) (start : Port) : Prop where
  limits : forall object, kept object -> object.owner ≠ some i ∨ ∃ direction, object = .descriptorArray i direction
  driverExtension : forall object, start.driverExtension = some object -> start.heap.standing object = .live
  physicalAddresses : forall direction, start.heap.standing (.physicalAddresses direction) = .live

namespace Frame

variable {succeeds : Step -> Bool} {registration : MiniportRegistration} {i : Nat} {direction : Direction}
  {kept : Object -> Prop} {start p : Port} {object : Object} {field : Field} {value : Option Object} {code : Status}

theorem movable_free (keepable : Keepable i kept start) (movable : Movable i object) : ¬kept object := by
  intro held
  rcases keepable.limits object held with other | ⟨direction, ring⟩
  · exact other movable.1
  · exact movable.2 direction ring

theorem points (movable : Movable i object) (other : Object) (same : some object = some other) : Movable i other := by
  cases same
  exact movable

theorem release_keeps (free : ¬kept object) : Keeps (Frame i kept start) (release object) fun _ => True := by
  refine Keeps.modify fun p frame => { frame with standing := fun other held => ?_ }
  have different : object ≠ other := by
    rintro rfl
    exact free held
  simpa [different] using frame.standing other held

theorem access_keeps (live : kept object -> start.heap.standing object = .live) :
    Keeps (Frame i kept start) (access object) fun _ => True := by
  refine Keeps.modify fun p frame => { frame with standing := fun other held => ?_ }
  have before := frame.standing other held
  by_cases same : object = other
  · subst same
    rw [live held] at before
    simp [before, live held, Standing.next]
  · simpa [same] using before

theorem allocate_keeps (own : object.owner = some i) (free : ¬kept object) :
    Keeps (Frame i kept start) (allocate object) fun _ => True := by
  refine Keeps.modify fun p frame => { frame with standing := ?_, elsewhere := ?_, pointers := ?_ }
  · intro other held
    have different : object ≠ other := by
      rintro rfl
      exact free held
    simpa [different] using frame.standing other held
  · intro other outside
    have different : other ≠ object := by
      rintro rfl
      exact outside own
    simpa [different] using frame.elsewhere other outside
  · intro other field target inside held
    by_cases same : other = object
    · simp [same] at held
    · exact frame.pointers other field target inside (by simpa [same] using held)

theorem write_keeps (movable : Movable i object) (free : ¬kept object)
    (target : forall other, value = some other -> Movable i other) :
    Keeps (Frame i kept start) (write object field value) fun _ => True := by
  refine Keeps.modify fun p frame => { frame with standing := ?_, elsewhere := ?_, pointers := ?_ }
  · intro other held
    have different : object ≠ other := by
      rintro rfl
      exact free held
    simpa [different] using frame.standing other held
  · intro other outside
    have different : other ≠ object := by
      rintro rfl
      exact outside movable.1
    simpa [different] using frame.elsewhere other outside
  · intro other otherField destination inside held
    by_cases same : other = object
    · subst same
      by_cases sameField : otherField = field
      · exact target destination (by simpa [sameField] using held)
      · exact frame.pointers other otherField destination inside (by simpa [sameField] using held)
    · exact frame.pointers other otherField destination inside (by simpa [same] using held)

theorem zero_keeps (own : object.owner = some i) (free : ¬kept object) :
    Keeps (Frame i kept start) (zero object) fun _ => True := by
  refine Keeps.modify fun p frame => { frame with standing := ?_, elsewhere := ?_, pointers := ?_ }
  · intro other held
    have different : object ≠ other := by
      rintro rfl
      exact free held
    simpa [different] using frame.standing other held
  · intro other outside
    have different : other ≠ object := by
      rintro rfl
      exact outside own
    simpa [different] using frame.elsewhere other outside
  · intro other field target inside held
    by_cases same : other = object
    · simp [same] at held
    · exact frame.pointers other field target inside (by simpa [same] using held)

theorem read_keeps (movable : Movable i object) (free : ¬kept object) :
    Keeps (Frame i kept start) (read object field) fun value => forall other, value = some other -> Movable i other := by
  intro p result after frame done
  cases done
  obtain ⟨kept, _⟩ := (access_keeps fun held => absurd held free) p _ _ frame rfl
  refine ⟨kept, ?_⟩
  intro value same other held
  cases same
  exact frame.pointers object field other movable.1 held

theorem whenSome_keeps {rest : Object -> PortProgram Unit} (target : forall other, value = some other -> Movable i other)
    (next : forall object, Movable i object -> Keeps (Frame i kept start) (rest object) fun _ => True) :
    Keeps (Frame i kept start) (whenSome value rest) fun _ => True := by
  cases value with
  | none => exact Keeps.pure trivial
  | some object => exact next object (target object rfl)

theorem get_keeps : Keeps (Frame i kept start) (Program.get : PortProgram Port) (Frame i kept start) := by
  intro p result after frame done
  cases done
  exact ⟨frame, fun value same => by cases same; exact frame⟩

theorem allocateOr_keeps {condition : Bool} (own : object.owner = some i) (free : ¬kept object) :
    Keeps (Frame i kept start) (allocateOr condition object code) fun _ => True := by
  cases condition with
  | false => exact Keeps.fail
  | true => exact allocate_keeps own free

theorem succeedOr_keeps {condition : Bool} : Keeps (Frame i kept start) (succeedOr condition code) fun _ => True := by
  cases condition with
  | false => exact Keeps.fail
  | true => exact Keeps.pure trivial

section Pieces

variable (keepable : Keepable i kept start)
include keepable

theorem releaseMovable (movable : Movable i object) : Keeps (Frame i kept start) (release object) fun _ => True :=
  release_keeps (movable_free keepable movable)

theorem clearPointer (movable : Movable i object) : Keeps (Frame i kept start) (write object field none) fun _ => True :=
  write_keeps movable (movable_free keepable movable) (by simp)

theorem freeEach_keeps {ks : List Nat} (movable : Movable i object) :
    Keeps (Frame i kept start) (freeEach object ks) fun _ => True := by
  induction ks with
  | nil => exact Keeps.pure trivial
  | cons k ks ih =>
    refine (read_keeps movable (movable_free keepable movable)).bind fun value target => ?_
    refine (whenSome_keeps target fun buffer inside => ?_).bind fun _ _ => ih
    exact (releaseMovable keepable inside).bind fun _ _ => clearPointer keepable movable

theorem freeBuffers_keeps {numberOfBuffers : Nat} (movable : Movable i object) :
    Keeps (Frame i kept start) (freeBuffers object numberOfBuffers) fun _ => True :=
  (freeEach_keeps keepable movable).bind fun _ _ => releaseMovable keepable movable

theorem freeMiniport_keeps (movable : Movable i object) : Keeps (Frame i kept start) (freeMiniport object) fun _ => True := by
  refine (read_keeps movable (movable_free keepable movable)).bind fun value target => ?_
  refine (whenSome_keeps target fun extension inside => ?_).bind fun _ _ => releaseMovable keepable movable
  exact (releaseMovable keepable inside).bind fun _ _ => clearPointer keepable movable

theorem ioDeleteDevice_keeps (movable : Movable i object) : Keeps (Frame i kept start) (ioDeleteDevice object) fun _ => True := by
  refine (read_keeps movable (movable_free keepable movable)).bind fun value target => ?_
  refine (whenSome_keeps target fun extension inside => ?_).bind fun _ _ => releaseMovable keepable movable
  exact (releaseMovable keepable inside).bind fun _ _ => clearPointer keepable movable

theorem networkPortDeviceUninit_keeps (movable : Movable i object) :
    Keeps (Frame i kept start) (networkPortDeviceUninit registration object) fun _ => True := by
  have free {other : Object} (inside : Movable i other) : ¬kept other := movable_free keepable inside
  have freed (direction : Direction) : Keeps (Frame i kept start) (freePortBuffers object direction) fun _ => True := by
    refine (read_keeps movable (free movable)).bind fun value target => whenSome_keeps target fun buffers inside => ?_
    exact (releaseMovable keepable inside).bind fun _ _ => clearPointer keepable movable
  have uninitialized (miniport : Object) (inside : Movable i miniport) :
      Keeps (Frame i kept start) (uninitializeMiniport registration miniport) fun _ => True := by
    refine (read_keeps inside (free inside)).bind fun value target => whenSome_keeps target fun device within => ?_
    refine (access_keeps fun held => absurd held (free within)).bind fun _ _ => get_keeps.bind fun p frame => ?_
    rw [frame.driverExtension]
    cases extension : start.driverExtension with
    | none => exact Keeps.pure trivial
    | some driverData =>
      refine (access_keeps fun _ => keepable.driverExtension driverData extension).bind fun _ _ => ?_
      split
      next => exact access_keeps fun held => absurd held (free inside)
      next => exact Keeps.pure trivial
  refine (read_keeps movable (free movable)).bind fun value target => ?_
  refine (whenSome_keeps target fun miniport inside => (uninitialized miniport inside).bind fun _ _ =>
    freeMiniport_keeps keepable inside).bind fun _ _ => ?_
  exact (freed .rx).bind fun _ _ => (freed .tx).bind fun _ _ => zero_keeps movable.1 (free movable)

theorem configureCleanup_keeps : Keeps (Frame i kept start) (configureCleanup registration) fun _ => True := by
  refine get_keeps.bind fun p frame => ?_
  refine (whenSome_keeps frame.portDevice fun _ => networkPortDeviceUninit_keeps keepable).bind fun _ _ => ?_
  refine (whenSome_keeps frame.devObj fun _ => ioDeleteDevice_keeps keepable).bind fun _ _ => ?_
  refine (whenSome_keeps frame.miniportDevice fun _ => freeMiniport_keeps keepable).bind fun _ _ => ?_
  refine (whenSome_keeps (frame.buffers .rx) fun _ => freeBuffers_keeps keepable).bind fun _ _ => ?_
  exact whenSome_keeps (frame.buffers .tx) fun _ => freeBuffers_keeps keepable

theorem fillBuffers_keeps {ks : List Nat} : Keeps (Frame i kept start) (fillBuffers succeeds i direction ks) fun _ => True := by
  have array : Movable i (.bufferArray i direction) := ⟨rfl, by simp⟩
  have buffer (k : Nat) : Movable i (.buffer i direction k) := ⟨rfl, by simp⟩
  induction ks with
  | nil => exact Keeps.pure trivial
  | cons k ks ih =>
    refine (allocateOr_keeps rfl (movable_free keepable (buffer k))).bind fun _ _ => ?_
    refine (write_keeps array (movable_free keepable array) (points (buffer k))).bind fun _ _ => ?_
    exact (access_keeps fun _ => keepable.physicalAddresses direction).bind fun _ _ => ih

theorem initializeMiniportBuffers_keeps {numberOfBuffers : Nat} (ring : ¬kept (.descriptorArray i direction)) :
    Keeps (Frame i kept start) (initializeMiniportBuffers succeeds i direction numberOfBuffers) fun _ => True := by
  have array : Movable i (.bufferArray i direction) := ⟨rfl, by simp⟩
  have allocated : Keeps (Frame i kept start) (allocateBuffers succeeds i direction numberOfBuffers) fun _ => True := by
    refine (allocateOr_keeps rfl (movable_free keepable array)).bind fun _ _ => ?_
    refine (Keeps.modify fun p frame => { frame with bufferArray := points array }).bind fun _ _ => ?_
    refine (fillBuffers_keeps keepable).bind fun _ _ => (allocateOr_keeps rfl ring).bind fun _ _ => ?_
    refine Keeps.modify fun p frame => { frame with descriptorArray := ?_ }
    intro object same
    cases same
    exact ⟨rfl, ring⟩
  have freed : Keeps (Frame i kept start) (freeMiniportBuffers numberOfBuffers) fun _ => True := by
    refine get_keeps.bind fun p frame => ?_
    have first : Keeps (Frame i kept start) (whenSome p.descriptorArray release) fun _ => True := by
      cases given : p.descriptorArray with
      | none => exact Keeps.pure trivial
      | some object => exact release_keeps (frame.descriptorArray object given).2
    exact first.bind fun _ _ => whenSome_keeps frame.bufferArray fun _ => freeBuffers_keeps keepable
  refine (Keeps.modify fun p frame => { frame with bufferArray := by simp, descriptorArray := by simp }).bind fun _ _ => ?_
  refine (allocated.onFailure freed).bind fun _ _ => Keeps.modify fun p frame => ?_
  refine { frame with buffers := ?_, bufferArray := by simp, descriptorArray := by simp }
  intro other object held
  by_cases same : other = direction
  · subst same
    exact frame.bufferArray object (by simpa using held)
  · exact frame.buffers other object (by simpa [same] using held)

theorem configureRest_keeps (ring : ¬kept (.descriptorArray i .tx)) :
    Keeps (Frame i kept start) (configureRest succeeds registration i) fun _ => True := by
  have portDevice : Movable i (.portDevice i) := ⟨rfl, by simp⟩
  have miniport : Movable i (.miniport i) := ⟨rfl, by simp⟩
  have event (direction : Direction) : Keeps (Frame i kept start) (deviceInitBuffers succeeds i direction) fun _ => True := by
    refine get_keeps.bind fun p frame => (write_keeps portDevice (movable_free keepable portDevice) ?_).bind fun _ _ => succeedOr_keeps
    exact frame.buffers direction
  have initialized : Keeps (Frame i kept start) (networkPortDeviceInit succeeds i) fun _ => True := by
    refine get_keeps.bind fun p frame => (write_keeps portDevice (movable_free keepable portDevice) ?_).bind fun _ _ => ?_
    · exact frame.miniportDevice
    · exact (event .rx).bind fun _ _ => (event .tx).bind fun _ _ => succeedOr_keeps.bind fun _ _ => succeedOr_keeps
  have called : Keeps (Frame i kept start) (miniportInitializeDevice succeeds i) fun _ => True :=
    (access_keeps fun held => absurd held (movable_free keepable miniport)).bind fun _ _ => succeedOr_keeps
  exact (initializeMiniportBuffers_keeps keepable ring).bind fun _ _ => called.bind fun _ _ => initialized

theorem configureFront_keeps (ring : ¬kept (.descriptorArray i .rx)) :
    Keeps (Frame i kept start) (configureFront succeeds registration i) fun _ => True := by
  have device : Movable i (.device i) := ⟨rfl, by simp⟩
  have portDevice : Movable i (.portDevice i) := ⟨rfl, by simp⟩
  have miniport : Movable i (.miniport i) := ⟨rfl, by simp⟩
  have extension : Movable i (.miniportExtension i) := ⟨rfl, by simp⟩
  have free {other : Object} (inside : Movable i other) : ¬kept other := movable_free keepable inside
  have object : Keeps (Frame i kept start) (createDeviceObject succeeds i) fun _ => True := by
    refine (allocateOr_keeps rfl (free device)).bind fun _ _ => ?_
    split
    next =>
      refine (allocate_keeps rfl (free portDevice)).bind fun _ _ => ?_
      exact write_keeps device (free device) (points portDevice)
    next => exact (releaseMovable keepable device).bind fun _ _ => Keeps.fail
  have created : Keeps (Frame i kept start) (ioCreateDevice succeeds i) fun _ => True :=
    object.bind fun _ _ => Keeps.modify fun p frame => { frame with devObj := points device }
  have port : Keeps (Frame i kept start) (createPort succeeds i) fun _ => True := by
    refine created.bind fun _ _ => (read_keeps device (free device)).bind fun value target => ?_
    refine (Keeps.modify fun p frame => { frame with portDevice := target }).bind fun _ _ => ?_
    exact zero_keeps rfl (free portDevice)
  have allocated : Keeps (Frame i kept start) (allocateMiniport succeeds i) fun _ => True := by
    refine (allocateOr_keeps rfl (free miniport)).bind fun _ _ => ?_
    refine (Keeps.modify fun p frame => { frame with miniportDevice := points miniport }).bind fun _ _ => ?_
    exact write_keeps miniport (free miniport) (points device)
  have extended : Keeps (Frame i kept start) (allocateMiniportExtension succeeds registration i) fun _ => True := by
    unfold allocateMiniportExtension
    split
    next =>
      refine (allocateOr_keeps rfl (free extension)).bind fun _ _ => ?_
      exact write_keeps miniport (free miniport) (points extension)
    next => exact Keeps.pure trivial
  exact port.bind fun _ _ => allocated.bind fun _ _ => extended.bind fun _ _ =>
    initializeMiniportBuffers_keeps keepable ring

end Pieces

end Frame

end Hal9000.NetworkPort
