import Hal9000.Net.ConfigurationFrame

set_option autoImplicit false

namespace Hal9000.NetworkPort

open Lib (PointerHeap Program Settled Standing)
open Lib.Program (Fails Returns)

section Early

variable {succeeds : Step -> Bool} {registration : MiniportRegistration} {i : Nat} {direction : Direction} {p : Port}

def Done (p : Port) (object : Object) : Prop := Settled p.heap.log object

theorem done_iff {object : Object} : Done p object ↔ p.heap.standing object = .absent ∨ p.heap.standing object = .gone :=
  Iff.rfl

def Half (i : Nat) (direction : Direction) (object : Object) : Prop :=
  object = .bufferArray i direction ∨ (∃ k, object = .buffer i direction k) ∨ object = .descriptorArray i direction

structure Early (i : Nat) (p : Port) : Prop where
  buffers : forall direction, p.buffers direction = none
  halves : forall direction object, Half i direction object -> Done p object
  device : (p.devObj = none ∧ p.portDevice = none ∧ Done p (.device i) ∧ Done p (.portDevice i)) ∨
    (p.devObj = some (.device i) ∧ p.portDevice = some (.portDevice i) ∧ p.heap.standing (.device i) = .live ∧
      p.heap.standing (.portDevice i) = .live ∧
      p.heap.pointer (.device i) .deviceExtension = some (.portDevice i) ∧
      forall field, p.heap.pointer (.portDevice i) field = none)
  miniport : (p.miniportDevice = none ∧ Done p (.miniport i) ∧ Done p (.miniportExtension i)) ∨
    (p.miniportDevice = some (.miniport i) ∧ p.heap.standing (.miniport i) = .live ∧
      ((p.heap.pointer (.miniport i) .deviceExtension = none ∧ Done p (.miniportExtension i)) ∨
        (p.heap.pointer (.miniport i) .deviceExtension = some (.miniportExtension i) ∧
          p.heap.standing (.miniportExtension i) = .live)))

theorem read_bind_apply {object : Object} {field : Field} {rest : Option Object -> PortProgram Unit} :
    (read object field >>= rest) p = rest (p.heap.pointer object field) { p with heap := p.heap.access object } := rfl

theorem whenSome_none {rest : Object -> PortProgram Unit} : whenSome none rest = pure () := rfl

theorem whenSome_some {object : Object} {rest : Object -> PortProgram Unit} : whenSome (some object) rest = rest object := rfl

theorem uninit_zero (zeroed : forall field, p.heap.pointer (.portDevice i) field = none) :
    Returns (networkPortDeviceUninit registration (.portDevice i)) p ()
      { p with
        heap := (((p.heap.access (.portDevice i)).access (.portDevice i)).access (.portDevice i)).zero (.portDevice i) } := by
  simp only [Returns, networkPortDeviceUninit, freePortBuffers, zero, read_bind_apply, Program.bind_assoc, PointerHeap.pointer_access, zeroed, whenSome_none,
    Program.pure_bind, Program.modify_apply]

theorem delete_device (extended : p.heap.pointer (.device i) .deviceExtension = some (.portDevice i)) :
    Returns (ioDeleteDevice (.device i)) p ()
      { p with
        heap := (((p.heap.access (.device i)).release (.portDevice i)).write (.device i) .deviceExtension none).release
          (.device i) } := by
  simp only [Returns, ioDeleteDevice, release, write, read_bind_apply, Program.bind_assoc, extended, whenSome_some,
    Program.modify_bind_apply, Program.modify_apply]

theorem free_miniport (plain : p.heap.pointer (.miniport i) .deviceExtension = none) :
    Returns (freeMiniport (.miniport i)) p ()
      { p with
        heap := (p.heap.access (.miniport i)).release (.miniport i) } := by
  simp only [Returns, freeMiniport, release, read_bind_apply, plain, whenSome_none, Program.pure_bind,
    Program.modify_apply]

theorem free_extended (extended : p.heap.pointer (.miniport i) .deviceExtension = some (.miniportExtension i)) :
    Returns (freeMiniport (.miniport i)) p ()
      { p with
        heap := (((p.heap.access (.miniport i)).release (.miniportExtension i)).write (.miniport i) .deviceExtension
          none).release (.miniport i) } := by
  simp only [Returns, freeMiniport, release, write, read_bind_apply, Program.bind_assoc, extended, whenSome_some,
    Program.modify_bind_apply, Program.modify_apply]

theorem cleanup_device (early : Early i p) : ∃ after,
    Returns (whenSome p.portDevice (networkPortDeviceUninit registration) >>= fun _ =>
      whenSome p.devObj ioDeleteDevice) p () after ∧
    Done after (.device i) ∧ Done after (.portDevice i) ∧ after.miniportDevice = p.miniportDevice ∧
    forall object, object ≠ .device i -> object ≠ .portDevice i ->
      after.heap.standing object = p.heap.standing object ∧ after.heap.pointer object = p.heap.pointer object := by
  rcases early.device with ⟨device, portDevice, first, second⟩ | ⟨device, portDevice, lives, also, extended, zeroed⟩
  · rw [device, portDevice]
    exact ⟨p, rfl, first, second, rfl, fun _ _ _ => ⟨rfl, rfl⟩⟩
  · rw [device, portDevice]
    simp only [whenSome_some]
    refine ⟨_, (uninit_zero zeroed).bind.trans (delete_device ?_), ?_, ?_, rfl, ?_⟩
    · simpa using extended
    · rw [done_iff]
      simp [lives, Standing.next]
    · rw [done_iff]
      simp [also, Standing.next]
    · intro object first second
      simp [first, second, first.symm, second.symm]

theorem cleanup_miniport (own : (p.miniportDevice = none ∧ Done p (.miniport i) ∧ Done p (.miniportExtension i)) ∨
    (p.miniportDevice = some (.miniport i) ∧ p.heap.standing (.miniport i) = .live ∧
      ((p.heap.pointer (.miniport i) .deviceExtension = none ∧ Done p (.miniportExtension i)) ∨
        (p.heap.pointer (.miniport i) .deviceExtension = some (.miniportExtension i) ∧
          p.heap.standing (.miniportExtension i) = .live)))) : ∃ after,
    Returns (whenSome p.miniportDevice freeMiniport) p () after ∧
    Done after (.miniport i) ∧ Done after (.miniportExtension i) ∧
    forall object, object ≠ .miniport i -> object ≠ .miniportExtension i ->
      after.heap.standing object = p.heap.standing object := by
  rcases own with ⟨miniport, first, second⟩ | ⟨miniport, lives, ⟨plain, done⟩ | ⟨extended, also⟩⟩
  · rw [miniport]
    exact ⟨p, rfl, first, second, fun _ _ _ => rfl⟩
  · rw [miniport]
    refine ⟨_, free_miniport plain, ?_, ?_, ?_⟩
    · rw [done_iff]
      simp [lives, Standing.next]
    · rw [done_iff] at done ⊢
      simpa using done
    · intro object first second
      simp [first.symm]
  · rw [miniport]
    refine ⟨_, free_extended extended, ?_, ?_, ?_⟩
    · rw [done_iff]
      simp [lives, Standing.next]
    · rw [done_iff]
      simp [also, Standing.next]
    · intro object first second
      simp [first.symm, second.symm]

theorem cleanup_settles (early : Early i p) : ∃ after, Returns (configureCleanup registration) p () after ∧
    forall object, object.owner = some i -> Done after object := by
  obtain ⟨middle, first, device, portDevice, miniportDevice, kept⟩ := @cleanup_device registration i p early
  have moved (object : Object) (other : object ≠ .device i) (another : object ≠ .portDevice i) :
      Done p object -> Done middle object := by
    rw [done_iff, done_iff, (kept object other another).1]
    exact id
  have own := early.miniport
  rw [← miniportDevice, ← (kept (.miniport i) (by simp) (by simp)).1, ← (kept (.miniport i) (by simp) (by simp)).2,
    ← (kept (.miniportExtension i) (by simp) (by simp)).1] at own
  obtain ⟨after, second, miniport, extension, rest⟩ := @cleanup_miniport i middle (by
    rcases own with ⟨none_, done, also⟩ | ⟨given, lives, ⟨plain, done⟩ | extended⟩
    · exact .inl ⟨none_, moved _ (by simp) (by simp) done, moved _ (by simp) (by simp) also⟩
    · exact .inr ⟨given, lives, .inl ⟨plain, moved _ (by simp) (by simp) done⟩⟩
    · exact .inr ⟨given, lives, .inr extended⟩)
  rw [miniportDevice] at second
  have settled (object : Object) (other : object ≠ .miniport i) (another : object ≠ .miniportExtension i) :
      Done middle object -> Done after object := by
    rw [done_iff, done_iff, rest object other another]
    exact id
  refine ⟨after, ?_, ?_⟩
  · rw [Returns, configureCleanup, Program.get_bind_apply, ← Program.bind_assoc, first.bind, second.bind,
      early.buffers, early.buffers]
    rfl
  · intro object owner
    have half (direction : Direction) (inside : Half i direction object) : Done after object := by
      have before := early.halves direction object inside
      rcases inside with rfl | ⟨k, rfl⟩ | rfl <;>
        exact settled _ (by simp) (by simp) (moved _ (by simp) (by simp) before)
    cases object with
    | pciDevices => simp [Object.owner] at owner
    | driverExtension => simp [Object.owner] at owner
    | physicalAddresses direction => simp [Object.owner] at owner
    | device j =>
      obtain rfl : j = i := by simpa [Object.owner] using owner
      exact settled _ (by simp) (by simp) device
    | portDevice j =>
      obtain rfl : j = i := by simpa [Object.owner] using owner
      exact settled _ (by simp) (by simp) portDevice
    | miniport j =>
      obtain rfl : j = i := by simpa [Object.owner] using owner
      exact miniport
    | miniportExtension j =>
      obtain rfl : j = i := by simpa [Object.owner] using owner
      exact extension
    | bufferArray j direction =>
      obtain rfl : j = i := by simpa [Object.owner] using owner
      exact half direction (.inl rfl)
    | buffer j direction k =>
      obtain rfl : j = i := by simpa [Object.owner] using owner
      exact half direction (.inr (.inl ⟨k, rfl⟩))
    | descriptorArray j direction =>
      obtain rfl : j = i := by simpa [Object.owner] using owner
      exact half direction (.inr (.inr rfl))

structure Elsewhere (i : Nat) (direction : Direction) (start p : Port) : Prop where
  standing : forall object, ¬Half i direction object -> (forall other, object ≠ .physicalAddresses other) ->
    p.heap.standing object = start.heap.standing object
  pointer : forall object, ¬Half i direction object -> p.heap.pointer object = start.heap.pointer object
  locals_same : p.devObj = start.devObj ∧ p.portDevice = start.portDevice ∧ p.miniportDevice = start.miniportDevice ∧
    p.buffers = start.buffers

-- While the buffers of one direction are allocated or freed: what the array points to is live, the rest is done.
structure Partly (i : Nat) (direction : Direction) (numberOfBuffers : Nat) (start p : Port) : Prop where
  array : p.heap.standing (.bufferArray i direction) = .live
  buffers : forall k, (p.heap.pointer (.bufferArray i direction) (.element k) = some (.buffer i direction k) ∧
      p.heap.standing (.buffer i direction k) = .live ∧ k < numberOfBuffers) ∨
    (p.heap.pointer (.bufferArray i direction) (.element k) = none ∧ Done p (.buffer i direction k))
  ring : p.heap.standing (.descriptorArray i direction) = .absent
  elsewhere : Elsewhere i direction start p

variable {numberOfBuffers k : Nat} {start after : Port} {ks : List Nat}

theorem not_half {object : Object} (other : ¬Half i direction object) : object ≠ .bufferArray i direction ∧
    (forall k, object ≠ .buffer i direction k) ∧ object ≠ .descriptorArray i direction := by
  simpa [Half] using other

theorem Partly.fill (partly : Partly i direction numberOfBuffers start p) (bound : k < numberOfBuffers)
    (fresh : p.heap.standing (.buffer i direction k) = .absent) :
    Partly i direction numberOfBuffers start
      { p with
        heap := ((p.heap.allocate (.buffer i direction k)).write (.bufferArray i direction) (.element k)
          (some (.buffer i direction k))).access (.physicalAddresses direction) } := by
  constructor
  · simp [partly.array, Standing.next]
  · intro other
    by_cases same : other = k
    · subst same
      simp [fresh, Standing.next, bound]
    · have different : k ≠ other := fun equal => same equal.symm
      have before := partly.buffers other
      simp only [done_iff] at before ⊢
      simpa [same, different] using before
  · simpa using partly.ring
  · refine ⟨?_, ?_, partly.elsewhere.locals_same⟩
    · intro object half shared
      obtain ⟨array, buffer, _⟩ := not_half half
      simpa [array.symm, (buffer k).symm, (shared direction).symm] using partly.elsewhere.standing object half shared
    · intro object half
      obtain ⟨array, buffer, _⟩ := not_half half
      simpa [array, buffer k] using partly.elsewhere.pointer object half

theorem Partly.free (partly : Partly i direction numberOfBuffers start p)
    (given : p.heap.pointer (.bufferArray i direction) (.element k) = some (.buffer i direction k))
    (lives : p.heap.standing (.buffer i direction k) = .live) :
    Partly i direction numberOfBuffers start
      { p with
        heap := ((p.heap.access (.bufferArray i direction)).release (.buffer i direction k)).write
          (.bufferArray i direction) (.element k) none } := by
  constructor
  · simp [partly.array, Standing.next]
  · intro other
    by_cases same : other = k
    · subst same
      simp [lives, Standing.next, done_iff]
    · have different : k ≠ other := fun equal => same equal.symm
      have before := partly.buffers other
      simp only [done_iff] at before ⊢
      simpa [same, different] using before
  · simpa using partly.ring
  · refine ⟨?_, ?_, partly.elsewhere.locals_same⟩
    · intro object half shared
      obtain ⟨array, buffer, _⟩ := not_half half
      simpa [array.symm, (buffer k).symm] using partly.elsewhere.standing object half shared
    · intro object half
      obtain ⟨array, buffer, _⟩ := not_half half
      simpa [array] using partly.elsewhere.pointer object half

theorem Partly.look (partly : Partly i direction numberOfBuffers start p) :
    Partly i direction numberOfBuffers start { p with heap := p.heap.access (.bufferArray i direction) } := by
  constructor
  · simp [partly.array, Standing.next]
  · intro other
    have before := partly.buffers other
    simp only [done_iff] at before ⊢
    simpa using before
  · simpa using partly.ring
  · refine ⟨?_, partly.elsewhere.pointer, partly.elsewhere.locals_same⟩
    intro object half shared
    obtain ⟨array, _, _⟩ := not_half half
    simpa [array.symm] using partly.elsewhere.standing object half shared

theorem freeEach_partly (partly : Partly i direction numberOfBuffers start p) : ∃ after,
    Returns (freeEach (.bufferArray i direction) ks) p () after ∧ Partly i direction numberOfBuffers start after ∧
    forall k, k ∈ ks ∨ p.heap.pointer (.bufferArray i direction) (.element k) = none ->
      after.heap.pointer (.bufferArray i direction) (.element k) = none := by
  induction ks generalizing p with
  | nil => exact ⟨p, rfl, partly, by simp⟩
  | cons k ks ih =>
    rcases partly.buffers k with ⟨given, lives, _⟩ | ⟨none_, _⟩
    · obtain ⟨after, done, still, cleared⟩ := ih (partly.free given lives)
      refine ⟨after, ?_, still, ?_⟩
      · rw [Returns, freeEach, read_bind_apply, given, whenSome_some]
        exact done
      · intro other inside
        refine cleared other ?_
        by_cases same : other = k
        · exact .inr (by simp [same])
        · simpa [same] using inside
    · obtain ⟨after, done, still, cleared⟩ := ih partly.look
      refine ⟨after, ?_, still, ?_⟩
      · rw [Returns, freeEach, read_bind_apply, none_, whenSome_none]
        exact done
      · intro other inside
        refine cleared other ?_
        by_cases same : other = k
        · exact .inr (by rw [same]; exact none_)
        · simpa [same] using inside

structure Cleaned (i : Nat) (direction : Direction) (start p : Port) : Prop where
  half : forall object, Half i direction object -> Done p object
  elsewhere : Elsewhere i direction start p

theorem freeBuffers_cleaned (partly : Partly i direction numberOfBuffers start p) : ∃ after,
    Returns (freeBuffers (.bufferArray i direction) numberOfBuffers) p () after ∧ Cleaned i direction start after := by
  obtain ⟨middle, done, still, cleared⟩ := @freeEach_partly i direction p numberOfBuffers start
    (List.range numberOfBuffers) partly
  refine ⟨{ middle with heap := middle.heap.release (.bufferArray i direction) }, done.bind, ?_⟩
  constructor
  · intro object half
    rw [done_iff]
    rcases half with rfl | ⟨k, rfl⟩ | rfl
    · simp [still.array, Standing.next]
    · have none_ : middle.heap.pointer (.bufferArray i direction) (.element k) = none := by
        refine cleared k ?_
        rcases partly.buffers k with ⟨_, _, bound⟩ | ⟨none_, _⟩
        · exact .inl (List.mem_range.mpr bound)
        · exact .inr none_
      rcases still.buffers k with ⟨given, _⟩ | ⟨_, done⟩
      · simp [none_] at given
      · rw [done_iff] at done
        simpa using done
    · simp [still.ring]
  · refine ⟨?_, still.elsewhere.pointer, still.elsewhere.locals_same⟩
    intro object half shared
    simpa [(not_half half).1.symm] using still.elsewhere.standing object half shared

theorem fillBuffers_partly (partly : Partly i direction numberOfBuffers start p)
    (bounds : forall k, k ∈ ks -> k < numberOfBuffers) (distinct : ks.Nodup)
    (fresh : forall k, k ∈ ks -> p.heap.standing (.buffer i direction k) = .absent) : ∃ result after,
    fillBuffers succeeds i direction ks p = .ok (result, after) ∧ Partly i direction numberOfBuffers start after ∧
      after.bufferArray = p.bufferArray ∧ after.descriptorArray = p.descriptorArray := by
  induction ks generalizing p with
  | nil => exact ⟨_, p, rfl, partly, rfl, rfl⟩
  | cons k ks ih =>
    obtain ⟨new, distinct⟩ := List.nodup_cons.mp distinct
    have first := fresh k List.mem_cons_self
    rw [fillBuffers]
    cases succeeds (.buffer direction k) with
    | false => exact ⟨_, p, rfl, partly, rfl, rfl⟩
    | true =>
      have bound := bounds k List.mem_cons_self
      refine ih (partly.fill bound first) (fun other inside => bounds other (List.mem_cons_of_mem _ inside)) distinct ?_
      intro other inside
      have different : k ≠ other := by
        rintro rfl
        exact new inside
      simpa [different] using fresh other (List.mem_cons_of_mem _ inside)

def Fresh (i : Nat) (direction : Direction) (p : Port) : Prop :=
  forall object, Half i direction object -> p.heap.standing object = .absent

theorem Partly.begin (fresh : Fresh i direction p) : Partly i direction numberOfBuffers p
    { p with
      heap := p.heap.allocate (.bufferArray i direction)
      bufferArray := some (.bufferArray i direction) } := by
  constructor
  · simp [fresh _ (.inl rfl), Standing.next]
  · intro k
    refine .inr ⟨by simp, done_iff.mpr (.inl ?_)⟩
    simpa using fresh (.buffer i direction k) (.inr (.inl ⟨k, rfl⟩))
  · simp [fresh _ (.inr (.inr rfl))]
  · refine ⟨?_, ?_, rfl, rfl, rfl, rfl⟩
    · intro object half shared
      simp [(not_half half).1.symm]
    · intro object half
      simp [(not_half half).1]

theorem allocateBuffers_partly (fresh : Fresh i direction p) {code : Status}
    (failed : Fails (allocateBuffers succeeds i direction numberOfBuffers) p code after) :
    after = p ∨ (after.bufferArray = some (.bufferArray i direction) ∧ after.descriptorArray = p.descriptorArray ∧
      Partly i direction numberOfBuffers p after) := by
  rw [Fails, allocateBuffers] at failed
  cases arrays : succeeds (.bufferArray direction) with
  | false =>
    rw [arrays] at failed
    cases failed
    exact .inl rfl
  | true =>
    rw [arrays] at failed
    obtain ⟨result, middle, filled, partly, array, ring⟩ := @fillBuffers_partly succeeds i direction _ numberOfBuffers p
      (List.range numberOfBuffers) (Partly.begin fresh) (by simp) List.nodup_range (by
        intro k _
        simpa using fresh (.buffer i direction k) (.inr (.inl ⟨k, rfl⟩)))
    right
    cases result with
    | error other =>
      have same := (show Fails _ _ other middle from filled).bind.symm.trans failed
      cases same
      exact ⟨array, ring, partly⟩
    | ok nothing =>
      have rest := (show Returns _ _ nothing middle from filled).bind.symm.trans failed
      cases rings : succeeds (.descriptorArray direction) with
      | false =>
        rw [rings] at rest
        cases rest
        exact ⟨array, ring, partly⟩
      | true =>
        rw [rings] at rest
        cases rest

theorem initialize_cleaned (fresh : Fresh i direction p)
    (missing : ¬BuffersReady succeeds direction numberOfBuffers) : ∃ code after,
    Fails (initializeMiniportBuffers succeeds i direction numberOfBuffers) p code after ∧
      Cleaned i direction p after := by
  have opened : Fresh i direction { p with bufferArray := none, descriptorArray := none } := fresh
  obtain ⟨code, middle, failed⟩ := (@allocateBuffers_decides succeeds i direction numberOfBuffers).fails missing
    { p with bufferArray := none, descriptorArray := none }
  have handled {final : Port} (cleaned : Returns (freeMiniportBuffers numberOfBuffers) middle () final) :
      Fails (initializeMiniportBuffers succeeds i direction numberOfBuffers) p code final :=
    (failed.onFailure cleaned).bind
  rcases allocateBuffers_partly opened failed with rfl | ⟨array, ring, partly⟩
  · refine ⟨code, _, handled rfl, ?_, fun _ _ _ => rfl, fun _ _ => rfl, rfl, rfl, rfl, rfl⟩
    intro object half
    exact .inl (fresh object half)
  · obtain ⟨final, freed, cleaned⟩ := freeBuffers_cleaned partly
    refine ⟨code, final, handled ?_, cleaned.half, cleaned.elsewhere.standing, cleaned.elsewhere.pointer,
      cleaned.elsewhere.locals_same⟩
    rw [Returns, freeMiniportBuffers, Program.get_bind_apply, array, ring]
    exact freed

structure Unused (i : Nat) (p : Port) : Prop where
  absent : forall object, object.owner = some i -> p.heap.standing object = .absent
  devObj : p.devObj = none
  portDevice : p.portDevice = none
  miniportDevice : p.miniportDevice = none
  buffers : forall direction, p.buffers direction = none

theorem Half.owner {object : Object} (half : Half i direction object) : object.owner = some i := by
  rcases half with rfl | ⟨k, rfl⟩ | rfl <;> rfl

theorem Unused.all (unused : Unused i p) : p.heap.standing (.device i) = .absent ∧
    p.heap.standing (.portDevice i) = .absent ∧ p.heap.standing (.miniport i) = .absent ∧
    p.heap.standing (.miniportExtension i) = .absent ∧
    (forall direction, p.heap.standing (.bufferArray i direction) = .absent) ∧
    (forall direction k, p.heap.standing (.buffer i direction k) = .absent) ∧
    forall direction, p.heap.standing (.descriptorArray i direction) = .absent := by
  refine ⟨?_, ?_, ?_, ?_, ?_, ?_, ?_⟩ <;> intros <;> exact unused.absent _ rfl

theorem Unused.early (unused : Unused i p) : Early i p where
  buffers := unused.buffers
  halves _ object half := .inl (unused.absent object half.owner)
  device := .inl ⟨unused.devObj, unused.portDevice, .inl (unused.absent _ rfl), .inl (unused.absent _ rfl)⟩
  miniport := .inl ⟨unused.miniportDevice, .inl (unused.absent _ rfl), .inl (unused.absent _ rfl)⟩

theorem halves_iff : (forall direction object, Half i direction object -> Done p object) ↔ forall direction,
    Done p (.bufferArray i direction) ∧ (forall k, Done p (.buffer i direction k)) ∧ Done p (.descriptorArray i direction) := by
  constructor
  · intro all direction
    exact ⟨all direction _ (.inl rfl), fun k => all direction _ (.inr (.inl ⟨k, rfl⟩)), all direction _ (.inr (.inr rfl))⟩
  · rintro all direction object (rfl | ⟨k, rfl⟩ | rfl)
    · exact (all direction).1
    · exact (all direction).2.1 k
    · exact (all direction).2.2

-- IoCreateDevice takes the device back where it gets no extension.
theorem createPort_fails (unused : Unused i p)
    (missing : ¬(succeeds .device = true ∧ succeeds .deviceExtension = true)) : ∃ code after,
    Fails (createPort succeeds i) p code after ∧ Early i after := by
  cases first : succeeds .device with
  | false =>
    refine ⟨.deviceCouldNotBeCreated, p, ?_, unused.early⟩
    simp only [Fails, createPort, ioCreateDevice, createDeviceObject, allocateOr, first]
    rfl
  | true =>
    have second : succeeds .deviceExtension = false := by simpa [first] using missing
    refine ⟨.deviceCouldNotBeCreated, { p with heap := (p.heap.allocate (.device i)).release (.device i) }, ?_, ?_⟩
    · simp only [Fails, createPort, ioCreateDevice, createDeviceObject, allocateOr, first, second]
      rfl
    refine ⟨unused.buffers, halves_iff.mpr fun direction => ⟨?_, fun k => ?_, ?_⟩, .inl ⟨unused.devObj,
      unused.portDevice, ?_, ?_⟩, .inl ⟨unused.miniportDevice, ?_, ?_⟩⟩
    all_goals
      simp [done_iff, unused.all, Standing.next]

def portCreated (i : Nat) (p : Port) : Port :=
  { p with
    heap := ((((p.heap.allocate (.device i)).allocate (.portDevice i)).write (.device i) .deviceExtension
      (some (.portDevice i))).access (.device i)).zero (.portDevice i)
    devObj := some (.device i)
    portDevice := some (.portDevice i) }

theorem createPort_returns (ready : succeeds .device = true ∧ succeeds .deviceExtension = true) :
    Returns (createPort succeeds i) p () (portCreated i p) := by
  simp [Returns, createPort, ioCreateDevice, createDeviceObject, allocateOr, allocate, write, zero, ready.1, ready.2,
    read_bind_apply, Program.bind_assoc, Program.modify_bind_apply, portCreated]

def miniportAllocated (i : Nat) (p : Port) : Port :=
  { p with
    heap := (p.heap.allocate (.miniport i)).write (.miniport i) .deviceObject (some (.device i))
    miniportDevice := some (.miniport i) }

theorem allocateMiniport_returns (ready : succeeds .miniport = true) :
    Returns (allocateMiniport succeeds i) p () (miniportAllocated i p) := by
  simp [Returns, allocateMiniport, allocateOr, allocate, write, ready, Program.modify_bind_apply, miniportAllocated]

def extensionAllocated (i : Nat) (p : Port) : Port :=
  { p with
    heap := (p.heap.allocate (.miniportExtension i)).write (.miniport i) .deviceExtension (some (.miniportExtension i)) }

theorem allocateExtension_returns (needed : registration.deviceContextSize ≠ 0)
    (ready : succeeds .miniportExtension = true) :
    Returns (allocateMiniportExtension succeeds registration i) p () (extensionAllocated i p) := by
  simp [Returns, allocateMiniportExtension, needed, allocateOr, allocate, write, ready, Program.modify_bind_apply,
    extensionAllocated]

theorem portCreated_early (unused : Unused i p) : Early i (portCreated i p) := by
  refine ⟨unused.buffers, halves_iff.mpr fun direction => ⟨?_, fun k => ?_, ?_⟩, .inr ⟨rfl, rfl, ?_, ?_, ?_, ?_⟩,
    .inl ⟨unused.miniportDevice, ?_, ?_⟩⟩
  all_goals
    simp [done_iff, portCreated, unused.all, Standing.next]

theorem miniportAllocated_early (unused : Unused i p) : Early i (miniportAllocated i (portCreated i p)) := by
  refine ⟨unused.buffers, halves_iff.mpr fun direction => ⟨?_, fun k => ?_, ?_⟩, .inr ⟨rfl, rfl, ?_, ?_, ?_, ?_⟩,
    .inr ⟨rfl, ?_, .inl ⟨?_, ?_⟩⟩⟩
  all_goals
    simp [done_iff, miniportAllocated, portCreated, unused.all, Standing.next]

theorem extensionAllocated_early (unused : Unused i p) :
    Early i (extensionAllocated i (miniportAllocated i (portCreated i p))) := by
  refine ⟨unused.buffers, halves_iff.mpr fun direction => ⟨?_, fun k => ?_, ?_⟩, .inr ⟨rfl, rfl, ?_, ?_, ?_, ?_⟩,
    .inr ⟨rfl, ?_, .inr ⟨?_, ?_⟩⟩⟩
  all_goals
    simp [done_iff, extensionAllocated, miniportAllocated, portCreated, unused.all, Standing.next]

theorem Half.fresh (unused : Unused i p) : Fresh i direction (extensionAllocated i (miniportAllocated i (portCreated i p))) ∧
    Fresh i direction (miniportAllocated i (portCreated i p)) := by
  constructor
  all_goals
    rintro object (rfl | ⟨k, rfl⟩ | rfl)
    all_goals
      simp [extensionAllocated, miniportAllocated, portCreated, unused.all]

theorem Cleaned.early (cleaned : Cleaned i direction p after) (early : Early i p) : Early i after := by
  obtain ⟨devObj, portDevice, miniportDevice, buffers⟩ := cleaned.elsewhere.locals_same
  have standing := cleaned.elsewhere.standing
  have pointer := cleaned.elsewhere.pointer
  have done (object : Object) (half : ¬Half i direction object)
      (shared : forall other, object ≠ .physicalAddresses other) : Done after object ↔ Done p object := by
    rw [done_iff, done_iff, standing object half shared]
  refine ⟨fun other => by rw [buffers]; exact early.buffers other, ?_, ?_, ?_⟩
  · intro other object half
    by_cases same : Half i direction object
    · exact cleaned.half object same
    · refine (done object same ?_).mpr (early.halves other object half)
      rcases half with rfl | ⟨k, rfl⟩ | rfl <;> simp
  · have device := early.device
    rw [devObj, portDevice, standing (.device i) (by simp [Half]) (by simp),
      standing (.portDevice i) (by simp [Half]) (by simp), done (.device i) (by simp [Half]) (by simp),
      done (.portDevice i) (by simp [Half]) (by simp), pointer (.device i) (by simp [Half]),
      pointer (.portDevice i) (by simp [Half])]
    exact device
  · have miniport := early.miniport
    rw [miniportDevice, standing (.miniport i) (by simp [Half]) (by simp),
      standing (.miniportExtension i) (by simp [Half]) (by simp), done (.miniport i) (by simp [Half]) (by simp),
      done (.miniportExtension i) (by simp [Half]) (by simp), pointer (.miniport i) (by simp [Half])]
    exact miniport

theorem configureFront_fails (unused : Unused i p) (missing : ¬ReceiveReady succeeds registration) : ∃ code after,
    Fails (configureFront succeeds registration i) p code after ∧ Early i after := by
  by_cases device : succeeds .device = true ∧ succeeds .deviceExtension = true
  case neg =>
    obtain ⟨code, after, fails, early⟩ := createPort_fails unused device
    exact ⟨code, after, fails.bind, early⟩
  have created := @createPort_returns succeeds i p device
  by_cases miniport : succeeds .miniport = true
  case neg =>
    refine ⟨.heapInsufficientResources, portCreated i p, ?_, portCreated_early unused⟩
    have fails : Fails (allocateMiniport succeeds i) (portCreated i p) .heapInsufficientResources (portCreated i p) := by
      simp only [allocateMiniport, allocateOr, if_neg miniport]
      rfl
    exact created.bind.trans fails.bind
  have allocated := @allocateMiniport_returns succeeds i (portCreated i p) miniport
  have buffers {middle : Port} (reached : Returns (allocateMiniportExtension succeeds registration i)
      (miniportAllocated i (portCreated i p)) () middle) (early : Early i middle) (fresh : Fresh i .rx middle)
      (extension : registration.deviceContextSize ≠ 0 -> succeeds .miniportExtension = true) : ∃ code after,
      Fails (configureFront succeeds registration i) p code after ∧ Early i after := by
    have unready : ¬BuffersReady succeeds .rx (registration.buffers .rx).numberOfBuffers :=
      fun ready => missing ⟨device, miniport, extension, ready⟩
    obtain ⟨code, after, fails, cleaned⟩ := initialize_cleaned fresh unready
    exact ⟨code, after, created.bind.trans (allocated.bind.trans (reached.bind.trans fails)), cleaned.early early⟩
  by_cases needed : registration.deviceContextSize ≠ 0
  · by_cases extension : succeeds .miniportExtension = true
    · exact buffers (allocateExtension_returns needed extension) (extensionAllocated_early unused)
        (Half.fresh unused).1 fun _ => extension
    · refine ⟨.heapInsufficientResources, miniportAllocated i (portCreated i p), ?_, miniportAllocated_early unused⟩
      have fails : Fails (allocateMiniportExtension succeeds registration i) (miniportAllocated i (portCreated i p))
          .heapInsufficientResources (miniportAllocated i (portCreated i p)) := by
        simp only [allocateMiniportExtension, if_pos needed, allocateOr, if_neg extension]
        rfl
      exact created.bind.trans (allocated.bind.trans fails.bind)
  · refine buffers ?_ (miniportAllocated_early unused) (Half.fresh unused).2 fun some_ => absurd some_ needed
    simp only [allocateMiniportExtension, if_neg needed]
    rfl

theorem initialize_returns (fresh : Fresh i direction p) (ready : BuffersReady succeeds direction numberOfBuffers) :
    ∃ after, Returns (initializeMiniportBuffers succeeds i direction numberOfBuffers) p () after ∧
      after.heap.standing (.descriptorArray i direction) = .live ∧ after.descriptorArray = none := by
  obtain ⟨arrays, buffers, rings⟩ := ready
  have partly : Partly i direction numberOfBuffers { p with bufferArray := none, descriptorArray := none } _ :=
    Partly.begin fresh
  obtain ⟨result, middle, filled, still, -, -⟩ := @fillBuffers_partly succeeds i direction _ numberOfBuffers _
    (List.range numberOfBuffers) partly (by simp) List.nodup_range (by
      intro k _
      simpa using fresh (.buffer i direction k) (.inr (.inl ⟨k, rfl⟩)))
  obtain ⟨nothing, other, returns⟩ := (@fillBuffers_decides succeeds i direction (List.range numberOfBuffers)).returns
    (by simpa using buffers) _
  obtain ⟨rfl, rfl⟩ : .ok nothing = result ∧ other = middle := by
    have same := returns.symm.trans filled
    cases same
    exact ⟨rfl, rfl⟩
  have allocated : Returns (allocateBuffers succeeds i direction numberOfBuffers)
      { p with bufferArray := none, descriptorArray := none } ()
      { other with
        heap := other.heap.allocate (.descriptorArray i direction)
        descriptorArray := some (.descriptorArray i direction) } := by
    rw [Returns, allocateBuffers, arrays, rings]
    exact (show Returns _ _ nothing other from filled).bind
  refine ⟨_, allocated.onFailure.bind, ?_, rfl⟩
  simp [still.ring, Standing.next]

theorem configureFront_returns (unused : Unused i p) (ready : ReceiveReady succeeds registration) : ∃ after,
    Returns (configureFront succeeds registration i) p () after ∧
      after.heap.standing (.descriptorArray i .rx) = .live ∧ after.descriptorArray = none := by
  obtain ⟨device, miniport, extension, buffers⟩ := ready
  have created := @createPort_returns succeeds i p device
  have allocated := @allocateMiniport_returns succeeds i (portCreated i p) miniport
  by_cases needed : registration.deviceContextSize ≠ 0
  · have extended := @allocateExtension_returns succeeds registration i (miniportAllocated i (portCreated i p)) needed
      (extension needed)
    obtain ⟨after, done, ring, locals_⟩ := initialize_returns (Half.fresh unused).1 buffers
    exact ⟨after, created.bind.trans (allocated.bind.trans (extended.bind.trans done)), ring, locals_⟩
  · have plain : Returns (allocateMiniportExtension succeeds registration i) (miniportAllocated i (portCreated i p)) ()
        (miniportAllocated i (portCreated i p)) := by
      simp only [allocateMiniportExtension, if_neg needed]
      rfl
    obtain ⟨after, done, ring, locals_⟩ := initialize_returns (Half.fresh unused).2 buffers
    exact ⟨after, created.bind.trans (allocated.bind.trans (plain.bind.trans done)), ring, locals_⟩

end Early

end Hal9000.NetworkPort
