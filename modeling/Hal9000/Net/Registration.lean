import Hal9000.Net.Cleanup

set_option autoImplicit false

namespace Hal9000.NetworkPort

open Lib (FreedOnce Program Settled Standing not_freed standing standing_spec)
open Lib.Program (Decides Fails Keeps Returns)

variable {succeeds : Step -> Bool} {registration : MiniportRegistration} {i : Nat} {p start : Port}

-- The local variables of _NetworkPortConfigureDevice before its __try
def Port.reset (p : Port) : Port :=
  { p with
    devObj := none
    portDevice := none
    miniportDevice := none
    buffers := fun _ => none
    ringBuffer := fun _ => none
    bufferArray := none
    descriptorArray := none }

structure Awaiting (i : Nat) (p : Port) : Prop where
  absent : forall object, object.owner = some i -> p.heap.standing object = .absent
  zeroed : forall object field, object.owner = some i -> p.heap.pointer object field = none
  driverExtension : forall object, p.driverExtension = some object ->
    object.owner = none ∧ p.heap.standing object = .live
  physicalAddresses : forall direction, p.heap.standing (.physicalAddresses direction) = .live

abbrev Others (i : Nat) (object : Object) : Prop := object.owner ≠ some i

namespace Awaiting

theorem unused (awaiting : Awaiting i p) : Unused i p.reset := ⟨awaiting.absent, rfl, rfl, rfl, fun _ => rfl⟩

theorem keepable (awaiting : Awaiting i p) : Keepable i (Others i) p.reset :=
  ⟨fun _ other => .inl other, fun object given => (awaiting.driverExtension object given).2,
    awaiting.physicalAddresses⟩

theorem frame (awaiting : Awaiting i p) : Frame i (Others i) p.reset p.reset where
  standing _ _ := rfl
  elsewhere _ _ := rfl
  pointers object field target own held := by
    rw [show p.reset.heap.pointer object field = none from awaiting.zeroed object field own] at held
    cases held
  devObj _ held := by cases held
  portDevice _ held := by cases held
  miniportDevice _ held := by cases held
  buffers _ _ held := by cases held
  bufferArray _ held := by cases held
  descriptorArray _ held := by cases held
  driverExtension := rfl
  pciDevices := rfl
  physicalAddresses := rfl
  noOfDevicesInitialized := rfl
  results := rfl

end Awaiting

theorem configureBody_eq : configureBody succeeds registration i =
    configureFront succeeds registration i >>= fun _ => configureRest succeeds registration i := by
  simp only [configureBody, configureFront, configureRest, Program.bind_assoc]

theorem configureBody_keeps (keepable : Keepable i (Others i) start) :
    Keeps (Frame i (Others i) start) (configureBody succeeds registration i) fun _ => True := by
  rw [configureBody_eq]
  exact (Frame.configureFront_keeps keepable (by simp [Others, Object.owner])).bind fun _ _ =>
    Frame.configureRest_keeps keepable (by simp [Others, Object.owner])

theorem configureDevice_eq : configureDevice succeeds registration i p =
    Program.onFailure (configureBody succeeds registration i) (configureCleanup registration) p.reset := rfl

theorem ring_stays (awaiting : Awaiting i p) (ready : ReceiveReady succeeds registration)
    {result : Except Status Unit} {after : Port} (done : configureDevice succeeds registration i p = .ok (result, after)) :
    after.heap.standing (.descriptorArray i .rx) = .live := by
  obtain ⟨middle, front, ring, locals_⟩ := configureFront_returns awaiting.unused ready
  obtain ⟨frame, _⟩ := Frame.configureFront_keeps awaiting.keepable (by simp [Others, Object.owner]) _ _ _
    awaiting.frame front
  let kept (object : Object) : Prop := object.owner ≠ some i ∨ object = .descriptorArray i .rx
  have keepable : Keepable i kept middle := by
    refine ⟨?_, ?_, ?_⟩
    · rintro object (other | rfl)
      · exact .inl other
      · exact .inr ⟨.rx, rfl⟩
    · intro object given
      obtain ⟨none_, lives⟩ := awaiting.driverExtension object (frame.driverExtension.symm.trans given)
      exact (frame.standing object (by simp [Others, none_])).trans lives
    · intro direction
      exact (frame.standing _ (by simp [Others, Object.owner])).trans (awaiting.physicalAddresses direction)
  have inner : Frame i kept middle middle :=
    { frame with
      standing := fun _ _ => rfl
      elsewhere := fun _ _ => rfl
      descriptorArray := fun object given => by simp [locals_] at given
      driverExtension := rfl
      pciDevices := rfl
      physicalAddresses := rfl
      noOfDevicesInitialized := rfl
      results := rfl }
  have rest : Keeps (Frame i kept middle) (Program.onFailure (configureRest succeeds registration i)
      (configureCleanup registration)) fun _ => True :=
    (Frame.configureRest_keeps keepable (by simp [kept, Object.owner])).onFailure (Frame.configureCleanup_keeps keepable)
  have same : configureBody succeeds registration i p.reset = configureRest succeeds registration i middle := by
    rw [configureBody_eq]
    exact front.bind
  rw [configureDevice_eq, Program.onFailure_congr same] at done
  exact ((rest middle result after inner done).1.standing _ (.inr rfl)).trans ring

def Ready (succeeds : Step -> Bool) (registration : MiniportRegistration) : Prop :=
  ReceiveReady succeeds registration ∧ PortReady succeeds registration

instance (direction : Direction) (count : Nat) : Decidable (BuffersReady succeeds direction count) :=
  inferInstanceAs (Decidable (_ ∧ (forall k, k < count -> _) ∧ _))

instance : Decidable (ReceiveReady succeeds registration) := inferInstanceAs (Decidable (_ ∧ _ ∧ (_ -> _) ∧ _))

instance : Decidable (PortReady succeeds registration) := inferInstanceAs (Decidable (_ ∧ _ ∧ _ ∧ _ ∧ _ ∧ _))

instance : Decidable (Ready succeeds registration) := inferInstanceAs (Decidable (_ ∧ _))

structure Configured (succeeds : Step -> Bool) (registration : MiniportRegistration) (i : Nat)
    (result : Except Status Unit) (p : Port) : Prop where
  result_iff : result = .ok () ↔ Ready succeeds registration
  settled : ¬ReceiveReady succeeds registration -> forall object, object.owner = some i -> Done p object
  leaked : ReceiveReady succeeds registration -> p.heap.standing (.descriptorArray i .rx) = .live

theorem configureDevice_spec (awaiting : Awaiting i p) : ∃ result after,
    configureDevice succeeds registration i p = .ok (result, after) ∧ Frame i (Others i) p after ∧
      Configured succeeds registration i result after := by
  have framed {result : Except Status Unit} {after : Port}
      (done : configureDevice succeeds registration i p = .ok (result, after)) : Frame i (Others i) p after := by
    have keeps : Keeps (Frame i (Others i) p.reset) (Program.onFailure (configureBody succeeds registration i)
        (configureCleanup registration)) fun _ => True :=
      (configureBody_keeps awaiting.keepable).onFailure (Frame.configureCleanup_keeps awaiting.keepable)
    have frame := (keeps p.reset result after awaiting.frame done).1
    exact { frame with }
  by_cases front : ReceiveReady succeeds registration
  · rcases (@configureDevice_decides succeeds registration i) p with ⟨ready, nothing, after, returns⟩ |
      ⟨unready, code, after, fails⟩
    · exact ⟨_, after, returns, framed returns, by simp [Ready, ready], fun missing => absurd front missing,
        fun _ => ring_stays awaiting front returns⟩
    · exact ⟨_, after, fails, framed fails, by simp [Ready, unready], fun missing => absurd front missing,
        fun _ => ring_stays awaiting front fails⟩
  · obtain ⟨code, middle, fails, early⟩ := configureFront_fails awaiting.unused front
    obtain ⟨after, cleaned, settled⟩ := @cleanup_settles registration i middle early
    have body : Fails (configureBody succeeds registration i) p.reset code middle := by
      rw [configureBody_eq]
      exact fails.bind
    have done : configureDevice succeeds registration i p = .ok (.error code, after) := body.onFailure cleaned
    exact ⟨_, after, done, framed done, by simp [Ready, front], fun _ => settled, fun ready => absurd ready front⟩

structure Registered (registration : MiniportRegistration) (tried : List (Step -> Bool)) (p : Port) : Prop where
  absent : forall object j, object.owner = some j -> tried.length ≤ j -> p.heap.standing object = .absent
  zeroed : forall object field j, object.owner = some j -> tried.length ≤ j -> p.heap.pointer object field = none
  driverExtension : p.driverExtension = some .driverExtension
  driverData : p.heap.standing .driverExtension = .live
  physicalAddresses : forall direction, p.heap.standing (.physicalAddresses direction) = .live
  addresses : forall direction, p.physicalAddresses direction = some (.physicalAddresses direction)
  pciDevices : p.pciDevices = none ∨ p.pciDevices = some .pciDevices
  counted : p.noOfDevicesInitialized = tried.countP fun succeeds => Ready succeeds registration
  results : p.results.length = tried.length
  devices : forall (j : Nat) succeeds result, tried[j]? = some succeeds -> p.results[j]? = some result ->
    Configured succeeds registration j result p

theorem Configured.congr {result : Except Status Unit} {after : Port}
    (configured : Configured succeeds registration i result p)
    (same : forall object, object.owner = some i -> after.heap.standing object = p.heap.standing object) :
    Configured succeeds registration i result after := by
  refine ⟨configured.result_iff, ?_, ?_⟩
  · intro missing object owner
    have before := configured.settled missing object owner
    rw [done_iff] at before ⊢
    rwa [same object owner]
  · intro ready
    rw [same _ rfl]
    exact configured.leaked ready

structure Recorded (result : Except Status Unit) (p middle after : Port) : Prop where
  standing : forall object, after.heap.standing object = middle.heap.standing object
  pointer : after.heap.pointer = middle.heap.pointer
  results : after.results = p.results ++ [result]
  counted : after.noOfDevicesInitialized = p.noOfDevicesInitialized + result.toBool.toNat
  driverExtension : after.driverExtension = middle.driverExtension
  physicalAddresses : after.physicalAddresses = middle.physicalAddresses
  pciDevices : after.pciDevices = middle.pciDevices

theorem Registered.next {tried : List (Step -> Bool)} {result : Except Status Unit} {middle after : Port}
    (registered : Registered registration tried p) (frame : Frame tried.length (Others tried.length) p middle)
    (configured : Configured succeeds registration tried.length result middle) (recorded : Recorded result p middle after) :
    Registered registration (tried ++ [succeeds]) after := by
  have standing (object : Object) (other : object.owner ≠ some tried.length) :
      after.heap.standing object = p.heap.standing object :=
    (recorded.standing object).trans (frame.standing object other)
  have later (object : Object) (j : Nat) (own : object.owner = some j) (bound : (tried ++ [succeeds]).length ≤ j) :
      object.owner ≠ some tried.length ∧ tried.length ≤ j := by
    rw [List.length_append, List.length_singleton] at bound
    refine ⟨?_, by omega⟩
    rw [own]
    simp only [ne_eq, Option.some.injEq]
    omega
  constructor
  · intro object j own bound
    obtain ⟨other, old⟩ := later object j own bound
    exact (standing object other).trans (registered.absent object j own old)
  · intro object field j own bound
    obtain ⟨other, old⟩ := later object j own bound
    rw [recorded.pointer, frame.elsewhere object other]
    exact registered.zeroed object field j own old
  · exact (recorded.driverExtension.trans frame.driverExtension).trans registered.driverExtension
  · exact (standing _ (by simp [Object.owner])).trans registered.driverData
  · intro direction
    exact (standing _ (by simp [Object.owner])).trans (registered.physicalAddresses direction)
  · intro direction
    rw [recorded.physicalAddresses, frame.physicalAddresses]
    exact registered.addresses direction
  · rw [recorded.pciDevices, frame.pciDevices]
    exact registered.pciDevices
  · rw [recorded.counted, List.countP_append, registered.counted]
    have ending := configured.result_iff
    cases result with
    | ok nothing => simp [ending.mp rfl, Except.toBool]
    | error code =>
      have unready : ¬Ready succeeds registration := fun ready => by cases ending.mpr ready
      simp [unready, Except.toBool]
  · rw [recorded.results, List.length_append, List.length_append, registered.results]
    rfl
  · intro j steps outcome tried_ given
    rw [recorded.results] at given
    rcases Nat.lt_trichotomy j tried.length with earlier | rfl | beyond
    · rw [List.getElem?_append_left earlier] at tried_
      rw [List.getElem?_append_left (by rw [registered.results]; exact earlier)] at given
      refine (registered.devices j steps outcome tried_ given).congr ?_
      intro object own
      refine standing object ?_
      rw [own]
      simp only [ne_eq, Option.some.injEq]
      omega
    · rw [List.getElem?_append_right (Nat.le_refl _)] at tried_
      rw [List.getElem?_append_right (Nat.le_of_eq registered.results)] at given
      simp only [Nat.sub_self, List.getElem?_cons_zero, Option.some.injEq, registered.results] at tried_ given
      subst tried_ given
      exact configured.congr fun object _ => recorded.standing object
    · rw [List.getElem?_eq_none (by simp; omega)] at tried_
      cases tried_

theorem configureNext_registered {tried : List (Step -> Bool)} (registered : Registered registration tried p) :
    ∃ after, Returns (configureNext registration tried.length succeeds) p () after ∧
      Registered registration (tried ++ [succeeds]) after := by
  have awaiting : Awaiting tried.length p := by
    refine ⟨fun object own => registered.absent object _ own (Nat.le_refl _),
      fun object field own => registered.zeroed object field _ own (Nat.le_refl _), ?_, registered.physicalAddresses⟩
    intro object given
    cases registered.driverExtension.symm.trans given
    exact ⟨rfl, registered.driverData⟩
  obtain ⟨result, middle, done, frame, configured⟩ := @configureDevice_spec succeeds registration tried.length p awaiting
  cases result with
  | error code =>
    refine ⟨{ middle with results := middle.results ++ [.error code] }, Program.attempt_bind done, ?_⟩
    refine registered.next frame configured ⟨fun _ => rfl, rfl, ?_, ?_, rfl, rfl, rfl⟩
    · rw [← frame.results]
    · exact frame.noOfDevicesInitialized
  | ok nothing =>
    refine ⟨{ middle with
      heap := (middle.heap.access (.physicalAddresses .rx)).access (.physicalAddresses .tx)
      results := middle.results ++ [.ok ()]
      noOfDevicesInitialized := middle.noOfDevicesInitialized + 1 }, Program.attempt_bind done, ?_⟩
    have lives (direction : Direction) : middle.heap.standing (.physicalAddresses direction) = .live :=
      (frame.standing _ (by simp [Others, Object.owner])).trans (registered.physicalAddresses direction)
    refine registered.next frame configured ⟨?_, rfl, ?_, ?_, rfl, rfl, rfl⟩
    · intro object
      by_cases rx : object = .physicalAddresses .rx
      · simp [rx, lives, Standing.next]
      · by_cases tx : object = .physicalAddresses .tx
        · simp [tx, lives, Standing.next]
        · simp [Ne.symm rx, Ne.symm tx]
    · rw [← frame.results]
    · rw [← frame.noOfDevicesInitialized]
      rfl

theorem configureDevices_registered {tried rest : List (Step -> Bool)} (registered : Registered registration tried p) :
    ∃ after, Returns (configureDevices registration tried.length rest) p () after ∧
      Registered registration (tried ++ rest) after := by
  induction rest generalizing tried p with
  | nil => exact ⟨p, rfl, by rwa [List.append_nil]⟩
  | cons succeeds rest ih =>
    obtain ⟨middle, turn, between⟩ := @configureNext_registered succeeds registration p tried registered
    obtain ⟨after, turns, final⟩ := ih between
    rw [List.length_append, List.length_singleton] at turns
    rw [List.append_assoc, List.singleton_append] at final
    exact ⟨after, turn.bind.trans turns, final⟩

theorem freeShared {object : Object} {value : Option Object} {free : Object -> PortProgram Unit}
    {rest : Unit -> PortProgram Unit} (given : value = none ∨ value = some object)
    (frees : forall p, ∃ heap, Returns (free object) p () { p with heap := heap } ∧
      forall other, object ≠ other -> heap.standing other = p.heap.standing other) (p : Port) : ∃ heap,
    (whenSome value free >>= rest) p = rest () { p with heap := heap } ∧
      forall other, object ≠ other -> heap.standing other = p.heap.standing other := by
  rcases given with rfl | rfl
  · exact ⟨p.heap, rfl, fun _ _ => rfl⟩
  · obtain ⟨heap, done, kept⟩ := frees p
    exact ⟨heap, done.bind, kept⟩

theorem registerCleanup_eq (addresses : forall direction, p.physicalAddresses direction = none ∨
      p.physicalAddresses direction = some (.physicalAddresses direction))
    (found : p.pciDevices = none ∨ p.pciDevices = some .pciDevices)
    (extension : p.driverExtension = none ∨ p.driverExtension = some .driverExtension) : ∃ result after,
    registerCleanup p = .ok (result, after) ∧ after.results = p.results ∧
      (result = .ok () ↔ 1 < p.noOfDevicesInitialized) ∧
      (forall object, object.owner ≠ none -> after.heap.standing object = p.heap.standing object) ∧
      (1 < p.noOfDevicesInitialized -> after.heap.standing .driverExtension = p.heap.standing .driverExtension) ∧
      (¬1 < p.noOfDevicesInitialized -> p.driverExtension = some .driverExtension ->
        .release .driverExtension ∈ after.heap.log) := by
  have array (direction : Direction) (p : Port) : ∃ heap,
      Returns (freePhysicalAddresses (.physicalAddresses direction)) p () { p with heap := heap } ∧
      forall other, .physicalAddresses direction ≠ other -> heap.standing other = p.heap.standing other :=
    ⟨_, rfl, fun other different => by simp [different]⟩
  have single (object : Object) (p : Port) : ∃ heap, Returns (release object) p () { p with heap := heap } ∧
      forall other, object ≠ other -> heap.standing other = p.heap.standing other :=
    ⟨_, rfl, fun other different => by simp [different]⟩
  obtain ⟨first, rx, keptRx⟩ := freeShared (addresses .rx) (array .rx) p
  obtain ⟨second, tx, keptTx⟩ := freeShared (addresses .tx) (array .tx) { p with heap := first }
  obtain ⟨third, devices, keptDevices⟩ := freeShared found (single .pciDevices) { p with heap := second }
  have kept (object : Object) (one : forall direction, .physicalAddresses direction ≠ object)
      (other : .pciDevices ≠ object) : third.standing object = p.heap.standing object :=
    (keptDevices object other).trans ((keptTx object (one .tx)).trans (keptRx object (one .rx)))
  have run : registerCleanup p = (if p.noOfDevicesInitialized > 1 then pure () else do
      freeDriverExtension
      Program.fail .deviceDoesNotExist : PortProgram Unit) { p with heap := third } := by
    rw [registerCleanup, Program.get_bind_apply, rx, tx, devices]
  have owned (object : Object) (own : object.owner ≠ none) : third.standing object = p.heap.standing object := by
    refine kept object ?_ ?_
    · rintro direction rfl
      exact own rfl
    · rintro rfl
      exact own rfl
  by_cases several : 1 < p.noOfDevicesInitialized
  · refine ⟨.ok (), { p with heap := third }, ?_, rfl, by simp [several], owned, fun _ => ?_,
      fun few => absurd several few⟩
    · rw [run, if_pos several]
      rfl
    · exact kept _ (by simp) (by simp)
  · rcases extension with none_ | given
    · refine ⟨.error .deviceDoesNotExist, { p with heap := third, driverExtension := none }, ?_, rfl, by simp [several],
        owned, fun many => absurd many several, fun _ given => by simp [none_] at given⟩
      rw [run, if_neg several, freeDriverExtension]
      simp only [Program.bind_assoc, Program.get_bind_apply, none_, whenSome_none, Program.pure_bind,
        Program.modify_bind_apply, Program.fail_apply]
    · refine ⟨.error .deviceDoesNotExist,
        { p with heap := third.release .driverExtension, driverExtension := none }, ?_, rfl, by simp [several], ?_,
        fun many => absurd many several, ?_⟩
      · rw [run, if_neg several, freeDriverExtension]
        simp only [Program.bind_assoc, Program.get_bind_apply, given, whenSome_some, release, Program.modify_bind_apply,
          Program.fail_apply]
      · intro object own
        have other : .driverExtension ≠ object := by
          rintro rfl
          exact own rfl
        simpa [other] using owned object own
      · intro _ _
        simp [Lib.PointerHeap.release]

structure Tidy (p : Port) : Prop where
  absent : forall object j, object.owner = some j -> p.heap.standing object = .absent
  zeroed : forall object field, p.heap.pointer object field = none
  results : p.results = []
  counted : p.noOfDevicesInitialized = 0
  addresses : forall direction, p.physicalAddresses direction = none ∨
    p.physicalAddresses direction = some (.physicalAddresses direction)
  found : p.pciDevices = none ∨ p.pciDevices = some .pciDevices
  extension : p.driverExtension = none ∨ p.driverExtension = some .driverExtension

theorem Tidy.allocate {object : Object} (tidy : Tidy p) (shared : object.owner = none) :
    Tidy { p with heap := p.heap.allocate object } := by
  refine { tidy with absent := ?_, zeroed := ?_ }
  · intro other j own
    have different : object ≠ other := by
      rintro rfl
      rw [shared] at own
      cases own
    simpa [different] using tidy.absent other j own
  · intro other field
    by_cases same : other = object
    · simp [same]
    · simpa [same] using tidy.zeroed other field

theorem Tidy.access {object : Object} (tidy : Tidy p) (shared : object.owner = none) :
    Tidy { p with heap := p.heap.access object } := by
  refine { tidy with absent := ?_, zeroed := tidy.zeroed }
  intro other j own
  have different : object ≠ other := by
    rintro rfl
    rw [shared] at own
    cases own
  simpa [different] using tidy.absent other j own

def registerPrelude (s : Surroundings) : PortProgram Unit := do
  findDevices s
  allocateDriverExtension s
  allocatePhysicalAddresses s .rx
  allocatePhysicalAddresses s .tx

def Surroundings.searched (s : Surroundings) : Bool :=
  s.ioGetPciDevicesMatchingSpecification && s.driverExtension && s.physicalAddresses .rx && s.physicalAddresses .tx

theorem registerPrelude_spec (s : Surroundings) : ∃ result after,
    registerPrelude s Port.initial = .ok (result, after) ∧ Tidy after ∧ (result = .ok () ↔ s.searched = true) ∧
      (s.searched = true -> Registered registration [] after) := by
  have initial : Tidy Port.initial :=
    ⟨fun _ _ _ => rfl, fun _ _ => rfl, rfl, rfl, fun _ => .inl rfl, .inl rfl, .inl rfl⟩
  unfold Surroundings.searched
  cases search : s.ioGetPciDevicesMatchingSpecification with
  | false =>
    refine ⟨.error .unsuccessful, Port.initial, ?_, initial, by simp, by simp⟩
    rw [registerPrelude, findDevices, search]
    rfl
  | true =>
    obtain ⟨first, found, tidy, absent⟩ : ∃ after, Returns (findDevices s) Port.initial () after ∧ Tidy after ∧
        forall object, object ≠ .pciDevices -> after.heap.standing object = .absent := by
      rw [findDevices, search]
      cases s.devices.isEmpty with
      | true => exact ⟨_, rfl, initial, fun _ _ => rfl⟩
      | false =>
        refine ⟨_, rfl, { initial.allocate rfl with found := .inr rfl }, ?_⟩
        intro object other
        simp only [Lib.PointerHeap.standing_allocate, if_neg other.symm]
        rfl
    cases extension : s.driverExtension with
    | false =>
      refine ⟨.error .heapInsufficientResources, first, ?_, tidy, by simp, by simp⟩
      rw [registerPrelude, found.bind, allocateDriverExtension, extension]
      rfl
    | true =>
      let second : Port :=
        { first with
          heap := (first.heap.allocate .driverExtension).access .driverExtension
          driverExtension := some .driverExtension }
      have extended : Returns (allocateDriverExtension s) first () second := by
        rw [Returns, allocateDriverExtension, extension]
        rfl
      have tidySecond : Tidy second := { (tidy.allocate rfl).access rfl with extension := .inr rfl }
      cases rx : s.physicalAddresses .rx with
      | false =>
        refine ⟨.error .heapInsufficientResources, second, ?_, tidySecond, by simp, by simp⟩
        rw [registerPrelude, found.bind, extended.bind, allocatePhysicalAddresses, rx]
        rfl
      | true =>
        let third : Port :=
          { second with
            heap := second.heap.allocate (.physicalAddresses .rx)
            physicalAddresses := Function.update second.physicalAddresses .rx (some (.physicalAddresses .rx)) }
        have received : Returns (allocatePhysicalAddresses s .rx) second () third := by
          rw [Returns, allocatePhysicalAddresses, rx]
          rfl
        have tidyThird : Tidy third := by
          refine { tidySecond.allocate rfl with addresses := ?_ }
          intro direction
          cases direction with
          | rx => exact .inr (by simp [third])
          | tx => simpa [third] using tidySecond.addresses .tx
        cases tx : s.physicalAddresses .tx with
        | false =>
          refine ⟨.error .heapInsufficientResources, third, ?_, tidyThird, by simp, by simp⟩
          rw [registerPrelude, found.bind, extended.bind, received.bind, allocatePhysicalAddresses, tx]
          rfl
        | true =>
          let last : Port :=
            { third with
              heap := third.heap.allocate (.physicalAddresses .tx)
              physicalAddresses := Function.update third.physicalAddresses .tx (some (.physicalAddresses .tx)) }
          have sent : Returns (allocatePhysicalAddresses s .tx) third () last := by
            rw [Returns, allocatePhysicalAddresses, tx]
            rfl
          have addresses (direction : Direction) : last.physicalAddresses direction = some (.physicalAddresses direction) := by
            cases direction <;> simp [last, third]
          have tidyLast : Tidy last := { tidyThird.allocate rfl with addresses := fun direction => .inr (addresses direction) }
          refine ⟨.ok (), last, ?_, tidyLast, by simp, fun _ => ?_⟩
          · rw [registerPrelude, found.bind, extended.bind, received.bind]
            exact sent
          · refine ⟨fun object j own _ => tidyLast.absent object j own, fun object field _ _ _ => tidyLast.zeroed object field,
              rfl, ?_, ?_, addresses, tidyLast.found, tidyLast.counted, by rw [tidyLast.results]; rfl, by simp⟩
            · simp [last, third, second, absent, Standing.next]
            · intro direction
              cases direction <;> simp [last, third, second, absent, Standing.next]

theorem registerBody_eq (s : Surroundings) : registerBody registration s =
    registerPrelude s >>= fun _ => configureDevices registration 0 s.devices := by
  simp only [registerBody, registerPrelude, Program.bind_assoc]

def attempted (registration : MiniportRegistration) (s : Surroundings) : List (Step -> Bool) :=
  if (registration.buffers .rx).valid && (registration.buffers .tx).valid && registration.miniportFunctions.valid &&
    s.searched then s.devices else []

section Iff

variable {devices : List (Step -> Bool)}

theorem Registered.device (registered : Registered registration devices p) {j : Nat} {result : Except Status Unit}
    (given : p.results[j]? = some result) : ∃ succeeds, devices[j]? = some succeeds ∧
      Configured succeeds registration j result p := by
  have bound : j < devices.length := by
    rw [← registered.results]
    exact (List.getElem?_eq_some_iff.mp given).1
  exact ⟨devices[j], List.getElem?_eq_getElem bound, registered.devices j _ result (List.getElem?_eq_getElem bound) given⟩

theorem Registered.result (registered : Registered registration devices p) (member : succeeds ∈ devices) :
    ∃ (j : Nat) (result : Except Status Unit), p.results[j]? = some result ∧ Configured succeeds registration j result p := by
  obtain ⟨j, bound, rfl⟩ := List.mem_iff_getElem.mp member
  have inside : j < p.results.length := by
    rw [registered.results]
    exact bound
  exact ⟨j, p.results[j], List.getElem?_eq_getElem inside,
    registered.devices j _ _ (List.getElem?_eq_getElem bound) (List.getElem?_eq_getElem inside)⟩

theorem Registered.ok_iff (registered : Registered registration devices p) :
    .ok () ∈ p.results ↔ 0 < devices.countP fun succeeds => Ready succeeds registration := by
  simp only [List.countP_pos_iff, decide_eq_true_eq]
  constructor
  · intro member
    obtain ⟨j, given⟩ := List.mem_iff_getElem?.mp member
    obtain ⟨succeeds, tried, configured⟩ := registered.device given
    exact ⟨succeeds, List.mem_of_getElem? tried, configured.result_iff.mp rfl⟩
  · rintro ⟨succeeds, member, ready⟩
    obtain ⟨j, result, given, configured⟩ := registered.result member
    rw [configured.result_iff.mpr ready] at given
    exact List.mem_of_getElem? given

theorem registerCleanup_iff (registered : Registered registration devices p) : ∃ result after,
    registerCleanup p = .ok (result, after) ∧ (CleansUpOnce result after ↔
      (forall succeeds, succeeds ∈ devices -> ReceiveReady succeeds registration -> PortReady succeeds registration) ∧
        (devices.countP fun succeeds => Ready succeeds registration) ≠ 1) := by
  obtain ⟨result, after, done, results, ending, owned, keeps, _⟩ := registerCleanup_eq
    (fun direction => .inr (registered.addresses direction)) registered.pciDevices (.inr registered.driverExtension)
  rw [registered.counted] at ending keeps
  have ok_iff := registered.ok_iff
  refine ⟨result, after, done, ?_, ?_⟩
  · intro clean
    refine ⟨?_, ?_⟩
    · intro succeeds member front
      by_contra rest
      obtain ⟨j, outcome, given, configured⟩ := registered.result member
      have lives : after.heap.standing (.descriptorArray j .rx) = .live :=
        (owned _ (by simp [Object.owner])).trans (configured.leaked front)
      cases outcome with
      | ok nothing => exact rest (configured.result_iff.mp rfl).2
      | error code =>
        have allocated := ((standing_spec after.heap.log (.descriptorArray j .rx)).2.1 lives).1
        exact not_freed lives (clean.freed j code (by rw [results]; exact given) _ rfl allocated)
    · intro single
      have configured : .ok () ∈ after.results := by
        rw [results, ok_iff, single]
        exact Nat.one_pos
      have several := ending.mp (clean.succeeds.mpr configured)
      rw [single] at several
      exact Nat.lt_irrefl 1 several
  · rintro ⟨whole, count⟩
    have several : .ok () ∈ after.results ↔ 1 < devices.countP fun succeeds => Ready succeeds registration := by
      rw [results, ok_iff]
      omega
    refine ⟨?_, ending.trans several.symm, ?_⟩
    · intro j code given object own allocated
      rw [results] at given
      obtain ⟨succeeds, tried, configured⟩ := registered.device given
      have missing : ¬ReceiveReady succeeds registration := by
        intro front
        have ready := configured.result_iff.mpr ⟨front, whole succeeds (List.mem_of_getElem? tried) front⟩
        cases ready
      have settled := configured.settled missing object own
      refine Settled.freed (?_ : Done after object) allocated
      rw [done_iff, owned object (by rw [own]; simp)]
      exact settled
    · intro configured
      have lives := (keeps (several.mp configured)).trans registered.driverData
      exact ((standing_spec after.heap.log .driverExtension).2.1 lives).2

end Iff

def registrationRun (driverObject : Option Unit) (registration : Option MiniportRegistration) (s : Surroundings) :
    Except Status Unit × Port :=
  match networkPortRegisterMiniportDriver driverObject registration s Port.initial with
  | .ok run => run
  | .error stopped => nomatch stopped

-- No device fails behind its receive buffers, and not exactly one device can be configured.
def Tolerable (driverObject : Option Unit) (registration : Option MiniportRegistration) (s : Surroundings) : Prop :=
  match driverObject, registration with
  | some _, some registration =>
    (forall succeeds, succeeds ∈ attempted registration s -> ReceiveReady succeeds registration ->
      PortReady succeeds registration) ∧
    ((attempted registration s).countP fun succeeds => Ready succeeds registration) ≠ 1
  | _, _ => True

theorem clean_of_untried {code : Status} (untried : p.results = []) : CleansUpOnce (.error code) p := by
  refine ⟨?_, ?_, ?_⟩
  · intro j other given
    rw [untried] at given
    simp at given
  · simp [untried]
  · simp [untried]

theorem attempted_none {registration : MiniportRegistration} {s : Surroundings} (none_ : attempted registration s = []) :
    Tolerable (some ()) (some registration) s := by
  simp [Tolerable, none_]

theorem registerDevices_iff (registration : MiniportRegistration) (s : Surroundings) : ∃ result after,
    registerDevices registration s Port.initial = .ok (result, after) ∧
    (s.searched = true -> (CleansUpOnce result after ↔
      (forall succeeds, succeeds ∈ s.devices -> ReceiveReady succeeds registration -> PortReady succeeds registration) ∧
        (s.devices.countP fun succeeds => Ready succeeds registration) ≠ 1)) ∧
    (s.searched = false -> CleansUpOnce result after) := by
  obtain ⟨result, middle, prelude, tidy, ending, registered⟩ := @registerPrelude_spec registration s
  have body {outcome : Except Status Unit} {last : Port}
      (done : registerBody registration s Port.initial = .ok (outcome, last)) :
      registerDevices registration s Port.initial = registerCleanup last := Program.attempt_bind done
  cases searched : s.searched with
  | true =>
    rw [ending.mpr searched] at prelude
    obtain ⟨last, loop, final⟩ := @configureDevices_registered registration middle [] s.devices (registered searched)
    obtain ⟨end_, after, cleaned, iff_⟩ := registerCleanup_iff final
    have whole : registerBody registration s Port.initial = .ok (.ok (), last) := by
      rw [registerBody_eq]
      exact (show Returns _ _ () middle from prelude).bind.trans loop
    exact ⟨end_, after, (body whole).trans cleaned, fun _ => iff_, by simp⟩
  | false =>
    cases result with
    | ok nothing => exact absurd (ending.mp rfl) (by simp [searched])
    | error code =>
      obtain ⟨end_, after, cleaned, results, success, _⟩ := registerCleanup_eq tidy.addresses tidy.found tidy.extension
      have whole : registerBody registration s Port.initial = .ok (.error code, middle) := by
        rw [registerBody_eq]
        exact (show Fails _ _ code middle from prelude).bind
      refine ⟨end_, after, (body whole).trans cleaned, by simp, fun _ => ?_⟩
      cases end_ with
      | ok nothing =>
        have several := success.mp rfl
        simp [tidy.counted] at several
      | error other => exact clean_of_untried (results.trans tidy.results)

theorem registration_cleans_iff (driverObject : Option Unit) (registration : Option MiniportRegistration)
    (s : Surroundings) : CleansUpOnce (registrationRun driverObject registration s).1
      (registrationRun driverObject registration s).2 ↔ Tolerable driverObject registration s := by
  cases driverObject with
  | none => exact ⟨fun _ => trivial, fun _ => clean_of_untried rfl⟩
  | some driver =>
    cases registration with
    | none => exact ⟨fun _ => trivial, fun _ => clean_of_untried rfl⟩
    | some registration =>
      have refused {code : Status} (invalid : attempted registration s = [])
          (run : registrationRun (some driver) (some registration) s = (.error code, Port.initial)) :
          CleansUpOnce (registrationRun (some driver) (some registration) s).1
            (registrationRun (some driver) (some registration) s).2 ↔ Tolerable (some driver) (some registration) s := by
        rw [run]
        exact ⟨fun _ => attempted_none invalid, fun _ => clean_of_untried rfl⟩
      cases rx : (registration.buffers .rx).valid with
      | false =>
        refine @refused .invalidBuffer (by simp [attempted, rx]) ?_
        simp only [registrationRun, networkPortRegisterMiniportDriver, rx]
        rfl
      | true =>
        cases tx : (registration.buffers .tx).valid with
        | false =>
          refine @refused .invalidBuffer (by simp [attempted, tx]) ?_
          simp only [registrationRun, networkPortRegisterMiniportDriver, rx, tx]
          rfl
        | true =>
          cases functions : registration.miniportFunctions.valid with
          | false =>
            refine @refused .invalidFunction (by simp [attempted, functions]) ?_
            simp only [registrationRun, networkPortRegisterMiniportDriver, rx, tx, functions]
            rfl
          | true =>
            obtain ⟨result, after, done, searched, unsearched⟩ := registerDevices_iff registration s
            have run : registrationRun (some driver) (some registration) s = (result, after) := by
              simp only [registrationRun, networkPortRegisterMiniportDriver, rx, tx, functions, Bool.not_true,
                Bool.false_eq_true, if_false, done]
            rw [run]
            cases reached : s.searched with
            | true =>
              rw [searched reached]
              simp only [Tolerable, attempted, rx, tx, functions, reached, Bool.and_true, if_true]
            | false =>
              exact ⟨fun _ => attempted_none (by simp [attempted, reached]), fun _ => unsearched reached⟩

def sampleRegistration : MiniportRegistration where
  deviceContextSize := 0
  buffers := fun _ => ⟨1, 16, 64⟩
  miniportFunctions := ⟨true, false, true, true, true⟩

def sampleSurroundings (devices : List (Step -> Bool)) : Surroundings := ⟨true, true, fun _ => true, devices⟩

abbrev sampleRun (succeeds : Step -> Bool) : Except Status Unit × Port :=
  registrationRun (some ()) (some sampleRegistration) (sampleSurroundings [succeeds])

-- The first registration fails and frees the driver extension. In the second one a ring stays allocated, and the
-- miniport is freed twice.
theorem single_device_refused :
    ¬CleansUpOnce (sampleRun fun _ => true).1 (sampleRun fun _ => true).2 ∧
    (sampleRun fun _ => true).1.toBool = false ∧
    .release .driverExtension ∈ (sampleRun fun _ => true).2.heap.log ∧
    ¬CleansUpOnce (sampleRun (· ≠ .transmitWorkerThread)).1 (sampleRun (· ≠ .transmitWorkerThread)).2 ∧
    .release (.descriptorArray 0 .rx) ∉ (sampleRun (· ≠ .transmitWorkerThread)).2.heap.log ∧
    (sampleRun (· ≠ .transmitWorkerThread)).2.heap.log.count (.release (.miniport 0)) = 2 := by
  have first : (sampleRun fun _ => true).1.toBool = false := by decide +kernel
  have freed : .release .driverExtension ∈ (sampleRun fun _ => true).2.heap.log := by decide +kernel
  have twice : (sampleRun (· ≠ .transmitWorkerThread)).2.heap.log.count (.release (.miniport 0)) = 2 := by decide +kernel
  have stays : .release (.descriptorArray 0 .rx) ∉ (sampleRun (· ≠ .transmitWorkerThread)).2.heap.log := by decide +kernel
  refine ⟨?_, first, freed, ?_, stays, twice⟩
  · intro clean
    exact clean.keeps (by decide +kernel) freed
  · intro clean
    have result : ∃ code, (sampleRun (· ≠ .transmitWorkerThread)).2.results[0]? = some (.error code) :=
      ⟨.unsuccessful, by decide +kernel⟩
    obtain ⟨code, given⟩ := result
    obtain ⟨before, after, log, _⟩ := clean.freed 0 code given (.descriptorArray 0 .rx) rfl (by decide +kernel)
    refine stays ?_
    rw [log]
    simp

end Hal9000.NetworkPort
