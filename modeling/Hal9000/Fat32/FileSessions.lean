import Hal9000.Fat32.FileObjects
import Hal9000.Lib.Transition
import Mathlib.Data.List.Nodup

set_option autoImplicit false

namespace Hal9000.FileObjects

open Function (update)
open Lib (TransitionSystem)

inductive Call where
  | create (request : Request) (answers : Answers)
  | close (handle : Nat) (answers : Answers)

@[ext]
structure Session where
  pools : Pools
  opened : List Nat

def handlesCreated (opened : List Nat) : Except Failure Nat -> List Nat
  | .ok handle => handle :: opened
  | .error _ => opened

def handlesClosed (opened : List Nat) (handle : Nat) : Status -> List Nat
  | .ok () => opened.erase handle
  | .error _ => opened

def fileSessions (devices : Devices) : TransitionSystem Session Call where
  initial s := s.pools = {} ∧ s.opened = []
  step s call after := match call with
    | .create request answers => Fresh s.pools answers ∧ ∃ result,
        ioCreateFile devices s.pools request answers = .ok (after.pools, result) ∧
          after.opened = handlesCreated s.opened result
    | .close handle answers => handle ∈ s.opened ∧ Fresh s.pools answers ∧ ∃ result,
        ioCloseFile devices s.pools handle answers = .ok (after.pools, result) ∧
          after.opened = handlesClosed s.opened handle result

structure Session.Balanced (s : Session) : Prop where
  irps : forall a, s.pools.irps a = none
  handles : s.opened.Nodup
  fileObjects : forall a, (s.pools.fileObjects a).isSome ↔ a ∈ s.opened
  attached : forall a object, s.pools.fileObjects a = some object -> object.fsContext2 ≠ 0 ∧
    (s.pools.fcbs object.fsContext2).isSome
  controlBlocks : forall fcb, (s.pools.fcbs fcb).isSome ->
    ∃! handle, ∃ object, s.pools.fileObjects handle = some object ∧ object.fsContext2 = fcb

-- The FCB is there whenever it comes to allocating it, and a close does not get its IRP.
def Meets (devices : Devices) : Call -> Prop
  | .create request answers => Reaches devices request answers -> answers.fcb.isSome
  | .close _ answers => answers.irp = none

-- Control blocks and the FILE_OBJECTs that have one, whatever else is left over.
structure Paired (p : Pools) : Prop where
  irps : forall a, p.irps a = none
  null : p.fcbs 0 = none
  attached : forall a object, p.fileObjects a = some object -> object.fsContext2 ≠ 0 -> (p.fcbs object.fsContext2).isSome
  controlBlocks : forall fcb, (p.fcbs fcb).isSome ->
    ∃! handle, ∃ object, p.fileObjects handle = some object ∧ object.fsContext2 = fcb

namespace Paired

variable {p : Pools} {fileObject fcb : Nat} {object old : FileObject} {block : Fcb}

theorem nonNull (paired : Paired p) (live : (p.fcbs fcb).isSome) : fcb ≠ 0 := by
  rintro rfl
  rw [paired.null] at live
  cases live

theorem update_some {cells : Nat -> Option FileObject} {a : Nat} {found : FileObject}
    (there : update cells fileObject (some object) a = some found) :
    a = fileObject ∧ found = object ∨ a ≠ fileObject ∧ cells a = some found := by
  by_cases same : a = fileObject
  · subst same
    rw [Function.update_self] at there
    exact .inl ⟨rfl, (Option.some.inj there).symm⟩
  · rw [Function.update_of_ne same] at there
    exact .inr ⟨same, there⟩

theorem bare (paired : Paired p) (fresh : p.fileObjects fileObject = none) (empty : object.fsContext2 = 0) :
    Paired (writeFileObject p fileObject object) := by
  refine ⟨paired.irps, paired.null, fun a found there nonzero => ?_, fun fcb live => ?_⟩
  · rcases update_some there with ⟨rfl, rfl⟩ | ⟨_, there⟩
    · exact absurd empty nonzero
    · exact paired.attached a found there nonzero
  · obtain ⟨handle, ⟨found, there, context⟩, only⟩ := paired.controlBlocks fcb live
    have other : handle ≠ fileObject := by
      rintro rfl
      cases fresh.symm.trans there
    refine ⟨handle, ⟨found, (Function.update_of_ne other ..).trans there, context⟩, ?_⟩
    rintro a ⟨second, here, same⟩
    rcases update_some here with ⟨rfl, rfl⟩ | ⟨_, here⟩
    · exact absurd (same.symm.trans empty) (paired.nonNull live)
    · exact only a ⟨second, here, same⟩

theorem attach (paired : Paired p) (fresh : p.fileObjects fileObject = none) (free : fcb ≠ 0 ∧ p.fcbs fcb = none)
    (context : object.fsContext2 = fcb) :
    Paired (writeFileObject { p with fcbs := update p.fcbs fcb (some block) } fileObject object) := by
  refine ⟨paired.irps, (Function.update_of_ne free.1.symm ..).trans paired.null, fun a found there nonzero => ?_,
    fun c live => ?_⟩
  · dsimp only [writeFileObject_fcbs]
    rcases update_some there with ⟨rfl, rfl⟩ | ⟨_, there⟩
    · rw [context, Function.update_self]
      rfl
    · have before := paired.attached a found there nonzero
      rw [Function.update_of_ne]
      · exact before
      · rintro same
        rw [same, free.2] at before
        cases before
  · by_cases same : c = fcb
    · subst same
      refine ⟨fileObject, ⟨object, Function.update_self .., context⟩, ?_⟩
      rintro a ⟨second, here, held⟩
      rcases update_some here with ⟨rfl, rfl⟩ | ⟨_, here⟩
      · rfl
      · have before := paired.attached a second here (held ▸ free.1)
        rw [held, free.2] at before
        cases before
    · have still : (p.fcbs c).isSome := by
        rw [← Function.update_of_ne same (some block) p.fcbs]
        exact live
      obtain ⟨handle, ⟨found, there, held⟩, only⟩ := paired.controlBlocks c still
      have other : handle ≠ fileObject := by
        rintro rfl
        cases fresh.symm.trans there
      refine ⟨handle, ⟨found, (Function.update_of_ne other ..).trans there, held⟩, ?_⟩
      rintro a ⟨second, here, mine⟩
      rcases update_some here with ⟨rfl, rfl⟩ | ⟨_, here⟩
      · exact absurd (mine.symm.trans context) same
      · exact only a ⟨second, here, mine⟩

theorem close (paired : Paired p) (file : p.fileObjects fileObject = some old) (attached : old.fsContext2 ≠ 0)
    (empty : object.fsContext2 = 0) :
    Paired (writeFileObject { p with fcbs := update p.fcbs old.fsContext2 none } fileObject object) := by
  obtain ⟨holder, _, only⟩ := paired.controlBlocks _ (paired.attached fileObject old file attached)
  have mine := only fileObject ⟨old, file, rfl⟩
  refine ⟨paired.irps, (Function.update_of_ne attached.symm ..).trans paired.null, fun a found there nonzero => ?_,
    fun c live => ?_⟩
  · dsimp only [writeFileObject_fcbs]
    rcases update_some there with ⟨rfl, rfl⟩ | ⟨other, there⟩
    · exact absurd empty nonzero
    · rw [Function.update_of_ne]
      · exact paired.attached a found there nonzero
      · intro same
        exact other ((only a ⟨found, there, same⟩).trans mine.symm)
  · have different : c ≠ old.fsContext2 := by
      rintro rfl
      dsimp only [writeFileObject_fcbs] at live
      rw [Function.update_self] at live
      cases live
    have still : (p.fcbs c).isSome := by
      rw [← Function.update_of_ne different none p.fcbs]
      exact live
    obtain ⟨handle, ⟨found, there, held⟩, single⟩ := paired.controlBlocks c still
    have other : handle ≠ fileObject := by
      rintro rfl
      obtain rfl := Option.some.inj (there.symm.trans file)
      exact different held.symm
    refine ⟨handle, ⟨found, (Function.update_of_ne other ..).trans there, held⟩, ?_⟩
    rintro a ⟨second, here, context⟩
    rcases update_some here with ⟨rfl, rfl⟩ | ⟨_, here⟩
    · exact absurd (context.symm.trans empty) (paired.nonNull still)
    · exact single a ⟨second, here, context⟩

end Paired

section Sessions

variable {devices : Devices} {s after : Session} {call : Call}

-- What holds in every run, with leaks and without.
structure Session.Sound (s : Session) : Prop where
  paired : Paired s.pools
  handles : s.opened.Nodup
  live : forall handle, handle ∈ s.opened -> (s.pools.fileObjects handle).isSome

-- Every FILE_OBJECT is that of an open handle and has a control block.
structure Session.Tight (s : Session) : Prop where
  opened : forall a, (s.pools.fileObjects a).isSome -> a ∈ s.opened
  attached : forall a object, s.pools.fileObjects a = some object -> object.fsContext2 ≠ 0

theorem Session.Sound.balanced_iff (sound : s.Sound) : s.Balanced ↔ s.Tight := by
  constructor
  next =>
    intro balanced
    exact ⟨fun a => (balanced.fileObjects a).mp, fun a object there => (balanced.attached a object there).1⟩
  next =>
    intro tight
    exact ⟨sound.paired.irps, sound.handles, fun a => ⟨tight.opened a, sound.live a⟩,
      fun a object there =>
        ⟨tight.attached a object there, sound.paired.attached a object there (tight.attached a object there)⟩,
      sound.paired.controlBlocks⟩

theorem isSome_update {cells : Nat -> Option FileObject} {a fileObject : Nat} {object : FileObject} :
    (update cells fileObject (some object) a).isSome ↔ a = fileObject ∨ (cells a).isSome := by
  by_cases same : a = fileObject
  · simp [same]
  · simp [same]

theorem Session.Sound.start (initial : (fileSessions devices).initial s) : s.Sound ∧ s.Tight := by
  obtain ⟨pools, opened⟩ := initial
  refine ⟨⟨?_, ?_, ?_⟩, ?_, ?_⟩
  · rw [pools]
    exact ⟨fun _ => rfl, rfl, fun _ _ impossible => absurd impossible (Option.some_ne_none _).symm,
      fun _ impossible => absurd impossible Bool.false_ne_true⟩
  · rw [opened]
    exact List.nodup_nil
  · rw [opened]
    exact fun _ member => absurd member List.not_mem_nil
  · rw [pools]
    exact fun _ impossible => absurd impossible Bool.false_ne_true
  · rw [pools]
    exact fun _ _ impossible => absurd impossible (Option.some_ne_none _).symm

theorem Session.Sound.closed_of_free (sound : s.Sound) {fileObject : Nat} (free : s.pools.fileObjects fileObject = none) :
    fileObject ∉ s.opened := by
  intro member
  have live := sound.live fileObject member
  rw [free] at live
  cases live

theorem Session.Sound.live_cons (sound : s.Sound) {fileObject : Nat} {object : FileObject} (handle : Nat)
    (member : handle ∈ fileObject :: s.opened) : (update s.pools.fileObjects fileObject (some object) handle).isSome := by
  rcases List.mem_cons.mp member with rfl | member
  · exact isSome_update.mpr (.inl rfl)
  · exact isSome_update.mpr (.inr (sound.live handle member))

theorem Session.Sound.create {request : Request} {answers : Answers} {result : Except Failure Nat} (sound : s.Sound)
    (fresh : Fresh s.pools answers) (ends : Creates devices s.pools request answers after.pools result)
    (opened : after.opened = handlesCreated s.opened result) :
    after.Sound ∧ (after.Tight ↔ s.Tight ∧ Meets devices (.create request answers)) := by
  cases ends with
  | refused code unreached kept =>
    obtain rfl : after = s := Session.ext kept opened
    exact ⟨sound, (and_iff_left fun reaches => absurd reaches unreached).symm⟩
  | bare reaches short fileObject object given context made =>
    have free := (fresh.fileObject fileObject given).2
    have files : after.pools.fileObjects = update s.pools.fileObjects fileObject (some object) := by
      rw [made]
      rfl
    refine ⟨⟨?_, ?_, ?_⟩, ?_⟩
    · rw [made]
      exact sound.paired.bare free context
    · rw [opened]
      exact List.nodup_cons.mpr ⟨sound.closed_of_free free, sound.handles⟩
    · rw [opened, files]
      exact sound.live_cons
    · refine iff_of_false (fun tight => ?_) (fun both => ?_)
      · exact tight.attached fileObject object (files ▸ Function.update_self ..) context
      · have some_ := both.2 reaches
        rw [short] at some_
        cases some_
  | attached reaches fcb room fileObject object block given context made =>
    have free := (fresh.fileObject fileObject given).2
    have blank := fresh.fcb fcb room
    have files : after.pools.fileObjects = update s.pools.fileObjects fileObject (some object) := by
      rw [made]
      rfl
    refine ⟨⟨?_, ?_, ?_⟩, ?_⟩
    · rw [made]
      exact sound.paired.attach free blank context
    · rw [opened]
      exact List.nodup_cons.mpr ⟨sound.closed_of_free free, sound.handles⟩
    · rw [opened, files]
      exact sound.live_cons
    · have met : Meets devices (.create request answers) := fun _ => Option.isSome_of_eq_some room
      rw [and_iff_left met]
      constructor
      next =>
        intro tight
        refine ⟨fun a live => ?_, fun a found there => ?_⟩
        · have member := tight.opened a (files ▸ isSome_update.mpr (.inr live))
          rw [opened] at member
          rcases List.mem_cons.mp member with rfl | member
          · rw [free] at live
            cases live
          · exact member
        · have other : a ≠ fileObject := by
            rintro rfl
            cases free.symm.trans there
          exact tight.attached a found (files ▸ (Function.update_of_ne other ..).trans there)
      next =>
        intro tight
        refine ⟨fun a live => ?_, fun a found there => ?_⟩
        · rw [opened]
          rw [files] at live
          rcases isSome_update.mp live with rfl | live
          · exact List.mem_cons_self
          · exact List.mem_cons_of_mem _ (tight.opened a live)
        · rw [files] at there
          rcases Paired.update_some there with ⟨-, rfl⟩ | ⟨-, there⟩
          · rw [context]
            exact blank.1
          · exact tight.attached a found there

theorem Session.Sound.close {handle : Nat} {answers : Answers} {status : Status} (sound : s.Sound)
    (opened_ : handle ∈ s.opened) (ends : Closes s.pools handle answers after.pools status)
    (opened : after.opened = handlesClosed s.opened handle status) :
    after.Sound ∧ (after.Tight ↔ s.Tight ∧ Meets devices (.close handle answers)) := by
  cases ends with
  | refused code short kept =>
    obtain rfl : after = s := Session.ext kept opened
    exact ⟨sound, (and_iff_left short).symm⟩
  | closed room object file attached made =>
    have files : after.pools.fileObjects = update s.pools.fileObjects handle (some { object with fsContext2 := 0 }) := by
      rw [made]
      rfl
    refine ⟨⟨?_, ?_, ?_⟩, ?_⟩
    · rw [made]
      exact sound.paired.close file attached rfl
    · rw [opened]
      exact sound.handles.erase handle
    · rw [opened, files]
      exact fun a member => isSome_update.mpr (.inr (sound.live a (List.mem_of_mem_erase member)))
    · refine iff_of_false (fun tight => ?_) (fun both => ?_)
      · exact tight.attached handle _ (files ▸ Function.update_self ..) rfl
      · rw [show answers.irp = none from both.2] at room
        cases room

theorem session_step (sound : s.Sound) (taken : (fileSessions devices).step s call after) :
    after.Sound ∧ (after.Tight ↔ s.Tight ∧ Meets devices call) := by
  cases call with
  | create request answers =>
    obtain ⟨fresh, result, run, opened⟩ := taken
    exact sound.create fresh (ioCreateFile_creates fresh run) opened
  | close handle answers =>
    obtain ⟨member, fresh, result, run, opened⟩ := taken
    exact sound.close member (ioCloseFile_closes fresh run) opened

theorem session_sound (reached : (fileSessions devices).Reachable s) : s.Sound := by
  refine TransitionSystem.Reachable.invariant (fun _ initial => (Session.Sound.start initial).1) ?_ reached
  exact fun _ _ _ sound taken => (session_step sound taken).1

theorem file_objects_balanced_iff (reached : (fileSessions devices).Reachable s) :
    s.Balanced ↔ (fileSessions devices).ReachableUnder (fun _ call => Meets devices call) s := by
  rw [(session_sound reached).balanced_iff]
  constructor
  next =>
    intro tight
    induction reached with
    | start s initial => exact .start s initial
    | next s call after before _ taken ih =>
      obtain ⟨still, met⟩ := (session_step (session_sound before) taken).2.mp tight
      exact .next s call after (ih still) met taken
  next =>
    intro careful
    clear reached
    induction careful with
    | start s initial => exact (Session.Sound.start initial).2
    | next s call after before met taken ih =>
      exact (session_step (session_sound before.reachable) taken).2.mpr ⟨ih, met⟩

end Sessions

def sampleDevices : Devices where
  vpbs := [{ filesystemDevice := 0x5000, mounted := true, volumeLetter := 0x44 }]
  stackSize _ := 2

-- Opens D:\A.
def sampleRequest : Request where
  fileName := ⟨[0x44, 0x3A, 0x5C, 0x41], CString.nonZero_of_all rfl⟩
  directory := false
  create := false
  asynchronous := false

def sampleAnswers : Answers where
  irp := some 0x100
  fileObject := some 0x200
  created := .ok ()
  found := .ok { fileSector := 0x40, parentSector := 0x20, fileInformation := ⟨0, 0, 0x1000, 0⟩ }
  fcb := some 0x300

def poolsAfter {α : Type} : Kernel (Pools × α) -> Pools
  | .ok (p, _) => p
  | .error _ => {}

def sampleOpened (fcb : Option Nat) : Session :=
  ⟨poolsAfter (ioCreateFile sampleDevices {} sampleRequest { sampleAnswers with fcb := fcb }), [0x200]⟩

theorem sampleOpened_step (fcb : Option Nat) (given : fcb = none ∨ fcb = some 0x300) :
    (fileSessions sampleDevices).step ⟨{}, []⟩ (.create sampleRequest { sampleAnswers with fcb := fcb }) (sampleOpened fcb) := by
  have fresh : Fresh {} { sampleAnswers with fcb := fcb } := by
    refine ⟨fun a given => ?_, fun a given => ?_, fun a there => ?_⟩
    · obtain rfl := Option.some.inj given
      exact ⟨by decide, rfl⟩
    · obtain rfl := Option.some.inj given
      exact ⟨by decide, rfl⟩
    · rcases given with rfl | rfl
      · cases there
      · obtain rfl := Option.some.inj there
        exact ⟨by decide, rfl⟩
  rcases given with rfl | rfl
  · exact ⟨fresh, .ok 0x200, rfl, rfl⟩
  · exact ⟨fresh, .ok 0x200, rfl, rfl⟩

theorem sampleClose_fresh (irp : Option Nat) (given : irp = none ∨ irp = some 0x100) :
    Fresh (sampleOpened (some 0x300)).pools { sampleAnswers with irp := irp, fileObject := none, fcb := none } := by
  refine ⟨fun a there => ?_, fun a there => ?_, fun a there => ?_⟩
  · rcases given with rfl | rfl
    · cases there
    · obtain rfl := Option.some.inj there
      exact ⟨by decide, rfl⟩
  · cases there
  · cases there

-- A file is opened, and closing it fails for want of memory.
theorem file_objects_balanced_sample : (sampleOpened (some 0x300)).Balanced := by
  have start : (fileSessions sampleDevices).ReachableUnder (fun _ call => Meets sampleDevices call) ⟨{}, []⟩ :=
    .start _ ⟨rfl, rfl⟩
  have room : Meets sampleDevices (.create sampleRequest { sampleAnswers with fcb := some 0x300 }) := fun _ => rfl
  have opened := start.next _ _ _ room (sampleOpened_step (some 0x300) (.inr rfl))
  have short : Meets sampleDevices (.close 0x200 { sampleAnswers with irp := none, fileObject := none, fcb := none }) := rfl
  have kept : (fileSessions sampleDevices).step (sampleOpened (some 0x300))
      (.close 0x200 { sampleAnswers with irp := none, fileObject := none, fcb := none }) (sampleOpened (some 0x300)) :=
    ⟨List.mem_singleton_self _, sampleClose_fresh none (.inl rfl), .error .heapNoMoreMemory, rfl, rfl⟩
  have careful := opened.next _ _ _ short kept
  exact (file_objects_balanced_iff careful.reachable).mpr careful

-- A file opened and closed leaves its FILE_OBJECT; one opened without memory for the FCB has no control block.
theorem file_objects_left :
    (∃ s : Session, (fileSessions sampleDevices).Reachable s ∧ s.opened = [] ∧ (s.pools.fileObjects 0x200).isSome ∧
      ¬ s.Balanced) ∧
    ∃ s : Session, (fileSessions sampleDevices).Reachable s ∧ s.opened = [0x200] ∧
      (forall fcb, s.pools.fcbs fcb = none) ∧ ¬ s.Balanced := by
  have start : (fileSessions sampleDevices).Reachable ⟨{}, []⟩ := .start ⟨rfl, rfl⟩
  constructor
  · have opened := start.next _ (sampleOpened_step (some 0x300) (.inr rfl))
    have closed : (fileSessions sampleDevices).step (sampleOpened (some 0x300))
        (.close 0x200 { sampleAnswers with fileObject := none, fcb := none })
        ⟨poolsAfter (ioCloseFile sampleDevices (sampleOpened (some 0x300)).pools 0x200
          { sampleAnswers with fileObject := none, fcb := none }), []⟩ :=
      ⟨List.mem_singleton_self _, sampleClose_fresh (some 0x100) (.inr rfl), .ok (), rfl, rfl⟩
    refine ⟨_, opened.next _ closed, rfl, rfl, fun balanced => ?_⟩
    exact absurd ((balanced.fileObjects 0x200).mp rfl) List.not_mem_nil
  · refine ⟨sampleOpened none, start.next _ (sampleOpened_step none (.inl rfl)), rfl, fun _ => rfl, fun balanced => ?_⟩
    obtain ⟨object, there⟩ := Option.isSome_iff_exists.mp ((balanced.fileObjects 0x200).mpr (List.mem_singleton_self _))
    exact absurd (balanced.attached 0x200 object there).2 Bool.false_ne_true

end Hal9000.FileObjects
