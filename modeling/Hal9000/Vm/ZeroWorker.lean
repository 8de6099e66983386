import Hal9000.Lib.Transition
import Hal9000.Lib.Wakeup

set_option autoImplicit false

namespace Hal9000.ZeroWorker

open Function (update)
open Lib (Attended TransitionSystem)

-- MMU_ZERO_WORKER_ITEM
structure Item where
  physicalAddress : Nat
  numberOfFrames : Nat
  deriving DecidableEq, Repr

-- Where a call of MmuReleaseMemory stands: before it inserts its item and before ExEventSignal.
inductive CallerPoint where
  | idle
  | inserting (item : Item)
  | signalling
  deriving DecidableEq, Repr

-- Where _MmuZeroWorkerThreadFunction stands: before ExEventWaitForSignal, RemoveHeadList, ExEventClearSignal
-- and PmmReleaseMemory.
inductive WorkerPoint where
  | waiting
  | removing
  | clearing
  | releasing (item : Item)
  deriving DecidableEq, Repr

structure State (Thread : Type) where
  pagesToZeroList : List Item
  newPagesEvent : Bool
  caller : Thread -> CallerPoint
  worker : WorkerPoint
  requested : List Item
  released : List Item

inductive Label (Thread : Type) where
  | mmuReleaseMemory (thread : Thread) (item : Item)
  | caller (thread : Thread)
  | worker
  deriving DecidableEq

variable {Thread : Type} [DecidableEq Thread]

def callerStep (s : State Thread) (thread : Thread) : Option (State Thread) :=
  match s.caller thread with
  | .idle => none
  | .inserting item => some { s with
      pagesToZeroList := s.pagesToZeroList ++ [item]
      requested := s.requested ++ [item]
      caller := update s.caller thread .signalling }
  | .signalling => some { s with newPagesEvent := true, caller := update s.caller thread .idle }

def workerStep (s : State Thread) : Option (State Thread) :=
  match s.worker with
  | .waiting => if s.newPagesEvent then some { s with worker := .removing } else none
  | .removing =>
    match s.pagesToZeroList with
    | [] => some { s with worker := .clearing }
    | item :: rest => some { s with pagesToZeroList := rest, worker := .releasing item }
  | .clearing => some { s with newPagesEvent := false, worker := .waiting }
  | .releasing item => some { s with released := s.released ++ [item], worker := .waiting }

def step (s : State Thread) : Label Thread -> Option (State Thread)
  | .mmuReleaseMemory thread item =>
    match s.caller thread with
    | .idle => some { s with caller := update s.caller thread (.inserting item) }
    | _ => none
  | .caller thread => callerStep s thread
  | .worker => workerStep s

def idleState : State Thread where
  pagesToZeroList := []
  newPagesEvent := false
  caller := fun _ => .idle
  worker := .waiting
  requested := []
  released := []

def workerSystem (Thread : Type) [DecidableEq Thread] : TransitionSystem (State Thread) (Label Thread) where
  initial s := s = idleState
  step s label after := step s label = some after

def Owes (s : State Thread) (thread : Thread) : Prop := s.caller thread = .signalling

def WorkerPoint.items : WorkerPoint -> List Item
  | .releasing item => [item]
  | _ => []

structure Stranded (s : State Thread) : Prop where
  callers : forall thread, s.caller thread = .idle
  pages : s.pagesToZeroList ≠ []
  worker : s.worker = .waiting
  event : s.newPagesEvent = false

-- The worker only clears the event while the list is empty or a caller is still about to signal.
def ClearsInTime (s : State Thread) : Label Thread -> Prop
  | .worker => s.worker = .clearing -> s.pagesToZeroList = [] ∨ ∃ thread, Owes s thread
  | _ => True

theorem step_accounted {s after : State Thread} {label : Label Thread}
    (accounted : s.released ++ s.worker.items ++ s.pagesToZeroList = s.requested)
    (taken : step s label = some after) :
    after.released ++ after.worker.items ++ after.pagesToZeroList = after.requested := by
  cases label with
  | mmuReleaseMemory thread item =>
    simp only [step] at taken
    split at taken
    · rw [← Option.some.inj taken]
      exact accounted
    · cases taken
  | caller thread =>
    simp only [step, callerStep] at taken
    split at taken
    · cases taken
    · rw [← Option.some.inj taken]
      simp [← accounted]
    · rw [← Option.some.inj taken]
      exact accounted
  | worker =>
    simp only [step, workerStep] at taken
    split at taken <;> rename_i here <;> simp only [here, WorkerPoint.items, List.append_nil] at accounted
    · split at taken
      · rw [← Option.some.inj taken]
        simpa [WorkerPoint.items] using accounted
      · cases taken
    · split at taken <;> rename_i list <;> rw [← Option.some.inj taken] <;>
        simpa [WorkerPoint.items, list] using accounted
    · rw [← Option.some.inj taken]
      simpa [WorkerPoint.items] using accounted
    · rw [← Option.some.inj taken]
      simpa [WorkerPoint.items] using accounted

theorem reachable_accounted {s : State Thread} (reached : (workerSystem Thread).Reachable s) :
    s.released ++ s.worker.items ++ s.pagesToZeroList = s.requested := by
  induction reached with
  | start s initial =>
    obtain rfl := initial
    rfl
  | next s label after _ _ taken ih => exact step_accounted ih taken

theorem step_attended {s after : State Thread} {label : Label Thread}
    (attended : Attended s.pagesToZeroList s.newPagesEvent (Owes s)) (inTime : ClearsInTime s label)
    (taken : step s label = some after) : Attended after.pagesToZeroList after.newPagesEvent (Owes after) := by
  cases label with
  | mmuReleaseMemory thread item =>
    simp only [step] at taken
    split at taken
    · rename_i idle
      rw [← Option.some.inj taken]
      refine attended.shorter id fun other owes => ?_
      have different : other ≠ thread := fun same => by simp [Owes, same, idle] at owes
      simpa [Owes, different] using owes
    · cases taken
  | caller thread =>
    simp only [step, callerStep] at taken
    split at taken
    · cases taken
    · rw [← Option.some.inj taken]
      exact .owed thread (by simp [Owes])
    · rw [← Option.some.inj taken]
      exact .set
  | worker =>
    simp only [step, workerStep] at taken
    split at taken <;> rename_i here
    · split at taken
      · rw [← Option.some.inj taken]
        exact attended
      · cases taken
    · split at taken <;> rename_i list <;> rw [← Option.some.inj taken]
      · exact attended
      · exact attended.shorter (by simp [list]) fun _ => id
    · rw [← Option.some.inj taken]
      rcases inTime here with empty | ⟨thread, owes⟩
      · exact fun nonempty => absurd empty nonempty
      · exact .owed thread owes
    · rw [← Option.some.inj taken]
      exact attended

-- Nothing is stranded and nothing is given back twice, as long as no call inserts and signals between the moment
-- the worker finds the list empty and the moment it clears the event.
theorem nothing_stranded {s : State Thread} (reached : (workerSystem Thread).ReachableUnder ClearsInTime s) :
    ¬ Stranded s ∧ s.released ++ s.worker.items ++ s.pagesToZeroList = s.requested := by
  refine ⟨?_, reachable_accounted reached.reachable⟩
  have attended : Attended s.pagesToZeroList s.newPagesEvent (Owes s) := by
    induction reached with
    | start s initial =>
      obtain rfl := initial
      exact .empty
    | next s label after _ inTime taken ih => exact step_attended ih inTime taken
  rintro ⟨callers, pages, _, event⟩
  rcases attended pages with set | ⟨thread, owes⟩
  · rw [event] at set
    cases set
  · have idle := callers thread
    rw [owes] at idle
    cases idle

instance (s : State (Fin 2)) (thread : Fin 2) : Decidable (Owes s thread) :=
  inferInstanceAs (Decidable (_ = _))

instance (s : State (Fin 2)) (label : Label (Fin 2)) : Decidable (ClearsInTime s label) :=
  match label with
  | .worker => inferInstanceAs (Decidable (_ -> _ ∨ _))
  | .mmuReleaseMemory _ _ => .isTrue trivial
  | .caller _ => .isTrue trivial

def page (index : Nat) : Item := { physicalAddress := index * 0x1000, numberOfFrames := 1 }

def sampleSchedule : List (Label (Fin 2)) :=
  [.mmuReleaseMemory 0 (page 1), .caller 0, .caller 0, .worker, .worker, .worker, .worker, .worker, .worker,
    .mmuReleaseMemory 1 (page 2), .caller 1, .caller 1, .worker, .worker, .worker]

theorem sampleSchedule_result : (TransitionSystem.runUnder (fun s label => decide (ClearsInTime s label)) step
    idleState sampleSchedule).any (fun s => decide (s.released = [page 1, page 2])) = true := by
  decide

theorem nothing_stranded_sample : ∃ s : State (Fin 2), (workerSystem (Fin 2)).ReachableUnder ClearsInTime s ∧
    s.released = [page 1, page 2] ∧ ¬ Stranded s ∧ s.released ++ s.worker.items ++ s.pagesToZeroList = s.requested := by
  have run : ∃ s : State (Fin 2), (workerSystem (Fin 2)).ReachableUnder ClearsInTime s ∧
      s.released = [page 1, page 2] :=
    TransitionSystem.ReachableUnder.of_run (fun _ _ _ result => result) (.start _ rfl) sampleSchedule
      sampleSchedule_result
  obtain ⟨s, reached, done⟩ := run
  exact ⟨s, reached, done, nothing_stranded reached⟩

instance (s : State (Fin 2)) : Decidable (Stranded s) :=
  decidable_of_iff ((forall thread, s.caller thread = .idle) ∧ s.pagesToZeroList ≠ [] ∧ s.worker = .waiting ∧
      s.newPagesEvent = false)
    ⟨fun ⟨callers, pages, worker, event⟩ => ⟨callers, pages, worker, event⟩,
      fun ⟨callers, pages, worker, event⟩ => ⟨callers, pages, worker, event⟩⟩

-- The second call inserts and signals after the worker found the list empty and before it clears the event.
def strandingSchedule : List (Label (Fin 2)) :=
  [.mmuReleaseMemory 0 (page 1), .caller 0, .caller 0, .worker, .worker, .worker, .worker, .worker,
    .mmuReleaseMemory 1 (page 2), .caller 1, .caller 1, .worker]

theorem strandingSchedule_result : (TransitionSystem.runUnder (fun _ _ => decide True) step
    idleState strandingSchedule).any (fun s => decide (Stranded s)) = true := by
  decide

theorem page_stranded : ∃ s : State (Fin 2), (workerSystem (Fin 2)).Reachable s ∧ Stranded s :=
  TransitionSystem.ReachableUnder.of_run (fun _ _ _ result => result) (.start _ rfl) strandingSchedule
    strandingSchedule_result

end Hal9000.ZeroWorker
