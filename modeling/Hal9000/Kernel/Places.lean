import Hal9000.Kernel.Scheduler
import Hal9000.Lib.Placing

set_option autoImplicit false
set_option linter.unusedSectionVars false

namespace Hal9000.Kernel

open Function (update)
open Lib (Lists Points)

namespace CpuPc

variable {T : Type}

def holdsReadyLock : CpuPc T -> Bool
  | yieldInsert | yieldSetState | scheduleSetPrevious _ | scheduleGetReady _ | scheduleSetCurrent _ _
  | scheduleSwitch _ _ | cleanupReadPrevious _ | cleanupUnlock _ _ | unblockInsert _ _
  | unblockSetState _ _ | unblockReadyUnlock _ _ => true
  | running | yieldLock | blockSetState | blockLock | exitBlockLock | exitSetState | exitSignal | exitLock
  | cleanupTestOwner _ _ | cleanupBlockLock _ _ | cleanupTestState _ _ | cleanupDereference _ _
  | unblockLock _ _ | unblockTestState _ _ | unblockReadyLock _ _ | unblockUnlock _ _ => false

def leaving : CpuPc T -> Option Leave
  | yieldSetState => some .yield
  | blockSetState | blockLock => some .block
  | exitSignal | exitLock => some .exit
  | scheduleSetPrevious how | scheduleGetReady how | scheduleSetCurrent _ how | scheduleSwitch _ how => some how
  | unblockLock _ exiting | unblockTestState _ exiting | unblockReadyLock _ exiting
  | unblockInsert _ exiting | unblockSetState _ exiting | unblockReadyUnlock _ exiting
  | unblockUnlock _ exiting => if exiting then some .exit else none
  | running | yieldLock | yieldInsert | exitBlockLock | exitSetState | cleanupReadPrevious _
  | cleanupUnlock _ _ | cleanupTestOwner _ _ | cleanupBlockLock _ _ | cleanupTestState _ _
  | cleanupDereference _ _ => none

def picked : CpuPc T -> Option T
  | scheduleSetCurrent next _ | scheduleSwitch next _ => some next
  | _ => none

def wakes : CpuPc T -> Option T
  | unblockLock thread _ | unblockTestState thread _ | unblockReadyLock thread _
  | unblockInsert thread _ => some thread
  | _ => none

def otherHeld (previous : Option T) : CpuPc T -> Option T
  | cleanupReadPrevious .block => previous
  | cleanupUnlock prev .block => prev
  | cleanupTestOwner prev .block => some prev
  | cleanupBlockLock prev _ => some prev
  | unblockTestState thread _ | unblockReadyLock thread _ | unblockInsert thread _
  | unblockSetState thread _ | unblockReadyUnlock thread _ | unblockUnlock thread _ => some thread
  | _ => none

def blockHeld (stack : T) (previous : Option T) (pc : CpuPc T) : Option T :=
  if pc.leaving = some .block then some stack else pc.otherHeld previous

end CpuPc

-- A write of State that is still to come for a thread already moved.
inductive Mark (T : Type) where
  | none
  | yield
  | block
  | exit
  | unblock (thread : T)
  deriving DecidableEq, Repr

def CpuPc.mark {T : Type} : CpuPc T -> Mark T
  | .yieldSetState => .yield
  | .blockSetState => .block
  | .exitBlockLock | .exitSetState => .exit
  | .unblockSetState thread _ => .unblock thread
  | _ => .none

inductive Spot (C : Type) where
  | nowhere
  | ready
  | waiting
  | woken (c : C)
  | picked (c : C)
  deriving DecidableEq, Repr

variable {C T : Type}

structure Spots (leaving : C -> Option Leave) (picked wakes : C -> Option T) (stack idle : C -> T)
    (ready waiting : List T) (spot : T -> Spot C) : Prop where
  stack_injective : forall c d, stack c = stack d -> c = d
  idle_injective : forall c d, idle c = idle d -> c = d
  ready_nodup : ready.Nodup
  waiting_nodup : waiting.Nodup
  ready_iff : forall t, t ∈ ready ↔ spot t = .ready
  waiting_iff : forall t, t ∈ waiting ↔ spot t = .waiting
  woken_iff : forall t c, wakes c = some t ↔ spot t = .woken c
  picked_iff : forall t c, picked c = some t ↔ spot t = .picked c
  -- A running or exiting thread is in no list, one that yields is in the ready list and one that blocks
  -- in a waiting list, unless somebody has already taken it off to wake it.
  running : forall c, leaving c = none -> spot (stack c) = .nowhere
  exiting : forall c, leaving c = some .exit -> spot (stack c) = .nowhere
  yielding : forall c, leaving c = some .yield -> stack c ≠ idle c -> spot (stack c) = .ready
  blocking : forall c, leaving c = some .block -> stack c ≠ idle c ->
    spot (stack c) = .waiting ∨ ∃ d, spot (stack c) = .woken d
  idling : forall c, stack c = idle c -> spot (stack c) = .nowhere
  idle_spot : forall c, spot (idle c) = .nowhere ∨ spot (idle c) = .picked c
  idle_stack : forall c d, stack d = idle c -> d = c

structure States (leaving : C -> Option Leave) (mark : C -> Mark T) (stack idle : C -> T)
    (state : T -> ThreadState) (spot : T -> Spot C) : Prop where
  ready_state : forall t, spot t = .ready ->
    state t = .ready ∨ (∃ c, mark c = .yield ∧ stack c = t) ∨ ∃ c, mark c = .unblock t
  picked_state : forall t c, spot t = .picked c -> state t = .ready ∨ t = idle c
  waiting_state : forall t, spot t = .waiting -> state t = .blocked ∨ ∃ c, stack c = t ∧ mark c = .block
  woken_state : forall t d, spot t = .woken d -> state t = .blocked ∨ ∃ c, stack c = t ∧ mark c = .block
  inserted : forall t c, mark c = .unblock t ->
    spot t = .ready ∧ state t = .blocked ∧ forall d, stack d ≠ t
  idle_stays : forall c, mark c = .exit -> stack c ≠ idle c
  idle_alive : forall c, state (idle c) ≠ .dying
  blocked_stack : forall c, state (stack c) = .blocked -> stack c = idle c ∨ leaving c = some .block
  dying_stack : forall c, state (stack c) = .dying ↔ leaving c = some .exit

variable [DecidableEq C] [DecidableEq T]

def Stands (how : Option Leave) (idling : Prop) (place : Spot C) : Prop :=
  (idling -> place = .nowhere) ∧
    match how with
    | none | some .exit => place = .nowhere
    | some .yield => ¬ idling -> place = .ready
    | some .block => ¬ idling -> place = .waiting ∨ ∃ d, place = .woken d

theorem Stands.place_cases {how : Option Leave} {idling : Prop} {place : Spot C} (stands : Stands how idling place) :
    place = .nowhere ∨ (place = .ready ∧ how = some .yield) ∨
      ((place = .waiting ∨ ∃ d, place = .woken d) ∧ how = some .block) := by
  by_cases idle : idling
  · exact .inl (stands.1 idle)
  · have there := stands.2
    cases how with
    | none => exact .inl there
    | some how' =>
      cases how' with
      | yield => exact .inr (.inl ⟨there idle, rfl⟩)
      | block => exact .inr (.inr ⟨there idle, rfl⟩)
      | exit => exact .inl there

theorem Spot.woken_injective : Function.Injective (Spot.woken : C -> Spot C) := fun _ _ same => Spot.woken.inj same

theorem Spot.picked_injective : Function.Injective (Spot.picked : C -> Spot C) := fun _ _ same => Spot.picked.inj same

namespace Spots

variable {leaving : C -> Option Leave} {picked wakes : C -> Option T} {stack idle : C -> T}
  {ready waiting : List T} {spot : T -> Spot C} {c : C}
  (spots : Spots leaving picked wakes stack idle ready waiting spot)

include spots

theorem readies : Lists ready spot .ready := ⟨spots.ready_nodup, spots.ready_iff⟩

theorem waits : Lists waiting spot .waiting := ⟨spots.waiting_nodup, spots.waiting_iff⟩

theorem stands (d : C) : Stands (leaving d) (stack d = idle d) (spot (stack d)) := by
  refine ⟨spots.idling d, ?_⟩
  cases how : leaving d with
  | none => exact spots.running d how
  | some how' =>
    cases how' with
    | yield => exact spots.yielding d how
    | block => exact spots.blocking d how
    | exit => exact spots.exiting d how

theorem picked_off {t : T} (chosen : picked c = some t) (d : C) : stack d ≠ t := by
  rintro rfl
  have spot_t := (spots.picked_iff _ c).mp chosen
  rcases (spots.stands d).place_cases with here | ⟨here, _⟩ | ⟨here | ⟨e, here⟩, _⟩ <;> simp [here] at spot_t

theorem woken_blocks {d : C} (woken : spot (stack d) = .woken c) : leaving d = some .block := by
  rcases (spots.stands d).place_cases with here | ⟨here, _⟩ | ⟨_, blocks⟩
  · simp [here] at woken
  · simp [here] at woken
  · exact blocks

theorem rearrange {leaving' : C -> Option Leave} {picked' wakes' : C -> Option T} {stack' : C -> T}
    {ready' waiting' : List T} {t : T} {place : Spot C} (readies : Lists ready' (update spot t place) .ready)
    (waits : Lists waiting' (update spot t place) .waiting) (wokens : Points wakes' (update spot t place) .woken)
    (pickeds : Points picked' (update spot t place) .picked)
    (stands : forall d, Stands (leaving' d) (stack' d = idle d) (update spot t place (stack' d)))
    (idles : forall d, idle d = t -> place = .nowhere ∨ place = .picked d)
    (stack_injective : forall c d, stack' c = stack' d -> c = d)
    (idle_stack : forall c d, stack' d = idle c -> d = c) :
    Spots leaving' picked' wakes' stack' idle ready' waiting' (update spot t place) where
  stack_injective := stack_injective
  idle_injective := spots.idle_injective
  ready_nodup := readies.nodup
  waiting_nodup := waits.nodup
  ready_iff := readies.mem_iff
  waiting_iff := waits.mem_iff
  woken_iff := wokens
  picked_iff := pickeds
  running d how := by simpa only [Stands, how] using (stands d).2
  exiting d how := by simpa only [Stands, how] using (stands d).2
  yielding d how := by simpa only [Stands, how] using (stands d).2
  blocking d how := by simpa only [Stands, how] using (stands d).2
  idling d := (stands d).1
  idle_spot d := by
    by_cases same : idle d = t
    · rw [same, Function.update_self]
      exact idles d same
    · rw [Function.update_of_ne same]
      exact spots.idle_spot d
  idle_stack := idle_stack

theorem depart (how : Option Leave) {place : Spot C} {ready' waiting' : List T}
    (readies : Lists ready' (update spot (stack c) place) .ready)
    (waits : Lists waiting' (update spot (stack c) place) .waiting)
    (before : spot (stack c) = .nowhere ∨ spot (stack c) = .ready)
    (after : place = .nowhere ∨ place = .ready ∨ place = .waiting) (stands : Stands how (stack c = idle c) place) :
    Spots (update leaving c how) picked wakes stack idle ready' waiting' (update spot (stack c) place) := by
  have unwoken (d : C) : spot (stack c) ≠ .woken d ∧ place ≠ .woken d := by
    constructor
    · rcases before with here | here <;> simp [here]
    · rcases after with here | here | here <;> simp [here]
  have unpicked (d : C) : spot (stack c) ≠ .picked d ∧ place ≠ .picked d := by
    constructor
    · rcases before with here | here <;> simp [here]
    · rcases after with here | here | here <;> simp [here]
  refine spots.rearrange readies waits
    (Points.keep spots.woken_iff (fun d => (unwoken d).1) (fun d => (unwoken d).2))
    (Points.keep spots.picked_iff (fun d => (unpicked d).1) (fun d => (unpicked d).2)) (fun d => ?_) (fun d same => ?_)
    spots.stack_injective spots.idle_stack
  · by_cases own : d = c
    · rw [own, Function.update_self, Function.update_self]
      exact stands
    · rw [Function.update_of_ne own, Function.update_of_ne (fun same => own (spots.stack_injective d c same))]
      exact spots.stands d
  · obtain rfl := spots.idle_stack d c same.symm
    exact .inl (stands.1 same.symm)

theorem stay (how : Option Leave) (here : spot (stack c) = .nowhere)
    (stands : Stands how (stack c = idle c) (.nowhere : Spot C)) :
    Spots (update leaving c how) picked wakes stack idle ready waiting spot := by
  have departed := spots.depart (c := c) how (spots.readies.keep (t := stack c) (by simp [here]) (by simp))
    (spots.waits.keep (t := stack c) (by simp [here]) (by simp)) (.inl here) (.inl rfl) stands
  rwa [← here, Function.update_eq_self] at departed

theorem yield (here : leaving c = none) (busy : stack c ≠ idle c) :
    Spots (update leaving c (some .yield)) picked wakes stack idle (ready ++ [stack c]) waiting
      (update spot (stack c) .ready) := by
  have nowhere := spots.running c here
  exact spots.depart _ (spots.readies.join (by simp [nowhere])) (spots.waits.keep (by simp [nowhere]) (by simp))
    (.inl nowhere) (.inr (.inl rfl)) ⟨fun idling => absurd idling busy, fun _ => rfl⟩

theorem yieldIdle (idling : stack c = idle c) :
    Spots (update leaving c (some .yield)) picked wakes stack idle ready waiting spot :=
  spots.stay _ (spots.idling c idling) ⟨fun _ => rfl, fun busy => absurd idling busy⟩

theorem wait (here : leaving c = none) (busy : stack c ≠ idle c) :
    Spots (update leaving c (some .block)) picked wakes stack idle ready (waiting ++ [stack c])
      (update spot (stack c) .waiting) := by
  have nowhere := spots.running c here
  exact spots.depart _ (spots.readies.keep (by simp [nowhere]) (by simp)) (spots.waits.join (by simp [nowhere]))
    (.inl nowhere) (.inr (.inr rfl)) ⟨fun idling => absurd idling busy, fun _ => .inl rfl⟩

theorem blockIdle (idling : stack c = idle c) :
    Spots (update leaving c (some .block)) picked wakes stack idle ready waiting spot :=
  spots.stay _ (spots.idling c idling) ⟨fun _ => rfl, fun busy => absurd idling busy⟩

theorem exit (here : leaving c = none) :
    Spots (update leaving c (some .exit)) picked wakes stack idle ready waiting spot :=
  spots.stay _ (spots.running c here) ⟨fun _ => rfl, rfl⟩

theorem keep {rest : List T} (head : ready = stack c :: rest) :
    Spots (update leaving c none) picked wakes stack idle rest waiting
      (update spot (stack c) .nowhere) := by
  have listed : spot (stack c) = .ready := (spots.ready_iff _).mp (by rw [head]; exact List.mem_cons_self)
  exact spots.depart _ (spots.readies.tail head (by simp)) (spots.waits.keep (by simp [listed]) (by simp))
    (.inr listed) (.inl rfl) ⟨fun _ => rfl, rfl⟩

theorem keepIdle (idling : stack c = idle c) :
    Spots (update leaving c none) picked wakes stack idle ready waiting spot :=
  spots.stay _ (spots.idling c idling) ⟨fun _ => rfl, rfl⟩

theorem shift {t : T} {place : Spot C} {ready' waiting' : List T} {picked' wakes' : C -> Option T}
    (readies : Lists ready' (update spot t place) .ready) (waits : Lists waiting' (update spot t place) .waiting)
    (wokens : Points wakes' (update spot t place) .woken) (pickeds : Points picked' (update spot t place) .picked)
    (stands : forall d, stack d = t -> Stands (leaving d) (stack d = idle d) place)
    (idles : forall d, idle d = t -> place = .picked d) :
    Spots leaving picked' wakes' stack idle ready' waiting' (update spot t place) := by
  refine spots.rearrange readies waits wokens pickeds (fun d => ?_) (fun d same => .inr (idles d same))
    spots.stack_injective spots.idle_stack
  by_cases same : stack d = t
  · rw [same, Function.update_self, ← same]
    exact stands d same
  · rw [Function.update_of_ne same]
    exact spots.stands d

theorem idle_settled {t : T} (placed : spot t = .ready ∨ spot t = .waiting ∨ ∃ c, spot t = .woken c) (d : C) :
    idle d ≠ t := by
  rintro rfl
  rcases spots.idle_spot d with here | here <;> simp [here] at placed

theorem take {t : T} (free : wakes c = none) (linked : t ∈ waiting) :
    Spots leaving picked (update wakes c (some t)) stack idle ready (waiting.erase t)
      (update spot t (.woken c)) := by
  have waits : spot t = .waiting := (spots.waiting_iff t).mp linked
  refine spots.shift (spots.readies.keep (by simp [waits]) (by simp)) (spots.waits.erase (by simp))
    (Points.set spots.woken_iff Spot.woken_injective free (by simp [waits]))
    (Points.keep spots.picked_iff (by simp [waits]) (by simp)) (fun d same => ?_)
    (fun d same => absurd same (spots.idle_settled (.inr (.inl waits)) d))
  have stands := spots.stands d
  have here : spot (stack d) = .waiting := by rw [same, waits]
  rw [here] at stands
  have blocks : leaving d = some .block := by simpa using stands.place_cases
  rw [blocks]
  exact ⟨fun idling => absurd (stands.1 idling) (by simp), fun _ => .inr ⟨c, rfl⟩⟩

theorem insert {t : T} (waking : wakes c = some t) (off : forall d, stack d ≠ t) :
    Spots leaving picked (update wakes c none) stack idle (ready ++ [t]) waiting (update spot t .ready) := by
  have woken : spot t = .woken c := (spots.woken_iff t c).mp waking
  exact spots.shift (spots.readies.join (by simp [woken])) (spots.waits.keep (by simp [woken]) (by simp))
    (Points.clear spots.woken_iff waking (by simp) Spot.woken_injective)
    (Points.keep spots.picked_iff (by simp [woken]) (by simp)) (fun d same => absurd same (off d))
    (fun d same => absurd same (spots.idle_settled (.inr (.inr ⟨c, woken⟩)) d))

theorem pick {next : T} {rest : List T} (free : picked c = none) (head : ready = next :: rest)
    (alone : forall d, leaving d = some .yield -> d = c) (other : next ≠ stack c) :
    Spots leaving (update picked c (some next)) wakes stack idle rest waiting
      (update spot next (.picked c)) := by
  have listed : spot next = .ready := (spots.ready_iff _).mp (by rw [head]; exact List.mem_cons_self)
  refine spots.shift (spots.readies.tail head (by simp)) (spots.waits.keep (by simp [listed]) (by simp))
    (Points.keep spots.woken_iff (by simp [listed]) (by simp))
    (Points.set spots.picked_iff Spot.picked_injective free (by simp [listed])) (fun d same => ?_)
    (fun d same => absurd same (spots.idle_settled (.inl listed) d))
  have stands := spots.stands d
  rw [same, listed] at stands
  have yields : leaving d = some .yield := by simpa using stands.place_cases
  obtain rfl := alone d yields
  exact absurd same.symm other

theorem pickIdle (free : picked c = none) (other : idle c ≠ stack c) :
    Spots leaving (update picked c (some (idle c))) wakes stack idle ready waiting
      (update spot (idle c) (.picked c)) := by
  have nowhere : spot (idle c) = .nowhere := by
    refine (spots.idle_spot c).resolve_right (fun chosen => ?_)
    rw [← spots.picked_iff, free] at chosen
    cases chosen
  refine spots.shift (spots.readies.keep (by simp [nowhere]) (by simp)) (spots.waits.keep (by simp [nowhere]) (by simp))
    (Points.keep spots.woken_iff (by simp [nowhere]) (by simp))
    (Points.set spots.picked_iff Spot.picked_injective free (by simp [nowhere])) (fun d same => ?_)
    (fun d same => by rw [spots.idle_injective d c same])
  obtain rfl := spots.idle_stack c d same
  exact absurd same.symm other

theorem switch {next : T} (chosen : picked c = some next) :
    Spots (update leaving c none) (update picked c none) wakes (update stack c next) idle ready waiting
      (update spot next .nowhere) := by
  have off := spots.picked_off chosen
  have there := (spots.picked_iff next c).mp chosen
  refine spots.rearrange (spots.readies.keep (by simp [there]) (by simp)) (spots.waits.keep (by simp [there]) (by simp))
    (Points.keep spots.woken_iff (by simp [there]) (by simp))
    (Points.clear spots.picked_iff chosen (by simp) Spot.picked_injective) (fun d => ?_) (fun _ _ => .inl rfl)
    (fun d e same => ?_) (fun e d same => ?_)
  · by_cases own : d = c
    · rw [own, Function.update_self, Function.update_self, Function.update_self]
      exact ⟨fun _ => rfl, rfl⟩
    · rw [Function.update_of_ne own, Function.update_of_ne own, Function.update_of_ne (off d)]
      exact spots.stands d
  · by_cases first : d = c <;> by_cases second : e = c <;> simp only [first, second, Function.update_self, ne_eq,
      not_false_eq_true, Function.update_of_ne] at same
    · rw [first, second]
    · exact absurd same.symm (off e)
    · exact absurd same (off d)
    · exact spots.stack_injective d e same
  · by_cases own : d = c
    · rw [own, Function.update_self] at same
      rw [same] at there
      rcases spots.idle_spot e with here | here
      · simp [here] at there
      · rw [here] at there
        rw [own, Spot.picked.inj there]
    · rw [Function.update_of_ne own] at same
      exact spots.idle_stack e d same

end Spots

structure Settled (how : Option Leave) (m : Mark T) (idling : Prop) (st : ThreadState) (place : Spot C) : Prop where
  ready : place = .ready -> st = .ready ∨ m = .yield
  waits : (place = .waiting ∨ ∃ d, place = .woken d) -> st = .blocked ∨ m = .block
  unpicked : forall d, place ≠ .picked d
  stays : m = .exit -> ¬ idling
  alive : idling -> st ≠ .dying
  blocked : st = .blocked -> idling ∨ how = some .block
  dying : st = .dying ↔ how = some .exit

namespace States

variable {leaving : C -> Option Leave} {mark : C -> Mark T} {picked wakes : C -> Option T}
  {stack idle : C -> T} {ready waiting : List T} {state : T -> ThreadState} {spot : T -> Spot C} {c : C}
  (states : States leaving mark stack idle state spot)
  (spots : Spots leaving picked wakes stack idle ready waiting spot)

include states

include spots

theorem settled (c : C) : Settled (leaving c) (mark c) (stack c = idle c) (state (stack c)) (spot (stack c)) where
  ready here := by
    rcases states.ready_state _ here with ready | ⟨d, yields, same⟩ | ⟨d, inserts⟩
    · exact .inl ready
    · rw [← spots.stack_injective d c same]
      exact .inr yields
    · exact absurd rfl ((states.inserted _ d inserts).2.2 c)
  waits here := by
    have blocked : state (stack c) = .blocked ∨ ∃ d, stack d = stack c ∧ mark d = .block := by
      rcases here with waits | ⟨d, woken⟩
      · exact states.waiting_state _ waits
      · exact states.woken_state _ d woken
    rcases blocked with blocked | ⟨d, same, blocks⟩
    · exact .inl blocked
    · rw [← spots.stack_injective d c same]
      exact .inr blocks
  unpicked d here := spots.picked_off ((spots.picked_iff _ d).mpr here) c rfl
  stays := states.idle_stays c
  alive idling dying := states.idle_alive c (by rw [← idling, dying])
  blocked := states.blocked_stack c
  dying := states.dying_stack c

theorem own (how : Option Leave) (m : Mark T) (st : ThreadState) (place : Spot C)
    (settled : Settled how m (stack c = idle c) st place)
    (marks : m = mark c ∨ (forall t, mark c ≠ .unblock t) ∧ forall t, m ≠ .unblock t) :
    States (update leaving c how) (update mark c m) stack idle (update state (stack c) st)
      (update spot (stack c) place) := by
  obtain ⟨ready, waits, unpicked, stays, alive, blocked, dying⟩ := settled
  obtain ⟨_, _, _, _, _, _, _, _, _⟩ := states
  have injective := spots.stack_injective
  have idle_stack := spots.idle_stack
  constructor <;> try simp only [Function.update_apply]
  all_goals grind

theorem respot {t : T} {place : Spot C} (inserted : forall d, mark d ≠ .unblock t) (unready : place ≠ .ready)
    (unwaiting : place ≠ .waiting)
    (woken : forall d, place = .woken d -> state t = .blocked ∨ ∃ d, stack d = t ∧ mark d = .block)
    (chosen : forall d, place = .picked d -> state t = .ready ∨ t = idle d) :
    States leaving mark stack idle state (update spot t place) := by
  obtain ⟨_, _, _, _, _, _, _, _, _⟩ := states
  constructor <;> try simp only [Function.update_apply]
  all_goals grind

theorem unblock {t : T} {m : Mark T} {st : ThreadState} (off : forall d, stack d ≠ t)
    (before : mark c = .none ∨ mark c = .unblock t) (alone : forall d, mark d = .unblock t -> d = c)
    (written : st = .ready ∧ m = .none ∨ st = .blocked ∧ m = .unblock t) :
    States leaving (update mark c m) stack idle (update state t st) (update spot t .ready) := by
  obtain ⟨_, _, _, _, _, _, _, _, _⟩ := states
  constructor <;> try simp only [Function.update_apply]
  all_goals grind

theorem yield (here : leaving c = none) (clear : mark c = .none) :
    States (update leaving c (some .yield)) (update mark c .yield) stack idle state
      (update spot (stack c) .ready) := by
  have settled := states.settled spots c
  rw [here] at settled
  have moved := states.own spots (c := c) (some .yield) .yield (state (stack c)) .ready
    { settled with
      ready := fun _ => .inr rfl
      waits := by simp
      unpicked := by simp
      stays := by simp
      blocked := fun blocked => .inl ((settled.blocked blocked).resolve_right (by simp))
      dying := by simpa using settled.dying } (.inr ⟨by simp [clear], by simp⟩)
  rwa [Function.update_eq_self] at moved

theorem yieldIdle (here : leaving c = none) (clear : mark c = .none) (idling : stack c = idle c) :
    States (update leaving c (some .yield)) (update mark c .yield) stack idle state spot := by
  have settled := states.settled spots c
  rw [here] at settled
  have nowhere := spots.idling c idling
  have moved := states.own spots (c := c) (some .yield) .yield (state (stack c)) (spot (stack c))
    { settled with
      ready := fun _ => .inr rfl
      waits := by simp [nowhere]
      stays := by simp
      blocked := fun _ => .inl idling
      dying := by simpa using settled.dying } (.inr ⟨by simp [clear], by simp⟩)
  rwa [Function.update_eq_self, Function.update_eq_self] at moved

theorem wait (here : leaving c = none) (clear : mark c = .none) :
    States (update leaving c (some .block)) (update mark c .block) stack idle state
      (update spot (stack c) .waiting) := by
  have settled := states.settled spots c
  rw [here] at settled
  have moved := states.own spots (c := c) (some .block) .block (state (stack c)) .waiting
    { settled with
      ready := by simp
      waits := fun _ => .inr rfl
      unpicked := by simp
      stays := by simp
      blocked := fun _ => .inr rfl
      dying := by simpa using settled.dying } (.inr ⟨by simp [clear], by simp⟩)
  rwa [Function.update_eq_self] at moved

theorem blockIdle (here : leaving c = none) (clear : mark c = .none) :
    States (update leaving c (some .block)) (update mark c .block) stack idle state spot := by
  have settled := states.settled spots c
  rw [here] at settled
  have nowhere := spots.running c here
  have moved := states.own spots (c := c) (some .block) .block (state (stack c)) (spot (stack c))
    { settled with
      ready := by simp [nowhere]
      waits := fun _ => .inr rfl
      stays := by simp
      blocked := fun _ => .inr rfl
      dying := by simpa using settled.dying } (.inr ⟨by simp [clear], by simp⟩)
  rwa [Function.update_eq_self, Function.update_eq_self] at moved

theorem startExit (clear : mark c = .none) (busy : stack c ≠ idle c) :
    States leaving (update mark c .exit) stack idle state spot := by
  have settled := states.settled spots c
  rw [clear] at settled
  have moved := states.own spots (c := c) (leaving c) .exit (state (stack c)) (spot (stack c))
    { settled with
      ready := fun here => .inl ((settled.ready here).resolve_right (by simp))
      waits := fun here => .inl ((settled.waits here).resolve_right (by simp))
      stays := fun _ => busy } (.inr ⟨by simp [clear], by simp⟩)
  rwa [Function.update_eq_self, Function.update_eq_self, Function.update_eq_self] at moved

theorem setDying (here : leaving c = none) (marked : mark c = .exit) :
    States (update leaving c (some .exit)) (update mark c .none) stack idle (update state (stack c) .dying) spot := by
  have settled := states.settled spots c
  have nowhere := spots.running c here
  have moved := states.own spots (c := c) (some .exit) .none .dying (spot (stack c))
    { settled with
      ready := by simp [nowhere]
      waits := by simp [nowhere]
      stays := by simp
      alive := fun idling => absurd idling (settled.stays marked)
      blocked := by simp
      dying := by simp } (.inr ⟨by simp [marked], by simp⟩)
  rwa [Function.update_eq_self] at moved

theorem setReady (here : leaving c = some .yield) (marked : mark c = .yield) :
    States leaving (update mark c .none) stack idle (update state (stack c) .ready) spot := by
  have settled := states.settled spots c
  have moved := states.own spots (c := c) (leaving c) .none .ready (spot (stack c))
    { settled with
      ready := fun _ => .inl rfl
      waits := fun waits => by
        rcases (spots.stands c).place_cases with place | ⟨place, _⟩ | ⟨_, blocks⟩
        · simp [place] at waits
        · simp [place] at waits
        · simp [here] at blocks
      stays := by simp
      alive := by simp
      blocked := by simp
      dying := by simp [here] } (.inr ⟨by simp [marked], by simp⟩)
  rwa [Function.update_eq_self, Function.update_eq_self] at moved

theorem setBlocked (here : leaving c = some .block) (marked : mark c = .block) :
    States leaving (update mark c .none) stack idle (update state (stack c) .blocked) spot := by
  have settled := states.settled spots c
  have moved := states.own spots (c := c) (leaving c) .none .blocked (spot (stack c))
    { settled with
      ready := fun ready => by
        rcases (spots.stands c).place_cases with place | ⟨_, yields⟩ | ⟨place | ⟨d, place⟩, _⟩
        · simp [place] at ready
        · simp [here] at yields
        · simp [place] at ready
        · simp [place] at ready
      waits := fun _ => .inl rfl
      stays := by simp
      alive := by simp
      blocked := fun _ => .inr here
      dying := by simp [here] } (.inr ⟨by simp [marked], by simp⟩)
  rwa [Function.update_eq_self, Function.update_eq_self] at moved

theorem keep (isReady : state (stack c) = .ready) :
    States (update leaving c none) mark stack idle state (update spot (stack c) .nowhere) := by
  have settled := states.settled spots c
  have moved := states.own spots (c := c) none (mark c) (state (stack c)) .nowhere
    { settled with
      ready := by simp
      waits := by simp
      unpicked := by simp
      blocked := by simp [isReady]
      dying := by simp [isReady] } (.inl rfl)
  rwa [Function.update_eq_self, Function.update_eq_self] at moved

theorem keepIdle (idling : stack c = idle c) :
    States (update leaving c none) mark stack idle state spot := by
  have settled := states.settled spots c
  have moved := states.own spots (c := c) none (mark c) (state (stack c)) (spot (stack c))
    { settled with
      blocked := fun _ => .inl idling
      dying := by simpa using settled.alive idling } (.inl rfl)
  rwa [Function.update_eq_self, Function.update_eq_self, Function.update_eq_self] at moved

theorem take {t : T} (linked : t ∈ waiting) :
    States leaving mark stack idle state (update spot t (.woken c)) := by
  have waits : spot t = .waiting := (spots.waiting_iff t).mp linked
  refine states.respot spots (fun d inserts => ?_) (by simp) (by simp) (fun _ _ => states.waiting_state t waits)
    (by simp)
  have ready := (states.inserted t d inserts).1
  simp [waits] at ready

theorem insert {t : T} (waking : wakes c = some t) (off : forall d, stack d ≠ t)
    (clear : mark c = .none) :
    States leaving (update mark c (.unblock t)) stack idle state (update spot t .ready) := by
  have woken : spot t = .woken c := (spots.woken_iff t c).mp waking
  have blocked : state t = .blocked := by
    rcases states.woken_state t c woken with blocked | ⟨d, same, _⟩
    · exact blocked
    · exact absurd same (off d)
  have moved := states.unblock spots (c := c) (m := .unblock t) off (.inl clear) (fun d inserts => by
    have ready := (states.inserted t d inserts).1
    simp [woken] at ready) (.inr ⟨rfl, rfl⟩)
  rwa [← blocked, Function.update_eq_self] at moved

theorem setUnblocked {t : T} (marked : mark c = .unblock t)
    (alone : forall d, mark d = .unblock t -> d = c) :
    States leaving (update mark c .none) stack idle (update state t .ready) spot := by
  obtain ⟨ready, _, off⟩ := states.inserted t c marked
  have moved := states.unblock spots off (.inr marked) alone (.inl ⟨rfl, rfl⟩)
  rwa [← ready, Function.update_eq_self] at moved

theorem pick {next : T} (isReady : state next = .ready)
    (settled : forall d, mark d ≠ .unblock next) :
    States leaving mark stack idle state (update spot next (.picked c)) :=
  states.respot spots settled (by simp) (by simp) (by simp) (fun _ _ => .inl isReady)

theorem pickIdle :
    States leaving mark stack idle state (update spot (idle c) (.picked c)) := by
  refine states.respot spots (fun d inserts => ?_) (by simp) (by simp) (by simp) (fun d here => .inr ?_)
  · have ready := (states.inserted _ d inserts).1
    rcases spots.idle_spot c with place | place <;> simp [place] at ready
  · rw [Spot.picked.inj here]

theorem switch {next : T} (chosen : picked c = some next) (clear : mark c = .none) :
    States (update leaving c none) mark (update stack c next) idle state (update spot next .nowhere) := by
  have off := spots.picked_off chosen
  obtain ⟨_, _, _, _, _, _, _, _, _⟩ := states
  obtain ⟨_, _, _, _, _, _, _, _, _, _, _, _, _, _, _⟩ := spots
  constructor <;> try simp only [Function.update_apply]
  all_goals grind

end States

end Hal9000.Kernel
