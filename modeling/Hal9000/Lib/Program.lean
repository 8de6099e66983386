import Mathlib.Tactic.Common

set_option autoImplicit false

namespace Hal9000.Lib

-- A call that works on a state. It stops for good, or comes back with a value or an error code; what it
-- did to the state stays done either way.
def Program (σ ι ε α : Type) := σ -> Except ι (Except ε α × σ)

namespace Program

variable {σ ι ε α β γ : Type}

instance : Monad (Program σ ι ε) where
  pure value := fun state => .ok (.ok value, state)
  bind program rest := fun state =>
    match program state with
    | .ok (.ok value, state) => rest value state
    | .ok (.error code, state) => .ok (.error code, state)
    | .error reason => .error reason

def fail (code : ε) : Program σ ι ε α := fun state => .ok (.error code, state)

def stop (reason : ι) : Program σ ι ε α := fun _ => .error reason

def require (condition : Bool) (reason : ι) : Program σ ι ε Unit :=
  if condition then pure () else stop reason

def get : Program σ ι ε σ := fun state => .ok (.ok state, state)

def modify (change : σ -> σ) : Program σ ι ε Unit := fun state => .ok (.ok (), change state)

def attempt (program : Program σ ι ε α) : Program σ ι ε (Except ε α) := fun state =>
  match program state with
  | .ok (result, state) => .ok (.ok result, state)
  | .error reason => .error reason

def onFailure (program : Program σ ι ε α) (cleanup : Program σ ι ε Unit) : Program σ ι ε α := do
  match ← attempt program with
  | .ok value => pure value
  | .error code => do
    cleanup
    fail code

-- A loop. The body gives the next values of the loop's variables, or the result at its end; a loop that
-- takes more turns than `fuel` stops with `unfinished`.
def loop (unfinished : ι) (body : α -> Program σ ι ε (α ⊕ β)) : (fuel : Nat) -> α -> Program σ ι ε β
  | 0, _ => stop unfinished
  | fuel + 1, locals => do
    match ← body locals with
    | .inl locals => loop unfinished body fuel locals
    | .inr result => pure result

def Returns (program : Program σ ι ε α) (state : σ) (value : α) (state' : σ) : Prop :=
  program state = .ok (.ok value, state')

def Fails (program : Program σ ι ε α) (state : σ) (code : ε) (state' : σ) : Prop :=
  program state = .ok (.error code, state')

def Stops (program : Program σ ι ε α) (state : σ) (reason : ι) : Prop :=
  program state = .error reason

variable {program : Program σ ι ε α} {rest : α -> Program σ ι ε β} {state state' state'' : σ}
variable {value : α} {code : ε} {reason : ι}

@[simp] theorem pure_apply : (pure value : Program σ ι ε α) state = .ok (.ok value, state) := rfl

@[simp] theorem fail_apply : (fail code : Program σ ι ε α) state = .ok (.error code, state) := rfl

@[simp] theorem stop_apply : (stop reason : Program σ ι ε α) state = .error reason := rfl

@[simp] theorem get_apply : (get : Program σ ι ε σ) state = .ok (.ok state, state) := rfl

@[simp] theorem modify_apply {change : σ -> σ} :
    (modify change : Program σ ι ε Unit) state = .ok (.ok (), change state) := rfl

@[simp] theorem require_true : (require true reason : Program σ ι ε Unit) = pure () := rfl

@[simp] theorem require_false : (require false reason : Program σ ι ε Unit) = stop reason := rfl

theorem Returns.bind (first : Returns program state value state') :
    (program >>= rest) state = rest value state' := by
  change (match program state with | .ok (.ok _, _) => _ | .ok (.error _, _) => _ | .error _ => _) = _
  rw [show program state = .ok (.ok value, state') from first]

theorem Fails.bind (first : Fails program state code state') :
    (program >>= rest) state = .ok (.error code, state') := by
  change (match program state with | .ok (.ok _, _) => _ | .ok (.error _, _) => _ | .error _ => _) = _
  rw [show program state = .ok (.error code, state') from first]

theorem Stops.bind (first : Stops program state reason) : (program >>= rest) state = .error reason := by
  change (match program state with | .ok (.ok _, _) => _ | .ok (.error _, _) => _ | .error _ => _) = _
  rw [show program state = .error reason from first]

theorem Returns.unique {other : α} (first : Returns program state value state')
    (second : Returns program state other state'') : value = other ∧ state' = state'' := by
  rw [Returns, show program state = .ok (.ok value, state') from first] at second
  cases second
  exact ⟨rfl, rfl⟩

@[simp] theorem pure_bind : (pure value >>= rest : Program σ ι ε β) = rest value := rfl

@[simp] theorem fail_bind : ((fail code : Program σ ι ε α) >>= rest) = fail code := rfl

@[simp] theorem stop_bind : ((stop reason : Program σ ι ε α) >>= rest) = stop reason := rfl

theorem cases_end (program : Program σ ι ε α) (state : σ) :
    (∃ value state', Returns program state value state') ∨
      (∃ code state', Fails program state code state') ∨ ∃ reason, Stops program state reason := by
  unfold Returns Fails Stops
  rcases program state with reason | ⟨code | value, state'⟩ <;> simp

theorem modify_bind_apply {change : σ -> σ} {next : Unit -> Program σ ι ε β} :
    (modify change >>= next) state = next () (change state) := rfl

theorem get_bind_apply {next : σ -> Program σ ι ε β} : (get >>= next) state = next state state := rfl

theorem bind_assoc {next : β -> Program σ ι ε γ} :
    program >>= rest >>= next = program >>= fun value => rest value >>= next := by
  funext state
  rcases cases_end program state with ⟨value, state', returns⟩ | ⟨code, state', fails⟩ | ⟨reason, stops⟩
  · rw [returns.bind]
    change (match (program >>= rest) state with | .ok (.ok _, _) => _ | .ok (.error _, _) => _ | .error _ => _) = _
    rw [returns.bind]
    rfl
  · exact (Fails.bind (show Fails (program >>= rest) state code state' from fails.bind)).trans fails.bind.symm
  · exact (Stops.bind (show Stops (program >>= rest) state reason from stops.bind)).trans stops.bind.symm

theorem Returns.attempt (first : Returns program state value state') :
    Returns (attempt program) state (.ok value) state' := by
  rw [Returns, Program.attempt, show program state = .ok (.ok value, state') from first]

theorem Fails.attempt (first : Fails program state code state') :
    Returns (attempt program) state (.error code) state' := by
  rw [Returns, Program.attempt, show program state = .ok (.error code, state') from first]

theorem Stops.attempt (first : Stops program state reason) : Stops (attempt program) state reason := by
  rw [Stops, Program.attempt, show program state = .error reason from first]

theorem bind_returns {result : β} :
    Returns (program >>= rest) state result state'' ↔
      ∃ value state', Returns program state value state' ∧ Returns (rest value) state' result state'' := by
  constructor
  · intro whole
    rcases cases_end program state with ⟨value, state', first⟩ | ⟨code, state', first⟩ | ⟨reason, first⟩
    · rw [Returns, first.bind] at whole
      exact ⟨value, state', first, whole⟩
    · rw [Returns, first.bind] at whole
      cases whole
    · rw [Returns, first.bind] at whole
      cases whole
  · rintro ⟨value, state', first, next⟩
    rw [Returns, first.bind]
    exact next

theorem bind_stops {other : ι} : Stops (program >>= rest) state other ↔
    Stops program state other ∨ ∃ value state', Returns program state value state' ∧ Stops (rest value) state' other := by
  constructor
  · intro whole
    rcases cases_end program state with ⟨value, state', first⟩ | ⟨code, state', first⟩ | ⟨reason, first⟩
    · rw [Stops, first.bind] at whole
      exact .inr ⟨value, state', first, whole⟩
    · rw [Stops, first.bind] at whole
      cases whole
    · rw [Stops, first.bind] at whole
      cases whole
      exact .inl first
  · rintro (first | ⟨value, state', first, next⟩)
    · exact first.bind
    · rw [Stops, first.bind]
      exact next

theorem pure_stops : ¬ Stops (pure value : Program σ ι ε α) state reason := by
  simp [Stops]

theorem fail_stops : ¬ Stops (fail code : Program σ ι ε α) state reason := by
  simp [Stops]

theorem require_stops {condition : Bool} {other : ι} :
    Stops (require condition reason : Program σ ι ε Unit) state other ↔ condition = false ∧ reason = other := by
  cases condition <;> simp [require, Stops]

theorem pure_returns {other : α} :
    Returns (pure value : Program σ ι ε α) state other state' ↔ value = other ∧ state = state' := by
  simp [Returns]

theorem fail_returns : ¬ Returns (fail code : Program σ ι ε α) state value state' := by
  simp [Returns]

theorem stop_returns : ¬ Returns (stop reason : Program σ ι ε α) state value state' := by
  simp [Returns]

theorem require_returns {condition : Bool} {nothing : Unit} :
    Returns (require condition reason : Program σ ι ε Unit) state nothing state' ↔
      condition = true ∧ state = state' := by
  cases condition <;> simp [require, Returns]

theorem attempt_returns {result : Except ε α} :
    Returns (attempt program) state result state' ↔ program state = .ok (result, state') := by
  unfold Returns attempt
  rcases program state with reason | ⟨end_, after⟩ <;> simp

theorem attempt_bind {result : Except ε α} {next : Except ε α -> Program σ ι ε β}
    (first : program state = .ok (result, state')) : (attempt program >>= next) state = next result state' :=
  (attempt_returns.mpr first).bind

theorem Returns.onFailure {cleanup : Program σ ι ε Unit} (first : Returns program state value state') :
    Returns (onFailure program cleanup) state value state' := first.attempt.bind

theorem Fails.onFailure {cleanup : Program σ ι ε Unit} {nothing : Unit} (first : Fails program state code state')
    (cleaned : Returns cleanup state' nothing state'') : Fails (onFailure program cleanup) state code state'' :=
  first.attempt.bind.trans cleaned.bind

theorem onFailure_congr {other : Program σ ι ε α} {cleanup : Program σ ι ε Unit} (same : program state = other state') :
    onFailure program cleanup state = onFailure other cleanup state' := by
  rcases cases_end other state' with ⟨value, final, returns⟩ | ⟨code, final, fails⟩ | ⟨reason, stops⟩
  · have first : Returns program state value final := same.trans returns
    exact first.onFailure.trans returns.onFailure.symm
  · have first : Fails program state code final := same.trans fails
    rw [Program.onFailure, Program.onFailure, first.attempt.bind, fails.attempt.bind]
  · have first : Stops program state reason := same.trans stops
    rw [Program.onFailure, Program.onFailure, first.attempt.bind, stops.attempt.bind]

section Keeps

variable {invariant : σ -> Prop} {good : α -> Prop} {target : β -> Prop}

def Keeps (invariant : σ -> Prop) (program : Program σ ι ε α) (good : α -> Prop) : Prop :=
  forall state result state', invariant state -> program state = .ok (result, state') ->
    invariant state' ∧ forall value, result = .ok value -> good value

theorem Keeps.pure (holds : good value) : Keeps invariant (pure value : Program σ ι ε α) good := by
  intro state result state' start done
  cases done
  exact ⟨start, fun other same => by cases same; exact holds⟩

theorem Keeps.fail : Keeps invariant (fail code : Program σ ι ε α) good := by
  intro state result state' start done
  cases done
  exact ⟨start, fun other same => by cases same⟩

theorem Keeps.modify {change : σ -> σ} (keeps : forall state, invariant state -> invariant (change state)) :
    Keeps invariant (modify change : Program σ ι ε Unit) fun _ => True := by
  intro state result state' start done
  cases done
  exact ⟨keeps state start, fun _ _ => trivial⟩

theorem Keeps.bind (first : Keeps invariant program good)
    (next : forall value, good value -> Keeps invariant (rest value) target) :
    Keeps invariant (program >>= rest) target := by
  intro state result final start done
  rcases cases_end program state with ⟨value, state', returns⟩ | ⟨code, state', fails⟩ | ⟨reason, stops⟩
  · obtain ⟨kept, holds⟩ := first state _ state' start returns
    rw [returns.bind] at done
    exact next value (holds value rfl) state' result final kept done
  · obtain ⟨kept, _⟩ := first state _ state' start fails
    rw [fails.bind] at done
    cases done
    exact ⟨kept, fun other same => by cases same⟩
  · rw [stops.bind] at done
    cases done

theorem Keeps.attempt (first : Keeps invariant program good) :
    Keeps invariant (attempt program) fun _ => True := by
  intro state result final start done
  rcases cases_end program state with ⟨value, state', returns⟩ | ⟨code, state', fails⟩ | ⟨reason, stops⟩
  · rw [returns.attempt] at done
    cases done
    exact ⟨(first state _ _ start returns).1, fun _ _ => trivial⟩
  · rw [fails.attempt] at done
    cases done
    exact ⟨(first state _ _ start fails).1, fun _ _ => trivial⟩
  · rw [stops.attempt] at done
    cases done

theorem Keeps.onFailure {cleanup : Program σ ι ε Unit} (first : Keeps invariant program good)
    (clean : Keeps invariant cleanup fun _ => True) : Keeps invariant (onFailure program cleanup) good := by
  intro state result final start done
  rcases cases_end program state with ⟨value, state', returns⟩ | ⟨code, state', fails⟩ | ⟨reason, stops⟩
  · rw [show Program.onFailure program cleanup state = _ from returns.onFailure] at done
    cases done
    exact first state _ _ start returns
  · have kept := (first state _ _ start fails).1
    rw [show Program.onFailure program cleanup state = _ from fails.attempt.bind] at done
    exact (clean.bind fun _ _ => Keeps.fail) state' result final kept done
  · rw [show Program.onFailure program cleanup state = _ from stops.attempt.bind] at done
    cases done

end Keeps

section Decides

variable {condition other : Prop}

def Decides (program : Program σ ι ε α) (condition : Prop) : Prop :=
  forall state, (condition ∧ ∃ value state', Returns program state value state') ∨
    (¬condition ∧ ∃ code state', Fails program state code state')

theorem Decides.pure (value : α) : Decides (pure value : Program σ ι ε α) True :=
  fun state => .inl ⟨trivial, value, state, rfl⟩

theorem Decides.fail (code : ε) : Decides (fail code : Program σ ι ε α) False :=
  fun state => .inr ⟨id, code, state, rfl⟩

theorem Decides.modify (change : σ -> σ) : Decides (modify change : Program σ ι ε Unit) True :=
  fun state => .inl ⟨trivial, (), change state, rfl⟩

theorem Decides.get : Decides (get : Program σ ι ε σ) True := fun state => .inl ⟨trivial, state, state, rfl⟩

theorem Decides.bind (first : Decides program condition) (next : forall value, Decides (rest value) other) :
    Decides (program >>= rest) (condition ∧ other) := by
  intro state
  rcases first state with ⟨holds, value, state', returns⟩ | ⟨fails, code, state', ends⟩
  · rcases next value state' with ⟨also, result, final, ends⟩ | ⟨missing, code, final, ends⟩
    · exact .inl ⟨⟨holds, also⟩, result, final, returns.bind.trans ends⟩
    · exact .inr ⟨fun both => missing both.2, code, final, returns.bind.trans ends⟩
  · exact .inr ⟨fun both => fails both.1, code, state', ends.bind⟩

theorem Decides.congr (first : Decides program condition) (same : condition ↔ other) : Decides program other :=
  propext same ▸ first

theorem Decides.returns (first : Decides program condition) (holds : condition) (state : σ) :
    ∃ value state', Returns program state value state' := by
  rcases first state with ⟨_, ends⟩ | ⟨fails, _⟩
  · exact ends
  · exact absurd holds fails

theorem Decides.fails (first : Decides program condition) (missing : ¬condition) (state : σ) :
    ∃ code state', Fails program state code state' := by
  rcases first state with ⟨holds, _⟩ | ⟨_, ends⟩
  · exact absurd holds missing
  · exact ends

theorem Decides.onFailure {cleanup : Program σ ι ε Unit} (first : Decides program condition)
    (clean : Decides cleanup True) : Decides (onFailure program cleanup) condition := by
  intro state
  rcases first state with ⟨holds, value, state', returns⟩ | ⟨missing, code, state', fails⟩
  · exact .inl ⟨holds, value, state', returns.onFailure⟩
  · obtain ⟨nothing, final, cleaned⟩ := clean.returns trivial state'
    exact .inr ⟨missing, code, final, fails.onFailure cleaned⟩

theorem Decides.always (first : Decides program True) (next : forall value, Decides (rest value) True) :
    Decides (program >>= rest) True := (first.bind next).congr (and_self_iff)

end Decides

section Loop

variable {unfinished : ι} {body : α -> Program σ ι ε (α ⊕ β)} {fuel : Nat} {locals next : α} {result : β}

theorem loop_next (turn : Returns (body locals) state (.inl next) state') :
    loop unfinished body (fuel + 1) locals state = loop unfinished body fuel next state' := by
  rw [loop, turn.bind]

theorem loop_end (turn : Returns (body locals) state (.inr result) state') :
    Returns (loop unfinished body (fuel + 1) locals) state result state' := by
  rw [Returns, loop, turn.bind]
  rfl

theorem loop_stops (turn : Stops (body locals) state reason) :
    Stops (loop unfinished body (fuel + 1) locals) state reason := by
  rw [Stops, loop, turn.bind]

theorem loop_invariant (invariant : α -> σ -> Prop) (target : β -> σ -> Prop)
    (keeps : forall locals state next state', invariant locals state ->
      Returns (body locals) state (.inl next) state' -> invariant next state')
    (ends : forall locals state result state', invariant locals state ->
      Returns (body locals) state (.inr result) state' -> target result state')
    (start : invariant locals state) (whole : Returns (loop unfinished body fuel locals) state result state') :
    target result state' := by
  induction fuel generalizing locals state with
  | zero => exact absurd whole stop_returns
  | succ fuel ih =>
    obtain ⟨turn, middle, first, rest⟩ := bind_returns.mp whole
    cases turn with
    | inl next => exact ih (keeps locals state next middle start first) rest
    | inr last =>
      obtain ⟨rfl, rfl⟩ := pure_returns.mp rest
      exact ends locals state last middle start first

end Loop

end Program

end Hal9000.Lib
