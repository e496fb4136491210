import Mathlib.Tactic

/-! # Programs over a state

A program takes a state to a result and a later state. It may stop with an error; what it did to the
state until then stays. A specification says what holds of the result and the state after a return, and
what holds of the error and the state after a stop. Nothing here names a particular state.
-/

namespace Machine

universe u

/-- A program over states `σ` that may stop with an error of `ε`. -/
def Program (σ ε : Type*) (α : Type u) := σ → Except ε α × σ

namespace Program

variable {σ ε ε' : Type*} {α β : Type u}

/-- Go on with the next program, unless the first one stopped. -/
protected def bind (program : Program σ ε α) (next : α → Program σ ε β) : Program σ ε β := fun state =>
  match program state with
  | (.ok value, later) => next value later
  | (.error error, later) => (.error error, later)

instance : Monad (Program σ ε) where
  pure value state := (.ok value, state)
  bind := Program.bind

def stop (error : ε) : Program σ ε α := fun state => (.error error, state)

def ofExcept (result : Except ε α) : Program σ ε α := fun state => (result, state)

def update (step : σ → σ) : Program σ ε Unit := fun state => (.ok (), step state)

/-- Look at the state. -/
def check (result : σ → Except ε α) : Program σ ε α := fun state => (result state, state)

def mapError (report : ε → ε') (program : Program σ ε α) : Program σ ε' α := fun state =>
  ((program state).1.mapError report, (program state).2)

/-- What holds when a program returns, and what holds when it stops. -/
def Ensures (before : σ → Prop) (program : Program σ ε α) (done : α → σ → Prop) (failed : ε → σ → Prop) : Prop :=
  ∀ state, before state →
    (∀ value later, program state = (.ok value, later) → done value later) ∧
    ∀ error later, program state = (.error error, later) → failed error later

variable {before : σ → Prop} {program : Program σ ε α} {done : α → σ → Prop} {failed : ε → σ → Prop}

theorem Ensures.mono {before' : σ → Prop} {done' : α → σ → Prop} {failed' : ε → σ → Prop}
    (ensures : Ensures before program done failed) (starts : ∀ state, before' state → before state)
    (returns : ∀ value later, done value later → done' value later)
    (stops : ∀ error later, failed error later → failed' error later) : Ensures before' program done' failed' := by
  intro state holds
  obtain ⟨returned, stopped⟩ := ensures state (starts state holds)
  exact ⟨fun value later ran => returns value later (returned value later ran),
    fun error later ran => stops error later (stopped error later ran)⟩

protected theorem Ensures.pure {value : α} (holds : ∀ state, before state → done value state) :
    Ensures before (Pure.pure value) done failed := by
  intro state begins
  refine ⟨fun value' later ran => ?_, fun error later ran => ?_⟩
  · cases ran
    exact holds state begins
  · cases ran

theorem Ensures.stop {error : ε} (holds : ∀ state, before state → failed error state) :
    Ensures before (Program.stop error : Program σ ε α) done failed := by
  intro state begins
  refine ⟨fun value later ran => ?_, fun error' later ran => ?_⟩
  · cases ran
  · cases ran
    exact holds state begins

theorem Ensures.ofExcept {result : Except ε α} (returns : ∀ value state, result = .ok value → before state → done value state)
    (stops : ∀ error state, result = .error error → before state → failed error state) :
    Ensures before (Program.ofExcept result) done failed := by
  intro state begins
  refine ⟨fun value later ran => ?_, fun error later ran => ?_⟩
  · obtain ⟨rfl, rfl⟩ := Prod.mk.inj ran
    exact returns value state rfl begins
  · obtain ⟨rfl, rfl⟩ := Prod.mk.inj ran
    exact stops error state rfl begins

theorem Ensures.update {step : σ → σ} {done : Unit → σ → Prop} (holds : ∀ state, before state → done () (step state)) :
    Ensures before (Program.update step) done failed := by
  intro state begins
  refine ⟨fun value later ran => ?_, fun error later ran => ?_⟩
  · cases ran
    exact holds state begins
  · cases ran

theorem Ensures.check {result : σ → Except ε α} (returns : ∀ value state, result state = .ok value → before state → done value state)
    (stops : ∀ error state, result state = .error error → before state → failed error state) :
    Ensures before (Program.check result) done failed := by
  intro state begins
  refine ⟨fun value later ran => ?_, fun error later ran => ?_⟩
  · obtain ⟨found, rfl⟩ := Prod.mk.inj ran
    exact returns value state found begins
  · obtain ⟨found, rfl⟩ := Prod.mk.inj ran
    exact stops error state found begins

protected theorem Ensures.bind {next : α → Program σ ε β} {last : β → σ → Prop} (first : Ensures before program done failed)
    (second : ∀ value, Ensures (done value) (next value) last failed) : Ensures before (program >>= next) last failed := by
  intro state begins
  obtain ⟨returned, stopped⟩ := first state begins
  show (∀ value later, Program.bind program next state = (.ok value, later) → last value later) ∧
    ∀ error later, Program.bind program next state = (.error error, later) → failed error later
  rw [Program.bind]
  rcases ran : program state with ⟨result, later⟩
  cases result with
  | ok value => exact second value later (returned value later ran)
  | error error =>
    refine ⟨fun _ _ impossible => ?_, fun error' later' same => ?_⟩
    · cases impossible
    · cases same
      exact stopped error later ran

/-- An assumption about the state that does not concern the state. -/
theorem Ensures.fact {fact : Prop} (ensures : fact → Ensures before program done failed) :
    Ensures (fun state => fact ∧ before state) program done failed := fun state begins => ensures begins.1 state begins.2

end Program

end Machine
