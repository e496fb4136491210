import Srcmv.Machine.Actions

/-! # Reported errors and returned results

A process may report its errors in the terms of its caller; its runs stay the same.
-/

namespace Machine

universe u

namespace Process

variable {σ ι ε ε' : Type*} {α : Type u}

def reportAs (report : ε → ε') : Outcome ε α → Outcome ε' α
  | .done value => .done value
  | .failed error => .failed (report error)
  | .crashed => .crashed

/-- The same process with its errors reported as `report` says. -/
def mapError (report : ε → ε') (process : Process σ ι ε α) : Process σ ι ε' α where
  run oracle moment := (reportAs report (process.run oracle moment).1, (process.run oracle moment).2)
  grows := process.grows
  honest oracle moment crashed := by
    apply process.honest oracle moment
    cases outcome : (process.run oracle moment).1 with
    | done value => rw [outcome] at crashed; cases crashed
    | failed error => rw [outcome] at crashed; cases crashed
    | crashed => rfl
  calm := process.calm
  causal oracle oracle' moment agree := by rw [process.causal oracle oracle' moment agree]

variable {report : ε → ε'} {process : Process σ ι ε α} {allowed : ι → Went → Prop} {before invariant : σ → Prop}
  {done : α → σ → Prop} {failed : ε' → σ → Prop} {crashed : σ → Prop}

theorem Triple.mapError (triple : Triple allowed before process ⟨done, fun error => failed (report error), crashed⟩) :
    Triple allowed before (process.mapError report) ⟨done, failed, crashed⟩ := by
  intro oracle moment holds within
  have result := triple oracle moment holds within
  change Ending.Holds _ (reportAs report (process.run oracle moment).1) (process.run oracle moment).2.world
  cases outcome : (process.run oracle moment).1 <;>
  · rw [outcome] at result
    exact result

theorem Triple.mapErrorKeeps (triple : Triple allowed before process (Keeps invariant)) :
    Triple allowed before (process.mapError report) (Keeps invariant) := Triple.mapError triple

end Process

end Machine

/-! ## What a process returns

Sometimes only the runs that return matter: what holds when a process fails or crashes is left open.
Such statements compose like others, and two statements about one process hold together.
-/

namespace Machine

universe u

namespace Process

/-- A process that returns does so with `done`. -/
def Yielding {σ ε : Type*} {α : Type u} (done : α → σ → Prop) : Ending σ ε α := ⟨done, fun _ _ => True, fun _ => True⟩

variable {σ ι ε ε' : Type*} {α : Type u} {β : Type u} {process : Process σ ι ε α} {allowed : ι → Went → Prop}
  {before : σ → Prop} {done : α → σ → Prop}

theorem Triple.both {first second : Ending σ ε α} (left : Triple allowed before process first)
    (right : Triple allowed before process second) : Triple allowed before process
      ⟨fun value world => first.done value world ∧ second.done value world,
        fun error world => first.failed error world ∧ second.failed error world,
        fun world => first.crashed world ∧ second.crashed world⟩ := by
  intro oracle moment holds within
  have one := left oracle moment holds within
  have other := right oracle moment holds within
  cases stopped : (process.run oracle moment).1 <;>
  · rw [stopped] at one other
    exact ⟨one, other⟩

/-- Nothing is said of a process. -/
theorem Triple.anyYield : Triple allowed before process (Yielding fun _ _ => True) := by
  intro oracle moment _ _
  cases stopped : (process.run oracle moment).1 <;> trivial

theorem Triple.yieldingBoth {done' : α → σ → Prop} (first : Triple allowed before process (Yielding done))
    (second : Triple allowed before process (Yielding done')) :
    Triple allowed before process (Yielding fun value world => done value world ∧ done' value world) :=
  (first.both second).mono (fun _ holds => holds) (fun _ _ both => both) (fun _ _ _ => trivial) fun _ _ => trivial

theorem Triple.yielding {ending : Ending σ ε α} (triple : Triple allowed before process ending)
    (finished : ∀ value world, ending.done value world → done value world) : Triple allowed before process (Yielding done) :=
  triple.mono (fun _ holds => holds) finished (fun _ _ _ => trivial) fun _ _ => trivial

/-- What holds of the runs of a process that return. -/
theorem Triple.yieldingRuns {returned : α → Prop}
    (runs : ∀ oracle moment value later, process.run oracle moment = (.done value, later) → returned value) :
    Triple allowed before process (Yielding fun value _ => returned value) := by
  intro oracle moment _ _
  cases stopped : (process.run oracle moment).1 with
  | done value => exact runs oracle moment value _ (Prod.ext stopped rfl)
  | failed error => trivial
  | crashed => trivial

theorem Triple.yieldingThen {next : α → Process σ ι ε β} {middle : α → σ → Prop} {last : β → σ → Prop}
    (first : Triple allowed before process (Yielding middle))
    (second : ∀ value, Triple allowed (middle value) (next value) (Yielding last)) :
    Triple allowed before (process >>= next) (Yielding last) := Triple.bind middle first second

/-- What is computed on the way to what is returned. -/
theorem Triple.yieldingComputes {result : Except ε α} {next : α → Process σ ι ε β} {last : β → σ → Prop}
    (second : ∀ value, result = .ok value → Triple allowed before (next value) (Yielding last)) :
    Triple allowed before (Process.ofExcept result >>= next) (Yielding last) := Triple.computes (fun _ _ _ => trivial) second

theorem Triple.mapErrorYielding {report : ε → ε'} (triple : Triple allowed before process (Yielding done)) :
    Triple allowed before (process.mapError report) (Yielding done) := Triple.mapError triple

/-- Errors become values. -/
theorem Triple.attemptYielding (triple : Triple allowed before process (Yielding done)) :
    Triple allowed before process.attempt (Yielding fun result world => ∀ value, result = .ok value → done value world) := by
  refine Triple.attempt (triple.mono (fun _ holds => holds) (fun value world finished other same => ?_) (fun _ _ _ _ impossible => ?_)
    fun _ _ => trivial)
  · cases same
    exact finished
  · cases impossible

end Process

end Machine
