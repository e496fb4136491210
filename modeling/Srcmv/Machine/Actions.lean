import Srcmv.Machine.Steps

/-! # What a process can do to its world

A process acts by a relation when every run of it is a sequence of related worlds, whatever the
environment does; what it returns may be described beside. Acting composes, so that a process is
described once by the actions it consists of, and an invariant of the actions is one of all its runs.
-/

namespace Machine

universe u

open Relation

namespace Process

variable {σ ι ε : Type*} {α β γ : Type u}

/-- Every run is a sequence of actions, and what it returns is as `post` says. -/
def ActsTo (action : σ → σ → Prop) (post : α → Prop) (process : Process σ ι ε α) : Prop :=
  ∀ oracle moment, ReflTransGen action moment.world (process.run oracle moment).2.world ∧
    ∀ value, (process.run oracle moment).1 = .done value → post value

/-- Every run is a sequence of actions. -/
abbrev Acts (action : σ → σ → Prop) (process : Process σ ι ε α) : Prop := ActsTo action (fun _ => True) process

/-- Every run from this world is a sequence of actions, and what it returns is as `post` says. -/
def ActsFrom (action : σ → σ → Prop) (post : α → Prop) (process : Process σ ι ε α) (world : σ) : Prop :=
  ∀ oracle taken, ReflTransGen action world (process.run oracle ⟨world, taken⟩).2.world ∧
    ∀ value, (process.run oracle ⟨world, taken⟩).1 = .done value → post value

variable {action action' : σ → σ → Prop} {post : α → Prop} {post' : β → Prop} {process : Process σ ι ε α}
  {next : α → Process σ ι ε β} {world : σ} {site : ι} {denied : ε}

/-- What every action keeps is kept by a sequence of them. -/
theorem invariant_of_reached {invariant : σ → Prop} {later : σ} (reached : ReflTransGen action world later)
    (preserved : ∀ before after, action before after → invariant before → invariant after) (holds : invariant world) :
    invariant later := by
  induction reached with
  | refl => exact holds
  | tail _ acted ih => exact preserved _ _ acted ih

namespace ActsTo

theorem returns {value : α} (holds : post value) : ActsTo action post (Pure.pure value : Process σ ι ε α) :=
  fun _ _ => ⟨.refl, fun _ same => by cases same; exact holds⟩

theorem refuse {error : ε} : ActsTo action post (Process.refuse error : Process σ ι ε α) :=
  fun _ _ => ⟨.refl, fun _ impossible => by cases impossible⟩

theorem ofExcept {result : Except ε α} (holds : ∀ value, result = .ok value → post value) :
    ActsTo action post (Process.ofExcept result : Process σ ι ε α) := by
  cases result with
  | ok value => exact returns (holds value rfl)
  | error error => exact refuse

theorem mono {post'' : α → Prop} (acts : ActsTo action post process)
    (more : ∀ before after, action before after → action' before after) (weaker : ∀ value, post value → post'' value) :
    ActsTo action' post'' process :=
  fun oracle moment => ⟨ReflTransGen.mono more _ _ (acts oracle moment).1,
    fun value ended => weaker value ((acts oracle moment).2 value ended)⟩

theorem acts (acts : ActsTo action post process) : Acts action process := acts.mono (fun _ _ same => same) fun _ _ => trivial

protected theorem bind (first : ActsTo action post process) (second : ∀ value, post value → ActsTo action post' (next value)) :
    ActsTo action post' (process >>= next) := by
  intro oracle moment
  obtain ⟨reached, returned⟩ := first oracle moment
  rw [run_bind]
  cases stopped : process.run oracle moment with
  | mk outcome later =>
    rw [stopped] at reached returned
    cases outcome with
    | done value =>
      obtain ⟨further, ended⟩ := second value (returned value rfl) oracle later
      exact ⟨reached.trans further, ended⟩
    | failed error => exact ⟨reached, fun _ impossible => by cases impossible⟩
    | crashed => exact ⟨reached, fun _ impossible => by cases impossible⟩

/-- A loop acts as each of its steps does. -/
theorem foldlM {items : List β} {step : α → β → Process σ ι ε α} {initial : α} (begins : post initial)
    (each : ∀ value, ∀ item ∈ items, post value → ActsTo action post (step value item)) :
    ActsTo action post (items.foldlM step initial) := by
  induction items generalizing initial with
  | nil => exact returns begins
  | cons item rest ih =>
    rw [List.foldlM_cons]
    exact (each initial item List.mem_cons_self begins).bind fun value holds =>
      ih holds fun value other member => each value other (List.mem_cons_of_mem _ member)

/-- An invariant of the actions is kept by the process. -/
theorem keeps (acts : ActsTo action post process) {allowed : ι → Went → Prop} {invariant : σ → Prop}
    (preserved : ∀ before after, action before after → invariant before → invariant after) :
    Triple allowed invariant process (Keeps invariant) := by
  intro oracle moment holds _
  have kept : invariant (process.run oracle moment).2.world :=
    invariant_of_reached (acts oracle moment).1 preserved holds
  cases stopped : (process.run oracle moment).1 <;> exact kept

theorem anywhere (acts : ActsTo action post process) : ActsFrom action post process world :=
  fun oracle taken => acts oracle ⟨world, taken⟩

end ActsTo

namespace Acts

protected theorem pure {value : α} : Acts action (Pure.pure value : Process σ ι ε α) := ActsTo.returns trivial

theorem ofExcept {result : Except ε α} : Acts action (Process.ofExcept result : Process σ ι ε α) :=
  ActsTo.ofExcept fun _ _ => trivial

theorem call {denied : ℕ → ε} {effect : σ → Except ε (α × σ)}
    (effective : ∀ world value later, effect world = .ok (value, later) → ReflTransGen action world later) :
    Acts action (Process.call site denied effect : Process σ ι ε α) := by
  intro oracle moment
  refine ⟨?_, fun _ _ => trivial⟩
  rw [Process.call]
  dsimp only
  split
  · exact .refl
  · exact .refl
  · split
    · next value later performed => exact effective _ _ _ performed
    · exact .refl

theorem act {effect : σ → Except ε (α × σ)}
    (effective : ∀ world value later, effect world = .ok (value, later) → ReflTransGen action world later) :
    Acts action (Process.act site denied effect : Process σ ι ε α) := call effective

theorem observe {view : σ → Except ε α} : Acts action (Process.observe site denied view : Process σ ι ε α) := by
  apply act
  intro world value later seen
  cases viewed : view world with
  | ok found =>
    rw [viewed] at seen
    cases seen
    exact .refl
  | error error =>
    rw [viewed] at seen
    cases seen

theorem probe {holds : σ → Bool} : Acts action (Process.probe site holds : Process σ ι ε Bool) := by
  intro oracle moment
  refine ⟨?_, fun _ _ => trivial⟩
  rw [Process.probe]
  dsimp only
  split <;> exact .refl

theorem note {update : σ → σ} (updates : ∀ world, action world (update world)) :
    Acts action (Process.note update : Process σ ι ε PUnit) :=
  fun _ moment => ⟨.single (updates moment.world), fun _ _ => trivial⟩

theorem attempt (acts : Acts action process) : Acts action process.attempt :=
  fun oracle moment => ⟨(acts oracle moment).1, fun _ _ => trivial⟩

theorem andThen (first : Acts action process) (second : ∀ value, ActsTo action post' (next value)) :
    ActsTo action post' (process >>= next) := ActsTo.bind first fun value _ => second value

theorem foldlM {items : List β} {step : α → β → Process σ ι ε α} (initial : α)
    (each : ∀ value, ∀ item ∈ items, Acts action (step value item)) : Acts action (items.foldlM step initial) :=
  ActsTo.foldlM trivial fun value item member _ => each value item member

end Acts

namespace ActsFrom

/-- After an observation it is known what was seen. -/
theorem observes {view : σ → Except ε α} (second : ∀ value, view world = .ok value → ActsFrom action post' (next value) world) :
    ActsFrom action post' (Process.observe site denied view >>= next) world := by
  intro oracle taken
  rw [run_bind, Process.observe, Process.act, Process.call]
  dsimp only
  cases oracle taken.length site with
  | crash => exact ⟨.refl, fun _ impossible => by cases impossible⟩
  | fail errno => exact ⟨.refl, fun _ impossible => by cases impossible⟩
  | succeed =>
    dsimp only
    cases seen : view world with
    | error error => exact ⟨.refl, fun _ impossible => by cases impossible⟩
    | ok value => exact second value seen oracle _

/-- After a computation it is known what was computed. -/
theorem computes {result : Except ε α} (second : ∀ value, result = .ok value → ActsFrom action post' (next value) world) :
    ActsFrom action post' (Process.ofExcept result >>= next) world := by
  cases result with
  | ok value => exact second value rfl
  | error error => exact fun _ _ => ⟨.refl, fun _ impossible => by cases impossible⟩

protected theorem bind (first : ActsFrom action post process world)
    (second : ∀ value, post value → ActsTo action post' (next value)) : ActsFrom action post' (process >>= next) world := by
  intro oracle taken
  obtain ⟨reached, returned⟩ := first oracle taken
  rw [run_bind]
  cases stopped : process.run oracle ⟨world, taken⟩ with
  | mk outcome later =>
    rw [stopped] at reached returned
    cases outcome with
    | done value =>
      obtain ⟨further, ended⟩ := second value (returned value rfl) oracle later
      exact ⟨reached.trans further, ended⟩
    | failed error => exact ⟨reached, fun _ impossible => by cases impossible⟩
    | crashed => exact ⟨reached, fun _ impossible => by cases impossible⟩

/-- What the actions keep holds wherever the process stops. -/
theorem keeps (acts : ActsFrom action post process world) {allowed : ι → Went → Prop} {invariant : σ → Prop}
    (preserved : ∀ before after, action before after → invariant before → invariant after) (holds : invariant world) :
    Triple allowed (· = world) process (Keeps invariant) := by
  rintro oracle moment rfl _
  have kept : invariant (process.run oracle moment).2.world :=
    invariant_of_reached (acts oracle moment.taken).1 preserved holds
  cases stopped : (process.run oracle moment).1 <;> exact kept

end ActsFrom

section Invariants

variable {allowed : ι → Went → Prop} {before invariant invariant' : σ → Prop}

/-- Two invariants are kept together. -/
theorem Triple.keepsBoth (first : Triple allowed before process (Keeps invariant))
    (second : Triple allowed before process (Keeps invariant')) :
    Triple allowed before process (Keeps fun world => invariant world ∧ invariant' world) := by
  intro oracle moment holds within
  have left := first oracle moment holds within
  have right := second oracle moment holds within
  cases stopped : (process.run oracle moment).1 <;>
  · rw [stopped] at left right
    exact ⟨left, right⟩

/-- A weaker invariant may be all that is kept from here on. -/
theorem Triple.keepsUntil (first : Triple allowed before process (Keeps invariant))
    (weaker : ∀ world, invariant world → invariant' world)
    (second : ∀ value, Triple allowed invariant (next value) (Keeps invariant')) :
    Triple allowed before (process >>= next) (Keeps invariant') :=
  Triple.bind (fun _ => invariant) (first.mono (fun _ holds => holds) (fun _ _ kept => kept) (fun _ => weaker) weaker) second

/-- What a process keeps holds wherever a run of it stops. -/
theorem Triple.keeps_run (kept : Triple (fun _ _ => True) (· = world) process (Keeps invariant)) (oracle : Oracle ι)
    (taken : List (ι × Went)) : invariant (process.run oracle ⟨world, taken⟩).2.world := by
  have result := kept oracle ⟨world, taken⟩ rfl fun _ _ => trivial
  cases stopped : (process.run oracle ⟨world, taken⟩).1 <;>
  · rw [stopped] at result
    exact result

end Invariants

/-- After a computation it is known what was computed. -/
theorem Triple.computes {result : Except ε α} {allowed : ι → Went → Prop} {before : σ → Prop} {ending : Ending σ ε β}
    (rejected : ∀ error world, before world → ending.failed error world)
    (second : ∀ value, result = .ok value → Triple allowed before (next value) ending) :
    Triple allowed before (Process.ofExcept result >>= next) ending := by
  cases result with
  | ok value => exact second value rfl
  | error error => exact Triple.refuse (rejected error)

end Process

end Machine
