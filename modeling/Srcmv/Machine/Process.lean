import Mathlib.Tactic

/-! # Interruptible processes

A process acts on a world in steps, each at a site. Before a step an oracle decides, knowing the
number of steps taken and the site, whether it may go on, fails without effect for a numbered reason,
or never happens because the process crashes there. A crash keeps the world as the last performed step left it.
The steps taken and how each went are remembered, newest first; no process can forget them, a
process only counts as crashed if a step did, in a calm environment no step fails or crashes, and a
run depends on the oracle only at the steps it takes. Nothing here names a particular world or site.
-/

namespace Machine

universe u

/-- What befalls one step; a failure has a number. -/
inductive Fate where
  | succeed
  | fail (errno : ℕ)
  | crash
deriving DecidableEq

/-- The environment's answer to every step, by the number of earlier steps and its site. -/
abbrev Oracle (ι : Type*) := ℕ → ι → Fate

/-- The environment that lets every step go on. -/
def Oracle.calm {ι : Type*} : Oracle ι := fun _ _ => .succeed

/-- The environment that lets `count` steps go on and crashes at the next one. -/
def Oracle.crashAfter {ι : Type*} (count : ℕ) : Oracle ι := fun taken _ => if taken < count then .succeed else .crash

/-- The environment that fails the step after `count` others and lets all the others go on. -/
def Oracle.failAt {ι : Type*} (count errno : ℕ) : Oracle ι := fun taken _ => if taken = count then .fail errno else .succeed

/-- How a step went: done, turned down by the state of the world, failed, or never happened. -/
inductive Went where
  | performed
  | rejected
  | failed
  | crashed
deriving DecidableEq

/-- How a process ended. -/
inductive Outcome (ε α : Type*) where
  | done (value : α)
  | failed (error : ε)
  | crashed
deriving DecidableEq

/-- The world and the steps taken so far. -/
structure Moment (σ ι : Type*) where
  world : σ
  taken : List (ι × Went) := []

/-- One more step. -/
def Moment.step {σ ι : Type*} (moment : Moment σ ι) (site : ι) (went : Went) (world : σ) : Moment σ ι :=
  ⟨world, (site, went) :: moment.taken⟩

/-- A process over worlds `σ` with sites `ι`, errors `ε` and results `α`. -/
structure Process (σ ι ε : Type*) (α : Type u) where
  run : Oracle ι → Moment σ ι → Outcome ε α × Moment σ ι
  grows : ∀ oracle moment, moment.taken <:+ (run oracle moment).2.taken
  honest : ∀ oracle moment, (run oracle moment).1 = .crashed →
    ∃ site, (site, Went.crashed) ∈ (run oracle moment).2.taken
  calm : ∀ moment, ∀ step ∈ (run Oracle.calm moment).2.taken,
    step ∈ moment.taken ∨ step.2 = Went.performed ∨ step.2 = Went.rejected
  causal : ∀ oracle oracle' moment, (∀ count site, moment.taken.length ≤ count →
    count < (run oracle moment).2.taken.length → oracle' count site = oracle count site) →
      run oracle' moment = run oracle moment

namespace Process

variable {σ ι ε : Type*} {α β : Type u}

protected def pure (value : α) : Process σ ι ε α where
  run _ moment := (.done value, moment)
  grows _ moment := List.suffix_refl _
  honest _ _ crashed := by cases crashed
  calm _ _ member := .inl member
  causal _ _ _ _ := rfl

/-- Stop with an error. -/
def refuse (error : ε) : Process σ ι ε α where
  run _ moment := (.failed error, moment)
  grows _ moment := List.suffix_refl _
  honest _ _ crashed := by cases crashed
  calm _ _ member := .inl member
  causal _ _ _ _ := rfl

/-- Go on with the next process, unless the first one stopped. -/
def continueWith (next : α → Process σ ι ε β) (oracle : Oracle ι) :
    Outcome ε α × Moment σ ι → Outcome ε β × Moment σ ι
  | (.done value, later) => (next value).run oracle later
  | (.failed error, later) => (.failed error, later)
  | (.crashed, later) => (.crashed, later)

protected def bind (process : Process σ ι ε α) (next : α → Process σ ι ε β) : Process σ ι ε β where
  run oracle moment := continueWith next oracle (process.run oracle moment)
  grows oracle moment := by
    have grown := process.grows oracle moment
    cases stopped : process.run oracle moment with
    | mk outcome later =>
      rw [stopped] at grown
      cases outcome with
      | done value => exact grown.trans ((next value).grows oracle later)
      | failed error => exact grown
      | crashed => exact grown
  honest oracle moment crashed := by
    have honest := process.honest oracle moment
    cases stopped : process.run oracle moment with
    | mk outcome later =>
      rw [stopped] at honest crashed
      cases outcome with
      | done value => exact (next value).honest oracle later crashed
      | failed error => cases crashed
      | crashed => exact honest rfl
  calm moment step member := by
    have calm := process.calm moment step
    cases stopped : process.run Oracle.calm moment with
    | mk outcome later =>
      rw [stopped] at calm member
      cases outcome with
      | done value =>
        rcases (next value).calm later step member with earlier | went
        · exact calm earlier
        · exact .inr went
      | failed error => exact calm member
      | crashed => exact calm member
  causal oracle oracle' moment agree := by
    have first := process.causal oracle oracle' moment
    have grown := (process.grows oracle moment).length_le
    cases stopped : process.run oracle moment with
    | mk outcome later =>
      rw [stopped] at agree first grown
      cases outcome with
      | done value =>
        have rest := ((next value).grows oracle later).length_le
        rw [first fun count site begun before => agree count site begun (before.trans_le rest)]
        exact (next value).causal oracle oracle' later fun count site begun => agree count site (grown.trans begun)
      | failed error => rw [first agree]; rfl
      | crashed => rw [first agree]; rfl

instance : Monad (Process σ ι ε) where
  pure := Process.pure
  bind := Process.bind

/-- A pure computation. -/
def ofExcept : Except ε α → Process σ ι ε α
  | .ok value => Process.pure value
  | .error error => refuse error

theorem ofExcept_ok_bind {value : α} {next : α → Process σ ι ε β} :
    (ofExcept (.ok value) >>= next) = next value := rfl

theorem pure_bind {value : α} {next : α → Process σ ι ε β} : ((Pure.pure value : Process σ ι ε α) >>= next) = next value :=
  rfl

/-- One step at a site; `denied` is the error reported when the environment fails it. -/
def call (site : ι) (denied : ℕ → ε) (effect : σ → Except ε (α × σ)) : Process σ ι ε α where
  run oracle moment :=
    match oracle moment.taken.length site with
    | .crash => (.crashed, moment.step site .crashed moment.world)
    | .fail errno => (.failed (denied errno), moment.step site .failed moment.world)
    | .succeed =>
        match effect moment.world with
        | .ok (value, world) => (.done value, moment.step site .performed world)
        | .error error => (.failed error, moment.step site .rejected moment.world)
  grows oracle moment := by
    split
    · exact List.suffix_cons _ _
    · exact List.suffix_cons _ _
    · split
      · exact List.suffix_cons _ _
      · exact List.suffix_cons _ _
  honest oracle moment crashed := by
    split at crashed
    · exact ⟨site, List.mem_cons_self⟩
    · cases crashed
    · split at crashed <;> cases crashed
  calm moment step member := by
    dsimp only [Oracle.calm] at member
    split at member
    · rcases List.mem_cons.mp member with rfl | earlier
      · exact .inr (.inl rfl)
      · exact .inl earlier
    · rcases List.mem_cons.mp member with rfl | earlier
      · exact .inr (.inr rfl)
      · exact .inl earlier
  causal oracle oracle' moment agree := by
    have same : oracle' moment.taken.length site = oracle moment.taken.length site := by
      apply agree _ _ le_rfl
      split
      · exact Nat.lt_succ_self _
      · exact Nat.lt_succ_self _
      · split <;> exact Nat.lt_succ_self _
    rw [same]

/-- A step that reports every failure alike. -/
def act (site : ι) (denied : ε) (effect : σ → Except ε (α × σ)) : Process σ ι ε α := call site (fun _ => denied) effect

/-- An observation that may be denied and changes nothing. -/
def observe (site : ι) (denied : ε) (view : σ → Except ε α) : Process σ ι ε α :=
  act site denied fun world => (view world).map (·, world)

/-- An existence check that swallows its own failure. -/
def probe (site : ι) (holds : σ → Bool) : Process σ ι ε Bool where
  run oracle moment :=
    match oracle moment.taken.length site with
    | .crash => (.crashed, moment.step site .crashed moment.world)
    | .fail _ => (.done false, moment.step site .failed moment.world)
    | .succeed => (.done (holds moment.world), moment.step site .performed moment.world)
  grows oracle moment := by
    split <;> exact List.suffix_cons _ _
  honest oracle moment crashed := by
    split at crashed
    · exact ⟨site, List.mem_cons_self⟩
    · cases crashed
    · cases crashed
  calm moment step member := by
    rcases List.mem_cons.mp member with rfl | earlier
    · exact .inr (.inl rfl)
    · exact .inl earlier
  causal oracle oracle' moment agree := by
    have same : oracle' moment.taken.length site = oracle moment.taken.length site := by
      apply agree _ _ le_rfl
      split <;> exact Nat.lt_succ_self _
    rw [same]

/-- Note something in the world without taking a step. -/
def note (update : σ → σ) : Process σ ι ε PUnit where
  run _ moment := (.done ⟨⟩, { moment with world := update moment.world })
  grows _ _ := List.suffix_refl _
  honest _ _ crashed := by cases crashed
  calm _ _ member := .inl member
  causal _ _ _ _ := rfl

def handOver : Outcome ε α → Outcome ε (Except ε α)
  | .done value => .done (.ok value)
  | .failed error => .done (.error error)
  | .crashed => .crashed

/-- Run a process and hand its error over as a value; a crash still stops everything. -/
def attempt (process : Process σ ι ε α) : Process σ ι ε (Except ε α) where
  run oracle moment := (handOver (process.run oracle moment).1, (process.run oracle moment).2)
  grows := process.grows
  honest oracle moment crashed := by
    apply process.honest oracle moment
    cases outcome : (process.run oracle moment).1 with
    | done value => rw [outcome] at crashed; cases crashed
    | failed error => rw [outcome] at crashed; cases crashed
    | crashed => rfl
  calm := process.calm
  causal oracle oracle' moment agree := by rw [process.causal oracle oracle' moment agree]

section CrashAfter

variable {count : ℕ} {moment : Moment σ ι} {site : ι} {denied : ε} {effect : σ → Except ε (α × σ)}

theorem run_bind {process : Process σ ι ε α} {next : α → Process σ ι ε β} (oracle : Oracle ι) :
    (process >>= next).run oracle moment = continueWith next oracle (process.run oracle moment) := rfl

theorem run_bind_done {process : Process σ ι ε α} {next : α → Process σ ι ε β} {oracle : Oracle ι} {value : α}
    {later : Moment σ ι} (ran : process.run oracle moment = (.done value, later)) :
    (process >>= next).run oracle moment = (next value).run oracle later := by
  rw [run_bind, ran]
  rfl

theorem run_bind_eq_done {process : Process σ ι ε α} {next : α → Process σ ι ε β} {oracle : Oracle ι} {result : β}
    {later : Moment σ ι} : (process >>= next).run oracle moment = (.done result, later) ↔
      ∃ value middle, process.run oracle moment = (.done value, middle) ∧ (next value).run oracle middle = (.done result, later) := by
  constructor
  · intro ran
    rw [run_bind] at ran
    cases stopped : process.run oracle moment with
    | mk outcome middle =>
      rw [stopped] at ran
      cases outcome with
      | done value => exact ⟨value, middle, rfl, ran⟩
      | failed error => cases ran
      | crashed => cases ran
  · rintro ⟨value, middle, first, second⟩
    rw [run_bind_done first]
    exact second

theorem run_bind_failed {process : Process σ ι ε α} {next : α → Process σ ι ε β} {oracle : Oracle ι} {error : ε}
    {later : Moment σ ι} (ran : process.run oracle moment = (.failed error, later)) :
    (process >>= next).run oracle moment = (.failed error, later) := by
  rw [run_bind, ran]
  rfl

theorem run_bind_crashed {process : Process σ ι ε α} {next : α → Process σ ι ε β} {oracle : Oracle ι}
    {later : Moment σ ι} (ran : process.run oracle moment = (.crashed, later)) :
    (process >>= next).run oracle moment = (.crashed, later) := by
  rw [run_bind, ran]
  rfl

theorem run_attempt_failed {process : Process σ ι ε α} {oracle : Oracle ι} {error : ε} {later : Moment σ ι}
    (ran : process.run oracle moment = (.failed error, later)) : process.attempt.run oracle moment = (.done (.error error), later) := by
  rw [attempt]
  dsimp only
  rw [ran]
  rfl

/-- Returning a value afterwards changes nothing. -/
theorem run_bind_pure {process : Process σ ι ε α} {result : α → β} (oracle : Oracle ι) :
    ((process >>= fun value => (Pure.pure (result value) : Process σ ι ε β)).run oracle moment).2 =
      (process.run oracle moment).2 := by
  rw [run_bind]
  cases stopped : process.run oracle moment with
  | mk outcome later => cases outcome <;> rfl

/-- A step before the crash takes its effect. -/
theorem run_act_performed {value : α} {world : σ} (early : moment.taken.length < count)
    (effective : effect moment.world = .ok (value, world)) :
    (act site denied effect).run (Oracle.crashAfter count) moment =
      (.done value, moment.step site .performed world) := by
  simp only [act, call, Oracle.crashAfter, if_pos early, effective]

theorem run_act_crashed (late : count ≤ moment.taken.length) :
    (act site denied effect).run (Oracle.crashAfter count) moment =
      (.crashed, moment.step site .crashed moment.world) := by
  simp only [act, call, Oracle.crashAfter, if_neg (not_lt.mpr late)]

theorem run_observe_performed {view : σ → Except ε α} (value : α) (early : moment.taken.length < count)
    (seen : view moment.world = .ok value) :
    (observe site denied view).run (Oracle.crashAfter count) moment =
      (.done value, moment.step site .performed moment.world) :=
  run_act_performed early (by rw [seen]; rfl)

end CrashAfter

/-- What holds when a process stops, by the way it stopped. -/
structure Ending (σ ε : Type*) (α : Type u) where
  done : α → σ → Prop
  failed : ε → σ → Prop
  crashed : σ → Prop

def Ending.Holds (ending : Ending σ ε α) (outcome : Outcome ε α) (world : σ) : Prop :=
  match outcome with
  | .done value => ending.done value world
  | .failed error => ending.failed error world
  | .crashed => ending.crashed world

/-- Every step taken went as permitted. -/
def Moment.Within (allowed : ι → Went → Prop) (moment : Moment σ ι) : Prop :=
  ∀ step ∈ moment.taken, allowed step.1 step.2

/-- From every world with `before`, in every run whose steps go as `allowed`, `process` stops as
`ending` says. -/
def Triple (allowed : ι → Went → Prop) (before : σ → Prop) (process : Process σ ι ε α)
    (ending : Ending σ ε α) : Prop :=
  ∀ oracle moment, before moment.world → Moment.Within allowed (process.run oracle moment).2 →
    ending.Holds (process.run oracle moment).1 (process.run oracle moment).2.world

section Rules

variable {allowed : ι → Went → Prop} {before before' : σ → Prop} {process : Process σ ι ε α}
  {done : α → σ → Prop} {failed : ε → σ → Prop} {crashed : σ → Prop}

/-- Strengthen the precondition and weaken every ending. -/
theorem Triple.mono {ending ending' : Ending σ ε α} (triple : Triple allowed before process ending)
    (pre : ∀ world, before' world → before world)
    (done : ∀ value world, ending.done value world → ending'.done value world)
    (failed : ∀ error world, ending.failed error world → ending'.failed error world)
    (crashed : ∀ world, ending.crashed world → ending'.crashed world) :
    Triple allowed before' process ending' := by
  intro oracle moment holds within
  have result := triple oracle moment (pre _ holds) within
  unfold Ending.Holds at result ⊢
  split <;> simp_all

/-- What a triple says of the run in which the environment lets every step go on. -/
theorem Triple.run_calm {ending : Ending σ ε α} (triple : Triple allowed before process ending)
    (permits : ∀ site, allowed site .performed ∧ allowed site .rejected) {world : σ} (holds : before world) :
    ending.Holds (process.run Oracle.calm ⟨world, []⟩).1 (process.run Oracle.calm ⟨world, []⟩).2.world := by
  refine triple Oracle.calm ⟨world, []⟩ holds fun step member => ?_
  rcases process.calm ⟨world, []⟩ step member with impossible | performed | rejected
  · cases impossible
  · rw [performed]; exact (permits step.1).1
  · rw [rejected]; exact (permits step.1).2

/-- What the steps of a calm run can do. -/
def Calmly (_ : ι) (went : Went) : Prop := went = .performed ∨ went = .rejected

/-- A process that in calm runs neither fails nor crashes is done in the calm run. -/
theorem Triple.calm_done {ending : Ending σ ε α} (triple : Triple Calmly before process ending)
    (succeeds : ∀ error world, ¬ending.failed error world) (uninterrupted : ∀ world, ¬ending.crashed world)
    {world : σ} (holds : before world) :
    ∃ value later, process.run Oracle.calm ⟨world, []⟩ = (.done value, later) ∧ ending.done value later.world := by
  have result := triple.run_calm (fun _ => ⟨.inl rfl, .inr rfl⟩) holds
  cases stopped : process.run Oracle.calm ⟨world, []⟩ with
  | mk outcome later =>
    rw [stopped] at result
    cases outcome with
    | done value => exact ⟨value, later, rfl, result⟩
    | failed error => exact absurd result (succeeds _ _)
    | crashed => exact absurd result (uninterrupted _)

theorem Triple.pure {value : α} (post : ∀ world, before world → done value world) :
    Triple allowed before (Pure.pure value : Process σ ι ε α) ⟨done, failed, crashed⟩ :=
  fun _ moment holds _ => post moment.world holds

theorem Triple.refuse {error : ε} (post : ∀ world, before world → failed error world) :
    Triple allowed before (Process.refuse error : Process σ ι ε α) ⟨done, failed, crashed⟩ :=
  fun _ moment holds _ => post moment.world holds

theorem Triple.ofExcept {result : Except ε α}
    (accepted : ∀ value, result = .ok value → ∀ world, before world → done value world)
    (rejected : ∀ error, result = .error error → ∀ world, before world → failed error world) :
    Triple allowed before (Process.ofExcept result : Process σ ι ε α) ⟨done, failed, crashed⟩ := by
  cases result with
  | ok value => exact Triple.pure (accepted value rfl)
  | error error => exact Triple.refuse (rejected error rfl)

/-- Sequencing: the first process ends where the second begins. -/
theorem Triple.bind {next : α → Process σ ι ε β} (middle : α → σ → Prop) {ending : Ending σ ε β}
    (first : Triple allowed before process ⟨middle, ending.failed, ending.crashed⟩)
    (second : ∀ value, Triple allowed (middle value) (next value) ending) :
    Triple allowed before (process >>= next) ending := by
  intro oracle moment holds
  have result := first oracle moment holds
  change Moment.Within allowed (continueWith next oracle (process.run oracle moment)).2 →
    ending.Holds (continueWith next oracle (process.run oracle moment)).1
      (continueWith next oracle (process.run oracle moment)).2.world
  intro within
  cases stopped : process.run oracle moment with
  | mk outcome later =>
    rw [stopped] at result within
    cases outcome with
    | done value =>
      have earlier : Moment.Within allowed later := fun step member =>
        within step (((next value).grows oracle later).subset member)
      exact second value oracle later (result earlier) within
    | failed error => exact result within
    | crashed => exact result within

/-- One step: what holds before it must cover a crash, a denial, its effect and its rejection. -/
theorem Triple.call {site : ι} {denied : ℕ → ε} {effect : σ → Except ε (α × σ)}
    (interrupted : allowed site .crashed → ∀ world, before world → crashed world)
    (refused : allowed site .failed → ∀ errno world, before world → failed (denied errno) world)
    (performed : ∀ world, before world → ∀ value world', effect world = .ok (value, world') →
      done value world')
    (rejected : allowed site .rejected → ∀ world, before world → ∀ error, effect world = .error error →
      failed error world) :
    Triple allowed before (Process.call site denied effect) ⟨done, failed, crashed⟩ := by
  intro oracle moment holds within
  unfold Process.call at within ⊢
  dsimp only at within ⊢
  cases fate : oracle moment.taken.length site with
  | crash =>
    rw [fate] at within
    exact interrupted (within _ List.mem_cons_self) _ holds
  | fail errno =>
    rw [fate] at within
    exact refused (within _ List.mem_cons_self) errno _ holds
  | succeed =>
    rw [fate] at within
    dsimp only at within ⊢
    cases effective : effect moment.world with
    | error error =>
      rw [effective] at within
      exact rejected (within _ List.mem_cons_self) _ holds error effective
    | ok result => exact performed _ holds result.1 result.2 effective

theorem Triple.act {site : ι} {denied : ε} {effect : σ → Except ε (α × σ)}
    (interrupted : allowed site .crashed → ∀ world, before world → crashed world)
    (refused : allowed site .failed → ∀ world, before world → failed denied world)
    (performed : ∀ world, before world → ∀ value world', effect world = .ok (value, world') →
      done value world')
    (rejected : allowed site .rejected → ∀ world, before world → ∀ error, effect world = .error error →
      failed error world) :
    Triple allowed before (Process.act site denied effect) ⟨done, failed, crashed⟩ :=
  Triple.call interrupted (fun permitted _ => refused permitted) performed rejected

theorem Triple.observe {site : ι} {denied : ε} {view : σ → Except ε α}
    (interrupted : allowed site .crashed → ∀ world, before world → crashed world)
    (refused : allowed site .failed → ∀ world, before world → failed denied world)
    (seen : ∀ world, before world → ∀ value, view world = .ok value → done value world)
    (rejected : allowed site .rejected → ∀ world, before world → ∀ error, view world = .error error →
      failed error world) :
    Triple allowed before (Process.observe site denied view) ⟨done, failed, crashed⟩ := by
  refine Triple.act interrupted refused ?_ ?_
  · intro world holds value world' viewed
    cases result : view world with
    | error error => rw [result] at viewed; cases viewed
    | ok found =>
      rw [result] at viewed
      cases viewed
      exact seen world holds _ result
  · intro permitted world holds error viewed
    cases result : view world with
    | error other =>
      rw [result] at viewed
      cases viewed
      exact rejected permitted world holds _ result
    | ok found => rw [result] at viewed; cases viewed

theorem Triple.probe {site : ι} {holds : σ → Bool} {done : Bool → σ → Prop}
    (interrupted : allowed site .crashed → ∀ world, before world → crashed world)
    (blind : allowed site .failed → ∀ world, before world → done false world)
    (seen : ∀ world, before world → done (holds world) world) :
    Triple allowed before (Process.probe site holds : Process σ ι ε Bool) ⟨done, failed, crashed⟩ := by
  intro oracle moment initial within
  unfold Process.probe at within ⊢
  dsimp only at within ⊢
  cases fate : oracle moment.taken.length site with
  | crash =>
    rw [fate] at within
    exact interrupted (within _ List.mem_cons_self) _ initial
  | fail =>
    rw [fate] at within
    exact blind (within _ List.mem_cons_self) _ initial
  | succeed => exact seen _ initial

theorem Triple.note {update : σ → σ} {done : PUnit → σ → Prop}
    (post : ∀ world, before world → done ⟨⟩ (update world)) :
    Triple allowed before (Process.note update : Process σ ι ε PUnit) ⟨done, failed, crashed⟩ :=
  fun _ moment holds _ => post moment.world holds

/-- Errors become values; crashes stay crashes. -/
theorem Triple.attempt {done : Except ε α → σ → Prop}
    (triple : Triple allowed before process
      ⟨fun value => done (.ok value), fun error => done (.error error), crashed⟩) :
    Triple allowed before process.attempt ⟨done, failed, crashed⟩ := by
  intro oracle moment holds within
  have result := triple oracle moment holds within
  change Ending.Holds _ (handOver (process.run oracle moment).1) (process.run oracle moment).2.world
  cases outcome : (process.run oracle moment).1 <;> (rw [outcome] at result; exact result)

/-- What holds of a result that is handed over. -/
def Ending.handed (ending : Ending σ ε α) : Except ε α → σ → Prop
  | .ok value => ending.done value
  | .error error => ending.failed error

theorem Triple.handsOver {ending : Ending σ ε α} (triple : Triple allowed before process ending) :
    Triple allowed before process.attempt ⟨ending.handed, failed, ending.crashed⟩ := Triple.attempt triple

/-- A fact independent of the world may be assumed while proving the triple. -/
theorem Triple.fact {fact : Prop} {ending : Ending σ ε α}
    (triple : fact → Triple allowed before process ending) :
    Triple allowed (fun world => fact ∧ before world) process ending :=
  fun oracle moment ⟨proof, holds⟩ => triple proof oracle moment holds

/-- A loop that carries a value: the invariant is indexed by the number of items already visited. -/
theorem Triple.foldlM {items : List β} {step : α → β → Process σ ι ε α} (invariant : ℕ → α → σ → Prop)
    (preserved : ∀ index item, items[index]? = some item → ∀ value,
      Triple allowed (invariant index value) (step value item) ⟨invariant (index + 1), failed, crashed⟩)
    (initial : α) :
    Triple allowed (invariant 0 initial) (items.foldlM step initial)
      ⟨invariant items.length, failed, crashed⟩ := by
  have general : ∀ (rest : List β) (offset : ℕ), items.drop offset = rest → ∀ value,
      Triple allowed (invariant offset value) (rest.foldlM step value)
        ⟨invariant (offset + rest.length), failed, crashed⟩ := by
    intro rest
    induction rest with
    | nil => exact fun offset _ value => Triple.pure fun _ holds => holds
    | cons item rest ih =>
      intro offset dropped value
      have here : items[offset]? = some item := by
        rw [← List.head?_drop, dropped, List.head?_cons]
      have later : items.drop (offset + 1) = rest := by
        rw [← List.tail_drop, dropped, List.tail_cons]
      rw [List.foldlM_cons, List.length_cons, show offset + (rest.length + 1) = offset + 1 + rest.length by omega]
      exact Triple.bind _ (preserved offset item here value) fun next => ih (offset + 1) later next
  simpa using general items 0 rfl initial

end Rules

end Process

end Machine
