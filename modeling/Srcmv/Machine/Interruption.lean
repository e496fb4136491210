import Srcmv.Machine.Errors

/-! # Disturbing a chosen step

A process that is let go on calmly and crashes at a chosen step stops in the world that step would
have found. If that step only fails, the process goes on with its error, and calmly again. The rules
walk into a process up to that step.
-/

namespace Machine

universe u

namespace Process

variable {σ ι ε : Type*} {α β : Type u} {moment middle last : Moment σ ι} {site : ι} {process : Process σ ι ε α}
  {next : α → Process σ ι ε β} {value : α}

/-- Let go on calmly, the process crashes at the site, in the moment `last`. -/
structure StopsAt (process : Process σ ι ε α) (moment last : Moment σ ι) (site : ι) : Prop where
  run : process.run (Oracle.crashAfter last.taken.length) moment = (.crashed, last.step site .crashed last.world)
  calm : Moment.Within Calmly last

/-- Before the first step nothing went against what is allowed. -/
theorem within_start {allowed : ι → Went → Prop} {world : σ} : Moment.Within allowed (⟨world, []⟩ : Moment σ ι) :=
  fun _ member => absurd member List.not_mem_nil

/-- A calm run stays calm. -/
theorem within_calm (process : Process σ ι ε α) (calm : Moment.Within Calmly moment) :
    Moment.Within Calmly (process.run Oracle.calm moment).2 := by
  intro step member
  rcases process.calm moment step member with earlier | went
  · exact calm step earlier
  · exact went

/-- What can only be done is done in a calm run. -/
theorem Triple.calm_reaches {before : σ → Prop} {denial : ε → Prop} {done : α → σ → Prop}
    (triple : Triple Calmly before process (Ends denial done fun _ => False)) (calm : Moment.Within Calmly moment)
    (holds : before moment.world) : ∃ value later, process.run Oracle.calm moment = (.done value, later) ∧
      Moment.Within Calmly later ∧ done value later.world := by
  have within := within_calm process calm
  have result := triple Oracle.calm moment holds within
  cases stopped : process.run Oracle.calm moment with
  | mk outcome later =>
    rw [stopped] at result within
    cases outcome with
    | done value => exact ⟨value, later, rfl, within, result⟩
    | failed error => exact absurd result.2 id
    | crashed => exact absurd result id

/-- Let go on calmly from `moment`, the process has `rest` left to do at `last`. -/
structure Advances (process : Process σ ι ε α) (moment : Moment σ ι) (rest : Process σ ι ε α) (last : Moment σ ι) : Prop where
  run : ∀ oracle, (∀ count site, count < last.taken.length → oracle count site = .succeed) →
    process.run oracle moment = rest.run oracle last
  calm : Moment.Within Calmly last
  grown : moment.taken.length ≤ last.taken.length

namespace Advances

variable {rest final : Process σ ι ε α}

theorem refl (calm : Moment.Within Calmly moment) : Advances process moment process moment := ⟨fun _ _ => rfl, calm, le_rfl⟩

/-- What is done calmly is behind the process. -/
theorem after (ran : process.run Oracle.calm moment = (.done value, middle)) (calm : Moment.Within Calmly middle) :
    Advances (process >>= next) moment (next value) middle := by
  have grown := process.grows Oracle.calm moment
  rw [ran] at grown
  refine ⟨fun oracle goes => ?_, calm, grown.length_le⟩
  have same : process.run oracle moment = (.done value, middle) := by
    rw [← ran]
    apply process.causal
    intro count site _ before
    rw [ran] at before
    exact goes count site before
  exact run_bind_done same

theorem first (advances : Advances process moment rest last) : Advances (process >>= next) moment (rest >>= next) last := by
  refine ⟨fun oracle goes => ?_, advances.calm, advances.grown⟩
  rw [run_bind, run_bind, advances.run oracle goes]

theorem attempt (advances : Advances process moment rest last) : Advances process.attempt moment rest.attempt last := by
  refine ⟨fun oracle goes => ?_, advances.calm, advances.grown⟩
  change (handOver (process.run oracle moment).1, (process.run oracle moment).2) = _
  rw [advances.run oracle goes]
  rfl

theorem trans (left : Advances process moment rest middle) (right : Advances rest middle final last) :
    Advances process moment final last := by
  refine ⟨fun oracle goes => ?_, right.calm, left.grown.trans right.grown⟩
  rw [left.run oracle fun count site before => goes count site (before.trans_le right.grown), right.run oracle goes]

/-- A process crashes where what is left of it does. -/
theorem stops {stopped : Moment σ ι} (advances : Advances process moment rest last) (stops : StopsAt rest last stopped site) :
    StopsAt process moment stopped site := by
  refine ⟨?_, stops.calm⟩
  have earlier : last.taken.length ≤ stopped.taken.length := by
    have grown := rest.grows (Oracle.crashAfter stopped.taken.length) last
    rw [stops.run] at grown
    rcases List.suffix_cons_iff.mp grown with whole | inside
    · have crashed := advances.calm (site, .crashed) (by rw [whole]; exact List.mem_cons_self)
      rcases crashed with impossible | impossible <;> cases impossible
    · exact inside.length_le
  have goes (count : ℕ) (site : ι) (before : count < last.taken.length) :
      Oracle.crashAfter stopped.taken.length count site = .succeed := if_pos (before.trans_le earlier)
  rw [advances.run _ goes, stops.run]

/-- Until the step that fails, the process goes on calmly. -/
theorem fails (advances : Advances process moment rest last) (errno : ℕ) :
    process.run (Oracle.failAt last.taken.length errno) moment = rest.run (Oracle.failAt last.taken.length errno) last :=
  advances.run _ fun _ _ before => if_neg before.ne

end Advances

namespace StopsAt

/-- A step crashes before it takes effect. -/
theorem call {denied : ℕ → ε} {effect : σ → Except ε (α × σ)} (calm : Moment.Within Calmly moment) :
    StopsAt (Process.call site denied effect) moment moment site := by
  refine ⟨?_, calm⟩
  have fate : Oracle.crashAfter moment.taken.length moment.taken.length site = .crash := if_neg (Nat.lt_irrefl _)
  rw [Process.call]
  dsimp only
  rw [fate]

theorem act {denied : ε} {effect : σ → Except ε (α × σ)} (calm : Moment.Within Calmly moment) :
    StopsAt (Process.act site denied effect) moment moment site := call calm

theorem observe {denied : ε} {view : σ → Except ε α} (calm : Moment.Within Calmly moment) :
    StopsAt (Process.observe site denied view) moment moment site := act calm

theorem first (stops : StopsAt process moment last site) : StopsAt (process >>= next) moment last site :=
  ⟨run_bind_crashed stops.run, stops.calm⟩

/-- What was done calmly before the crash was done. -/
theorem after (ran : process.run Oracle.calm moment = (.done value, middle)) (calm : Moment.Within Calmly middle)
    (stops : StopsAt (next value) middle last site) : StopsAt (process >>= next) moment last site :=
  (Advances.after ran calm).stops stops

/-- The error of a crash is no error. -/
theorem mapError {ε' : Type*} {report : ε → ε'} (stops : StopsAt process moment last site) :
    StopsAt (process.mapError report) moment last site := by
  refine ⟨?_, stops.calm⟩
  change (reportAs report (process.run _ moment).1, (process.run _ moment).2) = _
  rw [stops.run]
  rfl

theorem attempt (stops : StopsAt process moment last site) : StopsAt process.attempt moment last site := by
  refine ⟨?_, stops.calm⟩
  change (handOver (process.run _ moment).1, (process.run _ moment).2) = _
  rw [stops.run]
  rfl

theorem leads {allowed : ι → Went → Prop} {world : σ} (stops : StopsAt process ⟨world, []⟩ last site)
    (permits : ∀ site went, Calmly site went → allowed site went) (crashes : allowed site .crashed) :
    Leads allowed process world last.world := by
  refine ⟨Oracle.crashAfter last.taken.length, ?_, by rw [stops.run]; rfl⟩
  rw [stops.run]
  intro step member
  rcases List.mem_cons.mp member with rfl | earlier
  · exact crashes
  · exact permits _ _ (stops.calm step earlier)

end StopsAt

section FailAt

variable {count errno : ℕ}

theorem run_call_failAt {denied : ℕ → ε} {effect : σ → Except ε (α × σ)} :
    (Process.call site denied effect).run (Oracle.failAt moment.taken.length errno) moment =
      (.failed (denied errno), moment.step site .failed moment.world) := by
  have fate : Oracle.failAt moment.taken.length errno moment.taken.length site = .fail errno := if_pos rfl
  rw [Process.call]
  dsimp only
  rw [fate]

/-- Once the failing step is over, a run is calm. -/
theorem run_failAt_past (past : count < moment.taken.length) :
    process.run (Oracle.failAt count errno) moment = process.run Oracle.calm moment :=
  process.causal _ _ _ fun _ _ begun _ => if_neg (past.trans_le begun).ne'

end FailAt

end Process

end Machine
