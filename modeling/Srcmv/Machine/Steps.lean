import Srcmv.Machine.Process

/-! # Running a process from a known world

Symbolic execution of interruptible processes: each rule takes one step from an exact world and goes
on with what follows. `Ends` describes a process that only the environment can stop early.
-/

namespace Machine

universe u

namespace Process

variable {σ ι ε : Type*} {α β : Type u}

/-- The environment may fail a step at the site or crash before it. -/
def Disturbs (allowed : ι → Went → Prop) (site : ι) : Prop := allowed site .failed ∨ allowed site .crashed

/-- The environment may disturb some step. -/
def Disturbed (allowed : ι → Went → Prop) : Prop := ∃ site, Disturbs allowed site

/-- Done as `done` says; stopped early by a denial or a crash, the world is as `rest` says. -/
def Ends (denial : ε → Prop) (done : α → σ → Prop) (rest : σ → Prop) : Ending σ ε α where
  done
  failed error world := denial error ∧ rest world
  crashed := rest

/-- Stopped by the environment where it was. -/
def Held (allowed : ι → Went → Prop) (world : σ) : σ → Prop := fun later => Disturbed allowed ∧ later = world

/-- However the process stops, the world is as `invariant` says. -/
def Keeps (invariant : σ → Prop) : Ending σ ε α := ⟨fun _ => invariant, fun _ => invariant, invariant⟩

/-- The result is known, and the world at the end is as `holds` says. -/
def Returns (value : α) (holds : σ → Prop) : α → σ → Prop := fun value' world' => value' = value ∧ holds world'

/-- The result and the world at the end are known. -/
abbrev Exactly (value : α) (world : σ) : α → σ → Prop := Returns value (· = world)

variable {allowed : ι → Went → Prop} {denial : ε → Prop} {process : Process σ ι ε α} {next : α → Process σ ι ε β}
  {world world' : σ} {value : α} {done : α → σ → Prop} {rest rest' before : σ → Prop} {site : ι} {denied : ε}

theorem Triple.weaken {done' : α → σ → Prop} (triple : Triple allowed before process (Ends denial done rest))
    (finished : ∀ value world, done value world → done' value world) (covered : ∀ world, rest world → rest' world) :
    Triple allowed before process (Ends denial done' rest') :=
  triple.mono (fun _ holds => holds) finished (fun _ world failed => ⟨failed.1, covered world failed.2⟩) covered

/-- Whatever error is reported. -/
theorem Triple.lenient (triple : Triple allowed before process (Ends denial done rest)) :
    Triple allowed before process (Ends (fun _ => True) done rest) :=
  triple.mono (fun _ holds => holds) (fun _ _ finished => finished) (fun _ _ failed => ⟨trivial, failed.2⟩)
    fun _ stopped => stopped

/-- Worlds may be considered one by one. -/
theorem Triple.pointwise {ending : Ending σ ε α}
    (each : ∀ world, before world → Triple allowed (· = world) process ending) : Triple allowed before process ending :=
  fun oracle moment holds => each moment.world holds oracle moment rfl

theorem Triple.andThen {middle : α → σ → Prop} {done : β → σ → Prop}
    (first : Triple allowed before process (Ends denial middle rest')) (covered : ∀ world, rest' world → rest world)
    (second : ∀ value, Triple allowed (middle value) (next value) (Ends denial done rest)) :
    Triple allowed before (process >>= next) (Ends denial done rest) := by
  apply Triple.bind middle
  · exact first.weaken (fun _ _ holds => holds) covered
  · exact second

/-- Go on from the known end of the first process. -/
theorem Triple.exactlyThen {done : β → σ → Prop}
    (first : Triple allowed before process (Ends denial (Exactly value world') rest'))
    (covered : ∀ world, rest' world → rest world)
    (second : Triple allowed (· = world') (next value) (Ends denial done rest)) :
    Triple allowed before (process >>= next) (Ends denial done rest) := by
  apply first.andThen covered
  intro result
  apply Triple.fact
  rintro rfl
  exact second

/-- Where being held up is safe, only the end matters. -/
theorem Triple.safely (triple : Triple allowed before process (Ends denial done (Held allowed world)))
    (safe : Disturbed allowed → rest world) : Triple allowed before process (Ends denial done rest) := by
  apply triple.weaken fun _ _ finished => finished
  rintro later ⟨disturbed, rfl⟩
  exact safe disturbed

/-- Go on from wherever the first process ends. -/
theorem Triple.calls {middle : σ → Prop} {done : β → σ → Prop}
    (first : Triple allowed before process (Ends denial (Returns value middle) rest))
    (second : ∀ world, middle world → Triple allowed (· = world) (next value) (Ends denial done rest)) :
    Triple allowed before (process >>= next) (Ends denial done rest) := by
  apply Triple.bind (Returns value middle) first
  intro result
  apply Triple.fact
  rintro rfl
  exact Triple.pointwise second

/-- Go on from every end of the first process. -/
theorem Triple.proceeds {middle : α → σ → Prop} {done : β → σ → Prop}
    (first : Triple allowed before process (Ends denial middle rest))
    (second : ∀ value world, middle value world → Triple allowed (· = world) (next value) (Ends denial done rest)) :
    Triple allowed before (process >>= next) (Ends denial done rest) :=
  Triple.bind middle first fun value => Triple.pointwise (second value)

/-- An ending that allows for stopping where the world is as `rest` says. -/
structure Ending.Covers (ending : Ending σ ε α) (rest : σ → Prop) : Prop where
  failed : ∀ error world, rest world → ending.failed error world
  crashed : ∀ world, rest world → ending.crashed world

theorem Ends.covers : (Ends (fun _ => True) done rest : Ending σ ε α).Covers rest :=
  ⟨fun _ _ stopped => ⟨trivial, stopped⟩, fun _ stopped => stopped⟩

/-- Go on from every end of the first process to an ending that covers where it stops. -/
theorem Triple.endsThen {middle : α → σ → Prop} {ending : Ending σ ε β}
    (first : Triple allowed before process (Ends denial middle rest)) (covers : ending.Covers rest)
    (second : ∀ value world, middle value world → Triple allowed (· = world) (next value) ending) :
    Triple allowed before (process >>= next) ending := by
  apply Triple.bind middle
  · exact first.mono (fun _ holds => holds) (fun _ _ finished => finished)
      (fun error world stopped => covers.failed error world stopped.2) covers.crashed
  · exact fun value => Triple.pointwise (second value)

/-- Ending at all keeps what every ending promises. -/
theorem Triple.keeps (triple : Triple allowed before process (Ends denial done rest)) (finished : ∀ value world, done value world → rest world) :
    Triple allowed before process (Keeps rest) :=
  triple.mono (fun _ holds => holds) finished (fun _ _ failed => failed.2) fun _ stopped => stopped

theorem Triple.keepsThen {invariant : σ → Prop} (first : Triple allowed before process (Keeps invariant))
    (second : ∀ value, Triple allowed invariant (next value) (Keeps invariant)) :
    Triple allowed before (process >>= next) (Keeps invariant) := Triple.bind (fun _ => invariant) first second

theorem Triple.refuseKeeps {invariant : σ → Prop} {error : ε} :
    Triple allowed invariant (Process.refuse error : Process σ ι ε α) (Keeps invariant) := Triple.refuse fun _ holds => holds

theorem Triple.pureKeeps {invariant : σ → Prop} :
    Triple allowed invariant (Pure.pure value : Process σ ι ε α) (Keeps invariant) := Triple.pure fun _ holds => holds

theorem Triple.attemptKeeps {invariant : σ → Prop} (triple : Triple allowed before process (Keeps invariant)) :
    Triple allowed before process.attempt (Keeps invariant) := Triple.attempt triple

/-- In some run whose steps go as allowed the process stops in this world. -/
def Leads (allowed : ι → Went → Prop) (process : Process σ ι ε α) (world later : σ) : Prop :=
  ∃ oracle, Moment.Within allowed (process.run oracle ⟨world, []⟩).2 ∧ (process.run oracle ⟨world, []⟩).2.world = later

/-- Where a process can lead. -/
theorem Triple.leads {invariant : σ → Prop} (triple : Triple allowed before process (Keeps invariant)) (holds : before world)
    (leads : Leads allowed process world world') : invariant world' := by
  obtain ⟨oracle, within, rfl⟩ := leads
  have result := triple oracle ⟨world, []⟩ holds within
  cases stopped : (process.run oracle ⟨world, []⟩).1 with
  | done value => rw [stopped] at result; exact result
  | failed error => rw [stopped] at result; exact result
  | crashed => rw [stopped] at result; exact result

/-- In some run whose steps go as allowed the process is done with this value in this world. -/
def Yields (allowed : ι → Went → Prop) (process : Process σ ι ε α) (world : σ) (value : α) (later : σ) : Prop :=
  ∃ oracle, Moment.Within allowed (process.run oracle ⟨world, []⟩).2 ∧ (process.run oracle ⟨world, []⟩).1 = .done value ∧
    (process.run oracle ⟨world, []⟩).2.world = later

/-- What a process yields. -/
theorem Triple.yields {ending : Ending σ ε α} (triple : Triple allowed before process ending) (holds : before world)
    (yields : Yields allowed process world value world') : ending.done value world' := by
  obtain ⟨oracle, within, stopped, rfl⟩ := yields
  have result := triple oracle ⟨world, []⟩ holds within
  rw [stopped] at result
  exact result

/-- Whoever is not interested in the value ends in the same world. -/
theorem Yields.discards (yields : Yields allowed process world value world') :
    Leads allowed (process >>= fun _ => Pure.pure PUnit.unit) world world' := by
  obtain ⟨oracle, within, stopped, same⟩ := yields
  have ran : (process >>= fun _ => (Pure.pure PUnit.unit : Process σ ι ε PUnit)).run oracle ⟨world, []⟩ =
      (.done PUnit.unit, (process.run oracle ⟨world, []⟩).2) := run_bind_done (Prod.ext stopped rfl)
  exact ⟨oracle, by rw [ran]; exact within, by rw [ran]; exact same⟩

/-- In some run whose steps go as allowed the process fails with this error in this world. -/
def Fails (allowed : ι → Went → Prop) (process : Process σ ι ε α) (world : σ) (error : ε) (later : σ) : Prop :=
  ∃ oracle, Moment.Within allowed (process.run oracle ⟨world, []⟩).2 ∧ (process.run oracle ⟨world, []⟩).1 = .failed error ∧
    (process.run oracle ⟨world, []⟩).2.world = later

/-- What holds when a process fails. -/
theorem Triple.fails {ending : Ending σ ε α} {error : ε} (triple : Triple allowed before process ending) (holds : before world)
    (fails : Fails allowed process world error world') : ending.failed error world' := by
  obtain ⟨oracle, within, stopped, rfl⟩ := fails
  have result := triple oracle ⟨world, []⟩ holds within
  rw [stopped] at result
  exact result

/-- Let go on calmly, a process is done or fails. -/
theorem Triple.calm_ends {ending : Ending σ ε α} (triple : Triple Calmly before process ending) (holds : before world)
    (permits : ∀ site went, Calmly site went → allowed site went) :
    (∃ value later, Yields allowed process world value later ∧ ending.done value later) ∨
      ∃ error later, Fails allowed process world error later ∧ ending.failed error later := by
  have within : Moment.Within Calmly (process.run Oracle.calm ⟨world, []⟩).2 := by
    intro step member
    rcases process.calm ⟨world, []⟩ step member with impossible | went
    · cases impossible
    · exact went
  have result := triple Oracle.calm ⟨world, []⟩ holds within
  have allowed' : Moment.Within allowed (process.run Oracle.calm ⟨world, []⟩).2 :=
    fun step member => permits _ _ (within step member)
  cases stopped : (process.run Oracle.calm ⟨world, []⟩).1 with
  | done value =>
    rw [stopped] at result
    exact .inl ⟨value, _, ⟨_, allowed', stopped, rfl⟩, result⟩
  | failed error =>
    rw [stopped] at result
    exact .inr ⟨error, _, ⟨_, allowed', stopped, rfl⟩, result⟩
  | crashed =>
    obtain ⟨site, member⟩ := process.honest _ _ stopped
    rcases within _ member with impossible | impossible <;> cases impossible

theorem Triple.returns (holds : done value world) :
    Triple allowed (· = world) (Pure.pure value : Process σ ι ε α) (Ends denial done rest) :=
  Triple.pure fun _ same => same ▸ holds

/-- A step whose effect is known. -/
theorem Triple.responds {reported : ℕ → ε} {effect : σ → Except ε (α × σ)} (effective : effect world = .ok (value, world'))
    (areDenials : ∀ errno, denial (reported errno)) :
    Triple allowed (· = world) (Process.call site reported effect)
      (Ends denial (Exactly value world') fun later => Disturbs allowed site ∧ later = world) := by
  apply Triple.call
  · intro permitted later same
    exact ⟨.inr permitted, same⟩
  · intro permitted errno later same
    exact ⟨areDenials errno, .inl permitted, same⟩
  · rintro later rfl result reached performed
    rw [effective] at performed
    cases performed
    exact ⟨rfl, rfl⟩
  · rintro - later rfl error rejected
    rw [effective] at rejected
    cases rejected

theorem Triple.acts {effect : σ → Except ε (α × σ)} (effective : effect world = .ok (value, world'))
    (isDenial : denial denied) :
    Triple allowed (· = world) (Process.act site denied effect)
      (Ends denial (Exactly value world') fun later => Disturbs allowed site ∧ later = world) :=
  Triple.responds effective fun _ => isDenial

theorem Triple.actsThen {effect : σ → Except ε (α × σ)} {done : β → σ → Prop}
    (effective : effect world = .ok (value, world')) (isDenial : denial denied)
    (interrupted : Disturbs allowed site → rest world)
    (second : Triple allowed (· = world') (next value) (Ends denial done rest)) :
    Triple allowed (· = world) (Process.act site denied effect >>= next) (Ends denial done rest) := by
  apply (Triple.acts effective isDenial).exactlyThen _ second
  rintro later ⟨disturbed, rfl⟩
  exact interrupted disturbed

theorem Triple.observes {view : σ → Except ε α} (seen : view world = .ok value) (isDenial : denial denied) :
    Triple allowed (· = world) (Process.observe site denied view)
      (Ends denial (Exactly value world) fun later => Disturbs allowed site ∧ later = world) :=
  Triple.acts (by rw [seen]; rfl) isDenial

/-- An observation in the middle of a process that only observes. -/
theorem Triple.watches {view : σ → Except ε α} (seen : view world = .ok value) (isDenial : denial denied) :
    Triple allowed (· = world) (Process.observe site denied view)
      (Ends denial (Exactly value world) (Held allowed world)) := by
  apply (Triple.observes seen isDenial).weaken
  · exact fun _ _ finished => finished
  · rintro later ⟨disturbed, same⟩
    exact ⟨⟨site, disturbed⟩, same⟩

/-- An existence check that cannot fail answers truly. -/
theorem Triple.probes {holds : σ → Bool} (sees : ¬allowed site .failed) :
    Triple allowed (· = world) (Process.probe site holds : Process σ ι ε Bool)
      (Ends denial (Exactly (holds world) world) fun later => Disturbs allowed site ∧ later = world) := by
  apply Triple.probe
  · intro permitted later same
    exact ⟨.inr permitted, same⟩
  · intro permitted
    exact absurd permitted sees
  · rintro later rfl
    exact ⟨rfl, rfl⟩

end Process

end Machine
