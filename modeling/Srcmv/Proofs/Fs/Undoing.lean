import Srcmv.Proofs.Fs.Reaching

/-! # Uninterrupted rollbacks

What a rollback does that nothing interrupts, from every world of a transaction that is still active.
It stands back exactly when a rollback that has begun finds an unrecorded candidate.
-/

namespace Srcmv.Fs

open Srcmv.Core Machine Process

variable {allowed : Site → Went → Prop} {job : Job} {world : World} {config : Config} {phase : Phase}

/-- The last published record is in this state. -/
def World.LastIn (world : World) (global : GlobalState) : Prop :=
  ∃ last, world.published.getLast? = some last ∧ last.globalState = global

/-- An uninterrupted rollback is done: every target holds its original, no directory is left, and the
rollback is recorded if anything was. -/
def Job.RollsBack (job : Job) (world : World) : Prop :=
  ∃ later, (recoverLocked job.setting job.manifest.transactionId .rollback).run Oracle.calm ⟨world, []⟩ =
      (.done ⟨job.manifest.transactionId, "rolled_back"⟩, later) ∧
    job.HoldsOriginal later.world ∧ Idle later.world.control ∧
    (later.world.published = [] ∧ world.published = [] ∨ later.world.LastIn .rolledBack)

/-- A rollback has begun, and something stands at a candidate location that is not recorded. -/
def Job.CandidateInTheWay (job : Job) (world : World) : Prop :=
  ∃ (last : StateSnapshot) (index : ℕ) (target : ManifestTarget) (state : TargetState), world.published.getLast? = some last ∧ last.globalState = .rollingBack ∧
    job.manifest.targets[index]? = some target ∧ last.targets[index]? = some state ∧ state.candidate.kind = .missing ∧
    world.item? (.artifact job.manifest.transactionId target.candidateName) ≠ none

section Worlds

/-- In a world that is not between two steps of a publication nothing is half written. -/
theorem Job.Running.unbegun (running : job.Running allowed config phase world) (untorn : ¬Torn allowed) :
    config.temporary = none := by
  cases written : config.temporary with
  | none => rfl
  | some bytes => exact absurd (running.temporary bytes written).1 untorn

theorem Job.Running.calmly (running : job.Running allowed config phase world) (unbegun : config.temporary = none) :
    job.Running Calmly config phase world := .of running.shows_ unbegun running.path running.placed

theorem Job.Unrecorded.calmly (unrecorded : job.Unrecorded allowed world) (untorn : ¬Torn allowed) :
    job.Unrecorded Calmly world := by
  obtain ⟨object, children, only, stateless, torn | whole⟩ := unrecorded.directory
  · exact absurd torn untorn
  · exact ⟨unrecorded.files, ⟨object, children, only, stateless, .inr whole⟩, unrecorded.published, unrecorded.refusals⟩

/-- The last record of a running transaction. -/
theorem Job.Running.last (running : job.Running allowed config phase world) :
    ∃ last, world.published.getLast? = some last ∧ last.globalState = phase.globalState ∧
      last.targets = phase.targets job.course := by
  obtain ⟨earlier, -, final⟩ := Job.chain_getLast? running.path
  exact ⟨_, by rw [running.shows_.published]; exact final, rfl, rfl⟩

theorem Job.Running.lastIn (running : job.Running allowed config phase world) : world.LastIn phase.globalState := by
  obtain ⟨last, published, global, -⟩ := running.last
  exact ⟨last, published, global⟩

theorem Job.Running.isActive (running : job.Running allowed config phase world) :
    job.manifest.transactionId ∈ world.control.transactions := by
  obtain ⟨_, _, only, -⟩ := running.shows_.active
  exact only.isActive

/-- A transaction in which every candidate was recorded once was prepared. -/
theorem Job.Running.prepared_iff (sound : job.Sound) (running : job.Running allowed config phase world) :
    (∃ state ∈ world.published, state.globalState = .prepared) ↔ phase.ready = job.course.count := by
  rw [← running.path.prepared_iff sound.course_of.positive, running.shows_.published]
  have states : (job.chain config.phases).map StateSnapshot.globalState = config.phases.map Phase.globalState :=
    map_globalState_chainOf
  rw [← List.mem_map, ← List.mem_map, states]

/-- An active transaction has no state record yet or is running. -/
theorem Job.Rests.active (rests : job.Rests allowed world) (active : job.manifest.transactionId ∈ world.control.transactions) :
    job.Unrecorded allowed world ∨ ∃ config phase, job.Running allowed config phase world := by
  rcases rests with unrecorded | running | ended
  · exact .inl unrecorded
  · exact .inr ⟨_, _, running⟩
  · rw [ended.left.inactive] at active
    exact absurd active Std.ExtTreeMap.not_mem_empty

end Worlds

section Rollback

variable (sound : job.Sound)

include sound in
/-- What stands in the way of a rollback shows in the last record and at the candidate location. -/
theorem Job.Running.recoverable_iff (running : job.Running allowed config phase world) :
    job.Recoverable config phase ↔ ¬job.CandidateInTheWay world := by
  obtain ⟨last, final, global, targets⟩ := running.last
  constructor
  · rintro recoverable ⟨other, index, target, state, found, begun, here, recorded, missing, occupied⟩
    obtain rfl := Option.some.inj (final.symm.trans found)
    have inside : index < job.course.count := (List.getElem?_eq_some_iff.mp here).1
    rw [targets, Phase.getElem?_targets inside] at recorded
    obtain rfl := Option.some.inj recorded
    have unready : phase.ready ≤ index := by
      by_contra ready
      rw [Phase.target, Phase.candidate_of_lt (Nat.lt_of_not_le ready)] at missing
      cases missing
    have rollingBack : phase.globalState = .rollingBack := global.symm.trans begun
    obtain ⟨stage, allows, lies, whole⟩ := recoverable index target here
    have notPartly := whole rollingBack
    rw [Phase.Allows, rollingBack] at allows
    rcases allows with rfl | ⟨-, ⟨ready, -⟩ | ⟨-, rfl⟩⟩
    · apply occupied
      change world.item? (job.locationOf target .candidate) = none
      rw [running.shows_.item? sound here, show config.layout index = job.untouched index from lies]
      rfl
    · omega
    · exact notPartly rfl
  · intro free
    by_contra stuck
    obtain ⟨begun, index, target, count, here, unready, layout⟩ := running.placed.blocked stuck
    have inside : index < job.course.count := (List.getElem?_eq_some_iff.mp here).1
    refine free ⟨last, index, target, _, final, global.trans begun, here,
      by rw [targets]; exact Phase.getElem?_targets inside, ?_, ?_⟩
    · rw [Phase.target, Phase.candidate_of_le unready]
    · change world.item? (job.locationOf target .candidate) ≠ none
      rw [running.shows_.item? sound here, layout]
      simp [Job.partly]

/-- The last record of a transaction that was recorded to its end. -/
theorem Job.Recorded.lastIn {committed : Bool} (recorded : job.Recorded committed world) :
    world.LastIn (terminalState committed) := by
  obtain ⟨phases, phase, path, terminal, published⟩ := recorded
  obtain ⟨earlier, -, final⟩ := @Job.chain_getLast? _ ⟨phases, job.untouched, none⟩ _ path
  exact ⟨_, by rw [published]; exact final, terminal⟩

theorem Job.Concluded.lastIn {committed : Bool} (concluded : job.Concluded committed world) :
    world.LastIn (terminalState committed) := concluded.recorded.lastIn

include sound in
/-- A running transaction that was not committed is rolled back, if nothing is in the way. -/
theorem Job.Running.rollsBack (running : job.Running allowed config phase world) (unbegun : config.temporary = none)
    (recoverable : job.Recoverable config phase) (uncommitted : phase.globalState ≠ .committed) :
    ∃ later, (recoverLocked job.setting job.manifest.transactionId .rollback).run Oracle.calm ⟨world, []⟩ =
        (.done ⟨job.manifest.transactionId, "rolled_back"⟩, later) ∧ job.Concluded false later.world := by
  have settled := Config.settled_of_unbegun unbegun
  have recovering : Triple Calmly (· = world) (recoverLocked job.setting job.manifest.transactionId .rollback)
      (Finishes (fun outcome later => outcome = ⟨job.manifest.transactionId, "rolled_back"⟩ ∧ job.Concluded false later)
        fun _ => False) := by
    apply recoverLocked_triple sound (fun disturbed => absurd disturbed Calmly.undisturbed) Calmly.sees
      (running.calmly unbegun) .rollback
    · exact fun begun => begun unbegun
    · rintro (blocked | committed) _ _ _
      · rw [settled] at blocked
        exact blocked recoverable
      · exact uncommitted committed
    · exact fun impossible => nomatch impossible
    · exact fun impossible => nomatch impossible
    · exact fun _ disturbed => absurd disturbed Calmly.undisturbed
  obtain ⟨_, later, ran, rfl, concluded⟩ := recovering.calm_done (fun _ _ failed => failed.2) (fun _ stopped => stopped) rfl
  exact ⟨later, ran, concluded⟩

include sound in
/-- A rollback that finds an unrecorded candidate in the way is not done. -/
theorem Job.Running.stuck (running : job.Running allowed config phase world) (unbegun : config.temporary = none)
    (blocked : ¬job.Recoverable config phase) : ¬job.RollsBack world := by
  have begun := (running.placed.blocked blocked).1
  have refused : Triple Calmly (· = world) (recoverLocked job.setting job.manifest.transactionId .rollback)
      (Finishes (fun _ _ => False) fun _ => True) := by
    rw [recoverLocked]
    apply ((running.calmly unbegun).scan_triple sound (fun _ => trivial) fun _ => trivial).proceeds
    rintro entry later ⟨rfl, active⟩
    rw [active]
    dsimp only
    rw [recoverActive]
    apply ((running.calmly unbegun).load_triple sound fun _ _ _ _ _ => trivial).lenient.proceeds
    rintro ⟨manifest, session⟩ later ⟨rfl, loaded⟩
    rw [Config.settled_of_unbegun unbegun] at loaded
    obtain ⟨entry, member, impermissible⟩ := loaded.not_permits sound blocked .rollback
    dsimp only
    rw [recoverRollbackActive]
    dsimp only
    rw [loaded.follows.records.global, begun]
    dsimp only
    rw [rollBackRecorded]
    apply Triple.bind fun _ _ => False
    · exact classifyAllTargets_refusesThen member impermissible (fun _ => ⟨trivial, trivial⟩) trivial
    · exact fun _ _ _ impossible => impossible.elim
  rintro ⟨later, ran, -⟩
  have result := refused.run_calm (fun _ => ⟨.inl rfl, .inr rfl⟩) rfl
  rw [ran] at result
  exact result

include sound in
/-- A transaction without state records is rolled back. -/
theorem Job.Unrecorded.rollsBack (unrecorded : job.Unrecorded allowed world) (untorn : ¬Torn allowed) :
    job.RollsBack world := by
  have calm : job.Unrecorded Calmly world := unrecorded.calmly untorn
  have accepted := calm.accepted sound fun torn => Calmly.undisturbed torn.disturbed
  obtain ⟨_, later, ran, -, rfl, ended, idle⟩ := (calm.recover_triple .rollback).calm_done
    (fun _ _ failed => by
      rcases failed.2.1 with disturbed | impossible | rejected
      · exact Calmly.undisturbed disturbed
      · cases impossible
      · exact rejected accepted)
    (fun _ stopped => by
      rcases stopped.1 with disturbed | impossible | rejected
      · exact Calmly.undisturbed disturbed
      · cases impossible
      · exact rejected accepted) rfl
  refine ⟨later, ran, ended.holds sound, idle, ?_⟩
  rcases ended.published with ⟨-, empty⟩ | recorded
  · exact .inl ⟨empty, unrecorded.published⟩
  · exact .inr (Job.Concluded.lastIn ⟨ended, recorded, idle⟩)

end Rollback

end Srcmv.Fs
