import Srcmv.Proofs.Fs.Reporting
import Srcmv.Soundness.JournalLimits

/-! # Completing a stopped transaction

From every world a prepared or committing transaction can be stopped in, an uninterrupted completion
installs every candidate and records the commit; it is reported as done exactly when the finished
directory fits the recovery limit.
-/

namespace Srcmv.Fs

open Srcmv.Core Machine Process

variable {job : Job} {world : World}

/-- Small originals fit the recovery limit together with every record. -/
theorem Job.Sound.completes (sound : job.Sound) (small : job.originalBytes ≤ 112 * 1024 * 1024) : job.Completes := by
  obtain ⟨phases, path⟩ := exists_path_committed sound.course_of.positive
  have chained : SoundChain job.crates job.manifest (job.chain phases) := path.sound sound.course_of
  have manifest := sound.encodes.size
  have states := chained.bytes
  have limit : maxRecordBytes + maxStateBytes + 112 * 1024 * 1024 ≤ maxRecoveryBytes := by
    norm_num [maxRecordBytes, maxStateBytes, maxRecoveryBytes]
  refine ⟨phases, path, ?_⟩
  rw [Job.Fits, if_pos rfl, Job.recordBytes]
  have recorded : (manifestRecord job.crates job.manifest).length ≤ maxRecordBytes := manifest
  omega

/-- What an uninterrupted completion leaves behind, done or not. -/
def Job.CompletedIn (job : Job) (world : World) : Prop :=
  job.HoldsPlanned world ∧ world.LastIn .committed

/-- The last record permits a completion. -/
def World.Completable (world : World) : Prop :=
  world.LastIn .prepared ∨ world.LastIn .committing ∨ world.LastIn .committed

theorem World.Completable.starts (completable : world.Completable) : ∃ state, world.LastIn state ∧ RecoveryMode.complete.Starts state := by
  rcases completable with last | last | last
  · exact ⟨_, last, .inl rfl⟩
  · exact ⟨_, last, .inr (.inl rfl)⟩
  · exact ⟨_, last, .inr (.inr rfl)⟩

/-- The last record of an active transaction is that of its phase. -/
theorem Job.Reaches.runs (sound : job.Sound) {allowed : Site → Went → Prop} (sees : ∀ subject, ¬allowed (.existence subject) .failed)
    (reaches : job.Reaches allowed world) (active : job.manifest.transactionId ∈ world.control.transactions) {state : GlobalState}
    (last : world.LastIn state) : ∃ config phase, job.Running allowed config phase world ∧ phase.globalState = state := by
  obtain ⟨other, found, global⟩ := last
  rcases (reaches.rests sound sees).active active with unrecorded | ⟨config, phase, running⟩
  · rw [unrecorded.published] at found
    cases found
  · obtain ⟨final, published, same, -⟩ := running.last
    obtain rfl := Option.some.inj (published.symm.trans found)
    exact ⟨config, phase, running, same.symm.trans global⟩

/-- Completing a running transaction that nothing interrupts. -/
theorem Job.Running.completes (sound : job.Sound) (inputs : job.InputsHold) {allowed : Site → Went → Prop}
    {config : Config} {phase : Phase} (running : job.Running allowed config phase world) (unbegun : config.temporary = none)
    (starts : RecoveryMode.complete.Starts phase.globalState) :
    Triple Calmly (· = world) (recoverLocked job.setting job.manifest.transactionId .complete)
      (Finishes (fun outcome later => outcome = ⟨job.manifest.transactionId, "committed"⟩ ∧ job.Recovered .complete later)
        fun later => job.Ended true later ∧ ¬job.Completes) := by
  apply recoverLocked_triple sound (fun disturbed => absurd disturbed Calmly.undisturbed) Calmly.sees
    (running.calmly unbegun) .complete
  · exact fun begun => absurd unbegun begun
  · exact fun refuses => absurd starts refuses
  · exact fun _ changed => absurd inputs changed
  · rintro - (disturbed | ⟨phases, path, large⟩) later ended
    · exact absurd disturbed Calmly.undisturbed
    · exact ⟨ended, fun completes => large ((Job.completes_iff path).mp completes)⟩
  · exact fun impossible => nomatch impossible

/-- Completing a transaction that was stopped after its preparation. -/
theorem Job.Reaches.completes (sound : job.Sound) (inputs : job.InputsHold) (reaches : job.Reaches CrashingBetweenRecords world)
    (active : job.manifest.transactionId ∈ world.control.transactions) (completable : world.Completable) :
    Triple Calmly (· = world) (recoverLocked job.setting job.manifest.transactionId .complete)
      (Finishes (fun outcome later => outcome = ⟨job.manifest.transactionId, "committed"⟩ ∧ job.Recovered .complete later)
        fun later => job.Ended true later ∧ ¬job.Completes) := by
  obtain ⟨state, last, starts⟩ := completable.starts
  obtain ⟨config, phase, running, rfl⟩ := reaches.runs sound CrashingBetweenRecords.sees active last
  exact running.completes sound inputs (running.unbegun CrashingBetweenRecords.untorn) starts

theorem Job.Ended.completedIn (sound : job.Sound) (ended : job.Ended true world) : job.CompletedIn world := by
  refine ⟨ended.holds sound, ?_⟩
  rcases ended.published with ⟨impossible, -⟩ | recorded
  · cases impossible
  · exact recorded.lastIn

/-- Every completion after the preparation installs all candidates and records the commit; it is done,
without leaving anything in the control tree, exactly if its directory fits the recovery limit. -/
theorem completion_after_prepared (sound : job.Sound) (inputs : job.InputsHold)
    (reaches : job.Reaches CrashingBetweenRecords world)
    (active : job.manifest.transactionId ∈ world.control.transactions) (completable : world.Completable) :
    ∃ outcome later, (recoverLocked job.setting job.manifest.transactionId .complete).run Oracle.calm ⟨world, []⟩ =
        (outcome, later) ∧
      job.CompletedIn later.world ∧
      (outcome = .done ⟨job.manifest.transactionId, "committed"⟩ ↔ job.Completes) ∧
      (job.Completes → Idle later.world.control) := by
  have result := (reaches.completes sound inputs active completable).run_calm (fun _ => ⟨.inl rfl, .inr rfl⟩) rfl
  cases stopped : (recoverLocked job.setting job.manifest.transactionId .complete).run Oracle.calm ⟨world, []⟩ with
  | mk outcome later =>
    rw [stopped] at result
    refine ⟨outcome, later, rfl, ?_⟩
    cases outcome with
    | done outcome =>
      obtain ⟨rfl, completes, concluded⟩ := result
      exact ⟨concluded.ended.completedIn sound, iff_of_true rfl completes, fun _ => concluded.idle⟩
    | failed error =>
      obtain ⟨-, ended, large⟩ := result
      refine ⟨ended.completedIn sound, iff_of_false ?_ large, fun completes => absurd completes large⟩
      intro impossible
      cases impossible
    | crashed =>
      obtain ⟨ended, large⟩ := result
      refine ⟨ended.completedIn sound, iff_of_false ?_ large, fun completes => absurd completes large⟩
      intro impossible
      cases impossible

/-- The small transaction, stopped when its candidates are recorded. -/
theorem completion_after_prepared_small : ∃ world, Sample.job.Reaches CrashingBetweenRecords world ∧ world.LastIn .prepared ∧
    ∃ later, (recoverLocked Sample.job.setting Sample.job.manifest.transactionId .complete).run Oracle.calm ⟨world, []⟩ =
        (.done ⟨Sample.job.manifest.transactionId, "committed"⟩, later) ∧
      Sample.job.CompletedIn later.world ∧ Idle later.world.control := by
  have sound := Sample.job_sound
  have completes : Sample.job.Completes := sound.completes (Nat.le_of_ble_eq_true rfl)
  obtain ⟨world, config, reaches, -, running⟩ := Sample.job_fresh.reaches_prepared sound
  have prepared : world.LastIn .prepared := running.lastIn
  obtain ⟨outcome, later, ran, completed, reported, settled⟩ :=
    completion_after_prepared sound Sample.job_inputsHold reaches running.isActive (.inl prepared)
  obtain rfl := reported.mpr completes
  exact ⟨world, reaches, prepared, later, ran, completed, settled completes⟩

end Srcmv.Fs
