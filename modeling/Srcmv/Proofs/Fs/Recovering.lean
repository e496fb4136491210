import Srcmv.Proofs.Fs.Classifying
import Srcmv.Proofs.Fs.Finishing
import Srcmv.Proofs.Fs.RollingBack

/-! # Completing and rolling back

The two recovery modes from a session of a running transaction to its end. What may stop them apart
from the environment is said each time: inputs that changed before the commit began, a directory too
large to be validated, and an unrecorded candidate in the way of a rollback that has begun.
-/

namespace Srcmv.Fs

open Srcmv.Core Machine Process

variable {allowed : Site → Went → Prop} {rest : World → Prop} {job : Job} {config : Config} {world : World} {phase : Phase}
  {session : Session} {installed : ℕ} {backedUp : Bool}

/-- Any error is reported, and the world is as it may be left. -/
abbrev Finishes {α : Type} (done : α → World → Prop) (rest : World → Prop) : Ending World FsError α :=
  Ends (fun _ => True) done rest

/-- The recorded inputs are what the workspace shows before any target has changed. -/
def Job.InputsHold (job : Job) : Prop :=
  validateManifestInputs job.manifest job.crates.sha256 ⟨job.setting.identity, job.setting.parents, job.base⟩ = .ok ()

/-- The inputs are validated again while the targets are untouched. -/
theorem revalidateManifestInputs_triple (files : world.files = job.base) (safe : Disturbed allowed ∨ ¬job.InputsHold → rest world) :
    Triple allowed (· = world) (revalidateManifestInputs job.setting job.manifest) (Finishes (Exactly () world) rest) := by
  have view : job.setting.view world = ⟨job.setting.identity, job.setting.parents, job.base⟩ := by rw [Setting.view, files]
  rw [revalidateManifestInputs, ioRead]
  apply Triple.observe
  · rintro permitted later rfl
    exact safe (.inl ⟨_, .inr permitted⟩)
  · rintro permitted later rfl
    exact ⟨trivial, safe (.inl ⟨_, .inl permitted⟩)⟩
  · rintro later rfl _ _
    exact ⟨rfl, rfl⟩
  · rintro - later rfl error changed
    rw [view] at changed
    refine ⟨trivial, safe (.inr fun holds => ?_)⟩
    rw [Job.InputsHold] at holds
    rw [holds] at changed
    cases changed

section Complete

variable (sound : job.Sound) (leaves : job.Leaves allowed rest)

/-- A running transaction may be left when its inputs turn out to have changed. -/
def Job.LeavesStale (job : Job) (allowed : Site → Went → Prop) (rest : World → Prop) : Prop :=
  ¬job.InputsHold → ∀ config phase world, job.Running allowed config phase world → rest world

theorem Phase.eq_prepared {course : Course} (good : phase.Good course) (prepared : phase.globalState = .prepared) :
    phase = ⟨.prepared, course.count, 0, false, 0⟩ := by
  obtain ⟨ready, installed, backedUp⟩ := good.prepared prepared
  have forward := good.forward (by rw [prepared]; rfl)
  obtain ⟨global, ready', installed', backedUp', restored⟩ := phase
  simp_all

theorem Phase.eq_committing (good : phase.Good job.course) (committing : phase.globalState = .committing) :
    phase = job.committingAt phase.installed phase.backedUp := by
  have ready := good.committing committing
  have forward := good.forward (by rw [committing]; rfl)
  obtain ⟨global, ready', installed', backedUp', restored⟩ := phase
  simp_all [Job.committingAt]

theorem Phase.eq_committed (good : phase.Good job.course) (committed : phase.globalState = .committed) :
    phase = job.committedPhase := by
  obtain ⟨ready, installed⟩ := good.committed committed
  have forward := good.forward (by rw [committed]; rfl)
  have backedUp : phase.backedUp = false := by
    cases backed : phase.backedUp with
    | false => rfl
    | true => exact absurd (good.backedUp backed).1 (by rw [installed]; exact Nat.lt_irrefl _)
  obtain ⟨global, ready', installed', backedUp', restored⟩ := phase
  simp_all [Job.committedPhase]

/-- Once every candidate is prepared, nothing has been moved. -/
theorem Job.Active.prepared_files (active : job.Active ⟨.prepared, job.course.count, 0, false, 0⟩ session config world)
    (sound : job.Sound) : world.files = job.base := by
  rw [active.shows_.files]
  apply Job.filesOf_untouched sound
  intro index inside
  obtain ⟨stage, allows, lies⟩ := active.placed index inside
  rcases allows with ⟨-, rfl⟩ | ⟨beyond, -⟩
  · obtain ⟨mode, layout⟩ := lies
    rw [layout]
    rfl
  · exact absurd (show job.course.count ≤ index from beyond) (not_le.mpr inside)

private theorem placed_beginCommit (placed : job.Placed config ⟨.prepared, job.course.count, 0, false, 0⟩) :
    job.Placed config (job.committingAt 0 false) := by
  intro index inside
  obtain ⟨stage, allows, lies⟩ := placed index inside
  rcases allows with ⟨-, rfl⟩ | ⟨beyond, -⟩
  · refine ⟨.staged, ?_, lies⟩
    rcases Nat.eq_zero_or_pos index with rfl | later
    · refine .inr (.inr ⟨rfl, ?_⟩)
      split
      · exact .inl rfl
      · exact .inl rfl
    · exact .inr (.inl ⟨later, rfl⟩)
  · exact absurd (show job.course.count ≤ index from beyond) (not_le.mpr inside)

include sound leaves in
/-- The commit is recorded as begun. -/
theorem beginCommit_triple (active : job.Active ⟨.prepared, job.course.count, 0, false, 0⟩ session config world) :
    Triple allowed (· = world) (publishGlobalTransition job.setting session .committing)
      (Ends FsError.IsSystem (fun session' later => ∃ config', job.Active (job.committingAt 0 false) session' config' later) rest) := by
  have placedAfter := placed_beginCommit active.placed
  rw [publishGlobalTransition]
  apply (publishNext_triple sound active.shows_ active.unbegun active.follows .beginCommit rfl active.placed placedAfter
    leaves).weaken
  · rintro session' later ⟨follows, published⟩
    exact ⟨_, published, rfl, follows, placedAfter⟩
  · exact fun _ stopped => stopped

include sound leaves in
private theorem completePrepared_triple (stale : job.LeavesStale allowed rest)
    (active : job.Active ⟨.prepared, job.course.count, 0, false, 0⟩ session config world) :
    Triple allowed (· = world) (completePrepared job.setting ⟨job.manifest, session⟩)
      (Finishes (fun session' later => ∃ config', job.Active job.committedPhase session' config' later) rest) := by
  have safe := active.safe leaves
  have good := active.follows.path.good sound.course_of.positive
  have inputs : Disturbed allowed ∨ ¬job.InputsHold → rest world := by
    rintro (disturbed | changed)
    · exact safe disturbed
    · exact stale changed config _ world active.running
  have starts : RecoveryMode.Starts .complete .prepared := .inl rfl
  rw [completePrepared]
  apply (revalidateManifestInputs_triple (active.prepared_files sound) inputs).exactlyThen fun _ stopped => stopped
  apply (classifyAllTargets_triple sound active.shows_ good active.follows.records (active.placed.recoverable nofun) starts
    safe).lenient.exactlyThen fun _ stopped => stopped
  apply (revalidateControlIdentities_triple active.shows_ safe).lenient.exactlyThen fun _ stopped => stopped
  apply (beginCommit_triple sound leaves active).lenient.proceeds
  rintro session' later ⟨config', active'⟩
  exact (completeCommitSteps_triple sound leaves active').lenient

include sound leaves in
/-- Completing a transaction that was prepared, is being committed, or has committed. -/
theorem recoverCompleteActive_triple (stale : job.LeavesStale allowed rest)
    (ends : Disturbed allowed ∨ (∃ phases, Path job.course phases job.committedPhase ∧ ¬job.Fits true phases) →
      ∀ later, job.Ended true later → rest later)
    (active : job.Active phase session config world) (starts : RecoveryMode.complete.Starts phase.globalState) :
    Triple allowed (· = world) (recoverCompleteActive job.setting ⟨job.manifest, session⟩)
      (Finishes (fun _ later => (∃ phases, Path job.course phases job.committedPhase ∧ job.Fits true phases) ∧
        job.Concluded true later) rest) := by
  have good := active.follows.path.good sound.course_of.positive
  have finishes : ∀ session' later, (∃ config', job.Active job.committedPhase session' config' later) →
      Triple allowed (· = later) (finishTransaction job.setting job.manifest.transactionId true)
        (Finishes (fun _ later => (∃ phases, Path job.course phases job.committedPhase ∧ job.Fits true phases) ∧
          job.Concluded true later) rest) := by
    rintro session' later ⟨config', active'⟩
    apply (finishTransaction_triple sound active' rfl leaves _).weaken
    · exact fun _ _ finished => ⟨⟨_, active'.follows.path, finished.1⟩, finished.2⟩
    · exact fun _ stopped => stopped
    · exact fun cause => ends (cause.imp_right fun large => ⟨_, active'.follows.path, large⟩)
  rw [recoverCompleteActive]
  dsimp only
  rw [active.follows.records.global]
  rcases starts with global | global | global
  · have same := Phase.eq_prepared good global
    subst same
    exact (completePrepared_triple sound leaves stale active).proceeds finishes
  · have same := Phase.eq_committing good global
    rw [global]
    rw [same] at active
    exact (completeCommitSteps_triple sound leaves active).lenient.proceeds finishes
  · have same := Phase.eq_committed good global
    subst same
    have completes : RecoveryMode.complete.Starts job.committedPhase.globalState := .inr (.inr rfl)
    apply (classifyAllTargets_triple sound active.shows_ good active.follows.records (active.placed.recoverable nofun)
      completes (active.safe leaves)).lenient.exactlyThen fun _ stopped => stopped
    exact finishes session world ⟨config, active⟩

end Complete

section Rollback

/-- What is observed of a target in a world that shows a configuration. -/
theorem Job.Shows.observed (shows_ : job.Shows config world) (sound : job.Sound) {index : ℕ} {target : ManifestTarget}
    (here : job.manifest.targets[index]? = some target) (plain : Layout.Plain (config.layout index)) (recorded : TargetState)
    (global : GlobalState) :
    observationIn job.setting world target (locationsOf job.manifest.transactionId target) recorded global =
      .ok (observationOf job.crates.sha256 target recorded global (config.layout index)) := by
  have seen (slot : Slot) : fingerprintOf job.setting.crates.sha256 (world.item? (job.locationOf target slot)) =
      .ok (printOf job.crates.sha256 (config.layout index slot)) := by
    rw [shows_.item? sound here]
    exact plain.fingerprint _ slot
  have backup : fingerprintOf job.setting.crates.sha256
      (world.item? (locationsOf job.manifest.transactionId target).backup) = _ := seen .backup
  have candidate : fingerprintOf job.setting.crates.sha256
      (world.item? (locationsOf job.manifest.transactionId target).candidate) = _ := seen .candidate
  have final : fingerprintOf job.setting.crates.sha256
      (world.item? (locationsOf job.manifest.transactionId target).target) = _ := seen .target
  rw [observationIn, final, Except.ok_bind, candidate, Except.ok_bind, backup, Except.ok_bind]
  rfl

/-- What stands in the way of a rollback is an unrecorded candidate, once the rollback has begun. -/
theorem Job.Placed.blocked (placed : job.Placed config phase) (stuck : ¬job.Recoverable config phase) :
    phase.globalState = .rollingBack ∧ ∃ index target count, job.manifest.targets[index]? = some target ∧
      phase.ready ≤ index ∧ config.layout index = job.partly index ((job.content index).take count) := by
  rw [Job.Recoverable] at stuck
  push Not at stuck
  obtain ⟨index, target, here, stuck⟩ := stuck
  obtain ⟨stage, allows, lies⟩ := placed index (List.getElem?_eq_some_iff.mp here).1
  obtain ⟨begun, rfl⟩ := stuck stage allows lies
  obtain ⟨count, layout⟩ := lies
  refine ⟨begun, index, target, count, here, ?_, layout⟩
  rw [Phase.Allows, begun] at allows
  rcases allows with impossible | ⟨-, ⟨-, impossible⟩ | ⟨same, -⟩⟩
  · cases impossible
  · simp at impossible
  · exact same.ge

/-- A candidate in the way is not permitted by any classification. -/
theorem Job.Active.not_permits (sound : job.Sound) (active : job.Active phase session config world)
    (stuck : ¬job.Recoverable config phase) (mode : RecoveryMode) : ∃ entry ∈ job.manifest.targets.zipIdx,
      ¬Permits job.setting job.manifest world session.progress.state mode entry := by
  obtain ⟨begun, index, target, count, here, unready, layout⟩ := active.placed.blocked stuck
  refine ⟨(target, index), List.mem_zipIdx_iff_getElem?.mpr here, ?_⟩
  have plain := active.placed.plain sound (List.getElem?_eq_some_iff.mp here).1
  rintro ⟨disposition, found, -⟩
  rw [dispositionIn, active.follows.records.recorded here, Except.ok_bind] at found
  obtain ⟨_, _, classified⟩ := Except.bind_eq_ok.mp found
  rw [active.shows_.observed sound here plain, Except.ok_bind, active.follows.records.global, layout,
    classify_blocked sound here begun unready] at classified
  cases classified

variable (sound : job.Sound) (leaves : job.Leaves allowed rest) (sees : ∀ subject, ¬allowed (.existence subject) .failed)

include sound leaves sees in
private theorem rollBackRecorded_triple (blocked : ¬job.Recoverable config phase → rest world)
    (ends : Disturbed allowed → ∀ later, job.Ended false later → rest later)
    (active : job.Active phase session config world) (starts : RecoveryMode.rollback.Starts phase.globalState) :
    Triple allowed (· = world) (rollBackRecorded job.setting ⟨job.manifest, session⟩)
      (Finishes (fun _ => job.Concluded false) rest) := by
  have good := active.follows.path.good sound.course_of.positive
  rw [rollBackRecorded]
  by_cases recoverable : job.Recoverable config phase
  · apply (classifyAllTargets_triple sound active.shows_ good active.follows.records recoverable starts
      (active.safe leaves)).lenient.exactlyThen fun _ stopped => stopped
    apply (beginRollback_triple sound leaves active starts).lenient.proceeds
    rintro ⟨manifest, session'⟩ later ⟨rfl, config', ready, installed, backedUp, restored, active'⟩
    apply (revalidateControlIdentities_triple active'.shows_ (active'.safe leaves)).lenient.exactlyThen
      fun _ stopped => stopped
    have restoring := restoreOriginals_triple sound leaves sees active'
    have attempted : Triple allowed (· = later) (attempt (restoreOriginals job.setting ⟨job.manifest, session'⟩))
        (Finishes (fun result later => match result with
          | .ok session'' => job.RolledBack session'' later
          | .error _ => rest later) rest) := by
      apply Triple.attempt
      exact restoring.mono (fun _ same => same) (fun _ _ finished => finished) (fun _ _ failed => failed.2)
        fun _ stopped => stopped
    apply attempted.proceeds
    rintro (error | session'') after stopped
    · apply Triple.refuse
      rintro _ rfl
      exact ⟨trivial, stopped⟩
    · obtain ⟨config'', ready', installed', backedUp', active''⟩ := stopped
      apply (finishTransaction_triple sound active'' rfl leaves _).weaken
      · exact fun _ _ finished => finished.2
      · exact fun _ stopped => stopped
      · rintro (disturbed | large)
        · exact ends disturbed
        · exact absurd (active''.follows.path.fits sound) large
  · obtain ⟨entry, member, refused⟩ := active.not_permits sound recoverable .rollback
    exact classifyAllTargets_refusesThen member refused (fun _ => ⟨trivial, blocked recoverable⟩) (blocked recoverable)

include sound leaves sees in
/-- Rolling back a transaction that has not committed, or finishing its rollback. -/
theorem recoverRollbackActive_triple (blocked : ¬job.Recoverable config phase → rest world)
    (committed : phase.globalState = .committed → rest world)
    (ends : Disturbed allowed → ∀ later, job.Ended false later → rest later)
    (active : job.Active phase session config world) :
    Triple allowed (· = world) (recoverRollbackActive job.setting ⟨job.manifest, session⟩)
      (Finishes (fun _ => job.Concluded false) rest) := by
  have recorded := rollBackRecorded_triple sound leaves sees blocked ends active
  rw [recoverRollbackActive]
  dsimp only
  rw [active.follows.records.global]
  cases global : phase.globalState with
  | committed =>
    apply Triple.refuse
    rintro _ rfl
    exact ⟨trivial, committed global⟩
  | rolledBack =>
    have terminal : phase.globalState = terminalState false := global
    apply (finishTransaction_triple sound active terminal leaves _).weaken
    · exact fun _ _ finished => finished.2
    · exact fun _ stopped => stopped
    · rintro (disturbed | large)
      · exact ends disturbed
      · exact absurd (active.follows.path.fits sound) large
  | preparing => exact recorded (by rw [global]; exact .inl rfl)
  | prepared => exact recorded (by rw [global]; exact .inr (.inl rfl))
  | committing => exact recorded (by rw [global]; exact .inr (.inr (.inl rfl)))
  | rollingBack => exact recorded (by rw [global]; exact .inr (.inr (.inr rfl)))

end Rollback

end Srcmv.Fs
