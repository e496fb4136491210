import Srcmv.Proofs.Fs.Creating
import Srcmv.Proofs.Fs.Recovering

/-! # Executing a transaction

A new transaction from its empty directory to its end, and the recovery of a running one from a scan
to the end of the mode asked for.
-/

namespace Srcmv.Fs

open Srcmv.Core Machine Process

variable {allowed : Site → Went → Prop} {rest : World → Prop} {job : Job} {config : Config} {world : World} {phase : Phase}

/-- All candidates are installed, and every file of the directory fits the recovery limit. -/
def Job.Completes (job : Job) : Prop := ∃ phases, Path job.course phases job.committedPhase ∧ job.Fits true phases

/-- What may keep a transaction from being finished once it committed. -/
def Job.EndsCommitted (job : Job) (allowed : Site → Went → Prop) (rest : World → Prop) : Prop :=
  Disturbed allowed ∨ (∃ phases, Path job.course phases job.committedPhase ∧ ¬job.Fits true phases) →
    ∀ later, job.Ended true later → rest later

section Execute

variable (sound : job.Sound) (leaves : job.Leaves allowed rest)

/-- A finish from every committed transaction leads to this ending. -/
def Job.FinishesIn (job : Job) (allowed : Site → Went → Prop) (ending : Ending World FsError CommitOutcome) : Prop :=
  ∀ (session : Session) (config : Config) (world : World), job.Active job.committedPhase session config world →
    Triple allowed (· = world) (do
      finishTransaction job.setting job.manifest.transactionId true
      return ⟨job.manifest.transactionId, job.manifest.targets.map ManifestTarget.path,
        preservedModes job.manifest session.progress.state⟩) ending

section Endings

variable {ending : Ending World FsError CommitOutcome} (stale : job.LeavesStale allowed rest) (covers : ending.Covers rest)
  (finishes : job.FinishesIn allowed ending)

include sound leaves stale covers finishes in
/-- Once every candidate is prepared, the commit runs to its end. -/
private theorem commitPrepared_ends {session : Session} (preparing : job.Preparing job.course.count session world config) :
    Triple allowed (· = world) (do
      revalidateManifestInputs job.setting job.manifest
      revalidateControlIdentities job.setting
      let session ← publishGlobalTransition job.setting session .committing
      let session ← completeCommitSteps job.setting job.manifest session
      finishTransaction job.setting job.manifest.transactionId true
      return ⟨job.manifest.transactionId, job.manifest.targets.map ManifestTarget.path,
        preservedModes job.manifest session.progress.state⟩)
      ending := by
  have active := preparing.active
  have all : job.preparedTo job.course.count = ⟨.prepared, job.course.count, 0, false, 0⟩ := by
    rw [Job.preparedTo, if_pos rfl]
  rw [all] at active
  have safe := active.safe leaves
  have inputs : Disturbed allowed ∨ ¬job.InputsHold → rest world := by
    rintro (disturbed | changed)
    · exact safe disturbed
    · exact stale changed config _ world active.running
  apply (revalidateManifestInputs_triple (active.prepared_files sound) inputs).endsThen covers
  rintro _ _ ⟨-, rfl⟩
  apply (revalidateControlIdentities_triple active.shows_ safe).endsThen covers
  rintro _ _ ⟨-, rfl⟩
  apply (beginCommit_triple sound leaves active).endsThen covers
  rintro session' later ⟨config', active'⟩
  apply (completeCommitSteps_triple sound leaves active').endsThen covers
  rintro session'' after ⟨config'', active''⟩
  exact finishes session'' config'' after active''

include sound leaves stale covers finishes in
/-- A new transaction is executed, from its empty directory to its finish. -/
theorem executeNewTransaction_ends (fresh : job.Fresh world) (unrecorded : job.LeavesUnrecorded allowed rest) :
    Triple allowed (· = world)
      (executeNewTransaction job.setting job.manifest job.manifest.transactionId job.snapshot) ending := by
  rw [executeNewTransaction]
  apply (createJournal_triple sound fresh unrecorded).endsThen covers
  rintro _ later ⟨rfl, created⟩
  apply (publishFirst_triple sound unrecorded leaves created).endsThen covers
  rintro ⟨journal, checksum⟩ after preparing
  apply (prepareTargets_triple sound preparing leaves).endsThen covers
  rintro session final ⟨config', prepared⟩
  exact commitPrepared_ends sound leaves stale covers finishes prepared

end Endings

include sound leaves in
/-- A new transaction is executed, from its empty directory to the removal of it. -/
theorem executeNewTransaction_triple (fresh : job.Fresh world) (unrecorded : job.LeavesUnrecorded allowed rest)
    (stale : job.LeavesStale allowed rest) (ends : job.EndsCommitted allowed rest) :
    Triple allowed (· = world)
      (executeNewTransaction job.setting job.manifest job.manifest.transactionId job.snapshot)
      (Finishes (fun _ later => job.Completes ∧ job.Concluded true later) rest) := by
  apply executeNewTransaction_ends sound leaves stale Ends.covers _ fresh unrecorded
  intro session config after active
  have path := active.follows.path
  apply (finishTransaction_triple sound active rfl leaves _).proceeds
  · rintro _ final ⟨fits, concluded⟩
    exact Triple.returns ⟨⟨_, path, fits⟩, concluded⟩
  · exact fun cause => ends (cause.imp_right fun large => ⟨_, path, large⟩)

end Execute

section Recover

variable (sound : job.Sound) (leaves : job.Leaves allowed rest)

/-- What a recovery leads to. -/
def Job.Recovered (job : Job) : RecoveryMode → World → Prop
  | .complete, world => job.Completes ∧ job.Concluded true world
  | .rollback, world => job.Concluded false world

/-- The recorded state, or what stands at the targets, does not permit the mode. -/
def Job.Refuses (job : Job) (config : Config) (phase : Phase) : RecoveryMode → Prop
  | .complete => ¬RecoveryMode.complete.Starts phase.globalState
  | .rollback => ¬job.Recoverable config phase ∨ phase.globalState = .committed

/-- A transaction whose recorded state cannot be completed is left alone. -/
private theorem recoverCompleteActive_refuses {session : Session} (active : job.Active phase session config world)
    (refuses : ¬RecoveryMode.complete.Starts phase.globalState) {done : Unit → World → Prop} (stays : rest world) :
    Triple allowed (· = world) (recoverCompleteActive job.setting ⟨job.manifest, session⟩) (Finishes done rest) := by
  have refused : Triple allowed (· = world)
      (Process.refuse (.recoveryActionNotAllowed job.manifest.transactionId "recorded_state_cannot_be_completed") >>=
        fun _ : Session => finishTransaction job.setting job.manifest.transactionId true)
      (Finishes done rest) := by
    apply Triple.bind fun _ _ => False
    · apply Triple.refuse
      rintro _ rfl
      exact ⟨trivial, stays⟩
    · exact fun _ _ _ impossible => impossible.elim
  rw [recoverCompleteActive]
  dsimp only
  rw [active.follows.records.global]
  cases global : phase.globalState with
  | preparing => exact refused
  | rollingBack => exact refused
  | rolledBack => exact refused
  | prepared => rw [global] at refuses; exact absurd (.inl rfl) refuses
  | committing => rw [global] at refuses; exact absurd (.inr (.inl rfl)) refuses
  | committed => rw [global] at refuses; exact absurd (.inr (.inr rfl)) refuses

include sound leaves in
/-- A running transaction is loaded and recovered. -/
theorem recoverActive_triple (sees : ∀ subject, ¬allowed (.existence subject) .failed) (running : job.Running allowed config phase world)
    (mode : RecoveryMode)
    (refuses : job.Refuses config.settled phase mode → ∀ session later, job.Active phase session config.settled later → rest later)
    (stale : mode = .complete → job.LeavesStale allowed rest)
    (endsCommitted : mode = .complete → job.EndsCommitted allowed rest)
    (endsRolledBack : mode = .rollback → Disturbed allowed → ∀ later, job.Ended false later → rest later) :
    Triple allowed (· = world) (recoverActive job.setting job.manifest.transactionId mode)
      (Finishes (fun outcome later => outcome = ⟨job.manifest.transactionId, mode.outcome⟩ ∧ job.Recovered mode later) rest) := by
  rw [recoverActive]
  apply (running.load_triple sound leaves).lenient.proceeds
  rintro ⟨manifest, session⟩ later ⟨rfl, active⟩
  cases mode with
  | complete =>
    have completing : Triple allowed (· = later) (recoverCompleteActive job.setting ⟨job.manifest, session⟩)
        (Finishes (fun _ => job.Recovered .complete) rest) := by
      by_cases starts : RecoveryMode.complete.Starts phase.globalState
      · exact recoverCompleteActive_triple sound leaves (stale rfl) (endsCommitted rfl) active starts
      · exact recoverCompleteActive_refuses active starts (refuses starts session later active)
    apply completing.proceeds
    exact fun _ _ recovered => Triple.returns ⟨rfl, recovered⟩
  | rollback =>
    have restoring : Triple allowed (· = later) (recoverRollbackActive job.setting ⟨job.manifest, session⟩)
        (Finishes (fun _ => job.Recovered .rollback) rest) :=
      recoverRollbackActive_triple sound leaves sees (fun blocked => refuses (.inl blocked) session later active)
        (fun committed => refuses (.inr committed) session later active) (endsRolledBack rfl) active
    apply restoring.proceeds
    exact fun _ _ recovered => Triple.returns ⟨rfl, recovered⟩

include sound in
/-- A scan finds a running transaction active, if it accepts its directory. -/
theorem Job.Running.scan_triple (running : job.Running allowed config phase world) (safe : Disturbed allowed → rest world)
    (begun : config.temporary ≠ none → rest world) :
    Triple allowed (· = world) (scanRecoveryEntry job.setting job.manifest.transactionId)
      (Finishes (fun entry later => later = world ∧ entry.kind = .active) rest) := by
  rw [scanRecoveryEntry, ioRead]
  apply Triple.observe
  · rintro permitted later rfl
    exact safe ⟨_, .inr permitted⟩
  · rintro permitted later rfl
    exact ⟨trivial, safe ⟨_, .inl permitted⟩⟩
  · rintro later rfl entry scanned
    obtain ⟨last, -, rfl⟩ := running.scanned sound scanned
    exact ⟨rfl, rfl⟩
  · rintro - later rfl error scanned
    refine ⟨trivial, begun fun unbegun => ?_⟩
    obtain ⟨last, -, accepted⟩ := running.accepted sound unbegun
    have impossible := scanned.symm.trans accepted
    cases impossible

include sound leaves in
/-- A running transaction is recovered under the lock, if the scan accepts its directory. -/
theorem recoverLocked_triple (sees : ∀ subject, ¬allowed (.existence subject) .failed) (running : job.Running allowed config phase world)
    (mode : RecoveryMode) (begun : config.temporary ≠ none → rest world)
    (refuses : job.Refuses config.settled phase mode → ∀ session later, job.Active phase session config.settled later → rest later)
    (stale : mode = .complete → job.LeavesStale allowed rest)
    (endsCommitted : mode = .complete → job.EndsCommitted allowed rest)
    (endsRolledBack : mode = .rollback → Disturbed allowed → ∀ later, job.Ended false later → rest later) :
    Triple allowed (· = world) (recoverLocked job.setting job.manifest.transactionId mode)
      (Finishes (fun outcome later => outcome = ⟨job.manifest.transactionId, mode.outcome⟩ ∧ job.Recovered mode later) rest) := by
  have safe : Disturbed allowed → rest world := fun disturbed => leaves disturbed config phase world running
  rw [recoverLocked]
  apply (running.scan_triple sound safe begun).proceeds
  rintro entry later ⟨rfl, active⟩
  rw [active]
  exact recoverActive_triple sound leaves sees running mode refuses stale endsCommitted endsRolledBack

end Recover

end Srcmv.Fs
