import Srcmv.Machine.Interruption
import Srcmv.Proofs.Fs.Reporting
import Srcmv.Proofs.Fs.Undoing

/-! # Runs that are disturbed at a chosen step

A commit can crash right before the record of its first candidate, before its inputs are validated
again, and before its directory is renamed; it can fail after that rename. A rollback can crash right
after its beginning is recorded.
-/

namespace Srcmv.Fs

open Srcmv.Core Machine Process

variable {job : Job} {world : World} {config : Config} {phase after : Phase} {session : Session} {moment : Moment World Site}

/-- Calm steps are among the allowed ones, and crashes outside of a publication. -/
theorem CrashingBetweenRecords.of_calmly (site : Site) (went : Went) (calm : Calmly site went) :
    CrashingBetweenRecords site went := by
  rcases calm with rfl | rfl
  · exact ⟨by decide, fun crashed => by cases crashed⟩
  · exact ⟨by decide, fun crashed => by cases crashed⟩

theorem CrashingBetweenRecords.of_io (operation : String) : CrashingBetweenRecords (.io operation) .crashed :=
  ⟨by decide, fun _ _ same => by cases same⟩

section Commit

variable (sound : job.Sound)

include sound in
/-- A publication can crash before its temporary is created. -/
theorem publishState_stopsAt (follows : job.Follows session config.phases phase) (next : Next job.course phase after)
    (calm : Moment.Within Calmly moment) :
    StopsAt (publishState job.setting session.journal (stateAfter job.crates job.manifest job.course (job.chain config.phases) after))
      moment moment (.io "create_record_temporary") := by
  have extension : Extends job.crates job.manifest (job.chain config.phases)
      (stateAfter job.crates job.manifest job.course (job.chain config.phases) after) := follows.path.extends sound.course_of next
  rw [follows.journal, publishState, acceptState_ok sound extension, acceptedOrRefused, pure_bind, publishRecord]
  exact (StopsAt.act calm).first.first

include sound in
/-- A transition can crash before its temporary is created. -/
theorem publishTransition_stopsAt (follows : job.Follows session config.phases phase) (next : Next job.course phase after)
    {update : List TargetState → Except FsError (List TargetState)}
    (updates : update (phase.targets job.course) = .ok (after.targets job.course)) (calm : Moment.Within Calmly moment) :
    StopsAt (publishTransition job.setting session after.globalState update) moment moment
      (.io "create_record_temporary") := by
  rw [publishTransition, follows.nextState_eq sound updates, ofExcept_ok_bind]
  exact (publishState_stopsAt sound follows next calm).first

include sound in
/-- What is left of an execution when its first record is published. -/
theorem Job.Fresh.begins {taken : List (Site × Went)} (fresh : job.Fresh world)
    (before : Moment.Within Calmly (⟨world, taken⟩ : Moment World Site)) : ∃ session config middle,
    job.Preparing 0 session middle.world config ∧
    Advances (executeNewTransaction job.setting job.manifest job.manifest.transactionId job.snapshot) ⟨world, taken⟩ (do
      let session ← job.manifest.targets.zipIdx.foldlM (prepareTarget job.setting job.manifest job.snapshot) session
      revalidateManifestInputs job.setting job.manifest
      revalidateControlIdentities job.setting
      let session ← publishGlobalTransition job.setting session .committing
      let session ← completeCommitSteps job.setting job.manifest session
      finishTransaction job.setting job.manifest.transactionId true
      return (⟨job.manifest.transactionId, job.manifest.targets.map ManifestTarget.path,
        preservedModes job.manifest session.progress.state⟩ : CommitOutcome)) middle := by
  have unrecorded : job.LeavesUnrecorded Calmly fun _ => False := fun disturbed => absurd disturbed Calmly.undisturbed
  have leaves : job.Leaves Calmly fun _ => False := fun disturbed => absurd disturbed Calmly.undisturbed
  obtain ⟨_, middle, created, calm, rfl, shown⟩ := (createJournal_triple sound fresh unrecorded).calm_reaches before rfl
  obtain ⟨⟨journal, checksum⟩, last, published, calm', preparing⟩ :=
    (publishFirst_triple sound unrecorded leaves shown).calm_reaches calm rfl
  refine ⟨_, _, last, preparing, ?_⟩
  rw [executeNewTransaction]
  exact (Advances.after created calm).trans (Advances.after published calm')

/-- A commit crashes where its execution does. -/
private theorem commitManifest_stopsAt {last : Moment World Site} {site : Site}
    (stops : StopsAt (executeNewTransaction job.setting job.manifest job.manifest.transactionId job.snapshot) moment last site) :
    StopsAt (commitManifest job.setting job.manifest job.snapshot) moment last site := by
  rw [commitManifest]
  exact stops.attempt.first

include sound in
/-- A commit can crash when its first candidate is written and not yet recorded. -/
theorem Job.Fresh.stops_staged (fresh : job.Fresh world) : ∃ last site config target, CrashingBetweenRecords site .crashed ∧
    StopsAt (commitManifest job.setting job.manifest job.snapshot) ⟨world, []⟩ last site ∧
    job.manifest.targets[0]? = some target ∧ job.Running Calmly config (job.preparedTo 0) last.world ∧ config.temporary = none ∧
    config.layout 0 = job.staged 0 0o600 := by
  have leaves : job.Leaves Calmly fun _ => False := fun disturbed => absurd disturbed Calmly.undisturbed
  have more : 0 < job.course.count := sound.course_of.positive
  obtain ⟨session, config, middle, preparing, begins⟩ := fresh.begins sound within_start
  have calm := begins.calm
  obtain ⟨target, others, targets⟩ := List.exists_cons_of_length_pos more
  have here : job.manifest.targets[0]? = some target := by rw [targets]; rfl
  have named := sound.valid.target 0 target here
  have creates : Triple Calmly (· = middle.world) (createCandidate job.setting job.manifest target job.snapshot)
      (Ends FsError.IsSystem _ fun _ => False) :=
    (createCandidate_triple (sound.planned 0 target here) (preparing.shows_.reaches target .candidate)
      (preparing.free sound here)).weaken (fun _ _ finished => finished)
        fun _ stopped => absurd stopped.1 Calmly.undisturbed
  obtain ⟨identity, last, created, calm', rfl, written⟩ := creates.calm_reaches calm rfl
  have shown : job.Shows (config.lay 0 (job.staged 0 0o600)) last.world := by
    rw [written]
    exact preparing.placing sound here (job.content 0)
  have placed : job.Placed (config.lay 0 (job.staged 0 0o600)) (job.preparedTo 0) := by
    rw [staged_eq_partly]
    exact placed_writing preparing.staged _
  refine ⟨last, .io "create_record_temporary", config.lay 0 (job.staged 0 0o600), target, .of_io _,
    commitManifest_stopsAt (begins.stops ?_), here,
    .of shown preparing.unbegun preparing.follows.path placed, preparing.unbegun, Config.lay_layout_self _ _ _⟩
  rw [targets, List.zipIdx_cons, List.foldlM_cons]
  apply StopsAt.first
  apply StopsAt.first
  rw [prepareTarget]
  apply StopsAt.after created calm'
  rw [named.candidateName, publishTargetTransition]
  exact publishTransition_stopsAt sound preparing.follows (next_preparedTo more) (update_ready more) calm'

include sound in
/-- A commit can crash when every candidate is recorded. -/
theorem Job.Fresh.stops_prepared {taken : List (Site × Went)} (fresh : job.Fresh world)
    (before : Moment.Within Calmly (⟨world, taken⟩ : Moment World Site)) : ∃ last site session config,
    CrashingBetweenRecords site .crashed ∧ StopsAt (commitManifest job.setting job.manifest job.snapshot) ⟨world, taken⟩ last site ∧
    job.Preparing job.course.count session last.world config := by
  have leaves : job.Leaves Calmly fun _ => False := fun disturbed => absurd disturbed Calmly.undisturbed
  obtain ⟨session, config, middle, preparing, begins⟩ := fresh.begins sound before
  obtain ⟨session', last, prepared, calm', config', preparing'⟩ :=
    (prepareTargets_triple sound preparing leaves).calm_reaches begins.calm rfl
  refine ⟨last, .io "acquire_snapshot", session', config', .of_io _, commitManifest_stopsAt (begins.stops ?_), preparing'⟩
  apply StopsAt.after prepared calm'
  apply StopsAt.first
  rw [revalidateManifestInputs, ioRead]
  exact StopsAt.observe calm'

include sound in
/-- What is left of an execution when its end is recorded. -/
theorem Job.Fresh.commits {taken : List (Site × Went)} (fresh : job.Fresh world) (inputs : job.InputsHold)
    (before : Moment.Within Calmly (⟨world, taken⟩ : Moment World Site)) : ∃ session config last,
    job.Active job.committedPhase session config last.world ∧
    Advances (executeNewTransaction job.setting job.manifest job.manifest.transactionId job.snapshot) ⟨world, taken⟩ (do
      finishTransaction job.setting job.manifest.transactionId true
      return (⟨job.manifest.transactionId, job.manifest.targets.map ManifestTarget.path,
        preservedModes job.manifest session.progress.state⟩ : CommitOutcome)) last := by
  have leaves : job.Leaves Calmly fun _ => False := fun disturbed => absurd disturbed Calmly.undisturbed
  have safe : Disturbed (Calmly : Site → Went → Prop) ∨ ¬job.InputsHold → False := by
    rintro (disturbed | changed)
    · exact Calmly.undisturbed disturbed
    · exact changed inputs
  have quiet : Disturbed (Calmly : Site → Went → Prop) → False := fun disturbed => Calmly.undisturbed disturbed
  obtain ⟨session, config, first, preparing, begins⟩ := fresh.begins sound before
  obtain ⟨session, second, prepared, calm, config, preparing⟩ :=
    (prepareTargets_triple sound preparing leaves).calm_reaches begins.calm rfl
  have active := preparing.active
  have all : job.preparedTo job.course.count = ⟨.prepared, job.course.count, 0, false, 0⟩ := by rw [Job.preparedTo, if_pos rfl]
  rw [all] at active
  obtain ⟨_, third, validated, calm₃, rfl, same⟩ :=
    (revalidateManifestInputs_triple (active.prepared_files sound) safe).calm_reaches calm rfl
  rw [← same] at active
  obtain ⟨_, fourth, captured, calm₄, rfl, same⟩ := (revalidateControlIdentities_triple active.shows_ quiet).calm_reaches calm₃ rfl
  rw [← same] at active
  obtain ⟨session', fifth, begun, calm₅, config', committing⟩ := (beginCommit_triple sound leaves active).calm_reaches calm₄ rfl
  obtain ⟨session'', last, completed, calm₆, config'', committed⟩ :=
    (completeCommitSteps_triple sound leaves committing).calm_reaches calm₅ rfl
  refine ⟨session'', config'', last, committed, ?_⟩
  apply begins.trans
  apply (Advances.after prepared calm).trans
  apply (Advances.after validated calm₃).trans
  apply (Advances.after captured calm₄).trans
  apply (Advances.after begun calm₅).trans
  exact Advances.after completed calm₆

include sound in
/-- A commit can crash when its end is recorded. -/
theorem Job.Fresh.stops_committed (fresh : job.Fresh world) (inputs : job.InputsHold) : ∃ last site session config,
    CrashingBetweenRecords site .crashed ∧ StopsAt (commitManifest job.setting job.manifest job.snapshot) ⟨world, []⟩ last site ∧
    job.Active job.committedPhase session config last.world := by
  obtain ⟨session, config, last, committed, commits⟩ := fresh.commits sound inputs within_start
  refine ⟨last, .io "terminal_directory_rename", session, config, .of_io _, commitManifest_stopsAt (commits.stops ?_), committed⟩
  apply StopsAt.first
  rw [finishTransaction, sound.valid.identifier, ofExcept_ok_bind]
  exact (StopsAt.call commits.calm).first

/-- A failed execution whose directory was moved is not rolled back. -/
private theorem rollBackFailed_run (gone : (moment.world.control.transactions[job.manifest.transactionId]?).isSome = false)
    (original : FsError) : (rollBackFailed job.setting job.manifest.transactionId original).run Oracle.calm moment =
      (.failed original, moment.step (.existence "active") .performed moment.world) := by
  have answered : (Process.probe (.existence "active") fun world =>
      (world.control.transactions[job.manifest.transactionId]?).isSome : Engine Bool).run Oracle.calm moment =
        (.done false, moment.step (.existence "active") .performed moment.world) := by
    rw [← gone]
    rfl
  rw [rollBackFailed, run_bind_done answered]
  rfl

private theorem settle_failAt {site : Site} {error : FsError} {errno : ℕ} :
    (settle site error).run (Oracle.failAt moment.taken.length errno) moment =
      (.failed error, moment.step site .failed moment.world) := by
  rw [settle, act, run_call_failAt]

/-- A commit fails where its execution does, if the directory was moved. -/
private theorem failed_after_move {execution : Engine CommitOutcome} {error : FsError} {errno : ℕ} {failed : Moment World Site}
    (ran : execution.run (Oracle.failAt moment.taken.length errno) moment = (.failed error, failed))
    (past : moment.taken.length < failed.taken.length)
    (gone : (failed.world.control.transactions[job.manifest.transactionId]?).isSome = false) :
    (do
      let result ← execution.attempt
      match result with
      | .ok outcome => return outcome
      | .error original => rollBackFailed job.setting job.manifest.transactionId original : Engine CommitOutcome).run
        (Oracle.failAt moment.taken.length errno) moment =
      (.failed error, failed.step (.existence "active") .performed failed.world) := by
  rw [run_bind_done (run_attempt_failed ran), run_failAt_past past]
  exact rollBackFailed_run gone error

include sound in
/-- A commit whose directory was moved reports that the move could not be synchronized. -/
theorem Job.Fresh.moves {taken : List (Site × Went)} (fresh : job.Fresh world) (inputs : job.InputsHold)
    (before : Moment.Within Calmly (⟨world, taken⟩ : Moment World Site)) : ∃ rest last, job.Ended true last.world ∧
    Advances (commitManifest job.setting job.manifest job.snapshot) ⟨world, taken⟩ rest last ∧ ∀ errno,
      rest.run (Oracle.failAt last.taken.length errno) last = (.failed (.io "sync_directory" none),
        (last.step (.terminal true "sync_directory") .failed last.world).step (.existence "active") .performed last.world) := by
  obtain ⟨session, config, middle, active, commits⟩ := fresh.commits sound inputs before
  have running : job.Running Calmly config job.committedPhase middle.world := active.running
  obtain ⟨moved, _, _, renamed, -, ended, -⟩ := @Job.Running.moved _ _ _ _ _ true sound running active.unbegun rfl
  have renames : (Process.call (.io "terminal_directory_rename") (renameDenied "terminal_directory_rename") fun world =>
      world.renameTerminal job.manifest.transactionId (completedName job.manifest.transactionId true) : Engine Unit).run
        Oracle.calm middle = (.done (), middle.step (.io "terminal_directory_rename") .performed moved) := by
    rw [Process.call]
    dsimp only [Oracle.calm]
    rw [renamed]
  have calm : Moment.Within Calmly (middle.step (.io "terminal_directory_rename") .performed moved) := by
    intro step member
    rcases List.mem_cons.mp member with rfl | earlier
    · exact .inl rfl
    · exact commits.calm step earlier
  have finishes : Advances (finishTransaction job.setting job.manifest.transactionId true) middle (do
      settle (.terminal true "sync_directory") (.io "sync_directory" none)
      settle (.terminal true "sync_directory") (.io "sync_directory" none)
      cleanupCompletedDirectory job.setting (.terminal true) (completedName job.manifest.transactionId true)
        job.manifest.transactionId) (middle.step (.io "terminal_directory_rename") .performed moved) := by
    rw [finishTransaction, sound.valid.identifier, ofExcept_ok_bind]
    exact Advances.after renames calm
  refine ⟨_, _, ended, (commits.trans finishes.first).attempt.first, fun errno => ?_⟩
  exact failed_after_move (run_bind_failed (run_bind_failed settle_failAt)) (Nat.lt_succ_self _) ended.gone

include sound in
/-- A world in which every candidate is recorded. -/
theorem Job.Fresh.reaches_prepared (fresh : job.Fresh world) : ∃ later config, job.Reaches CrashingBetweenRecords later ∧
    config.temporary = none ∧ job.Running Calmly config (job.preparedTo job.course.count) later := by
  obtain ⟨last, site, session, config, crashes, stops, preparing⟩ := fresh.stops_prepared sound within_start
  exact ⟨last.world, config, .commit fresh (stops.leads CrashingBetweenRecords.of_calmly crashes), preparing.unbegun,
    preparing.active.running⟩

include sound in
/-- A world in which the commit is recorded. -/
theorem Job.Fresh.reaches_committed (fresh : job.Fresh world) (inputs : job.InputsHold) : ∃ later config,
    job.Reaches CrashingBetweenRecords later ∧ config.temporary = none ∧ job.Running Calmly config job.committedPhase later := by
  obtain ⟨last, site, session, config, crashes, stops, active⟩ := fresh.stops_committed sound inputs
  exact ⟨last.world, config, .commit fresh (stops.leads CrashingBetweenRecords.of_calmly crashes), active.unbegun,
    active.running⟩

end Commit

section Rollback

variable (sound : job.Sound)

include sound in
/-- A rollback can crash when its beginning is recorded, before it restores anything. -/
theorem Job.Running.stops_begun {ready installed : ℕ} {backedUp : Bool} {global : GlobalState}
    (running : job.Running Calmly config ⟨global, ready, installed, backedUp, 0⟩ world) (unbegun : config.temporary = none)
    (unfinished : global = .preparing ∨ global = .prepared ∨ global = .committing) : ∃ last site,
      CrashingBetweenRecords site .crashed ∧
      StopsAt (recoverLocked job.setting job.manifest.transactionId .rollback) ⟨world, []⟩ last site ∧
      job.Running Calmly (config.record ⟨.rollingBack, ready, installed, backedUp, 0⟩) ⟨.rollingBack, ready, installed, backedUp, 0⟩
        last.world := by
  have leaves : job.Leaves Calmly fun _ => False := fun disturbed => absurd disturbed Calmly.undisturbed
  have quiet : Disturbed (Calmly : Site → Went → Prop) → False := fun disturbed => Calmly.undisturbed disturbed
  have starts : RecoveryMode.rollback.Starts global := by
    rcases unfinished with same | same | same
    · exact .inl same
    · exact .inr (.inl same)
    · exact .inr (.inr (.inl same))
  obtain ⟨entry, first, scanned, calm, rfl, active⟩ :=
    (running.scan_triple sound quiet fun begun => begun unbegun).calm_reaches within_start rfl
  obtain ⟨⟨manifest, session⟩, second, loaded, calm₂, rfl, session_⟩ := (running.load_triple sound leaves).calm_reaches calm rfl
  rw [Config.settled_of_unbegun unbegun] at session_
  have good := session_.follows.path.good sound.course_of.positive
  have forward : global ≠ .rollingBack := by
    rintro rfl
    rcases unfinished with impossible | impossible | impossible <;> cases impossible
  obtain ⟨_, third, classified, calm₃, rfl, same⟩ := (classifyAllTargets_triple sound session_.shows_ good session_.follows.records
    (session_.placed.recoverable forward) starts quiet).calm_reaches calm₂ rfl
  rw [← same] at session_
  have placedAfter := placed_rollingBack unfinished good session_.placed
  obtain ⟨session', last, published, calm₄, follows, shown⟩ := (publishNext_triple sound session_.shows_ session_.unbegun
    session_.follows (.beginRollback unfinished) rfl session_.placed placedAfter leaves).calm_reaches calm₃ rfl
  refine ⟨last, .io "capture_control_identity", .of_io _, ?_, .of shown rfl follows.path placedAfter⟩
  rw [recoverLocked]
  apply StopsAt.after scanned calm
  rw [active]
  dsimp only
  rw [recoverActive]
  apply StopsAt.after loaded calm₂
  dsimp only
  apply StopsAt.first
  rw [recoverRollbackActive]
  dsimp only
  have recorded : StopsAt (rollBackRecorded job.setting ⟨job.manifest, session⟩) second last (.io "capture_control_identity") := by
    rw [rollBackRecorded]
    apply StopsAt.after classified calm₃
    rw [beginRollback]
    dsimp only
    rw [session_.follows.records.global, if_pos forward]
    have begun : (publishGlobalTransition job.setting session .rollingBack >>= fun session' =>
        (pure ⟨job.manifest, session'⟩ : Engine LoadedTransaction)).run Oracle.calm third =
          (.done ⟨job.manifest, session'⟩, last) := run_bind_done published
    apply StopsAt.after begun calm₄
    apply StopsAt.first
    rw [revalidateControlIdentities, ioRead]
    exact StopsAt.observe calm₄
  rw [session_.follows.records.global]
  rcases unfinished with rfl | rfl | rfl <;> exact recorded

end Rollback

end Srcmv.Fs
