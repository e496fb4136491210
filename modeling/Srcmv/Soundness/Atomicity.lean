import Srcmv.Soundness.Completion
import Srcmv.Soundness.OneTransaction

/-! # Whole batches over any run of commands

Every run of commands, whatever fails or crashes in it, is a run of a store to which whole batches are
applied, one at a time.
-/

namespace Srcmv.Cli

open Srcmv.Core Srcmv.Fs Machine Process Relation

/-- Every run of commands is a run of a store that begins, commits and rolls back whole batches, one at a
time; whenever no transaction is active, the store holds exactly the batches that were committed. -/
theorem commands_refine (setting : Setting) (allowed : Site → Went → Prop) (start later : System)
    (sees : ∀ subject, ¬allowed (.existence subject) .failed) (quiet : start.world.control.transactions = ∅)
    (captured : captureControlIdentities start.world.control = .ok setting.lock)
    (reached : ReflTransGen (System.Step setting allowed) start later) :
    (∃ standing, ReflTransGen (Standing.Step setting) (.settled (storeOf start.world.files)) standing ∧
      standing.Shows later.world) ∧
    (later.world.control.transactions = ∅ →
      ReflTransGen (Store.Step setting) (storeOf start.world.files) (storeOf later.world.files)) := by
  obtain ⟨-, standing, onwards, tracks⟩ := tracked_of_reached sees quiet captured reached
  have shows_ := tracks.shows_
  refine ⟨⟨standing, onwards, shows_⟩, fun settled => ?_⟩
  have since := Standing.since_of_reached onwards
  cases standing with
  | settled store =>
    rw [shows_.2]
    exact since
  | pending before after =>
    obtain ⟨id, single⟩ := shows_.1
    have member := (single id).mpr rfl
    rw [settled] at member
    exact absurd member Std.ExtTreeMap.not_mem_empty

end Srcmv.Cli

namespace Srcmv.Fs.Sample

open Srcmv.Cli Machine Process

/-- Where nothing disturbs it, the commit of the small batch is done. -/
theorem request_yields : ∃ outcome later, Yields Crashing (lockedCommit setting request) quietWorld outcome later ∧
    job.Concluded true later := by
  have completes : job.Completes := job_sound.completes (Nat.le_of_ble_eq_true rfl)
  have commits : Triple Calmly (· = quietWorld) (lockedCommit setting request)
      (⟨fun _ => job.Concluded true, fun _ _ => False, fun _ => True⟩ : Ending World CommitFailure CommitOutcome) :=
    underLock_calm quiet request_admits.acquired request_locked
      (Triple.mapError ((request_admits.commit_calm quietWorld_ready).mono (fun _ same => same) (fun _ _ finished => finished.2)
        (fun _ _ stopped => stopped.1 completes) fun _ _ => trivial))
  rcases commits.calm_ends rfl (fun site went calm => (CrashingBetweenRecords.of_calmly site went calm).crashing) with
    ⟨outcome, later, yields, concluded⟩ | ⟨error, later, -, impossible⟩
  · exact ⟨outcome, later, yields, concluded⟩
  · exact impossible.elim

/-- The files of the small workspace once its batch is committed. -/
theorem plannedFiles_new : storeOf job.plannedFiles "b" = some (.file 0o644 movedBytes) := by
  have applied : storeOf job.plannedFiles = (storeOf quietWorld.files).after snapshot batch 0o644 :=
    plannedFiles_store job_planned planned job_sound
  rw [applied]
  decide +kernel

end Srcmv.Fs.Sample

namespace Srcmv.Cli

open Srcmv.Core Srcmv.Fs Machine Process Relation

/-- The commit of the small batch takes the store to the one with the batch applied. -/
theorem commands_refine_committed : ∃ later : System, System.Step Sample.setting Crashing Sample.quietSystem later ∧
    storeOf later.world.files "b" = some (.file 0o644 Sample.movedBytes) ∧
    ∃ store, ReflTransGen (Standing.Step Sample.setting) (.settled (storeOf Sample.files)) (.settled store) ∧
      storeOf later.world.files = store ∧ ReflTransGen (Store.Step Sample.setting) (storeOf Sample.files) store := by
  obtain ⟨outcome, later, yields, concluded⟩ := Sample.request_yields
  have step : System.Step Sample.setting Crashing Sample.quietSystem ⟨later, Sample.setting.newIdentity⟩ :=
    .run (.commit Sample.request) Sample.quietSystem_allots yields.discards
  obtain ⟨⟨standing, onwards, shows_⟩, settles⟩ :=
    commands_refine Sample.setting Crashing _ _ Crashing.sees rfl rfl (.single step)
  have quiet : later.control.transactions = ∅ := concluded.idle.active
  refine ⟨_, step, ?_, ?_⟩
  · rw [show later.files = _ from concluded.ended.files]
    exact Sample.plannedFiles_new
  · cases standing with
    | settled store => exact ⟨store, onwards, shows_.2, shows_.2 ▸ settles quiet⟩
    | pending before after =>
      obtain ⟨id, single⟩ := shows_.1
      have member := (single id).mpr rfl
      rw [quiet] at member
      exact absurd member Std.ExtTreeMap.not_mem_empty

end Srcmv.Cli

/-! ## What a command reports is what it did

A commit that returns has applied its batch to a settled store and left no directory behind, and it
names the paths its plan changes. A recovery that returns has completed the pending batch or undone it,
as its mode says. This holds of every system that a run of commands can reach.
-/

namespace Srcmv.Cli

open Srcmv.Core Srcmv.Fs Machine Process Relation

variable {allowed : Site → Went → Prop} {setting : Setting} {world : World} {manifest : Manifest} {snapshot : WorkspaceSnapshot}
  {editPlan : EditPlan} {request : CommitRequest} {id : String} {standing : Standing}

section Committing

/-- An execution that returns names its targets. -/
private theorem executeNewTransaction_names {before : World → Prop} {directory : String} :
    Triple allowed before (executeNewTransaction setting manifest directory snapshot)
      (Yielding fun outcome _ => outcome.changedPaths = manifest.targets.map ManifestTarget.path) := by
  rw [executeNewTransaction]
  refine Triple.yieldingThen Triple.anyYield fun journal => ?_
  refine Triple.yieldingThen Triple.anyYield fun published => ?_
  refine Triple.yieldingThen Triple.anyYield fun session => ?_
  refine Triple.yieldingThen Triple.anyYield fun _ => Triple.yieldingThen Triple.anyYield fun _ => ?_
  refine Triple.yieldingThen Triple.anyYield fun session => Triple.yieldingThen Triple.anyYield fun session => ?_
  exact Triple.yieldingThen Triple.anyYield fun _ => Triple.pure fun _ _ => rfl

/-- A failed execution never returns. -/
private theorem rollBackFailed_never {before : World → Prop} {original : FsError} :
    Triple allowed before (rollBackFailed setting id original) (Yielding fun _ _ => False) := by
  have refuses {before : World → Prop} (failed : Bool) : Triple allowed before
      (if failed = true then Process.refuse (.transactionRecoveryRequired [id]) else Process.refuse original : Engine CommitOutcome)
      (Yielding fun _ _ => False) := by
    split <;> exact Triple.refuse fun _ _ => trivial
  rw [rollBackFailed]
  refine Triple.yieldingThen Triple.anyYield fun remains => ?_
  dsimp only
  split <;> exact Triple.yieldingThen Triple.anyYield refuses

/-- An execution that returns has concluded its transaction. -/
private theorem executeNewTransaction_concludes {job : Job} (sound : job.Sound) (fresh : job.Fresh world) :
    Triple allowed (· = world) (executeNewTransaction job.setting job.manifest job.manifest.transactionId job.snapshot)
      (Yielding fun _ later => job.Concluded true later) := by
  apply Triple.yielding
  · have leaves : job.Leaves allowed fun _ => True := fun _ _ _ _ _ => trivial
    apply executeNewTransaction_triple sound leaves fresh
    · exact fun _ _ _ => trivial
    · exact fun _ _ _ _ _ => trivial
    · exact fun _ _ _ => trivial
  · exact fun _ _ finished => finished.2

/-- What a commit has done when it returns. -/
structure Committed (setting : Setting) (request : CommitRequest) (world : World) (outcome : CommitOutcome) (later : World) :
    Prop where
  idle : Idle later.control
  applied : ∃ snapshot plan, (setting.view world).acquireSnapshot setting.crates.sha256 (snapshotRequirements request.batch) {} =
    .ok snapshot ∧ lockedPlan setting request snapshot = .ok plan ∧ outcome.changedPaths = Fs.changedPaths plan ∧
    storeOf later.files = (storeOf world.files).after snapshot request.batch request.newFileMode

section Ready

variable (ready : CommitReady setting world)
  (acquired : (setting.view world).acquireSnapshot setting.crates.sha256 (snapshotRequirements request.batch) {} = .ok snapshot)
  (planned : lockedPlan setting request snapshot = .ok editPlan)

include ready acquired planned in
private theorem executeNewTransaction_yields (identifier : validateTransactionId manifest.transactionId = .ok ())
    (built : buildManifest snapshot editPlan (Fs.changedOutputs editPlan) manifest.transactionId request.newFileMode = .ok manifest) :
    Triple allowed (· = world.opening setting manifest.transactionId)
      (executeNewTransaction setting manifest manifest.transactionId snapshot) (Yielding (Committed setting request world)) := by
  by_cases encodes : manifest.Encodes setting.crates
  · have from_ : PlannedFrom setting world snapshot editPlan manifest request.newFileMode :=
      ⟨⟨_, acquired⟩, ⟨_, _, (lockedPlan_planned planned)⟩, ⟨_, built⟩⟩
    have fresh : (plannedJob setting world snapshot editPlan manifest).Fresh (world.opening setting manifest.transactionId) :=
      plannedJob_fresh ready.idle ready.captured ready.published ready.refusals identifier
    have sound := from_.sound encodes ready.fresh
    have whole := plannedFiles_store from_ (lockedPlan_planned planned) sound
    have concludes : Triple allowed (· = world.opening setting manifest.transactionId)
        (executeNewTransaction setting manifest manifest.transactionId snapshot)
        (Yielding fun _ later => (plannedJob setting world snapshot editPlan manifest).Concluded true later) :=
      (executeNewTransaction_concludes sound fresh).yielding fun _ _ concluded => concluded
    refine (concludes.yieldingBoth executeNewTransaction_names).yielding fun outcome later finished => ?_
    obtain ⟨concluded, named⟩ := finished
    refine ⟨concluded.idle, snapshot, editPlan, acquired, planned, ?_, ?_⟩
    · rw [named, buildManifest_paths built, Fs.changedPaths]
    · rw [show later.files = _ from concluded.ended.files, if_pos rfl]
      exact whole
  · exact (executeNewTransaction_unencodable encodes).yielding fun _ _ impossible => impossible.elim

include ready acquired planned in
/-- A commit that returns has committed its batch. -/
private theorem commit_yields : Triple allowed (· = world)
    (Fs.commit setting snapshot editPlan request.newFileMode request.identifiers) (Yielding (Committed setting request world)) := by
  rw [Fs.commit]
  refine Triple.yieldingComputes fun _ _ => Triple.yieldingComputes fun _ _ => Triple.yieldingComputes fun _ _ => ?_
  have opens : Triple allowed (· = world) (createTransactionDirectory setting request.identifiers)
      (Yielding fun id later => id ∈ request.identifiers ∧ later = world.opening setting id) :=
    createTransactionDirectory_opens.yielding fun id later opened => ⟨opened.1, opened.2.2⟩
  refine Triple.yieldingThen opens fun id => Triple.fact fun tried => ?_
  have identifier := CommitArguments.identifier_valid tried
  cases built : buildManifest snapshot editPlan (Fs.changedOutputs editPlan) id request.newFileMode with
  | error error =>
    exact Triple.yieldingThen Triple.anyYield fun _ => Triple.refuse fun _ _ => trivial
  | ok manifest =>
    obtain ⟨-, -, named, -⟩ := buildManifest_ok built
    subst named
    have executes : Triple allowed (· = world.opening setting manifest.transactionId)
        (executeNewTransaction setting manifest manifest.transactionId snapshot) (Yielding (Committed setting request world)) :=
      executeNewTransaction_yields ready acquired planned identifier built
    dsimp only
    rw [commitManifest]
    refine Triple.yieldingThen executes.attemptYielding fun result => ?_
    cases result with
    | ok outcome => exact Triple.pure fun later committed => committed outcome rfl
    | error original => exact rollBackFailed_never.yielding fun _ _ impossible => impossible.elim

end Ready

/-- A commit command that returns began in a settled store and has committed its batch. -/
private theorem lockedCommit_yields (tracks : Tracks setting allowed world standing)
    (captured : captureControlIdentities world.control = .ok setting.lock)
    (fresh : world.control.transactions = ∅ → ∀ (path : String) (node : Node) (name : String),
      world.files path = some (.file node) → setting.newIdentity name ≠ node.identity) :
    Triple allowed (· = world) (lockedCommit setting request)
      (Yielding fun outcome later => standing = .settled (storeOf world.files) ∧ Committed setting request world outcome later) := by
  have refused {before after : Store} (tracks : Tracks setting allowed world (.pending before after)) :
      Triple allowed (· = world) (lockedCommit setting request)
        (Yielding fun outcome later => Standing.pending before after = .settled (storeOf world.files) ∧
          Committed setting request world outcome later) := by
    obtain ⟨id, object, children, only⟩ := tracks.onlyActive
    exact (lockedCommit_refused only).yielding fun _ _ impossible => impossible.elim
  cases tracks with
  | settled quiet =>
    rw [lockedCommit]
    refine underLock_triple captured (fresh quiet) (fun _ _ _ => ⟨fun _ => trivial, trivial⟩)
      fun before snapshot plan ready files acquired planned => Triple.mapErrorYielding ?_
    refine (commit_yields ready acquired planned).mono (fun _ same => same) (fun outcome later committed => ⟨rfl, ?_⟩)
      (fun _ _ _ => trivial) fun _ _ => trivial
    obtain ⟨idle, snapshot, plan, acquired, planned, named, applied⟩ := committed
    rw [files] at applied
    refine ⟨idle, snapshot, plan, ?_, planned, named, applied⟩
    rw [← acquired, Setting.view, Setting.view, files]
  | unrecorded own step unrecorded => exact refused (.unrecorded own step unrecorded)
  | running own step sound running => exact refused (.running own step sound running)

end Committing

section Recovering

/-- What a recovery makes of a store. -/
def Standing.Recovers (mode : RecoveryMode) : Standing → Store → Prop
  | settled store, last => last = store
  | pending before after, last => last = if mode.commits then after else before

/-- What a recovery has done when it returns. -/
structure Recovered (mode : RecoveryMode) (standing : Standing) (later : World) : Prop where
  settled : later.control.transactions = ∅
  store : standing.Recovers mode (storeOf later.files)

/-- A recovery that returns reports its mode. -/
private theorem recoverLocked_names {before : World → Prop} {mode : RecoveryMode} :
    Triple allowed before (recoverLocked setting id mode) (Yielding fun outcome _ => outcome = ⟨id, mode.outcome⟩) := by
  rw [recoverLocked]
  refine Triple.yieldingThen Triple.anyYield fun entry => ?_
  have unpublished : Triple allowed (fun _ => True) (recoverUnpublished setting id mode)
      (Yielding fun outcome _ => outcome = ⟨id, mode.outcome⟩) := by
    cases mode with
    | complete => exact Triple.refuse fun _ _ => trivial
    | rollback => exact Triple.yieldingThen Triple.anyYield fun _ => Triple.pure fun _ _ => rfl
  split
  · rw [recoverCleanup]
    split
    · exact Triple.refuse fun _ _ => trivial
    · refine Triple.yieldingComputes fun _ passed => Triple.yieldingThen Triple.anyYield fun _ => Triple.pure fun _ _ => ?_
      rw [not_not.mp (Except.rejectIf_eq_ok.mp passed)]
      cases mode <;> rfl
  · exact unpublished
  · exact unpublished
  · rw [recoverActive]
    refine Triple.yieldingThen Triple.anyYield fun loaded => ?_
    cases mode <;> exact Triple.yieldingThen Triple.anyYield fun _ => Triple.pure fun _ _ => rfl

private theorem recovered_ended {job : Job} {mode : RecoveryMode} {after : Store} {later : World}
    (ended : job.Ended mode.commits later) (whole : mode.commits = true → storeOf job.plannedFiles = after) :
    Recovered mode (.pending (storeOf job.base) after) later := by
  refine ⟨ended.left.inactive, ?_⟩
  rw [Standing.Recovers, ended.files]
  cases commits : mode.commits with
  | true => simp only [if_true, whole commits]
  | false => rfl

variable (sees : ∀ subject, ¬allowed (.existence subject) .failed) {mode : RecoveryMode}

include sees in
private theorem recoverLocked_yields (tracks : Tracks setting allowed world standing) :
    Triple allowed (· = world) (recoverLocked setting id mode) (Yielding fun _ => Recovered mode standing) := by
  cases tracks with
  | settled quiet =>
    exact (recoverLocked_quiet quiet).yielding fun _ later kept => ⟨kept.1, congrArg storeOf kept.2⟩
  | @unrecorded job after own step unrecorded =>
    obtain ⟨object, children, only, -⟩ := unrecorded.directory
    by_cases same : id = job.manifest.transactionId
    · subst own same
      refine (unrecorded.recover_triple mode).yielding fun outcome later finished => ?_
      obtain ⟨rolls, -, ended, -⟩ := finished
      subst rolls
      exact recovered_ended ended fun impossible => by cases impossible
    · exact (recoverLocked_unknown only same).yielding fun _ _ impossible => impossible.elim
  | @running job config phase own step sound running =>
    obtain ⟨object, children, only, -⟩ := running.shows_.active
    by_cases same : id = job.manifest.transactionId
    · subst own same
      refine (Job.Rests.recover_triple sound sees mode).mono (fun _ same => same ▸ .running running) (fun _ later ended => ?_)
        (fun _ _ _ => trivial) fun _ _ => trivial
      exact recovered_ended ended fun _ => rfl
    · exact (recoverLocked_unknown only same).yielding fun _ _ impossible => impossible.elim

include sees in
private theorem lockedRecovery_yields (tracks : Tracks setting allowed world standing) :
    Triple allowed (· = world) (lockedRecovery setting id mode)
      (Yielding fun outcome later => Recovered mode standing later ∧ outcome = ⟨id, mode.outcome⟩) := by
  rw [lockedRecovery]
  refine Triple.yieldingComputes fun _ _ => Triple.yieldingComputes fun _ _ => Triple.mapErrorYielding ?_
  exact (recoverLocked_yields sees tracks).yieldingBoth recoverLocked_names

end Recovering

/-- In every system that a run of commands reaches: a commit that returns began in a settled store, has
applied its whole batch to it and names the paths it changed; a recovery that returns has settled the
store, with the pending batch applied or undone as its report says. -/
theorem commands_report (setting : Setting) (allowed : Site → Went → Prop) (start system : System)
    (newIdentity : String → FileIdentity) (sees : ∀ subject, ¬allowed (.existence subject) .failed)
    (quiet : start.world.control.transactions = ∅) (captured : captureControlIdentities start.world.control = .ok setting.lock)
    (reached : ReflTransGen (System.Step setting allowed) start system) (allots : system.Allots newIdentity) :
    ∃ standing, ReflTransGen (Standing.Step setting) (.settled (storeOf start.world.files)) standing ∧
      standing.Shows system.world ∧
      (∀ request outcome later, Yields allowed (lockedCommit { setting with newIdentity } request) system.world outcome later →
        standing = .settled (storeOf system.world.files) ∧ Committed setting request system.world outcome later) ∧
      ∀ id mode outcome later, Yields allowed (lockedRecovery { setting with newIdentity } id mode) system.world outcome later →
        Recovered mode standing later ∧ outcome = ⟨id, mode.outcome⟩ := by
  obtain ⟨captured, standing, onwards, tracks⟩ := tracked_of_reached sees quiet captured reached
  have tracks := tracks_allotted allots tracks
  refine ⟨standing, onwards, tracks.shows_, fun request outcome later yields => ?_, fun id mode outcome later yields => ?_⟩
  · have committed := (lockedCommit_yields tracks captured fun quiet => allots.fresh quiet).yields rfl yields
    obtain ⟨settled, idle, applied⟩ := committed
    exact ⟨settled, idle, applied⟩
  · exact (lockedRecovery_yields sees tracks).yields rfl yields

end Srcmv.Cli

namespace Srcmv.Fs.Sample

open Srcmv.Cli Machine Process

/-- A recovery of the stopped commit completes it. -/
theorem recovery_yields {world : World} {config : Config} (unbegun : config.temporary = none)
    (running : job.Running Calmly config (job.preparedTo job.course.count) world) :
    ∃ outcome later, Yields Crashing (lockedRecovery setting transactionId .complete) world outcome later := by
  have starts : RecoveryMode.complete.Starts (job.preparedTo job.course.count).globalState := 
    .inl (by rw [Job.preparedTo, if_pos rfl])
  have completes : job.Completes := job_sound.completes (Nat.le_of_ble_eq_true rfl)
  have recovers : Triple Calmly (· = world) (lockedRecovery setting transactionId .complete)
      (⟨fun _ _ => True, fun _ _ => False, fun _ => True⟩ : Ending World CommitFailure RecoveryOutcome) := by
    rw [lockedRecovery]
    refine Triple.mapError ((running.completes job_sound job_inputsHold unbegun starts).mono (fun _ same => same)
      (fun _ _ _ => trivial) (fun _ _ stopped => stopped.2.2 completes) fun _ _ => trivial)
  rcases recovers.calm_ends rfl (fun site went calm => (CrashingBetweenRecords.of_calmly site went calm).crashing) with
    ⟨outcome, later, yields, -⟩ | ⟨error, later, -, impossible⟩
  · exact ⟨outcome, later, yields⟩
  · exact impossible.elim

end Srcmv.Fs.Sample

namespace Srcmv.Cli

open Srcmv.Core Srcmv.Fs Machine Process Relation

/-- The commit of the small batch returns; and if it is stopped when every candidate is recorded, a recovery
completes it and returns. -/
theorem commands_report_returned :
    (∃ outcome later, Yields Crashing (lockedCommit Sample.setting Sample.request) Sample.quietWorld outcome later ∧
      Committed Sample.setting Sample.request Sample.quietWorld outcome later) ∧
    ∃ stopped standing outcome later, System.Step Sample.setting Crashing Sample.quietSystem stopped ∧ standing.Shows stopped.world ∧
      Yields Crashing (lockedRecovery Sample.setting Sample.transactionId .complete) stopped.world outcome later ∧
      Recovered .complete standing later ∧ outcome = ⟨Sample.transactionId, "committed"⟩ := by
  constructor
  · obtain ⟨outcome, later, yields, -⟩ := Sample.request_yields
    obtain ⟨_, -, -, committed, -⟩ := commands_report Sample.setting Crashing Sample.quietSystem Sample.quietSystem
      Sample.setting.newIdentity Crashing.sees rfl rfl .refl Sample.quietSystem_allots
    exact ⟨outcome, later, yields, (committed _ _ _ yields).2⟩
  · obtain ⟨last, site, ⟨config, unbegun, running⟩, stops⟩ := Sample.prepared_stopsAt
    have crashes : Crashing site .crashed := fun impossible => by cases impossible
    have leads : Leads Crashing (Command.process Sample.setting (.commit Sample.request)) Sample.quietWorld last.world :=
      stops.first.leads (fun site went calm => (CrashingBetweenRecords.of_calmly site went calm).crashing) crashes
    have step : System.Step Sample.setting Crashing Sample.quietSystem ⟨last.world, Sample.setting.newIdentity⟩ :=
      .run (.commit Sample.request) Sample.quietSystem_allots leads
    have active : Sample.transactionId ∈ last.world.control.transactions := running.isActive
    have kept : System.Allots ⟨last.world, Sample.setting.newIdentity⟩ Sample.setting.newIdentity :=
      ⟨fun _ => rfl, fun empty => absurd active (by rw [empty]; exact Std.ExtTreeMap.not_mem_empty)⟩
    obtain ⟨outcome, later, yields⟩ := Sample.recovery_yields unbegun running
    obtain ⟨standing, -, shows_, -, recovers⟩ := commands_report Sample.setting Crashing Sample.quietSystem
      ⟨last.world, Sample.setting.newIdentity⟩ Sample.setting.newIdentity Crashing.sees rfl rfl (.single step) kept
    obtain ⟨recovered, named⟩ := recovers _ _ _ _ yields
    exact ⟨_, standing, outcome, later, step, shows_, yields, recovered, named⟩

end Srcmv.Cli
