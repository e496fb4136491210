import Srcmv.Model.Cli.Commands
import Srcmv.Proofs.Cli.PlannedStore
import Srcmv.Proofs.Fs.Footprint
import Srcmv.Proofs.Fs.Gate
import Srcmv.Proofs.Fs.Resting

/-! # Commands and the store

Each command takes the store from one standing to another. While a batch is pending its transaction
either has recorded nothing, or it is a running job that keeps its promises; both say what every
path shows. A commit starts from a settled store or not at all, and a recovery ends what is pending.
-/

/-! ## Commands and the control tree

No command touches the control objects. A commit is refused while another transaction is active, a
recovery of another transaction finds nothing, and a recovery without an active transaction changes no
file of the workspace.
-/

namespace Srcmv.Cli

open Srcmv.Core Srcmv.Fs Machine Process

variable {allowed : Site → Went → Prop} {setting : Setting} {world later : World} {id : String}

/-- Every identifier a commit tries is one the journal accepts. -/
theorem validateTransactionId_hexLower (random : RandomId) : validateTransactionId (hexLower random.bytes) = .ok () := by
  rw [validateTransactionId, hexLower, String.toList_ofList, if_pos]
  refine ⟨?_, ?_⟩
  · rw [length_hex, random.size]
  · rw [List.all_eq_true]
    intro char member
    obtain ⟨byte, -, written⟩ := List.mem_flatMap.mp member
    have bound := byte.toNat_lt
    rcases List.mem_cons.mp written with rfl | written
    · exact hexDigit_isLowerHex _ (by omega)
    · rw [List.mem_singleton.mp written]
      exact hexDigit_isLowerHex _ (by omega)

theorem CommitArguments.identifier_valid {arguments : CommitArguments} (member : id ∈ arguments.identifiers) :
    validateTransactionId id = .ok () := by
  obtain ⟨random, -, rfl⟩ := List.mem_map.mp member
  exact validateTransactionId_hexLower random

/-- The plan of a commit is the expected one. -/
theorem expectedPlan_eq_ok {arguments : CommitArguments} {snapshot : WorkspaceSnapshot} {editPlan : EditPlan} :
    expectedPlan setting arguments snapshot = .ok editPlan ↔
      Core.plan setting.crates.sha256 arguments.sizes snapshot arguments.batch {} = .ok editPlan ∧
        ∀ expected, arguments.expectedPlan = some expected → expected = editPlan.digest := by
  rw [expectedPlan]
  cases arguments.expectedPlan with
  | none =>
    constructor
    · intro accepted
      obtain ⟨plan, made, accepted⟩ := Except.bind_eq_ok.mp accepted
      obtain ⟨_, -, accepted⟩ := Except.bind_eq_ok.mp accepted
      obtain rfl := Except.pure_eq_ok.mp accepted
      exact ⟨Except.mapError_eq_ok.mp made, fun _ impossible => by cases impossible⟩
    · rintro ⟨planned, -⟩
      rw [Except.mapError_eq_ok.mpr planned, Except.ok_bind]
      rfl
  | some digest =>
    constructor
    · intro accepted
      obtain ⟨plan, made, accepted⟩ := Except.bind_eq_ok.mp accepted
      obtain ⟨_, matches_, accepted⟩ := Except.bind_eq_ok.mp accepted
      obtain rfl := Except.pure_eq_ok.mp accepted
      refine ⟨Except.mapError_eq_ok.mp made, fun expected expects => ?_⟩
      cases expects
      exact not_not.mp (Except.rejectIf_eq_ok.mp matches_)
    · rintro ⟨planned, expects⟩
      rw [Except.mapError_eq_ok.mpr planned, Except.ok_bind]
      dsimp only
      rw [Except.rejectIf_of_not (not_not.mpr (expects digest rfl)), Except.ok_bind]
      rfl

/-- The plan made under the lock is also the one made before. -/
theorem lockedPlan_eq_ok {request : CommitRequest} {snapshot : WorkspaceSnapshot} {editPlan : EditPlan} :
    lockedPlan setting request snapshot = .ok editPlan ↔
      expectedPlan setting request.toCommitArguments snapshot = .ok editPlan ∧ editPlan.digest = request.prelockPlan := by
  rw [lockedPlan]
  constructor
  · intro accepted
    obtain ⟨plan, made, accepted⟩ := Except.bind_eq_ok.mp accepted
    obtain ⟨_, unchanged, accepted⟩ := Except.bind_eq_ok.mp accepted
    obtain rfl := Except.pure_eq_ok.mp accepted
    exact ⟨made, not_not.mp (Except.rejectIf_eq_ok.mp unchanged)⟩
  · rintro ⟨made, unchanged⟩
    rw [made, Except.ok_bind, Except.rejectIf_of_not (not_not.mpr unchanged), Except.ok_bind]
    rfl

theorem lockedPlan_planned {request : CommitRequest} {snapshot : WorkspaceSnapshot} {editPlan : EditPlan}
    (accepted : lockedPlan setting request snapshot = .ok editPlan) :
    Core.plan setting.crates.sha256 request.sizes snapshot request.batch {} = .ok editPlan :=
  (expectedPlan_eq_ok.mp (lockedPlan_eq_ok.mp accepted).1).1

section Objects

theorem captureControlIdentities_congr {tree other : ControlTree} (same : tree.objects = other.objects) :
    captureControlIdentities tree = captureControlIdentities other := by
  simp only [ControlTree.objects, Prod.mk.injEq] at same
  rw [captureControlIdentities, captureControlIdentities, same.1, same.2.1, same.2.2.1, same.2.2.2.1, same.2.2.2.2]

/-- The control objects are those of this world. -/
def SameObjects (world later : World) : Prop := later.control.objects = world.control.objects

private theorem lockedCommit_objects (request : CommitRequest) :
    Triple allowed (· = world) (lockedCommit setting request) (Keeps (SameObjects world)) := by
  have gate : Triple allowed (· = world) (gateNewTransaction setting) (Keeps (SameObjects world)) :=
    gateNewTransaction_triple.mono (fun _ same => same) (fun _ _ passed => passed.1.objects) (fun _ _ cleaned => cleaned.objects)
      fun _ cleaned => cleaned.objects
  rw [lockedCommit, underLock]
  refine Triple.keepsThen (Triple.mapErrorKeeps gate) fun _ => ?_
  refine Triple.bind (fun _ => SameObjects world) (Triple.note fun _ same => same) fun _ => ?_
  refine Triple.keepsThen (Triple.mapErrorKeeps ?_) fun snapshot => Triple.computes (fun _ _ same => same) fun plan _ =>
    Triple.mapErrorKeeps (Triple.pointwise fun before same => ?_)
  · rw [acquireLockedSnapshot, ioRead]
    exact Triple.observe (fun _ _ same => same) (fun _ _ same => same) (fun _ same _ _ => same) fun _ _ same _ _ => same
  · have kept (later : World) (spared : SparedByCommit plan request.identifiers before later) : SameObjects world later :=
      spared.objects.trans same
    exact commit_spares.mono (fun _ same => same) (fun _ => kept) (fun _ => kept) kept

private theorem lockedRecovery_objects (transactionId : String) (mode : RecoveryMode) :
    Triple allowed (· = world) (lockedRecovery setting transactionId mode) (Keeps (SameObjects world)) := by
  rw [lockedRecovery]
  refine Triple.computes (fun _ _ same => same ▸ rfl) fun _ _ =>
    Triple.computes (fun _ _ same => same ▸ rfl) fun _ _ => Triple.mapErrorKeeps ?_
  have kept (later : World) (spares : (Scope.ofRecorded setting.crates world transactionId).Spares world later) :
      SameObjects world later := spares.objects
  exact (spares_of_acts (recoverLocked_acts mode)).mono (fun _ same => same) (fun _ => kept) (fun _ => kept) kept

/-- No command touches the control objects. -/
theorem command_objects (command : Command) : Triple allowed (· = world) (command.process setting) (Keeps (SameObjects world)) := by
  cases command with
  | commit request => exact Triple.keepsThen (lockedCommit_objects request) fun _ => Triple.pureKeeps
  | recovery transactionId mode => exact Triple.keepsThen (lockedRecovery_objects transactionId mode) fun _ => Triple.pureKeeps

end Objects

section Recoveries

/-- What a recovery does beyond its checks. -/
theorem lockedRecovery_triple {before : World → Prop} {rest : World → Prop} {mode : RecoveryMode} {transactionId : String}
    (weaker : ∀ world, before world → rest world)
    (recovers : Triple allowed before (recoverLocked setting transactionId mode) (Keeps rest)) :
    Triple allowed before (lockedRecovery setting transactionId mode) (Keeps rest) := by
  rw [lockedRecovery]
  exact Triple.computes (fun _ => weaker) fun _ _ => Triple.computes (fun _ => weaker) fun _ _ => Triple.mapErrorKeeps recovers

/-- While one transaction is active, a recovery of another one finds nothing. -/
theorem recoverLocked_unknown {object : ControlObject} {children : NameMap Item} {mode : RecoveryMode} {other : String}
    (only : OnlyActive world.control id object children) (different : other ≠ id) :
    Triple allowed (· = world) (recoverLocked setting other mode) ⟨fun _ _ => False, fun _ => (· = world), (· = world)⟩ := by
  rw [recoverLocked, scanRecoveryEntry, ioRead]
  refine Triple.bind (fun _ _ => False) ?_ fun _ _ _ impossible => impossible.elim
  refine Triple.observe (fun _ _ same => same) (fun _ _ same => same) (fun later same entry found => ?_) fun _ _ same _ _ => same
  subst same
  rw [recoveryEntry] at found
  obtain ⟨_, -, found⟩ := Except.bind_eq_ok.mp found
  obtain ⟨entries, scanned, found⟩ := Except.bind_eq_ok.mp found
  rw [only.scanControl_eq] at scanned
  obtain ⟨_, inspected, same⟩ := Except.bind_eq_ok.mp scanned
  obtain rfl := Except.ok.inj same
  rw [OrderedMap.getElem?_insert, (inspect_entry inspected).1, if_neg different.symm, Std.ExtTreeMap.getElem?_empty] at found
  cases found

/-- Without an active transaction, a recovery changes no file and begins none. -/
theorem recoverLocked_quiet {mode : RecoveryMode} {transactionId : String} (quiet : world.control.transactions = ∅) :
    Triple allowed (· = world) (recoverLocked setting transactionId mode)
      (Keeps fun later => later.control.transactions = ∅ ∧ later.files = world.files) := by
  have unrecorded : world.recordedPaths setting.crates transactionId = [] := by
    have absent : world.item? (.artifact transactionId "manifest.rec") = none := by
      change (world.control.children transactionId)["manifest.rec"]? = none
      rw [ControlTree.children, quiet, Std.ExtTreeMap.getElem?_empty]
      exact Std.ExtTreeMap.getElem?_empty
    rw [World.recordedPaths, World.recordedManifest?, absent]
    rfl
  have kept (later : World) (spares : (Scope.ofRecorded setting.crates world transactionId).Spares world later) :
      later.control.transactions = ∅ ∧ later.files = world.files := by
    constructor
    · refine Std.ExtTreeMap.eq_empty_iff_forall_not_mem.mpr fun id member => ?_
      have old := spares.old id member
      rw [quiet] at old
      exact Std.ExtTreeMap.not_mem_empty old
    · funext path
      apply spares.files
      change path ∉ world.recordedPaths setting.crates transactionId
      rw [unrecorded]
      exact List.not_mem_nil
  exact (spares_of_acts (recoverLocked_acts mode)).mono (fun _ same => same) (fun _ => kept) (fun _ => kept) kept

/-- While a transaction is active, a commit is refused and nothing changes. -/
theorem lockedCommit_refused {object : ControlObject} {children : NameMap Item} {request : CommitRequest}
    (only : OnlyActive world.control id object children) :
    Triple allowed (· = world) (lockedCommit setting request) ⟨fun _ _ => False, fun _ => (· = world), (· = world)⟩ := by
  have refused : Triple allowed (· = world) (gateNewTransaction setting)
      (⟨fun _ _ => False, fun _ => (· = world), (· = world)⟩ : Ending World FsError Unit) :=
    only.gate_triple.mono (fun _ same => same) (fun _ _ impossible => impossible) (fun _ _ failed => failed.2)
      fun _ crashed => crashed
  rw [lockedCommit, underLock]
  exact Triple.bind (fun _ _ => False) (Triple.mapError refused) fun _ _ _ impossible => impossible.elim

end Recoveries

end Srcmv.Cli

/-! ## Standings that are tracked -/

namespace Srcmv.Cli

open Srcmv.Core Srcmv.Fs Machine Process Relation

variable {allowed : Site → Went → Prop} {setting : Setting} {newIdentity : String → FileIdentity} {world later : World}
  {standing : Standing} {job : Job} {after : Store}

/-- A world between two commands and the standing of its store. -/
inductive Tracks (setting : Setting) (allowed : Site → Went → Prop) (world : World) : Standing → Prop where
  | settled (quiet : world.control.transactions = ∅) : Tracks setting allowed world (.settled (storeOf world.files))
  | unrecorded {job : Job} {after : Store} (own : job.setting = setting) (step : Store.Step setting (storeOf job.base) after)
      (unrecorded : job.Unrecorded allowed world) : Tracks setting allowed world (.pending (storeOf job.base) after)
  | running {job : Job} {config : Config} {phase : Phase} (own : job.setting = setting)
      (step : Store.Step setting (storeOf job.base) (storeOf job.plannedFiles)) (sound : job.Sound)
      (running : job.Running allowed config phase world) :
      Tracks setting allowed world (.pending (storeOf job.base) (storeOf job.plannedFiles))

/-- The world tracks a standing that is reached from this one. -/
def Follows (setting : Setting) (allowed : Site → Went → Prop) (standing : Standing) (world : World) : Prop :=
  ∃ next, ReflTransGen (Standing.Step setting) standing next ∧ Tracks setting allowed world next

theorem Tracks.follows (tracks : Tracks setting allowed world standing) : Follows setting allowed standing world :=
  ⟨standing, .refl, tracks⟩

theorem Tracks.shows_ (tracks : Tracks setting allowed world standing) : standing.Shows world := by
  have single {id : String} {object : ControlObject} {children : NameMap Item} (only : OnlyActive world.control id object children)
      (other : String) : other ∈ world.control.transactions ↔ other = id := by
    refine ⟨only.active.single other, ?_⟩
    rintro rfl
    exact only.isActive
  cases tracks with
  | settled quiet => exact ⟨quiet, rfl⟩
  | unrecorded own step unrecorded =>
    obtain ⟨object, children, only, -⟩ := unrecorded.directory
    exact ⟨⟨_, single only⟩, fun path => .inl (by rw [unrecorded.files])⟩
  | running own step sound running =>
    obtain ⟨object, children, only, -⟩ := running.shows_.active
    refine ⟨⟨_, single only⟩, fun path => ?_⟩
    rcases running_shows sound running path with same | same | same
    · exact .inl (congrArg (Option.map PathContent.ofItem) same)
    · exact .inr (.inl (congrArg (Option.map PathContent.ofItem) same))
    · exact .inr (.inr (congrArg (Option.map PathContent.ofItem) same))

section Ended

/-- A transaction that has ended leaves a settled store. -/
theorem follows_ended {committed : Bool} (ended : job.Ended committed later)
    (whole : committed = true → storeOf job.plannedFiles = after) :
    Follows setting allowed (.pending (storeOf job.base) after) later := by
  have settled : Tracks setting allowed later (.settled (storeOf later.files)) := .settled ended.left.inactive
  cases committed with
  | true =>
    rw [show later.files = job.plannedFiles from ended.files, whole rfl] at settled
    exact ⟨_, .single .commits, settled⟩
  | false =>
    rw [show later.files = job.base from ended.files] at settled
    exact ⟨_, .single .rollsBack, settled⟩

theorem follows_partly (own : job.setting = setting) (step : Store.Step setting (storeOf job.base) after)
    (partly : job.PartlyRolledBack allowed later) : Follows setting allowed (.pending (storeOf job.base) after) later := by
  rcases partly with unrecorded | ended
  · exact (Tracks.unrecorded own step unrecorded).follows
  · exact follows_ended ended (fun impossible => by cases impossible)

theorem follows_rests (own : job.setting = setting) (step : Store.Step setting (storeOf job.base) (storeOf job.plannedFiles))
    (sound : job.Sound) (rests : job.Rests allowed later) :
    Follows setting allowed (.pending (storeOf job.base) (storeOf job.plannedFiles)) later := by
  cases rests with
  | unrecorded unrecorded => exact (Tracks.unrecorded own step unrecorded).follows
  | running running => exact (Tracks.running own step sound running).follows
  | ended ended => exact follows_ended ended fun _ => rfl

end Ended

section Recovering

variable (sees : ∀ subject, ¬allowed (.existence subject) .failed) {mode : RecoveryMode} {transactionId : String}

theorem settled_follows (quiet : later.control.transactions = ∅) (same : later.files = world.files) :
    Follows setting allowed (.settled (storeOf world.files)) later := by
  rw [← same]
  exact (Tracks.settled quiet).follows

/-- A recovery of a transaction that is not the active one leaves everything as it is. -/
theorem recoverLocked_other {object : ControlObject} {children : NameMap Item} {id : String}
    (tracks : Tracks setting allowed world standing) (only : OnlyActive world.control id object children)
    (different : transactionId ≠ id) : Triple allowed (· = world) (recoverLocked setting transactionId mode)
      (Keeps (Follows setting allowed standing)) := by
  have stays (later : World) (same : later = world) : Follows setting allowed standing later := same ▸ tracks.follows
  exact (recoverLocked_unknown only different).mono (fun _ same => same) (fun _ _ impossible => impossible.elim)
    (fun _ => stays) stays

theorem recoverLocked_unrecorded (step : Store.Step job.setting (storeOf job.base) after)
    (unrecorded : job.Unrecorded allowed world) : Triple allowed (· = world)
      (recoverLocked job.setting job.manifest.transactionId mode)
      (Keeps (Follows job.setting allowed (.pending (storeOf job.base) after))) := by
  apply Triple.keeps
  · apply (unrecorded.recover_triple mode).weaken
    · exact fun _ _ finished => finished
    · exact fun later stopped => follows_partly rfl step stopped.2
  · exact fun _ later finished => follows_ended finished.2.2.1 fun impossible => by cases impossible

include sees in
theorem recoverLocked_running (step : Store.Step job.setting (storeOf job.base) (storeOf job.plannedFiles))
    (sound : job.Sound) (rests : job.Rests allowed world) : Triple allowed (· = world)
      (recoverLocked job.setting job.manifest.transactionId mode)
      (Keeps (Follows job.setting allowed (.pending (storeOf job.base) (storeOf job.plannedFiles)))) := by
  have recovers := (Job.Rests.recover_triple sound sees mode).keeps fun _ _ ended => .ended ended
  have follows (later : World) (rests : job.Rests allowed later) :
      Follows job.setting allowed (.pending (storeOf job.base) (storeOf job.plannedFiles)) later :=
    follows_rests rfl step sound rests
  exact recovers.mono (fun _ same => same ▸ rests) (fun _ => follows) (fun _ => follows) follows

include sees in
/-- A recovery takes a store from one standing to another. -/
theorem recoverLocked_follows (tracks : Tracks setting allowed world standing) :
    Triple allowed (· = world) (recoverLocked setting transactionId mode) (Keeps (Follows setting allowed standing)) := by
  cases tracks with
  | settled quiet =>
    have follows (later : World) (kept : later.control.transactions = ∅ ∧ later.files = world.files) :
        Follows setting allowed (.settled (storeOf world.files)) later := settled_follows kept.1 kept.2
    exact (recoverLocked_quiet quiet).mono (fun _ same => same) (fun _ => follows) (fun _ => follows) follows
  | @unrecorded job after own step unrecorded =>
    obtain ⟨object, children, only, -⟩ := unrecorded.directory
    by_cases same : transactionId = job.manifest.transactionId
    · subst own same
      exact recoverLocked_unrecorded step unrecorded
    · exact recoverLocked_other (.unrecorded own step unrecorded) only same
  | @running job config phase own step sound running =>
    obtain ⟨object, children, only, -⟩ := running.shows_.active
    by_cases same : transactionId = job.manifest.transactionId
    · subst own same
      exact recoverLocked_running sees step sound (.running running)
    · exact recoverLocked_other (.running own step sound running) only same

end Recovering

section Committing

variable (sees : ∀ subject, ¬allowed (.existence subject) .failed) {request : CommitRequest}

theorem Tracks.onlyActive {before : Store} (tracks : Tracks setting allowed world (.pending before after)) :
    ∃ id object children, OnlyActive world.control id object children := by
  cases tracks with
  | unrecorded own step unrecorded =>
    obtain ⟨object, children, only, -⟩ := unrecorded.directory
    exact ⟨_, object, children, only⟩
  | running own step sound running =>
    obtain ⟨object, children, only, -⟩ := running.shows_.active
    exact ⟨_, object, children, only⟩

/-- While a transaction is active, a commit is refused. -/
theorem lockedCommit_pending {before : Store} (tracks : Tracks setting allowed world (.pending before after)) :
    Triple allowed (· = world) (lockedCommit setting request) (Keeps (Follows setting allowed (.pending before after))) := by
  obtain ⟨id, object, children, only⟩ := tracks.onlyActive
  have stays (later : World) (same : later = world) : Follows setting allowed (.pending before after) later :=
    same ▸ tracks.follows
  exact (lockedCommit_refused only).mono (fun _ same => same) (fun _ _ impossible => impossible.elim) (fun _ => stays) stays

/-- What a commit finds once the gate let it pass. -/
structure CommitReady (setting : Setting) (world : World) : Prop where
  idle : Idle world.control
  captured : captureControlIdentities world.control = .ok setting.lock
  published : world.published = []
  refusals : world.refusals = []
  fresh : ∀ (path : String) (node : Node) (name : String), world.files path = some (.file node) →
    setting.newIdentity name ≠ node.identity

variable {snapshot : WorkspaceSnapshot} {editPlan : EditPlan} {id : String}

/-- A manifest that stands for none. -/
def blankManifest (id : String) : Manifest := ⟨1, id, ⟨0, 0⟩, "", [], [], []⟩

theorem CommitReady.settled (ready : CommitReady setting world) : Tracks setting allowed world (.settled (storeOf world.files)) :=
  .settled ready.idle.active

/-- The job of a directory that was just created. -/
theorem CommitReady.opened (ready : CommitReady setting world) (identifier : validateTransactionId id = .ok ()) :
    (plannedJob setting world snapshot editPlan (blankManifest id)).Unrecorded allowed (world.opening setting id) := by
  have fresh : (plannedJob setting world snapshot editPlan (blankManifest id)).Fresh (world.opening setting id) :=
    plannedJob_fresh ready.idle ready.captured ready.published ready.refusals identifier
  exact fresh.unrecorded

theorem follows_begins {before : Store} (step : Store.Step setting before after)
    (follows : Follows setting allowed (.pending before after) later) : Follows setting allowed (.settled before) later := by
  obtain ⟨next, reached, tracks⟩ := follows
  exact ⟨next, .head (.begins step) reached, tracks⟩

/-- A manifest that cannot be recorded leaves its directory as it is. -/
theorem executeNewTransaction_unencodable {manifest : Manifest} (unencodable : ¬manifest.Encodes setting.crates) :
    Triple allowed (· = world) (executeNewTransaction setting manifest manifest.transactionId snapshot)
      ⟨fun _ _ => False, fun _ => (· = world), (· = world)⟩ := by
  rw [executeNewTransaction, createJournal]
  refine Triple.bind (fun _ _ => False) ?_ fun _ _ _ impossible => impossible.elim
  refine Triple.computes (fun _ _ same => same) fun _ _ => Triple.computes (fun _ _ same => same) fun _ _ => ?_
  refine Triple.computes (fun _ _ same => same) fun encoded encodes => ?_
  exact absurd ((encodeManifestRecord_eq_ok setting.crates).mp encodes).1 unencodable

/-- The automatic rollback ends in an error, and keeps what the rollback keeps. -/
theorem rollBackFailed_keeps {invariant : World → Prop} (holds : invariant world)
    (rollback : Triple allowed (· = world) (recoverLocked setting id .rollback) (Keeps invariant)) (original : FsError) :
    Triple allowed (· = world) (rollBackFailed setting id original) ⟨fun _ _ => False, fun _ => invariant, invariant⟩ := by
  have stays (later : World) (same : later = world) : invariant later := same ▸ holds
  have reports (failed : Bool) : Triple allowed invariant
      (if failed = true then Process.refuse (.transactionRecoveryRequired [id]) else Process.refuse original : Engine CommitOutcome)
      ⟨fun _ _ => False, fun _ => invariant, invariant⟩ := by
    split <;> exact Triple.refuse fun _ kept => kept
  rw [rollBackFailed]
  refine Triple.bind (fun _ => (· = world)) ?_ fun remains => ?_
  · exact Triple.probe (fun _ => stays) (fun _ _ same => same) fun _ same => same
  dsimp only
  split
  · refine Triple.bind (fun _ => invariant) ?_ reports
    rw [automaticRollback]
    refine Triple.keepsThen (Triple.attemptKeeps rollback) fun result => ?_
    split <;> exact Triple.pureKeeps
  · exact Triple.bind (fun _ => invariant) (Triple.pure stays) reports

theorem rollBackFailed_unrecorded (step : Store.Step job.setting (storeOf job.base) after)
    (unrecorded : job.Unrecorded allowed world) (original : FsError) : Triple allowed (· = world)
      (rollBackFailed job.setting job.manifest.transactionId original)
      (Keeps (Follows job.setting allowed (.pending (storeOf job.base) after))) := by
  have follows : Follows job.setting allowed (.pending (storeOf job.base) after) world :=
    (Tracks.unrecorded rfl step unrecorded).follows
  exact (rollBackFailed_keeps follows (recoverLocked_unrecorded step unrecorded) original).mono (fun _ same => same)
    (fun _ _ impossible => impossible.elim) (fun _ _ kept => kept) fun _ kept => kept

section Built

variable {manifest : Manifest} (ready : CommitReady setting world)
  (acquired : (setting.view world).acquireSnapshot setting.crates.sha256 (snapshotRequirements request.batch) {} = .ok snapshot)
  (planned : Core.plan setting.crates.sha256 request.sizes snapshot request.batch {} = .ok editPlan)
  (step : Store.Step setting (storeOf world.files) ((storeOf world.files).after snapshot request.batch request.newFileMode))

include sees ready acquired planned step in
/-- Once its manifest is built, a commit leads to a standing of its batch. -/
theorem commitManifest_follows (identifier : validateTransactionId id = .ok ())
    (built : buildManifest snapshot editPlan (Fs.changedOutputs editPlan) id request.newFileMode = .ok manifest) :
    Triple allowed (· = world.opening setting id) (commitManifest setting manifest snapshot)
      (Keeps (Follows setting allowed
        (.pending (storeOf world.files) ((storeOf world.files).after snapshot request.batch request.newFileMode)))) := by
  have from_ : PlannedFrom setting world snapshot editPlan manifest request.newFileMode :=
    ⟨⟨_, acquired⟩, ⟨_, _, planned⟩, ⟨_, built⟩⟩
  obtain ⟨-, -, rfl, -⟩ := buildManifest_ok built
  have fresh : (plannedJob setting world snapshot editPlan manifest).Fresh (world.opening setting manifest.transactionId) :=
    plannedJob_fresh ready.idle ready.captured ready.published ready.refusals identifier
  by_cases encodes : manifest.Encodes setting.crates
  · have sound := from_.sound encodes ready.fresh
    have whole := plannedFiles_store from_ planned sound
    have follows (later : World) (rests : (plannedJob setting world snapshot editPlan manifest).Rests allowed later) :
        Follows setting allowed
          (.pending (storeOf world.files) ((storeOf world.files).after snapshot request.batch request.newFileMode)) later := by
      rw [← whole] at step ⊢
      exact follows_rests rfl step sound rests
    exact (fresh.commit_triple sound sees).mono (fun _ same => same) (fun _ => follows) (fun _ => follows) follows
  · have unrecorded : (plannedJob setting world snapshot editPlan manifest).Unrecorded allowed
        (world.opening setting manifest.transactionId) := fresh.unrecorded
    have follows (later : World) (same : later = world.opening setting manifest.transactionId) : Follows setting allowed
        (.pending (storeOf world.files) ((storeOf world.files).after snapshot request.batch request.newFileMode)) later := by
      subst same
      exact (Tracks.unrecorded rfl step unrecorded).follows
    have executes : Triple allowed (· = world.opening setting manifest.transactionId)
        (executeNewTransaction setting manifest manifest.transactionId snapshot)
        (Keeps (· = world.opening setting manifest.transactionId)) :=
      (executeNewTransaction_unencodable encodes).mono (fun _ same => same) (fun _ _ impossible => impossible.elim)
        (fun _ _ same => same) fun _ same => same
    rw [commitManifest]
    refine Triple.keepsUntil (Triple.attemptKeeps executes) follows fun result => ?_
    split
    · exact Triple.pure follows
    · exact rollBackFailed_unrecorded step unrecorded _

end Built

variable (ready : CommitReady setting world)
  (acquired : (setting.view world).acquireSnapshot setting.crates.sha256 (snapshotRequirements request.batch) {} = .ok snapshot)

include sees ready acquired in
/-- From a settled store a commit leads to a standing of its batch. -/
theorem commit_follows (planned : lockedPlan setting request snapshot = .ok editPlan) : Triple allowed (· = world)
    (Fs.commit setting snapshot editPlan request.newFileMode request.identifiers)
    (Keeps (Follows setting allowed (.settled (storeOf world.files)))) := by
  have step : Store.Step setting (storeOf world.files) ((storeOf world.files).after snapshot request.batch request.newFileMode) :=
    .applies request acquired planned
  have stays (later : World) (same : later = world) : Follows setting allowed (.settled (storeOf world.files)) later := by
    rw [same]
    exact ready.settled.follows
  have opens (later : World) (opens : World.MayOpen setting request.identifiers world later) :
      Follows setting allowed (.settled (storeOf world.files)) later := by
    cases opens with
    | unchanged => exact stays _ rfl
    | @opened id tried _ =>
      have opened : (plannedJob setting world snapshot editPlan (blankManifest id)).Unrecorded allowed (world.opening setting id) :=
        ready.opened (CommitArguments.identifier_valid tried)
      exact follows_begins step (Tracks.unrecorded rfl step opened).follows
  have begins (later : World) (follows : Follows setting allowed
      (.pending (storeOf world.files) ((storeOf world.files).after snapshot request.batch request.newFileMode)) later) :
      Follows setting allowed (.settled (storeOf world.files)) later := follows_begins step follows
  rw [Fs.commit]
  refine Triple.computes (fun _ => stays) fun _ _ => Triple.computes (fun _ => stays) fun _ _ =>
    Triple.computes (fun _ => stays) fun _ _ => ?_
  refine Triple.bind _ (createTransactionDirectory_opens.mono (fun _ same => same) (fun _ _ opened => opened)
    (fun _ => opens) opens) fun id => ?_
  refine Triple.fact fun tried => Triple.fact fun _ => ?_
  have identifier := CommitArguments.identifier_valid tried
  cases built : buildManifest snapshot editPlan (Fs.changedOutputs editPlan) id request.newFileMode with
  | ok manifest =>
    exact (commitManifest_follows sees ready acquired (lockedPlan_planned planned) step identifier built).mono (fun _ same => same)
      (fun _ => begins) (fun _ => begins) begins
  | error error =>
    have opened : (plannedJob setting world snapshot editPlan (blankManifest id)).Unrecorded allowed (world.opening setting id) :=
      ready.opened identifier
    have rolls : Triple allowed (· = world.opening setting id) (rollbackControlOnly setting id) (Keeps (Follows setting allowed
        (.pending (storeOf world.files) ((storeOf world.files).after snapshot request.batch request.newFileMode)))) := by
      apply Triple.keeps
      · apply (opened.rollback_triple).weaken
        · exact fun _ _ finished => finished
        · exact fun later stopped => follows_partly rfl step stopped.2
      · exact fun _ later finished => follows_ended finished.1 fun impossible => by cases impossible
    exact Triple.keepsThen (rolls.mono (fun _ same => same) (fun _ => begins) (fun _ => begins) begins) fun _ =>
      Triple.refuseKeeps

/-- What is done under the lock is done with a plan of a snapshot, once the gate let it pass. -/
theorem underLock_triple {α : Type} {next : WorkspaceSnapshot → EditPlan → CommandProcess α}
    {ending : Ending World CommitFailure α} (captured : captureControlIdentities world.control = .ok setting.lock)
    (fresh : ∀ (path : String) (node : Node) (name : String), world.files path = some (.file node) →
      setting.newIdentity name ≠ node.identity)
    (stops : ∀ later, later.control.transactions = world.control.transactions → later.files = world.files →
      (∀ error, ending.failed error later) ∧ ending.crashed later)
    (commits : ∀ (before : World) (snapshot : WorkspaceSnapshot) (plan : EditPlan), CommitReady setting before →
      before.files = world.files → (setting.view before).acquireSnapshot setting.crates.sha256 (snapshotRequirements request.batch) {} =
        .ok snapshot → lockedPlan setting request snapshot = .ok plan →
      Triple allowed (· = before) (next snapshot plan) ending) :
    Triple allowed (· = world) (underLock setting request next) ending := by
  have cleaned (later : World) (cleaned : Cleaned world later) := stops later cleaned.transactions cleaned.files
  have gate : Triple allowed (· = world) (gateNewTransaction setting) ⟨fun _ later => Cleaned world later ∧ Idle later.control,
      fun error => ending.failed (.filesystem error), ending.crashed⟩ :=
    gateNewTransaction_triple.mono (fun _ same => same) (fun _ _ passed => passed) (fun _ later kept => (cleaned later kept).1 _)
      fun later kept => (cleaned later kept).2
  rw [underLock]
  refine Triple.bind (fun _ later => Cleaned world later ∧ Idle later.control) (Triple.mapError gate) fun _ => ?_
  refine Triple.bind (fun _ later => CommitReady setting later ∧ Cleaned world later) (Triple.note fun later passed => ?_) fun _ => ?_
  · obtain ⟨kept, idle⟩ := passed
    have captured' : captureControlIdentities (beginHistory later).control = .ok setting.lock := by
      have objects : (beginHistory later).control.objects = world.control.objects := kept.objects
      rw [captureControlIdentities_congr objects]
      exact captured
    have same : (beginHistory later).files = world.files := kept.files
    exact ⟨⟨idle, captured', rfl, rfl, same ▸ fresh⟩, kept.files, kept.transactions, kept.objects, kept.old⟩
  refine Triple.pointwise fun before holds => ?_
  obtain ⟨ready, kept⟩ := holds
  have stays (later : World) (same : later = before) : (∀ error, ending.failed error later) ∧ ending.crashed later := by
    rw [same]
    exact cleaned before kept
  refine Triple.bind (fun snapshot later => (setting.view before).acquireSnapshot setting.crates.sha256
    (snapshotRequirements request.batch) {} = .ok snapshot ∧ later = before) (Triple.mapError ?_) fun snapshot => ?_
  · rw [acquireLockedSnapshot, ioRead]
    refine Triple.observe (fun _ later same => (stays later same).2) (fun _ later same => (stays later same).1 _)
      (fun later same value seen => ?_) fun _ later same _ _ => (stays later same).1 _
    subst same
    exact ⟨seen, rfl⟩
  exact Triple.fact fun acquired => Triple.computes (fun error later same => (stays later same).1 error) fun plan planned =>
    commits before snapshot plan ready kept.files acquired planned

include sees in
/-- From a settled store a whole commit command leads to a standing of its batch. -/
theorem lockedCommit_settled (quiet : world.control.transactions = ∅)
    (captured : captureControlIdentities world.control = .ok setting.lock)
    (fresh : ∀ (path : String) (node : Node) (name : String), world.files path = some (.file node) →
      setting.newIdentity name ≠ node.identity) :
    Triple allowed (· = world) (lockedCommit setting request) (Keeps (Follows setting allowed (.settled (storeOf world.files)))) := by
  rw [lockedCommit]
  refine underLock_triple captured fresh (fun later transactions files => ?_) fun before snapshot plan ready files acquired planned =>
    Triple.mapErrorKeeps ?_
  · have idle := transactions.trans quiet
    exact ⟨fun _ => settled_follows idle files, settled_follows idle files⟩
  · rw [← files]
    exact commit_follows sees ready acquired planned

end Committing

section Running

/-- A command takes a store from one standing to another. -/
theorem command_follows (sees : ∀ subject, ¬allowed (.existence subject) .failed) (command : Command)
    (tracks : Tracks setting allowed world standing) (captured : captureControlIdentities world.control = .ok setting.lock)
    (fresh : world.control.transactions = ∅ → ∀ (path : String) (node : Node) (name : String),
      world.files path = some (.file node) → setting.newIdentity name ≠ node.identity) :
    Triple allowed (· = world) (command.process setting) (Keeps (Follows setting allowed standing)) := by
  cases command with
  | commit request =>
    refine Triple.keepsThen ?_ fun _ => Triple.pureKeeps
    cases tracks with
    | settled quiet => exact lockedCommit_settled sees quiet captured (fresh quiet)
    | unrecorded own step unrecorded => exact lockedCommit_pending (.unrecorded own step unrecorded)
    | running own step sound running => exact lockedCommit_pending (.running own step sound running)
  | recovery transactionId mode =>
    refine Triple.keepsThen (lockedRecovery_triple (fun later same => ?_) (recoverLocked_follows sees tracks)) fun _ =>
      Triple.pureKeeps
    rw [same]
    exact tracks.follows

/-- What a step of the store needs of a setting is not which identities new files get. -/
theorem standing_step {standing next : Standing} (step : Standing.Step { setting with newIdentity } standing next) :
    Standing.Step setting standing next := by
  cases step with
  | begins step =>
    cases step with
    | applies request acquired planned => exact .begins (.applies request acquired planned)
  | commits => exact .commits
  | rollsBack => exact .rollsBack

/-- While a transaction is active, its identities are kept. -/
theorem tracks_allotted {system : System} (allots : system.Allots newIdentity)
    (tracks : Tracks { setting with newIdentity := system.newIdentity } allowed system.world standing) :
    Tracks { setting with newIdentity } allowed system.world standing := by
  have kept {id : String} {object : ControlObject} {children : NameMap Item}
      (only : OnlyActive system.world.control id object children) : newIdentity = system.newIdentity := by
    refine allots.kept fun empty => ?_
    have here := only.active.here
    rw [empty, Std.ExtTreeMap.getElem?_empty] at here
    cases here
  cases tracks with
  | settled quiet => exact .settled quiet
  | unrecorded own step unrecorded =>
    obtain ⟨object, children, only, -⟩ := unrecorded.directory
    obtain rfl := kept only
    exact .unrecorded own step unrecorded
  | running own step sound running =>
    obtain ⟨object, children, only, -⟩ := running.shows_.active
    obtain rfl := kept only
    exact .running own step sound running

/-- What holds of every system that is reached. -/
structure Tracked (setting : Setting) (allowed : Site → Went → Prop) (start : Store) (system : System) : Prop where
  captured : captureControlIdentities system.world.control = .ok setting.lock
  standing : ∃ standing, ReflTransGen (Standing.Step setting) (.settled start) standing ∧
    Tracks { setting with newIdentity := system.newIdentity } allowed system.world standing

theorem tracked_step (sees : ∀ subject, ¬allowed (.existence subject) .failed) {start : Store} {system next : System}
    (tracked : Tracked setting allowed start system) (step : System.Step setting allowed system next) :
    Tracked setting allowed start next := by
  cases step with
  | @run newIdentity later command allots leads =>
    obtain ⟨standing, reached, tracks⟩ := tracked.standing
    have follows := (command_follows sees command (tracks_allotted allots tracks) tracked.captured
      fun quiet => allots.fresh quiet).leads rfl leads
    obtain ⟨last, onwards, tracks'⟩ := follows
    refine ⟨?_, last, reached.trans (onwards.lift id fun _ _ => standing_step), tracks'⟩
    have objects : SameObjects system.world later := (command_objects command).leads rfl leads
    rw [captureControlIdentities_congr objects]
    exact tracked.captured

theorem tracked_of_reached (sees : ∀ subject, ¬allowed (.existence subject) .failed) {start system : System}
    (quiet : start.world.control.transactions = ∅) (captured : captureControlIdentities start.world.control = .ok setting.lock)
    (reached : ReflTransGen (System.Step setting allowed) start system) :
    Tracked setting allowed (storeOf start.world.files) system := by
  induction reached with
  | refl => exact ⟨captured, _, .refl, .settled quiet⟩
  | tail _ step ih => exact tracked_step sees ih step

end Running

end Srcmv.Cli
