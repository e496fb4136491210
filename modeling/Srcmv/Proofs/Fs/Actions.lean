import Srcmv.Machine.Actions
import Srcmv.Model.Fs.Commit

/-! # What the engine can do to a workspace

Whatever the records, the directory and the workspace look like, the engine only puts items at the
paths of its targets and into the directory of its transaction, moves that directory among the
completed ones, and removes entries of directories it owns. Each function is described once by these
actions.
-/

namespace Srcmv.Fs

open Srcmv.Core Machine Process Relation

/-- The paths, the active transactions, the names inside them, and the completed directories a command
may touch. -/
structure Scope where
  paths : String → Prop
  active : String → Prop
  names : String → Prop
  completed : String → Prop

/-- The scope of a transaction whose targets have these paths. -/
def Scope.ofTransaction (transactionId : String) (paths : String → Prop) : Scope where
  paths
  active id := id = transactionId
  names _ := True
  completed name := ∃ committed, name = completedName transactionId committed

def Manifest.targetPaths (manifest : Manifest) : List String := manifest.targets.map ManifestTarget.path

/-- The scope of a transaction with these targets. -/
abbrev Scope.ofManifest (manifest : Manifest) : Scope :=
  .ofTransaction manifest.transactionId (· ∈ manifest.targetPaths)

/-- The same scope without the published manifest. -/
def Scope.sparing (scope : Scope) : Scope := { scope with names name := scope.names name ∧ name ≠ "manifest.rec" }

inductive Scope.Covers (scope : Scope) : Location → Prop where
  | target {path : String} (named : scope.paths path) : Covers scope (.target path)
  | artifact {id name : String} (own : scope.active id) (named : scope.names name) : Covers scope (.artifact id name)

def Scope.Owns (scope : Scope) : DirectoryPath → Prop
  | .active id => scope.active id
  | .completed name => scope.completed name

/-- One change of the world within a scope. -/
inductive Action (scope : Scope) : World → World → Prop where
  | place {world : World} {location : Location} (covers : scope.Covers location) (item : Option Item) :
      Action scope world (world.place location item)
  | history {world : World} (published : List StateSnapshot) (refusals : List FsError) :
      Action scope world { world with published, refusals }
  | removeChild {world : World} {path : DirectoryPath} (owns : scope.Owns path) (name : String) :
      Action scope world (world.removeChild path name)
  | removeDirectory {world later : World} {path : DirectoryPath} {error : FsError} (owns : scope.Owns path)
      (removed : world.removeDirectory path error = .ok ((), later)) : Action scope world later
  | renameTerminal {world later : World} {id name : String} (active : scope.active id) (completed : scope.completed name)
      (renamed : world.renameTerminal id name = .ok ((), later)) : Action scope world later

variable {scope : Scope} {setting : Setting} {manifest : Manifest} {location source destination : Location} {id : String}

section Primitives

variable {world later : World} {error missing collision : FsError} {value : Unit}

private theorem createNew_reaches (covers : scope.Covers location) {identity : FileIdentity}
    (created : world.createNew location identity error = .ok (value, later)) : ReflTransGen (Action scope) world later := by
  rw [World.createNew] at created
  split at created
  · cases created
  · cases created
    exact .single (.place covers _)

private theorem appendByte_reaches (covers : scope.Covers location) {byte : UInt8}
    (appended : world.appendByte location byte error = .ok (value, later)) : ReflTransGen (Action scope) world later := by
  rw [World.appendByte] at appended
  split at appended
  · cases appended
    exact .single (.place covers _)
  · cases appended

private theorem removeFile_reaches (covers : scope.Covers location)
    (removed : world.removeFile location error = .ok (value, later)) : ReflTransGen (Action scope) world later := by
  rw [World.removeFile] at removed
  split at removed
  · cases removed
    exact .single (.place covers _)
  · cases removed

private theorem changeMode_reaches (covers : scope.Covers location) {mode : UInt32}
    (changed : world.changeMode location mode error = .ok (value, later)) : ReflTransGen (Action scope) world later := by
  rw [World.changeMode] at changed
  split at changed
  · cases changed
    exact .single (.place covers _)
  · cases changed

private theorem renameNoReplace_reaches (from_ : scope.Covers source) (to_ : scope.Covers destination)
    (renamed : world.renameNoReplace source destination missing collision = .ok (value, later)) :
    ReflTransGen (Action scope) world later := by
  rw [World.renameNoReplace] at renamed
  split at renamed
  · cases renamed
  · cases renamed
  · cases renamed
    exact .tail (.single (.place from_ none)) (.place to_ _)

private theorem publish_reaches (own : scope.active id) {temporary published : String} (from_ : scope.names temporary)
    (to_ : scope.names published) {record : Option StateSnapshot} (done : world.publish id temporary published record = .ok (value, later)) : ReflTransGen (Action scope) world later := by
  obtain ⟨⟨⟨⟩, renamed⟩, moved, returned⟩ := Except.bind_eq_ok.mp done
  cases Except.pure_eq_ok.mp returned
  exact .tail (renameNoReplace_reaches (.artifact own from_) (.artifact own to_) moved) (.history _ _)

theorem settle_acts {site : Site} : Acts (Action scope) (settle site error) := by
  apply Acts.act
  intro world value later done
  cases done
  exact .refl

theorem syncDirectory_acts : Acts (Action scope) syncDirectory := settle_acts

theorem ioRead_acts {α : Type} {operation : String} {path : Option String} {view : World → Except FsError α} :
    Acts (Action scope) (ioRead operation path view) := Acts.observe

theorem writeAll_acts (covers : scope.Covers location) {site : Site} (bytes : Bytes) :
    Acts (Action scope) (writeAll site error location bytes) :=
  Acts.foldlM () fun _ _ _ => Acts.act fun _ _ _ => appendByte_reaches covers

theorem revalidateControlIdentities_acts : Acts (Action scope) (revalidateControlIdentities setting) := ioRead_acts

end Primitives

section Records

/-- The engine may write the records of this directory. -/
structure Scope.Records (scope : Scope) (id : String) : Prop where
  active : scope.active id
  temporaries : ∀ sequence, scope.names (stateName sequence "tmp")
  states : ∀ sequence, scope.names (stateName sequence "rec")

/-- The session writes into a directory of the scope. -/
def Session.In (scope : Scope) (session : Session) : Prop := scope.Records session.journal.directory

theorem publishRecord_acts {temporary published : String} {bytes : Bytes} {record : Option StateSnapshot}
    (own : scope.active id) (from_ : scope.names temporary) (to_ : scope.names published) :
    Acts (Action scope) (publishRecord setting id temporary published bytes record) := by
  rw [publishRecord]
  refine Acts.andThen (Acts.act fun _ _ _ => createNew_reaches (.artifact own from_)) fun _ => ?_
  refine (writeAll_acts (.artifact own from_) bytes).andThen fun _ => ?_
  refine settle_acts.andThen fun _ => ?_
  refine settle_acts.andThen fun _ => ?_
  exact Acts.andThen (Acts.act fun _ _ _ => publish_reaches own from_ to_) fun _ => syncDirectory_acts

theorem createJournal_acts (own : scope.active id) (from_ : scope.names "manifest.tmp") (to_ : scope.names "manifest.rec") :
    ActsTo (Action scope) (fun journal => journal.directory = id) (createJournal setting id manifest) := by
  rw [createJournal]
  refine Acts.ofExcept.andThen fun _ => Acts.ofExcept.andThen fun _ => Acts.ofExcept.andThen fun _ => ?_
  refine Acts.ofExcept.andThen fun _ => Acts.ofExcept.andThen fun _ => Acts.ofExcept.andThen fun _ => ?_
  exact (publishRecord_acts own from_ to_).andThen fun _ => ActsTo.returns rfl

variable {journal : TransactionJournal} {session : Session}

private theorem acceptState_directory {crates : Crates} {state : StateSnapshot} {accepted : AcceptedState}
    (accepts : journal.acceptState crates state = .ok accepted) : accepted.journal.directory = journal.directory := by
  rw [TransactionJournal.acceptState] at accepts
  obtain ⟨_, -, accepts⟩ := Except.bind_eq_ok.mp accepts
  obtain ⟨_, -, accepts⟩ := Except.bind_eq_ok.mp accepts
  obtain ⟨_, -, accepts⟩ := Except.bind_eq_ok.mp accepts
  obtain ⟨_, -, accepts⟩ := Except.bind_eq_ok.mp accepts
  obtain ⟨_, -, accepts⟩ := Except.bind_eq_ok.mp accepts
  obtain ⟨_, -, accepts⟩ := Except.bind_eq_ok.mp accepts
  obtain ⟨_, -, accepts⟩ := Except.bind_eq_ok.mp accepts
  obtain ⟨_, -, accepts⟩ := Except.bind_eq_ok.mp accepts
  obtain ⟨_, -, accepts⟩ := Except.bind_eq_ok.mp accepts
  obtain ⟨_, -, accepts⟩ := Except.bind_eq_ok.mp accepts
  cases Except.pure_eq_ok.mp accepts
  rfl

private theorem acceptedOrRefused_acts {crates : Crates} {state : StateSnapshot} :
    ActsTo (Action scope) (fun accepted => accepted.journal.directory = journal.directory)
      (acceptedOrRefused (journal.acceptState crates state)) := by
  cases accepts : journal.acceptState crates state with
  | ok accepted => exact ActsTo.returns (acceptState_directory accepts)
  | error error => exact Acts.andThen (Acts.note fun world => .history world.published _) fun _ => ActsTo.refuse

theorem publishState_acts (own : scope.Records journal.directory) {state : StateSnapshot} :
    ActsTo (Action scope) (fun published => published.1.directory = journal.directory)
      (publishState setting journal state) := by
  rw [publishState]
  refine acceptedOrRefused_acts.bind fun accepted same => ?_
  exact (publishRecord_acts own.active (own.temporaries _) (own.states _)).andThen fun _ => ActsTo.returns same

theorem publishTransition_acts (inside : session.In scope) {global : GlobalState}
    {update : List TargetState → Except FsError (List TargetState)} :
    ActsTo (Action scope) (Session.In scope) (publishTransition setting session global update) := by
  rw [publishTransition]
  refine Acts.ofExcept.andThen fun _ => (publishState_acts inside).bind fun published same => ActsTo.returns ?_
  rw [Session.In, same]
  exact inside

end Records

section Targets

variable {target : ManifestTarget} {paths : TargetPaths}

/-- The three locations of a target lie in the scope. -/
structure TargetPaths.In (scope : Scope) (paths : TargetPaths) : Prop where
  target : scope.Covers paths.target
  candidate : scope.Covers paths.candidate
  backup : scope.Covers paths.backup

/-- The target may be replaced and its artifacts staged. -/
structure ManifestTarget.In (scope : Scope) (target : ManifestTarget) : Prop where
  path : scope.paths target.path
  candidate : scope.names target.candidateName
  backup : scope.names target.backupName

theorem targetPaths_acts (own : scope.active id) (inside : target.In scope) :
    ActsTo (Action scope) (TargetPaths.In scope) (targetPaths setting id target) := by
  rw [targetPaths]
  exact ioRead_acts.andThen fun _ =>
    ActsTo.returns ⟨.target inside.path, .artifact own inside.candidate, .artifact own inside.backup⟩

theorem fingerprint_acts {reportPath : Option String} : Acts (Action scope) (fingerprint setting location reportPath) :=
  ioRead_acts

theorem observeTarget_acts {recorded : TargetState} {global : GlobalState} :
    Acts (Action scope) (observeTarget setting target paths recorded global) := by
  rw [observeTarget, classifyLocation, classifyLocation, classifyBackup]
  refine Acts.andThen (Acts.andThen fingerprint_acts fun _ => Acts.pure) fun _ => ?_
  refine Acts.andThen (Acts.andThen fingerprint_acts fun _ => Acts.pure) fun _ => ?_
  exact Acts.andThen (Acts.andThen fingerprint_acts fun _ => Acts.pure) fun _ => Acts.pure

theorem verifyOriginalLocation_acts : Acts (Action scope) (verifyOriginalLocation setting location target) :=
  fingerprint_acts.andThen fun _ => Acts.ofExcept

theorem verifyCandidateLocation_acts {state : TargetState} :
    Acts (Action scope) (verifyCandidateLocation setting location target state) :=
  fingerprint_acts.andThen fun _ => Acts.ofExcept

theorem setMode_acts (covers : scope.Covers location) {mode : UInt32} {reportPath : String} :
    Acts (Action scope) (setMode location mode reportPath) :=
  Acts.andThen (Acts.act fun _ _ _ => changeMode_reaches covers) fun _ => settle_acts

theorem noReplaceRename_acts (from_ : scope.Covers source) (to_ : scope.Covers destination) {operation : String} :
    Acts (Action scope) (noReplaceRename source destination operation) :=
  Acts.call fun _ _ _ => renameNoReplace_reaches from_ to_

theorem removeFile_acts (covers : scope.Covers location) {operation : String} {path : Option String} :
    Acts (Action scope) (io operation path fun world => world.removeFile location (.io operation path)) :=
  Acts.act fun _ _ _ => removeFile_reaches covers

theorem pathExists_acts {subject : String} : Acts (Action scope) (pathExists location subject) := Acts.probe

theorem modeOf_acts {reportPath : String} : Acts (Action scope) (modeOf location reportPath) := ioRead_acts

/-- The transaction of the manifest lies in the scope. -/
structure Manifest.In (scope : Scope) (manifest : Manifest) : Prop where
  records : scope.Records manifest.transactionId
  targets : ∀ target ∈ manifest.targets, target.In scope
  completed : ∀ committed, scope.completed (completedName manifest.transactionId committed)

theorem Manifest.in_ofManifest (manifest : Manifest) : manifest.In (.ofManifest manifest) where
  records := ⟨rfl, fun _ => trivial, fun _ => trivial⟩
  targets _ member := ⟨List.mem_map_of_mem member, trivial, trivial⟩
  completed committed := ⟨committed, rfl⟩

theorem Manifest.In.of_zipIdx (inside : manifest.In scope) {entry : ManifestTarget × ℕ} (member : entry ∈ manifest.targets.zipIdx) :
    entry.1.In scope := inside.targets entry.1 (List.fst_mem_of_mem_zipIdx member)

theorem classifyAllTargets_acts (inside : manifest.In scope) {state : StateSnapshot} {mode : RecoveryMode} :
    Acts (Action scope) (classifyAllTargets setting manifest state mode) := by
  refine Acts.foldlM () fun _ entry member => ?_
  rw [classifyTarget]
  refine Acts.ofExcept.andThen fun _ => ?_
  refine (targetPaths_acts inside.records.active (inside.of_zipIdx member)).bind fun _ _ => ?_
  exact observeTarget_acts.andThen fun _ => Acts.ofExcept.andThen fun _ => Acts.ofExcept

end Targets

section Executing

variable {target : ManifestTarget} {paths : TargetPaths} {session : Session} {snapshot : WorkspaceSnapshot} {index : ℕ}

theorem createCandidate_acts (own : scope.active manifest.transactionId) (named : scope.names target.candidateName) :
    Acts (Action scope) (createCandidate setting manifest target snapshot) := by
  rw [createCandidate]
  refine Acts.andThen (Acts.act fun _ _ _ => createNew_reaches (.artifact own named)) fun _ => ?_
  have writes (written : Bytes) (segment : ManifestSegment) : Acts (Action scope) (writeSegment snapshot target
      (.artifact manifest.transactionId target.candidateName) written segment) :=
    Acts.ofExcept.andThen fun _ => (writeAll_acts (.artifact own named) _).andThen fun _ =>
      Acts.ofExcept.andThen fun _ => Acts.pure
  refine Acts.andThen (Acts.foldlM [] fun written segment _ => writes written segment) fun _ => ?_
  refine settle_acts.andThen fun _ => settle_acts.andThen fun _ => Acts.ofExcept.andThen fun _ => ?_
  refine fingerprint_acts.andThen fun _ => Acts.ofExcept.andThen fun _ => ?_
  exact syncDirectory_acts.andThen fun _ => Acts.pure

theorem prepareTarget_acts (inside : manifest.In scope) (recording : session.In scope) {entry : ManifestTarget × ℕ}
    (member : entry ∈ manifest.targets.zipIdx) :
    ActsTo (Action scope) (Session.In scope) (prepareTarget setting manifest snapshot session entry) := by
  rw [prepareTarget]
  exact (createCandidate_acts inside.records.active (inside.of_zipIdx member).candidate).andThen fun _ =>
    publishTransition_acts recording

theorem publishInstalled_acts (recording : session.In scope) {identity : PersistedIdentity} :
    ActsTo (Action scope) (Session.In scope) (publishInstalled setting session index identity) := by
  rw [publishInstalled]
  refine Acts.ofExcept.andThen fun recorded => ?_
  split
  · exact publishTransition_acts recording
  · exact ActsTo.returns recording

theorem backUpOriginal_acts (located : paths.In scope) {observed : SyntheticTargetObservation} :
    Acts (Action scope) (backUpOriginal setting target paths observed) := by
  rw [backUpOriginal]
  split
  · exact modeOf_acts
  · refine (noReplaceRename_acts located.target located.backup).andThen fun _ => ?_
    refine syncDirectory_acts.andThen fun _ => syncDirectory_acts.andThen fun _ => ?_
    exact verifyOriginalLocation_acts.andThen fun _ => modeOf_acts

theorem recordBackup_acts (recording : session.In scope) {preservedMode : UInt32} :
    ActsTo (Action scope) (Session.In scope) (recordBackup setting target paths session index preservedMode) := by
  rw [recordBackup]
  refine Acts.ofExcept.andThen fun recorded => ?_
  split
  · exact verifyOriginalLocation_acts.andThen fun _ => publishTransition_acts recording
  · exact ActsTo.returns recording

theorem readyCandidate_acts (located : paths.In scope) (recording : session.In scope)
    {observed : SyntheticTargetObservation} :
    ActsTo (Action scope) (Session.In scope) (readyCandidate setting target paths observed session index) := by
  rw [readyCandidate]
  split
  · exact (backUpOriginal_acts located).andThen fun _ => (setMode_acts located.candidate).andThen fun _ =>
      recordBackup_acts recording
  · split
    · exact ActsTo.refuse
    · exact (setMode_acts located.candidate).andThen fun _ => ActsTo.returns recording

theorem installCandidate_acts (located : paths.In scope) (recording : session.In scope) :
    ActsTo (Action scope) (Session.In scope) (installCandidate setting target paths session index) := by
  rw [installCandidate]
  refine (noReplaceRename_acts located.candidate located.target).andThen fun _ => ?_
  refine syncDirectory_acts.andThen fun _ => syncDirectory_acts.andThen fun _ => Acts.ofExcept.andThen fun _ => ?_
  exact verifyCandidateLocation_acts.andThen fun _ => publishInstalled_acts recording

theorem completeTarget_acts (inside : manifest.In scope) (recording : session.In scope) {entry : ManifestTarget × ℕ}
    (member : entry ∈ manifest.targets.zipIdx) :
    ActsTo (Action scope) (Session.In scope) (completeTarget setting manifest session entry) := by
  rw [completeTarget]
  refine (targetPaths_acts inside.records.active (inside.of_zipIdx member)).bind fun _ located => ?_
  refine Acts.ofExcept.andThen fun _ => observeTarget_acts.andThen fun _ => ?_
  split
  · exact verifyCandidateLocation_acts.andThen fun _ => publishInstalled_acts recording
  · exact (readyCandidate_acts located recording).bind fun _ recording => installCandidate_acts located recording

theorem verifyFinal_acts (inside : manifest.In scope) {entry : ManifestTarget × ℕ} (member : entry ∈ manifest.targets.zipIdx) :
    Acts (Action scope) (verifyFinal setting manifest session entry) := by
  rw [verifyFinal]
  refine (targetPaths_acts inside.records.active (inside.of_zipIdx member)).bind fun _ _ => ?_
  exact Acts.ofExcept.andThen fun _ => verifyCandidateLocation_acts.andThen fun _ => Acts.pure

theorem completeCommitSteps_acts (inside : manifest.In scope) (recording : session.In scope) :
    ActsTo (Action scope) (Session.In scope) (completeCommitSteps setting manifest session) := by
  rw [completeCommitSteps]
  refine (classifyAllTargets_acts inside).andThen fun _ => revalidateControlIdentities_acts.andThen fun _ => ?_
  refine (ActsTo.foldlM recording fun _ _ member recording => completeTarget_acts inside recording member).bind
    fun _ recording => ?_
  exact Acts.andThen (Acts.foldlM () fun _ _ member => verifyFinal_acts inside member) fun _ =>
    publishTransition_acts recording

end Executing

section Cleaning

variable {site : SiteOf} {path : DirectoryPath} {name : String}

theorem removeValidatedChildren_acts (owns : scope.Owns path) :
    Acts (Action scope) (removeValidatedChildren site path) := by
  rw [removeValidatedChildren]
  refine Acts.observe.andThen fun names => Acts.andThen (Acts.foldlM () fun _ _ _ => ?_) fun _ => settle_acts
  rw [removeValidatedChild]
  refine Acts.observe.andThen fun _ => Acts.act fun _ _ _ removed => ?_
  cases removed
  exact .single (.removeChild owns _)

theorem cleanupCompletedDirectory_acts (completed : scope.completed name) :
    Acts (Action scope) (cleanupCompletedDirectory setting site name id) := by
  have owns : scope.Owns (.completed name) := completed
  rw [cleanupCompletedDirectory]
  refine Acts.observe.andThen fun _ => (removeValidatedChildren_acts owns).andThen fun _ => ?_
  refine Acts.andThen (Acts.act fun _ value _ removed => ?_) fun _ => settle_acts
  cases value
  exact .single (.removeDirectory owns removed)

theorem finishTransaction_acts (active : scope.active id) {committed : Bool}
    (completed : scope.completed (completedName id committed)) :
    Acts (Action scope) (finishTransaction setting id committed) := by
  rw [finishTransaction]
  refine Acts.ofExcept.andThen fun _ => Acts.andThen (Acts.call fun _ value _ renamed => ?_) fun _ => ?_
  · cases value
    exact .single (.renameTerminal active completed renamed)
  · exact settle_acts.andThen fun _ => settle_acts.andThen fun _ => cleanupCompletedDirectory_acts completed

private theorem executeJournaled_acts (inside : manifest.In scope) {journal : TransactionJournal}
    (recording : scope.Records journal.directory) {state : StateSnapshot} {snapshot : WorkspaceSnapshot} :
    Acts (Action scope) (do
      let (journal, checksum) ← publishState setting journal state
      let session ← manifest.targets.zipIdx.foldlM (prepareTarget setting manifest snapshot) ⟨journal, ⟨state, checksum⟩⟩
      revalidateManifestInputs setting manifest
      revalidateControlIdentities setting
      let session ← publishGlobalTransition setting session .committing
      let session ← completeCommitSteps setting manifest session
      finishTransaction setting manifest.transactionId true
      return ⟨manifest.transactionId, manifest.targets.map ManifestTarget.path,
        preservedModes manifest session.progress.state⟩ : Engine CommitOutcome) := by
  refine (publishState_acts recording).bind fun published same => ?_
  have begun : Session.In scope ⟨published.1, ⟨state, published.2⟩⟩ := by
    rw [Session.In, same]
    exact recording
  refine (ActsTo.foldlM begun fun _ _ member recording => prepareTarget_acts inside recording member).bind
    fun session recording => ?_
  refine ioRead_acts.andThen fun _ => revalidateControlIdentities_acts.andThen fun _ => ?_
  refine (publishTransition_acts recording).bind fun session recording => ?_
  refine (completeCommitSteps_acts inside recording).bind fun session _ => ?_
  exact (finishTransaction_acts inside.records.active (inside.completed true)).andThen fun _ => Acts.pure

theorem executeNewTransaction_acts (inside : manifest.In scope) (from_ : scope.names "manifest.tmp")
    (to_ : scope.names "manifest.rec") {snapshot : WorkspaceSnapshot} :
    Acts (Action scope) (executeNewTransaction setting manifest manifest.transactionId snapshot) := by
  rw [executeNewTransaction]
  refine (createJournal_acts inside.records.active from_ to_).bind fun journal same => ?_
  have recording : scope.Records journal.directory := same ▸ inside.records
  exact executeJournaled_acts inside recording

/-- Once the journal is created, what the actions keep is kept to the end. -/
theorem executeNewTransaction_keeps {snapshot : WorkspaceSnapshot} {directory : String} {allowed : Site → Went → Prop}
    {before invariant : World → Prop} (created : Triple allowed before (createJournal setting directory manifest)
      ⟨fun journal world => (manifest.In scope ∧ scope.Records journal.directory) ∧ invariant world,
        fun _ => invariant, invariant⟩)
    (preserved : ∀ before after, Action scope before after → invariant before → invariant after) :
    Triple allowed before (executeNewTransaction setting manifest directory snapshot) (Keeps invariant) := by
  rw [executeNewTransaction]
  refine Triple.bind _ created fun journal => Triple.fact fun holds => ?_
  exact (executeJournaled_acts holds.1 holds.2).keeps preserved

end Cleaning

section Recovering

variable {target : ManifestTarget} {paths : TargetPaths} {session : Session} {index : ℕ} {loaded : LoadedTransaction}

/-- What was loaded lies in the scope. -/
structure LoadedTransaction.In (scope : Scope) (loaded : LoadedTransaction) : Prop where
  manifest : loaded.manifest.In scope
  session : loaded.session.In scope

theorem completePrepared_acts (inside : loaded.In scope) :
    ActsTo (Action scope) (Session.In scope) (completePrepared setting loaded) := by
  rw [completePrepared]
  refine ioRead_acts.andThen fun _ => (classifyAllTargets_acts inside.manifest).andThen fun _ => ?_
  refine revalidateControlIdentities_acts.andThen fun _ => (publishTransition_acts inside.session).bind fun _ recording => ?_
  exact completeCommitSteps_acts inside.manifest recording

theorem recoverCompleteActive_acts (inside : loaded.In scope) :
    Acts (Action scope) (recoverCompleteActive setting loaded) := by
  have finishes : Acts (Action scope) (finishTransaction setting loaded.manifest.transactionId true) :=
    finishTransaction_acts inside.manifest.records.active (inside.manifest.completed true)
  rw [recoverCompleteActive]
  dsimp only
  split
  · exact Acts.andThen ActsTo.refuse fun _ => finishes
  · exact Acts.andThen ActsTo.refuse fun _ => finishes
  · exact Acts.andThen ActsTo.refuse fun _ => finishes
  · exact (classifyAllTargets_acts inside.manifest).andThen fun _ => Acts.pure.andThen fun _ => finishes
  · exact (completePrepared_acts inside).bind fun _ _ => finishes
  · exact (completeCommitSteps_acts inside.manifest inside.session).bind fun _ _ => finishes

theorem restoreBackup_acts (located : paths.In scope) : Acts (Action scope) (restoreBackup setting target paths) := by
  have restores (present : Bool) : Acts (Action scope) (if present = true then do
      let _ ← verifyOriginalLocation setting paths.backup target
      noReplaceRename paths.backup paths.target "restore_backup"
      syncDirectory
      syncDirectory
    else pure ()) := by
    split
    · refine verifyOriginalLocation_acts.andThen fun _ => (noReplaceRename_acts located.backup located.target).andThen fun _ => ?_
      exact syncDirectory_acts.andThen fun _ => syncDirectory_acts
    · exact Acts.pure
  rw [restoreBackup]
  dsimp only
  split
  · exact pathExists_acts.andThen restores
  · exact Acts.pure.andThen restores

theorem verifyRestored_acts : Acts (Action scope) (verifyRestored setting target paths) := by
  rw [verifyRestored]
  split
  · refine verifyOriginalLocation_acts.andThen fun _ => pathExists_acts.andThen fun _ => ?_
    exact Acts.ofExcept.andThen fun _ => Acts.pure
  · refine pathExists_acts.andThen fun occupied => ?_
    dsimp only
    split
    · exact Acts.pure.andThen fun _ => Acts.ofExcept.andThen fun _ => Acts.pure
    · exact pathExists_acts.andThen fun _ => Acts.ofExcept.andThen fun _ => Acts.pure

theorem rollbackTarget_acts (inside : manifest.In scope) (recording : session.In scope) {entry : ManifestTarget × ℕ}
    (member : entry ∈ manifest.targets.zipIdx) :
    ActsTo (Action scope) (Session.In scope) (rollbackTarget setting manifest session entry) := by
  rw [rollbackTarget]
  refine (targetPaths_acts inside.records.active (inside.of_zipIdx member)).bind fun paths located => ?_
  refine Acts.ofExcept.andThen fun state => observeTarget_acts.andThen fun observed => ?_
  refine Acts.andThen ?_ fun _ => Acts.andThen ?_ fun _ => Acts.andThen ?_ fun _ => Acts.andThen ?_ fun restored => ?_
  · rw [removeInstalled]
    split
    · exact verifyCandidateLocation_acts.andThen fun _ => (removeFile_acts located.target).andThen fun _ =>
        syncDirectory_acts
    · exact Acts.pure
  · exact restoreBackup_acts located
  · rw [removeStaged]
    refine pathExists_acts.andThen fun present => ?_
    split
    · refine Acts.andThen ?_ fun _ => (removeFile_acts located.candidate).andThen fun _ => syncDirectory_acts
      rw [checkStagedCandidate]
      split
      · exact verifyCandidateLocation_acts.andThen fun _ => Acts.pure
      · exact ioRead_acts
    · exact Acts.pure
  · exact verifyRestored_acts
  · rw [recordRestored]
    refine Acts.ofExcept.andThen fun recorded => ?_
    split
    · exact publishTransition_acts recording
    · exact ActsTo.returns recording

theorem restoreOriginals_acts (inside : loaded.In scope) : Acts (Action scope) (restoreOriginals setting loaded) := by
  have restored : ActsTo (Action scope) (Session.In scope) (rollbackAllTargets setting loaded) := by
    rw [rollbackAllTargets]
    refine (ActsTo.foldlM inside.session fun _ _ member recording =>
      rollbackTarget_acts inside.manifest recording (List.mem_reverse.mp member)).bind fun _ recording => ?_
    exact (classifyAllTargets_acts inside.manifest).andThen fun _ => ActsTo.returns recording
  rw [restoreOriginals]
  exact restored.bind fun _ recording => (publishTransition_acts recording).acts

theorem recoverRollbackActive_acts (inside : loaded.In scope) :
    Acts (Action scope) (recoverRollbackActive setting loaded) := by
  have finishes : Acts (Action scope) (finishTransaction setting loaded.manifest.transactionId false) :=
    finishTransaction_acts inside.manifest.records.active (inside.manifest.completed false)
  rw [recoverRollbackActive]
  split
  · exact ActsTo.refuse
  · exact finishes
  · rw [rollBackRecorded]
    refine (classifyAllTargets_acts inside.manifest).andThen fun _ => ?_
    have begins : ActsTo (Action scope) (fun begun => begun.In scope ∧ begun.manifest = loaded.manifest)
        (beginRollback setting loaded) := by
      rw [beginRollback]
      split
      · exact (publishTransition_acts inside.session).bind fun _ recording =>
          ActsTo.returns ⟨⟨inside.manifest, recording⟩, rfl⟩
      · exact ActsTo.returns ⟨inside, rfl⟩
    refine begins.bind fun begun holds => ?_
    refine revalidateControlIdentities_acts.andThen fun _ => (restoreOriginals_acts holds.1).attempt.andThen fun result => ?_
    split
    · exact ActsTo.refuse
    · rw [holds.2]
      exact finishes

theorem loadEntry_acts (own : scope.active id) (named : ∀ name, scope.names name) {states : LoadedStates} {name : String} :
    Acts (Action scope) (loadEntry setting id states name) := by
  rw [loadEntry]
  split
  · exact (removeFile_acts (.artifact own (named name))).andThen fun _ => Acts.pure
  · split
    · exact Acts.andThen ioRead_acts fun _ => Acts.ofExcept
    · exact Acts.pure

theorem resumeJournal_directory {state : StateSnapshot} {bytes : Bytes} {checksum : String} {read : ℕ}
    {journal : TransactionJournal} (resumed : resumeJournal id manifest bytes state checksum read = .ok journal) :
    journal.directory = id := by
  rw [resumeJournal] at resumed
  simp only [Except.bind_eq_ok, Except.pure_eq_ok] at resumed
  obtain ⟨_, _, _, _, _, _, _, _, _, _, _, _, rfl⟩ := resumed
  rfl

end Recovering

end Srcmv.Fs
