import Srcmv.Model.Fs.Execution

/-! # Recovering a transaction

A transaction read back from its directory is completed, rolled back, or cleaned up.
-/

namespace Srcmv.Fs

open Srcmv.Core Machine

section Recovery

variable (setting : Setting)

/-- A transaction read back from its directory. -/
structure LoadedTransaction where
  manifest : Manifest
  session : Session

def readArtifact (transactionId name operation : String) : Engine Bytes :=
  ioRead operation none fun world =>
    match world.item? (.artifact transactionId name) with
    | some (.file node) => .ok node.bytes
    | _ => .error (.io operation none)

/-- The last state read so far with its checksum, and the bytes of all of them. -/
structure LoadedStates where
  last : Option (StateSnapshot × String) := none
  bytes : ℕ := 0

def hasEnds (start ending : String) (name : String) : Bool :=
  start.toList.isPrefixOf name.toList && ending.toList.isSuffixOf name.toList

/-- Decode a state record that was read, with its checksum. -/
def loadState (loaded : LoadedStates) (bytes : Bytes) : Except FsError LoadedStates := do
  Except.rejectIf (loaded.bytes + bytes.length > u64Max)
    (.resourceLimitExceeded "state_record_bytes" u64Max maxStateBytes)
  let decoded ← decodeStateRecord setting.crates bytes none {}
  let checksum ← recordChecksum bytes
  return ⟨some (decoded.payload, checksumText checksum), loaded.bytes + bytes.length⟩

/-- One directory entry: state temporaries are removed, state records are read. -/
def loadEntry (transactionId : String) (loaded : LoadedStates) (name : String) : Engine LoadedStates :=
  if hasEnds "state-" ".tmp" name then do
    io "remove_state_temporary" none fun world =>
      world.removeFile (.artifact transactionId name) (.io "remove_state_temporary" none)
    return loaded
  else if hasEnds "state-" ".rec" name then do
    let bytes ← readArtifact transactionId name "read_recovery_state"
    Process.ofExcept (loadState setting loaded bytes)
  else return loaded

def lastLoaded (transactionId : String) (loaded : LoadedStates) : Except FsError (StateSnapshot × String) :=
  match loaded.last with
  | none => .error (corrupt (some transactionId) "state_chain_empty")
  | some last => .ok last

def loadActiveTransaction (transactionId : String) : Engine LoadedTransaction := do
  let bytes ← readArtifact transactionId "manifest.rec" "read_recovery_manifest"
  let manifest ← Process.ofExcept (decodeManifestRecord setting.crates bytes none {})
  Process.ofExcept (Except.rejectIf (manifest.payload.transactionId ≠ transactionId)
    (corrupt (some transactionId) "manifest_id_mismatch"))
  let names ← ioRead "read_recovery_transaction" none fun world =>
    .ok (world.control.children transactionId).keys
  let loaded ← names.foldlM (loadEntry setting transactionId) {}
  syncDirectory
  let last ← Process.ofExcept (lastLoaded transactionId loaded)
  let again ← readArtifact transactionId "manifest.rec" "read_manifest_for_recovery"
  let journal ← Process.ofExcept
    (resumeJournal transactionId manifest.payload again last.1 last.2 loaded.bytes)
  return ⟨manifest.payload, ⟨journal, ⟨last.1, last.2⟩⟩⟩

def completePrepared (loaded : LoadedTransaction) : Engine Session := do
  revalidateManifestInputs setting loaded.manifest
  classifyAllTargets setting loaded.manifest loaded.session.progress.state .complete
  revalidateControlIdentities setting
  let session ← publishGlobalTransition setting loaded.session .committing
  completeCommitSteps setting loaded.manifest session

def recoverCompleteActive (loaded : LoadedTransaction) : Engine Unit := do
  let notCompletable : FsError :=
    .recoveryActionNotAllowed loaded.manifest.transactionId "recorded_state_cannot_be_completed"
  let _ ← match loaded.session.progress.state.globalState with
    | .preparing | .rollingBack | .rolledBack => Process.refuse notCompletable
    | .committed => do
        classifyAllTargets setting loaded.manifest loaded.session.progress.state .complete
        pure loaded.session
    | .prepared => completePrepared setting loaded
    | .committing => completeCommitSteps setting loaded.manifest loaded.session
  finishTransaction setting loaded.manifest.transactionId true

/-- Remove an installed candidate from the target's path. -/
def removeInstalled (target : ManifestTarget) (paths : TargetPaths) (state : TargetState)
    (observed : SyntheticTargetObservation) : Engine Unit := do
  if observed.target = .candidate then do
    let _ ← verifyCandidateLocation setting paths.target target state
    io "remove_installed_candidate" (some target.path) fun world =>
      world.removeFile paths.target (.io "remove_installed_candidate" (some target.path))
    syncDirectory

def restoreBackup (target : ManifestTarget) (paths : TargetPaths) : Engine Unit := do
  let present ← if target.originalExisted then pathExists paths.backup "backup" else pure false
  if present then do
    let _ ← verifyOriginalLocation setting paths.backup target
    noReplaceRename paths.backup paths.target "restore_backup"
    syncDirectory
    syncDirectory

def checkStagedCandidate (target : ManifestTarget) (paths : TargetPaths) (state : TargetState) : Engine Unit := do
  if state.candidate.kind = .ready then
    let _ ← verifyCandidateLocation setting paths.candidate target state
  else validatePartialCandidate paths.candidate

def removeStaged (target : ManifestTarget) (paths : TargetPaths) (state : TargetState) : Engine Unit := do
  let present ← pathExists paths.candidate "candidate"
  if present then do
    checkStagedCandidate setting target paths state
    io "remove_staged_candidate" (some target.path) fun world =>
      world.removeFile paths.candidate (.io "remove_staged_candidate" (some target.path))
    syncDirectory

/-- The target is what it was before the transaction. -/
def verifyRestored (target : ManifestTarget) (paths : TargetPaths) : Engine RollbackState := do
  if target.originalExisted then do
    let original ← verifyOriginalLocation setting paths.target target
    let remains ← pathExists paths.backup "backup"
    Process.ofExcept (Except.rejectIf (remains = true) (conflict "backup_remains_after_original_restore"))
    return ⟨.originalRestored, some (.ofIdentity original.identity)⟩
  else do
    let occupied ← pathExists paths.target "target"
    let remains ← if occupied then pure true else pathExists paths.backup "backup"
    Process.ofExcept (Except.rejectIf (remains = true) (conflict "absence_not_restored"))
    return ⟨.absenceRestored, none⟩

def recordRestored (session : Session) (index : ℕ) (restored : RollbackState) : Engine Session := do
  let recorded ← Process.ofExcept (recordedTarget session.progress.state index)
  if recorded.rollback.kind = .none then
    publishTargetTransition setting session .rollingBack index fun state => { state with rollback := restored }
  else return session

def rollbackTarget (manifest : Manifest) (session : Session) (entry : ManifestTarget × ℕ) : Engine Session := do
  let paths ← targetPaths setting manifest.transactionId entry.1
  let state ← Process.ofExcept (recordedTarget session.progress.state entry.2)
  let observed ← observeTarget setting entry.1 paths state session.progress.state.globalState
  removeInstalled setting entry.1 paths state observed
  restoreBackup setting entry.1 paths
  removeStaged setting entry.1 paths state
  let restored ← verifyRestored setting entry.1 paths
  recordRestored setting session entry.2 restored

/-- Targets are restored last to first. -/
def rollbackAllTargets (loaded : LoadedTransaction) : Engine Session := do
  let session ← loaded.manifest.targets.zipIdx.reverse.foldlM
    (rollbackTarget setting loaded.manifest) loaded.session
  classifyAllTargets setting loaded.manifest session.progress.state .rollback
  return session

def beginRollback (loaded : LoadedTransaction) : Engine LoadedTransaction := do
  if loaded.session.progress.state.globalState ≠ .rollingBack then do
    let session ← publishGlobalTransition setting loaded.session .rollingBack
    return { loaded with session }
  else return loaded

def restoreOriginals (loaded : LoadedTransaction) : Engine Session := do
  let session ← rollbackAllTargets setting loaded
  publishGlobalTransition setting session .rolledBack

def rollBackRecorded (loaded : LoadedTransaction) : Engine Unit := do
  classifyAllTargets setting loaded.manifest loaded.session.progress.state .rollback
  let loaded ← beginRollback setting loaded
  revalidateControlIdentities setting
  let result ← Process.attempt (restoreOriginals setting loaded)
  match result with
  | .error _ => Process.refuse (.transactionRecoveryRequired [loaded.manifest.transactionId])
  | .ok _ => finishTransaction setting loaded.manifest.transactionId false

def recoverRollbackActive (loaded : LoadedTransaction) : Engine Unit :=
  match loaded.session.progress.state.globalState with
  | .committed => Process.refuse (.recoveryActionNotAllowed loaded.manifest.transactionId
      "committed_transaction_cannot_be_rolled_back")
  | .rolledBack => finishTransaction setting loaded.manifest.transactionId false
  | _ => rollBackRecorded setting loaded

structure RecoveryOutcome where
  transactionId : String
  state : String
deriving DecidableEq

def RecoveryMode.outcome : RecoveryMode → String
  | complete => "committed"
  | rollback => "rolled_back"

def completedIsCommitted (name : String) : Bool := "-committed".toList.isSuffixOf name.toList

def recoverCleanup (transactionId : String) (mode : RecoveryMode) (entry : RecoveryEntry) :
    Engine RecoveryOutcome :=
  match entry.completedPath with
  | none => Process.refuse (corrupt (some transactionId) "completed_name_invalid")
  | some name => do
      Process.ofExcept (Except.rejectIf (completedIsCommitted name ≠ decide (mode = .complete))
        (.recoveryActionNotAllowed transactionId "terminal_cleanup_action_mismatch"))
      cleanupCompleted setting entry
      return ⟨transactionId, if completedIsCommitted name then "committed" else "rolled_back"⟩

def recoverUnpublished (transactionId : String) (mode : RecoveryMode) : Engine RecoveryOutcome :=
  match mode with
  | .complete => Process.refuse
      (.recoveryActionNotAllowed transactionId "unpublished_transaction_cannot_be_completed")
  | .rollback => do
      rollbackControlOnly setting transactionId
      return ⟨transactionId, "rolled_back"⟩

def recoverActive (transactionId : String) (mode : RecoveryMode) : Engine RecoveryOutcome := do
  let loaded ← loadActiveTransaction setting transactionId
  match mode with
  | .complete => recoverCompleteActive setting loaded
  | .rollback => recoverRollbackActive setting loaded
  return ⟨transactionId, mode.outcome⟩

def recoverLocked (transactionId : String) (mode : RecoveryMode) : Engine RecoveryOutcome := do
  let entry ← scanRecoveryEntry setting transactionId
  match entry.kind with
  | .cleanupOnly => recoverCleanup setting transactionId mode entry
  | .orphanRecord | .manifestOnly => recoverUnpublished setting transactionId mode
  | .active => recoverActive setting transactionId mode

end Recovery

end Srcmv.Fs
