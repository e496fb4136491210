import Srcmv.Model.Fs.Publication
import Srcmv.Model.Fs.Targets

/-! # Executing a manifest

Candidates are prepared target by target, the inputs are validated again, and every target is
brought from its recorded state to the installed one. Each helper is one stretch of a source
function between two branches.
-/

namespace Srcmv.Fs

open Srcmv.Core Machine

section Commit

variable (setting : Setting) (manifest : Manifest)

def candidateSlice (snapshot : WorkspaceSnapshot) (segment : ManifestSegment) : Except FsError Bytes :=
  match snapshot.files[segment.inputIndex.toNat]? with
  | none => .error (.internalInvariant "candidate_segment_input_exists")
  | some input =>
      match slice? input.bytes ⟨segment.start.toNat, segment.stop.toNat⟩ with
      | none => .error (.internalInvariant "candidate_segment_range_valid")
      | some bytes => .ok bytes

/-- Stream one segment, carrying everything written so far for the hasher. -/
def writeSegment (snapshot : WorkspaceSnapshot) (target : ManifestTarget) (location : Location)
    (written : Bytes) (segment : ManifestSegment) : Engine Bytes := do
  let bytes ← Process.ofExcept (candidateSlice snapshot segment)
  writeAll (.io "write_candidate") (.io "write_candidate" (some target.path)) location bytes
  Process.ofExcept (Except.rejectIf (written.length + bytes.length > u64Max)
    (.internalInvariant "candidate_length_checked"))
  return written ++ bytes

/-- The candidate read back is the one that was written. -/
def verifiedFingerprint (actual : Option Fingerprint) (length : ℕ) (digest : Sha256Digest) :
    Except FsError Fingerprint :=
  match actual with
  | none => .error (conflict "candidate_missing_after_creation")
  | some actual =>
      if actual.length ≠ UInt64.ofNat length ∨ actual.digest ≠ digest then
        .error (conflict "candidate_verification_mismatch")
      else .ok actual

def createCandidate (target : ManifestTarget) (snapshot : WorkspaceSnapshot) : Engine PersistedIdentity := do
  let location := Location.artifact manifest.transactionId target.candidateName
  io "create_candidate" (some target.path) fun world =>
    world.createNew location (setting.newIdentity target.candidateName)
      (.io "create_candidate" (some target.path))
  let written ← target.segments.foldlM (writeSegment snapshot target location) []
  settle (.io "flush_candidate") (.io "flush_candidate" (some target.path))
  settle (.io "sync_candidate") (.io "sync_candidate" (some target.path))
  let digest := setting.crates.sha256 written
  Process.ofExcept (Except.rejectIf
    (UInt64.ofNat written.length ≠ target.candidateLength ∨ digest.toPrefixedHex ≠ target.candidateSha256)
    (.internalInvariant "candidate_matches_planned_output"))
  let actual ← fingerprint setting location (some target.path)
  let verified ← Process.ofExcept (verifiedFingerprint actual written.length digest)
  syncDirectory
  return .ofIdentity verified.identity

def untouchedTargetState (targetIndex : UInt64) : TargetState :=
  ⟨targetIndex, ⟨.missing, none⟩, ⟨.untouched, none, none⟩, ⟨.none, none⟩⟩

/-- The first state of a chain. -/
def initialState (manifestChecksum : String) : StateSnapshot where
  transactionVersion := 1
  sequence := 0
  manifestChecksum
  priorStateChecksum := none
  globalState := .preparing
  targets := manifest.targets.map fun target => untouchedTargetState target.targetIndex

/-- Prepare one target; the last one is recorded together with the global state. -/
def prepareTarget (snapshot : WorkspaceSnapshot) (session : Session) (entry : ManifestTarget × ℕ) :
    Engine Session := do
  let identity ← createCandidate setting manifest entry.1 snapshot
  publishTargetTransition setting session
    (if entry.2 + 1 = manifest.targets.length then .prepared else .preparing) entry.2
    fun target => { target with candidate := ⟨.ready, some identity⟩ }

def publishInstalled (session : Session) (index : ℕ) (identity : PersistedIdentity) : Engine Session := do
  let recorded ← Process.ofExcept (recordedTarget session.progress.state index)
  if recorded.commit.kind ≠ .installed then
    publishTargetTransition setting session .committing index fun target =>
      { target with commit := { target.commit with kind := .installed, identity := some identity } }
  else return session

/-- Move the original out of the way, unless it is there already. -/
def backUpOriginal (target : ManifestTarget) (paths : TargetPaths) (observed : SyntheticTargetObservation) :
    Engine UInt32 := do
  if observed.backup = .original then modeOf paths.backup target.path
  else do
    noReplaceRename paths.target paths.backup "backup_target"
    syncDirectory
    syncDirectory
    let _ ← verifyOriginalLocation setting paths.backup target
    modeOf paths.backup target.path

def recordBackup (target : ManifestTarget) (paths : TargetPaths) (session : Session) (index : ℕ)
    (preservedMode : UInt32) : Engine Session := do
  let recorded ← Process.ofExcept (recordedTarget session.progress.state index)
  if recorded.commit.kind = .untouched then do
    let backup ← verifyOriginalLocation setting paths.backup target
    publishTargetTransition setting session .committing index fun state =>
      { state with commit := ⟨.backedUp, some (.ofIdentity backup.identity), some preservedMode⟩ }
  else return session

/-- Give the candidate its mode, backing up an existing original first. -/
def readyCandidate (target : ManifestTarget) (paths : TargetPaths) (observed : SyntheticTargetObservation)
    (session : Session) (index : ℕ) : Engine Session := do
  if target.originalExisted then do
    let preservedMode ← backUpOriginal setting target paths observed
    setMode paths.candidate preservedMode target.path
    recordBackup setting target paths session index preservedMode
  else
    match target.newFileMode with
    | none => Process.refuse (.internalInvariant "new_target_has_recorded_mode")
    | some mode => do
        setMode paths.candidate mode target.path
        return session

def installCandidate (target : ManifestTarget) (paths : TargetPaths) (session : Session) (index : ℕ) :
    Engine Session := do
  noReplaceRename paths.candidate paths.target "install_candidate"
  syncDirectory
  syncDirectory
  let recorded ← Process.ofExcept (recordedTarget session.progress.state index)
  let final ← verifyCandidateLocation setting paths.target target recorded
  publishInstalled setting session index (.ofIdentity final.identity)

def completeTarget (session : Session) (entry : ManifestTarget × ℕ) : Engine Session := do
  let paths ← targetPaths setting manifest.transactionId entry.1
  let recorded ← Process.ofExcept (recordedTarget session.progress.state entry.2)
  let observed ← observeTarget setting entry.1 paths recorded session.progress.state.globalState
  if observed.target = .candidate then do
    let final ← verifyCandidateLocation setting paths.target entry.1 recorded
    publishInstalled setting session entry.2 (.ofIdentity final.identity)
  else do
    let session ← readyCandidate setting entry.1 paths observed session entry.2
    installCandidate setting entry.1 paths session entry.2

def verifyFinal (session : Session) (entry : ManifestTarget × ℕ) : Engine Unit := do
  let paths ← targetPaths setting manifest.transactionId entry.1
  let recorded ← Process.ofExcept (recordedTarget session.progress.state entry.2)
  let _ ← verifyCandidateLocation setting paths.target entry.1 recorded

def completeCommitSteps (session : Session) : Engine Session := do
  classifyAllTargets setting manifest session.progress.state .complete
  revalidateControlIdentities setting
  let session ← manifest.targets.zipIdx.foldlM (completeTarget setting manifest) session
  manifest.targets.zipIdx.foldlM (fun _ entry => verifyFinal setting manifest session entry) ()
  publishGlobalTransition setting session .committed

def nibbleOf (char : Char) : Option ℕ :=
  if char.isDigit then some (char.toNat - '0'.toNat)
  else if 'a' ≤ char ∧ char ≤ 'f' then some (char.toNat - 'a'.toNat + 10)
  else none

/-- Bytes from pairs of hexadecimal digits. -/
def bytesOfHex : List Char → Option Bytes
  | [] => some []
  | high :: low :: rest => do
      let high ← nibbleOf high
      let low ← nibbleOf low
      let bytes ← bytesOfHex rest
      return UInt8.ofNat (high * 16 + low) :: bytes
  | [_] => none

/-- A digest from its recorded spelling. -/
def parseDigest (value : String) : Except FsError Sha256Digest :=
  match (stripPrefix digestPrefix value.toList).bind bytesOfHex with
  | none => .error (corrupt none "record_digest_invalid")
  | some bytes =>
      if size : bytes.length = 32 then .ok ⟨bytes, size⟩ else .error (corrupt none "record_digest_invalid")

def manifestRequirement (input : ManifestInput) : Except FsError SnapshotRequirement :=
  if input.existed then
    match input.sha256 with
    | none => .error (.internalInvariant "existing_manifest_input_has_digest")
    | some text => do
        let digest ← parseDigest text
        return ⟨⟨input.path⟩, .existing digest⟩
  else .ok ⟨⟨input.path⟩, .absent⟩

/-- One recorded input is still exactly what a fresh snapshot shows. -/
def validateFreshInput (fresh : WorkspaceSnapshot) (input : ManifestInput) : Except FsError Unit :=
  if input.existed then
    match fresh.files.find? fun file => file.path.value = input.path with
    | none => do
        let expected ← input.sha256.mapM parseDigest
        Except.error (.preconditionFailed input.path expected none)
    | some file =>
        Except.rejectIf (¬(PersistedIdentity.ofIdentity file.parentIdentity = input.parentIdentity ∧
          input.fileIdentity = some (.ofIdentity file.identity) ∧
          input.sha256 = some file.digest.toPrefixedHex ∧
          input.length = some (lengthU64 file.bytes.length) ∧
          input.linkCount = some (lengthU64 file.linkCount))) (.fileChanged input.path 1)
  else
    match fresh.absentPaths.find? fun missing => missing.path.value = input.path with
    | none => .error (.preconditionFailed input.path none none)
    | some missing =>
        Except.rejectIf (PersistedIdentity.ofIdentity missing.parentIdentity ≠ input.parentIdentity)
          (.fileChanged input.path 1)

def validateManifestInputs (sha256 : Bytes → Sha256Digest) (view : WorkspaceView) : Except FsError Unit := do
  Except.rejectIf (PersistedIdentity.ofIdentity view.identity ≠ manifest.workspaceIdentity)
    (.preconditionFailed "." none none)
  let requirements ← manifest.inputs.mapM manifestRequirement
  let fresh ← view.acquireSnapshot sha256 requirements {}
  manifest.inputs.forM (validateFreshInput fresh)

def revalidateManifestInputs : Engine Unit :=
  ioRead "acquire_snapshot" none fun world =>
    validateManifestInputs manifest setting.crates.sha256 (setting.view world)

structure CommitOutcome where
  transactionId : String
  changedPaths : List String
  preservedPermissionModes : List (String × UInt32)
deriving DecidableEq

def preservedModes (state : StateSnapshot) : List (String × UInt32) :=
  (manifest.targets.zip state.targets).filterMap fun entry =>
    entry.2.commit.preservedMode.map (entry.1.path, ·)

def executeNewTransaction (directory : String) (snapshot : WorkspaceSnapshot) : Engine CommitOutcome := do
  let journal ← createJournal setting directory manifest
  let state := initialState manifest journal.manifestChecksum
  let (journal, checksum) ← publishState setting journal state
  let session ← manifest.targets.zipIdx.foldlM (prepareTarget setting manifest snapshot)
    ⟨journal, ⟨state, checksum⟩⟩
  revalidateManifestInputs setting manifest
  revalidateControlIdentities setting
  let session ← publishGlobalTransition setting session .committing
  let session ← completeCommitSteps setting manifest session
  finishTransaction setting manifest.transactionId true
  return ⟨manifest.transactionId, manifest.targets.map ManifestTarget.path,
    preservedModes manifest session.progress.state⟩

end Commit

end Srcmv.Fs
