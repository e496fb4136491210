import Srcmv.Model.Fs.Classifier
import Srcmv.Model.Fs.World

/-! # Observing the locations of a target

A fingerprint is the identity, length and digest of the file at a location. Locations are compared
with the record, observations are classified, and the primitives that move, remove and verify a
location are here.
-/

namespace Srcmv.Fs

open Srcmv.Core Machine

section Locations

/-- What is checked of the file at a location. -/
structure Fingerprint where
  identity : FileIdentity
  length : UInt64
  digest : Sha256Digest
deriving DecidableEq

def fingerprintOf (sha256 : Bytes → Sha256Digest) (item : Option Item) : Except FsError (Option Fingerprint) :=
  match item with
  | none => .ok none
  | some (.file node) =>
      if node.bytes.length > u64Max then
        .error (.resourceLimitExceeded "recovery_bytes" u64Max maxRecoveryBytes)
      else .ok (some ⟨node.identity, UInt64.ofNat node.bytes.length, sha256 node.bytes⟩)
  | some _ => .error (conflict "transaction_location_type_invalid")

def matchesOriginal (actual : Fingerprint) (target : ManifestTarget) : Bool :=
  target.originalIdentity = some (.ofIdentity actual.identity) && target.originalLength = some actual.length &&
    target.originalSha256 = some actual.digest.toPrefixedHex

def matchesCandidate (actual : Fingerprint) (target : ManifestTarget) (state : TargetState) : Bool :=
  state.candidate.identity = some (.ofIdentity actual.identity) && target.candidateLength = actual.length &&
    target.candidateSha256 = actual.digest.toPrefixedHex

def classifyFingerprint (actual : Option Fingerprint) (target : ManifestTarget) (state : TargetState)
    (candidateLocation : Bool) (global : GlobalState) : LocationObservation :=
  match actual with
  | none => .absent
  | some actual =>
      if target.originalExisted && matchesOriginal actual target then .original
      else if state.candidate.kind = .ready ∧ matchesCandidate actual target state then .candidate
      else if candidateLocation && global = .preparing then .candidate
      else .unexpected

def classifyBackupFingerprint (actual : Option Fingerprint) (target : ManifestTarget) : LocationObservation :=
  match actual with
  | none => .absent
  | some actual => if target.originalExisted && matchesOriginal actual target then .original else .unexpected

def ensureSameDevice (controlDevice workspaceDevice : UInt64) : Except FsError Unit :=
  if controlDevice = workspaceDevice then .ok () else .error .crossDeviceTransaction

structure TargetPaths where
  target : Location
  candidate : Location
  backup : Location
deriving DecidableEq

variable (setting : Setting)

/-- The parent of a target is still the recorded one, on the workspace's device. -/
def validateTargetParent (view : WorkspaceView) (target : ManifestTarget) : Except FsError Unit := do
  let validated ← view.validatePath ⟨target.path⟩
  Except.rejectIf (PersistedIdentity.ofIdentity validated.parentIdentity ≠ target.parentIdentity)
    (conflict "target_parent_identity_changed")
  ensureSameDevice validated.parentIdentity.device view.identity.device

def locationsOf (transactionId : String) (target : ManifestTarget) : TargetPaths :=
  ⟨.target target.path, .artifact transactionId target.candidateName, .artifact transactionId target.backupName⟩

def targetPaths (transactionId : String) (target : ManifestTarget) : Engine TargetPaths := do
  ioRead "inspect_path_parent" (some target.path) fun world => validateTargetParent (setting.view world) target
  return locationsOf transactionId target

def fingerprint (location : Location) (reportPath : Option String) : Engine (Option Fingerprint) :=
  ioRead "inspect_transaction_location" reportPath fun world =>
    fingerprintOf setting.crates.sha256 (world.item? location)

def classifyLocation (location : Location) (target : ManifestTarget) (state : TargetState)
    (candidateLocation : Bool) (global : GlobalState) : Engine LocationObservation := do
  let actual ← fingerprint setting location (some target.path)
  return classifyFingerprint actual target state candidateLocation global

def classifyBackup (location : Location) (target : ManifestTarget) : Engine LocationObservation := do
  let actual ← fingerprint setting location (some target.path)
  return classifyBackupFingerprint actual target

def observeTarget (target : ManifestTarget) (paths : TargetPaths) (recorded : TargetState)
    (global : GlobalState) : Engine SyntheticTargetObservation := do
  let atTarget ← classifyLocation setting paths.target target recorded false global
  let atCandidate ← classifyLocation setting paths.candidate target recorded true global
  let atBackup ← classifyBackup setting paths.backup target
  return ⟨true, atTarget, atCandidate, atBackup⟩

def verifiedOriginal (actual : Option Fingerprint) (target : ManifestTarget) : Except FsError Fingerprint :=
  match actual with
  | none => .error (conflict "recorded_original_missing")
  | some actual =>
      if matchesOriginal actual target then .ok actual else .error (conflict "recorded_original_mismatch")

def verifyOriginalLocation (location : Location) (target : ManifestTarget) : Engine Fingerprint := do
  let actual ← fingerprint setting location (some target.path)
  Process.ofExcept (verifiedOriginal actual target)

def verifiedCandidate (actual : Option Fingerprint) (target : ManifestTarget) (state : TargetState) :
    Except FsError Fingerprint :=
  match actual with
  | none => .error (conflict "recorded_candidate_missing")
  | some actual =>
      if matchesCandidate actual target state then .ok actual
      else .error (conflict "recorded_candidate_mismatch")

def verifyCandidateLocation (location : Location) (target : ManifestTarget) (state : TargetState) :
    Engine Fingerprint := do
  let actual ← fingerprint setting location (some target.path)
  Process.ofExcept (verifiedCandidate actual target state)

def validatePartialCandidate (location : Location) : Engine Unit :=
  ioRead "inspect_partial_candidate" none fun world =>
    match world.item? location with
    | none => .error (.io "inspect_partial_candidate" none)
    | some item => Except.rejectIf (¬item.isFile) (conflict "partial_candidate_type_invalid")

def modeOf (location : Location) (reportPath : String) : Engine UInt32 :=
  ioRead "read_target_mode" (some reportPath) fun world =>
    match world.item? location with
    | some (.file node) => .ok (node.mode &&& 0o7777)
    | _ => .error (.io "read_target_mode" (some reportPath))

def setMode (location : Location) (mode : UInt32) (reportPath : String) : Engine Unit := do
  io "set_candidate_mode" (some reportPath) fun world =>
    world.changeMode location mode (.io "set_candidate_mode" (some reportPath))
  settle (.io "sync_candidate_mode") (.io "sync_candidate_mode" (some reportPath))

def noReplaceRename (source destination : Location) (operation : String) : Engine Unit :=
  Process.call (.io operation) (renameDenied operation) fun world =>
    world.renameNoReplace source destination (.io operation none) (conflict "no_replace_destination_collision")

/-- `Path::exists`, which is false where the path cannot be inspected. -/
def pathExists (location : Location) (subject : String) : Engine Bool :=
  Process.probe (.existence subject) fun world => (world.item? location).isSome

end Locations

inductive RecoveryMode where
  | complete
  | rollback
deriving DecidableEq

def RecoveryMode.allows : RecoveryMode → RecoveryDisposition → Bool
  | complete, disposition => disposition.complete || disposition.cleanupOnly
  | rollback, disposition => disposition.rollback || disposition.cleanupOnly

def RecoveryMode.refusal : RecoveryMode → String
  | complete => "transaction_cannot_be_completed"
  | rollback => "transaction_cannot_be_rolled_back"

/-- The recorded state of one target; every state the engine works with has one for each. -/
def recordedTarget (state : StateSnapshot) (index : ℕ) : Except FsError TargetState :=
  match state.targets[index]? with
  | none => .error (.internalInvariant "manifest_and_state_target_counts_match")
  | some recorded => .ok recorded

section Classification

variable (setting : Setting) (manifest : Manifest)

def classifyTarget (state : StateSnapshot) (mode : RecoveryMode) (entry : ManifestTarget × ℕ) : Engine Unit := do
  let recorded ← Process.ofExcept (recordedTarget state entry.2)
  let paths ← targetPaths setting manifest.transactionId entry.1
  let observed ← observeTarget setting entry.1 paths recorded state.globalState
  let disposition ← Process.ofExcept
    (classifyRecovery state.globalState entry.1.originalExisted recorded observed)
  Process.ofExcept (Except.rejectIf (mode.allows disposition = false)
    (.recoveryActionNotAllowed manifest.transactionId mode.refusal))

def classifyAllTargets (state : StateSnapshot) (mode : RecoveryMode) : Engine Unit :=
  manifest.targets.zipIdx.foldlM (fun _ entry => classifyTarget setting manifest state mode entry) ()

end Classification

end Srcmv.Fs
