import Srcmv.Model.Core.Planner
import Srcmv.Model.Fs.Recovery

/-! # Committing a plan

The manifest of a plan, its execution, and the automatic rollback of a failed execution while its
directory is still active.
-/

namespace Srcmv.Fs

open Srcmv.Core Machine

section Workspace

variable (setting : Setting)

/-- The automatic rollback; whether it failed. -/
def automaticRollback (transactionId : String) : Engine Bool := do
  let result ← Process.attempt (recoverLocked setting transactionId .rollback)
  match result with
  | .ok _ => return false
  | .error _ => return true

/-- Roll a failed transaction back while its directory is still active, and report the first error. -/
def rollBackFailed (transactionId : String) (original : FsError) : Engine CommitOutcome := do
  let remains ← Process.probe (.existence "active") fun world =>
    (world.control.transactions[transactionId]?).isSome
  let failed ← if remains then automaticRollback setting transactionId else pure false
  if failed then Process.refuse (.transactionRecoveryRequired [transactionId])
  else Process.refuse original

/-- Execute a manifest in its directory; on failure roll it back. -/
def commitManifest (manifest : Manifest) (snapshot : WorkspaceSnapshot) : Engine CommitOutcome := do
  let result ← Process.attempt
    (executeNewTransaction setting manifest manifest.transactionId snapshot)
  match result with
  | .ok outcome => return outcome
  | .error original => rollBackFailed setting manifest.transactionId original

def manifestInputOf (file : FileSnapshot) : ManifestInput where
  path := file.path.value
  parentIdentity := .ofIdentity file.parentIdentity
  existed := true
  fileIdentity := some (.ofIdentity file.identity)
  sha256 := some file.digest.toPrefixedHex
  length := some (lengthU64 file.bytes.length)
  linkCount := some (lengthU64 file.linkCount)

def manifestInputOfAbsent (missing : AbsentPathSnapshot) : ManifestInput where
  path := missing.path.value
  parentIdentity := .ofIdentity missing.parentIdentity
  existed := false
  fileIdentity := none
  sha256 := none
  length := none
  linkCount := none

def manifestSegmentOf : OutputSegment → ManifestSegment
  | .originalSlice file range => ⟨lengthU64 file, lengthU64 range.start, lengthU64 range.stop, none⟩
  | .payloadSlice operationIndex file range _ =>
      ⟨lengthU64 file, lengthU64 range.start, lengthU64 range.stop, some (lengthU64 operationIndex)⟩

def outputParent (original : Option FileSnapshot) (missing : Option AbsentPathSnapshot) :
    Except FsError FileIdentity :=
  match original, missing with
  | some file, _ => .ok file.parentIdentity
  | none, some missing => .ok missing.parentIdentity
  | none, none => .error (.internalInvariant "changed_output_has_snapshot_input")

def manifestTargetOf (snapshot : WorkspaceSnapshot) (newFileMode : UInt32) (entry : PlannedOutput × ℕ) :
    Except FsError ManifestTarget := do
  let original := snapshot.files.find? fun file => file.path = entry.1.path
  let missing := snapshot.absentPaths.find? fun missing => missing.path = entry.1.path
  let parentIdentity ← outputParent original missing
  ensureSameDevice parentIdentity.device snapshot.workspaceIdentity.device
  return {
    targetIndex := lengthU64 entry.2
    path := entry.1.path.value
    parentIdentity := .ofIdentity parentIdentity
    originalExisted := original.isSome
    originalIdentity := original.map fun file => .ofIdentity file.identity
    originalSha256 := original.map fun file => file.digest.toPrefixedHex
    originalLength := original.map fun file => lengthU64 file.bytes.length
    candidateName := generatedName "candidate" entry.2
    backupName := generatedName "backup" entry.2
    candidateSha256 := entry.1.resultingDigest.toPrefixedHex
    candidateLength := lengthU64 entry.1.resultingLength
    metadataPolicy := if original.isSome then .preserveExistingMode else .newFileMode
    newFileMode := if original.isNone then some (newFileMode &&& 0o666) else none
    segments := entry.1.segments.map manifestSegmentOf }

/-- What the engine does not preserve, as the manifest records it. -/
def metadataLimitations : List String :=
  ["ownership", "access_control_lists", "extended_attributes", "resource_forks", "timestamps", "platform_flags",
    "hard_link_relationships"]

def buildManifest (snapshot : WorkspaceSnapshot) (plan : EditPlan) (outputs : List PlannedOutput)
    (transactionId : String) (newFileMode : UInt32) : Except FsError Manifest := do
  let targets ← outputs.zipIdx.mapM (manifestTargetOf snapshot newFileMode)
  return {
    transactionVersion := 1
    transactionId
    workspaceIdentity := .ofIdentity snapshot.workspaceIdentity
    planSha256 := plan.digest.toPrefixedHex
    inputs := snapshot.files.map manifestInputOf ++ snapshot.absentPaths.map manifestInputOfAbsent
    targets
    metadataLimitations }

/-- The outputs a plan changes, in the byte order of their paths. -/
def changedOutputs (plan : EditPlan) : List PlannedOutput :=
  (plan.outputs.filter fun output => output.change ≠ .unchanged).mergeSort
    fun left right => left.path.value ≤ right.path.value

/-- `Workspace::commit`; `identifiers` are the random identifiers it will try. -/
def commit (snapshot : WorkspaceSnapshot) (plan : EditPlan) (newFileMode : UInt32)
    (identifiers : List String) : Engine CommitOutcome := do
  Process.ofExcept setting.qualified
  Process.ofExcept (ensureSameDevice setting.lock.control.device setting.identity.device)
  Process.ofExcept (Except.rejectIf (changedOutputs plan = [])
    (.resourceLimitExceeded "transaction_targets" 0 maxTransactionTargets))
  let transactionId ← createTransactionDirectory setting identifiers
  match buildManifest snapshot plan (changedOutputs plan) transactionId newFileMode with
  | .ok manifest => commitManifest setting manifest snapshot
  | .error error => do
      rollbackControlOnly setting transactionId
      Process.refuse error

end Workspace

end Srcmv.Fs
