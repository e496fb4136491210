import Srcmv.Model.Cli.Responses
import Srcmv.Model.Fs.Commit

/-! # The response of a commit

A commit is reported once it is done, with the plan it was made for, its transaction and the modes it
preserved. A plan that changes nothing is reported without a transaction.
-/

namespace Srcmv.Cli

open Srcmv.Core Srcmv.Fs Srcmv.Protocol

inductive CommitFailure where
  | filesystem (failure : FsError)
  | expectedPlanMismatch (expected actual : Sha256Digest)
  | planChangedDuringCommit (prelock locked : Sha256Digest)
  | serializedJsonResponse (actual limit : ℕ)

def metadataWarning : WarningDto :=
  ⟨"METADATA_NOT_PRESERVED", "metadata outside content bytes and POSIX permission bits is not preserved", []⟩

def staleWarning : WarningDto :=
  ⟨"OBSERVATION_MAY_BE_STALE", "no existing srcmv lock coordinated this read-only observation", []⟩

/-- The warnings of an inspection. `lock` is its lock with what a scan under it finds, if there is a lock file. -/
def diagnosticContext (lock : Except FsError (Option (Except FsError (List RecoveryEntry)))) : Except FsError (List WarningDto) := do
  match ← lock with
  | none => return [staleWarning]
  | some scan =>
      let entries ← scan
      let transactionIds := (entries.filter fun entry => entry.kind ≠ .cleanupOnly).map RecoveryEntry.transactionId
      if transactionIds ≠ [] then .error (.transactionRecoveryRequired transactionIds) else return []

def buildCommitResponse (snapshot : WorkspaceSnapshot) (plan : EditPlan) (workspaceIdentityHash : Sha256Digest)
    (warnings : List WarningDto) (transactionId : Option String) (preservedPermissionModes : List (String × ℕ)) :
    CommitResponse :=
  .create plan.digest workspaceIdentityHash (plan.operations.map .fromCommitted) (plan.outputs.map (outputResponse snapshot))
    warnings transactionId ((changedOutputs plan).map fun output => output.path.value) preservedPermissionModes

def enforceResponseBytes (actual : ℕ) : Except CommitFailure Unit :=
  if actual > maxResponseBytes then .error (.serializedJsonResponse actual maxResponseBytes) else .ok ()

/-- The line of a response that is asked for as JSON. -/
def serializeCommitResponse (toVec : Content → Bytes) (response : CommitResponse) : Except CommitFailure Bytes := do
  let line := toJsonLine toVec response.content
  enforceResponseBytes line.length
  return line

/-- What a response is made with: the writer of JSON and the identity of the workspace. -/
structure Reporting where
  toVec : Content → Bytes
  workspaceIdentityHash : Sha256Digest

namespace Reporting

variable (reporting : Reporting)

/-- The modes of an outcome, by path. -/
def modes (outcome : CommitOutcome) : List (String × ℕ) :=
  outcome.preservedPermissionModes.map fun entry => (entry.1, entry.2.toNat)

/-- The response to a committed plan. -/
def committedResponse (snapshot : WorkspaceSnapshot) (plan : EditPlan) (outcome : CommitOutcome) : CommitResponse :=
  buildCommitResponse snapshot plan reporting.workspaceIdentityHash [metadataWarning] (some outcome.transactionId)
    (modes outcome)

/-- The response to a plan that changes nothing. -/
def unchangedResponse (snapshot : WorkspaceSnapshot) (plan : EditPlan) (warnings : List WarningDto) : CommitResponse :=
  buildCommitResponse snapshot plan reporting.workspaceIdentityHash warnings none []

end Reporting

end Srcmv.Cli
