import Srcmv.Machine.Errors
import Srcmv.Model.Cli.Commit

/-! # Commands under the mutation lock

The commands that change a workspace hold its mutation lock, so one runs after another. A commit passes
the gate, takes a second snapshot and plans again, compares the plan with the one made before it had the
lock, and runs the transaction; a recovery completes one or rolls it back. What others do before a
commit has the lock shows in the digest of its first plan alone.
-/

namespace Srcmv.Cli

open Srcmv.Core Srcmv.Fs Machine

def requiredState : Precondition → RequiredPathState
  | .sha256 digest => .existing digest
  | .mustNotExist => .absent

def snapshotRequirements (batch : BatchSpecification) : List SnapshotRequirement :=
  batch.operations.flatMap fun operation =>
    let specification := (operationParts operation).2
    [⟨specification.source.path, requiredState specification.source.precondition⟩,
      ⟨specification.destination.path, requiredState specification.destination.precondition⟩]

def hexLower (bytes : Bytes) : String :=
  String.ofList (bytes.flatMap fun byte => [hexDigit (byte.toNat / 16), hexDigit (byte.toNat % 16)])

/-- The random bytes of one transaction identifier. -/
structure RandomId where
  bytes : Bytes
  size : bytes.length = 16
deriving DecidableEq

/-- What a commit is given: the request, and the random identifiers it will try. -/
structure CommitArguments where
  batch : BatchSpecification
  expectedPlan : Option Sha256Digest
  startupUmask : UInt32
  random : List RandomId
  attempts : random.length = 8
  sizes : TypeSizes

def CommitArguments.newFileMode (arguments : CommitArguments) : UInt32 := 0o666 &&& ~~~arguments.startupUmask

def CommitArguments.identifiers (arguments : CommitArguments) : List String :=
  arguments.random.map fun random => hexLower random.bytes

/-- What a commit brings when it takes the lock: also the digest of the plan it made before. -/
structure CommitRequest extends CommitArguments where
  prelockPlan : Sha256Digest

section Commands

variable (setting : Setting)

/-- The plan for a snapshot, if it is the expected one. -/
def expectedPlan (arguments : CommitArguments) (snapshot : WorkspaceSnapshot) : Except CommitFailure EditPlan := do
  let plan ← (Core.plan setting.crates.sha256 arguments.sizes snapshot arguments.batch {}).mapError fun failure =>
    .filesystem (.core failure)
  match arguments.expectedPlan with
  | some expected => Except.rejectIf (expected ≠ plan.digest) (.expectedPlanMismatch expected plan.digest)
  | none => .ok ()
  return plan

/-- The plan under the lock is the expected one and the one from before the lock. -/
def lockedPlan (request : CommitRequest) (snapshot : WorkspaceSnapshot) : Except CommitFailure EditPlan := do
  let plan ← expectedPlan setting request.toCommitArguments snapshot
  Except.rejectIf (plan.digest ≠ request.prelockPlan) (.planChangedDuringCommit request.prelockPlan plan.digest)
  return plan

/-- The history beside the world is that of the transaction that may now begin. -/
def beginHistory (world : World) : World := { world with published := [], refusals := [] }

/-- A process of a command. -/
abbrev CommandProcess := Process World Site CommitFailure

def acquireLockedSnapshot (request : CommitRequest) : Engine WorkspaceSnapshot :=
  ioRead "acquire_snapshot" none fun world =>
    (setting.view world).acquireSnapshot setting.crates.sha256 (snapshotRequirements request.batch) {}

/-- The snapshot and the plan of a commit that holds the lock, and what is done with them. -/
def underLock {α : Type} (request : CommitRequest) (next : WorkspaceSnapshot → EditPlan → CommandProcess α) :
    CommandProcess α := do
  (gateNewTransaction setting).mapError .filesystem
  Process.note beginHistory
  let snapshot ← (acquireLockedSnapshot setting request).mapError .filesystem
  let plan ← Process.ofExcept (lockedPlan setting request snapshot)
  next snapshot plan

/-- `execute_commit` from the moment it holds the lock to the end of the transaction. -/
def lockedCommit (request : CommitRequest) : CommandProcess CommitOutcome :=
  underLock setting request fun snapshot plan =>
    (Fs.commit setting snapshot plan request.newFileMode request.identifiers).mapError .filesystem

/-- `execute_commit` of a request for JSON. Others may change the workspace until the command holds the
lock: it stands as `prelock` before, and `inspection` is what a look at the control tree finds then. -/
def executeCommit (reporting : Reporting) (arguments : CommitArguments) (prelock : World)
    (inspection : Except FsError (Option (Except FsError (List RecoveryEntry)))) : CommandProcess Bytes := do
  let prelockSnapshot ← (ioRead "acquire_snapshot" none fun _ =>
    (setting.view prelock).acquireSnapshot setting.crates.sha256 (snapshotRequirements arguments.batch) {}).mapError .filesystem
  let prelockPlan ← Process.ofExcept (expectedPlan setting arguments prelockSnapshot)
  if prelockPlan.usage.changedTargets = 0 then
    let warnings ← Process.ofExcept ((diagnosticContext inspection).mapError .filesystem)
    Process.ofExcept (serializeCommitResponse reporting.toVec (reporting.unchangedResponse prelockSnapshot prelockPlan warnings))
  else
    underLock setting ⟨arguments, prelockPlan.digest⟩ fun snapshot plan => do
      let outcome ← (Fs.commit setting snapshot plan arguments.newFileMode arguments.identifiers).mapError .filesystem
      Process.ofExcept (serializeCommitResponse reporting.toVec (reporting.committedResponse snapshot plan outcome))

/-- `recovery_complete` and `recovery_rollback` from the moment they hold the lock. -/
def lockedRecovery (transactionId : String) (mode : RecoveryMode) : CommandProcess RecoveryOutcome := do
  Process.ofExcept (setting.qualified.mapError .filesystem)
  Process.ofExcept ((ensureSameDevice setting.lock.control.device setting.identity.device).mapError .filesystem)
  (recoverLocked setting transactionId mode).mapError .filesystem

end Commands

/-- What a command is asked to do. -/
inductive Command where
  | commit (request : CommitRequest)
  | recovery (transactionId : String) (mode : RecoveryMode)

def Command.process (setting : Setting) : Command → CommandProcess Unit
  | commit request => do
      let _ ← lockedCommit setting request
      return ()
  | recovery transactionId mode => do
      let _ ← lockedRecovery setting transactionId mode
      return ()

/-- A workspace with its control tree, and the identities given to the files of its last transaction. -/
structure System where
  world : World
  newIdentity : String → FileIdentity

/-- A transaction keeps the identities of its files as long as it is active; those of a new one are of
no file in the workspace. -/
structure System.Allots (system : System) (newIdentity : String → FileIdentity) : Prop where
  kept : system.world.control.transactions ≠ ∅ → newIdentity = system.newIdentity
  fresh : system.world.control.transactions = ∅ → ∀ (path : String) (node : Node) (name : String),
    system.world.files path = some (.file node) → newIdentity name ≠ node.identity

/-- One command runs to its end, or to where the environment stops it. -/
inductive System.Step (setting : Setting) (allowed : Site → Went → Prop) : System → System → Prop where
  | run {system : System} {newIdentity : String → FileIdentity} {later : World} (command : Command)
      (allots : system.Allots newIdentity)
      (leads : Process.Leads allowed (command.process { setting with newIdentity }) system.world later) :
      Step setting allowed system ⟨later, newIdentity⟩

end Srcmv.Cli
