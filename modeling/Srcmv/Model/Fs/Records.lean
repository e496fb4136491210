import Srcmv.Model.Core.Snapshot
import Srcmv.ToMathlib.Json

/-! # Transaction records

The typed manifest and state snapshots of one transaction, their compact JSON payloads, and the
filesystem boundary's errors. Numeric record fields keep the widths they are declared with. An
I/O error carries its operation and path; the kind reported by the system is not modelled.
-/

namespace Srcmv.Fs

open Srcmv.Core

/-- Typed failures of the filesystem boundary that the modelled functions return. -/
inductive FsError where
  | unsupportedFilesystem (filesystem : String)
  | invalidPath (path reason : String)
  | symlinkNotAllowed (path : String)
  | unsupportedFileType (path : String)
  | preconditionFailed (path : String) (expected actual : Option Sha256Digest)
  | incompatiblePrecondition (path : String)
  | fileAlias (firstPath secondPath : String)
  | fileChanged (path : String) (attempts : ℕ)
  | resourceLimitExceeded (resource : String) (actual limit : ℕ)
  | io (operation : String) (path : Option String)
  | internalInvariant (invariant : String)
  | controlDirectoryInvalid (reason : String)
  | transactionRecordCorrupt (transactionId : Option String) (reason : String)
  | transactionRecoveryRequired (transactionIds : List String)
  | transactionNotFound (transactionId : String)
  | recoveryActionNotAllowed (transactionId reason : String)
  | recoveryConflict (reason : String)
  | crossDeviceTransaction
  | noReplaceUnavailable
  | core (error : CoreError)
deriving DecidableEq

def corrupt (transactionId : Option String) (reason : String) : FsError :=
  .transactionRecordCorrupt transactionId reason

/-- Maximum manifest or individual state-record size. -/
def maxRecordBytes : ℕ := 16 * 1024 * 1024
/-- Maximum state records in one transaction. -/
def maxStateRecords : ℕ := 512
/-- Maximum cumulative bytes in one state chain. -/
def maxStateBytes : ℕ := 128 * 1024 * 1024
/-- Maximum targets in one transaction. -/
def maxTransactionTargets : ℕ := 100
/-- Maximum projected candidate, backup, and record disk use. -/
def maxTransactionDiskBytes : ℕ := 3 * 1024 * 1024 * 1024
/-- Maximum transaction directories visited by one bounded scan. -/
def maxTransactionDirectories : ℕ := 100
/-- Maximum bytes read by one recovery command. -/
def maxRecoveryBytes : ℕ := 256 * 1024 * 1024

/-- Limits for transaction records and recovery scans, with the default of each. -/
structure TransactionLimits where
  recordBytes : ℕ := maxRecordBytes
  targets : ℕ := maxTransactionTargets
  stateRecords : ℕ := maxStateRecords
  stateBytes : ℕ := maxStateBytes
  transactionDirectories : ℕ := maxTransactionDirectories
  recoveryBytes : ℕ := maxRecoveryBytes
  projectedDiskBytes : ℕ := maxTransactionDiskBytes
deriving DecidableEq

/-- `u64::try_from(length).unwrap_or(u64::MAX)`. -/
def lengthU64 (length : ℕ) : UInt64 := UInt64.ofNat (min length u64Max)

/-- A persisted POSIX physical identity. -/
structure PersistedIdentity where
  device : UInt64
  inode : UInt64
deriving DecidableEq

/-- `PersistedIdentity::from`. -/
def PersistedIdentity.ofIdentity (identity : FileIdentity) : PersistedIdentity :=
  ⟨identity.device, identity.inode⟩

theorem PersistedIdentity.ofIdentity_injective : Function.Injective ofIdentity := by
  rintro ⟨leftDevice, leftInode⟩ ⟨rightDevice, rightInode⟩ equal
  simpa [ofIdentity] using equal

/-- One immutable input captured in a transaction manifest. -/
structure ManifestInput where
  path : String
  parentIdentity : PersistedIdentity
  existed : Bool
  fileIdentity : Option PersistedIdentity
  sha256 : Option String
  length : Option UInt64
  linkCount : Option UInt64
deriving DecidableEq

/-- A source segment retained for candidate streaming; `stop` is the source's `end`. -/
structure ManifestSegment where
  inputIndex : UInt64
  start : UInt64
  stop : UInt64
  operationIndex : Option UInt64
deriving DecidableEq

/-- Permission policy persisted for one target. -/
inductive MetadataPolicy where
  | preserveExistingMode
  | newFileMode
deriving DecidableEq

/-- One deterministically ordered target in a transaction manifest. -/
structure ManifestTarget where
  targetIndex : UInt64
  path : String
  parentIdentity : PersistedIdentity
  originalExisted : Bool
  originalIdentity : Option PersistedIdentity
  originalSha256 : Option String
  originalLength : Option UInt64
  candidateName : String
  backupName : String
  candidateSha256 : String
  candidateLength : UInt64
  metadataPolicy : MetadataPolicy
  newFileMode : Option UInt32
  segments : List ManifestSegment
deriving DecidableEq

/-- Immutable payload published before candidate creation. -/
structure Manifest where
  transactionVersion : UInt64
  transactionId : String
  workspaceIdentity : PersistedIdentity
  planSha256 : String
  inputs : List ManifestInput
  targets : List ManifestTarget
  metadataLimitations : List String
deriving DecidableEq

inductive CandidateKind where
  | missing
  | ready
deriving DecidableEq

/-- Persisted candidate-artifact state. -/
structure CandidateState where
  kind : CandidateKind
  identity : Option PersistedIdentity
deriving DecidableEq

inductive CommitKind where
  | untouched
  | backedUp
  | installed
deriving DecidableEq

/-- Persisted target commit progress. -/
structure CommitState where
  kind : CommitKind
  identity : Option PersistedIdentity
  preservedMode : Option UInt32
deriving DecidableEq

inductive RollbackKind where
  | none
  | originalRestored
  | absenceRestored
deriving DecidableEq

/-- Persisted target rollback progress. -/
structure RollbackState where
  kind : RollbackKind
  identity : Option PersistedIdentity
deriving DecidableEq

/-- Full persisted state for one manifest target. -/
structure TargetState where
  targetIndex : UInt64
  candidate : CandidateState
  commit : CommitState
  rollback : RollbackState
deriving DecidableEq

/-- Global transaction state. -/
inductive GlobalState where
  | preparing
  | prepared
  | committing
  | committed
  | rollingBack
  | rolledBack
deriving DecidableEq

/-- One append-only full transaction-state snapshot. -/
structure StateSnapshot where
  transactionVersion : UInt64
  sequence : UInt64
  manifestChecksum : String
  priorStateChecksum : Option String
  globalState : GlobalState
  targets : List TargetState
deriving DecidableEq

section Payloads

/-! Field names and enumeration tags are those of the derived serializers. -/

open Json (ofOption)

def u64Json (value : UInt64) : Json := .number value.toNat

def u32Json (value : UInt32) : Json := .number value.toNat

def PersistedIdentity.toJson (identity : PersistedIdentity) : Json :=
  .object [("device", u64Json identity.device), ("inode", u64Json identity.inode)]

def ManifestInput.toJson (input : ManifestInput) : Json :=
  .object [("path", .string input.path), ("parent_identity", input.parentIdentity.toJson),
    ("existed", .bool input.existed), ("file_identity", ofOption PersistedIdentity.toJson input.fileIdentity),
    ("sha256", ofOption .string input.sha256), ("length", ofOption u64Json input.length),
    ("link_count", ofOption u64Json input.linkCount)]

def ManifestSegment.toJson (segment : ManifestSegment) : Json :=
  .object [("input_index", u64Json segment.inputIndex), ("start", u64Json segment.start),
    ("end", u64Json segment.stop), ("operation_index", ofOption u64Json segment.operationIndex)]

def MetadataPolicy.toJson : MetadataPolicy → Json
  | preserveExistingMode => .string "preserve_existing_mode"
  | newFileMode => .string "new_file_mode"

def ManifestTarget.toJson (target : ManifestTarget) : Json :=
  .object [("target_index", u64Json target.targetIndex), ("path", .string target.path),
    ("parent_identity", target.parentIdentity.toJson), ("original_existed", .bool target.originalExisted),
    ("original_identity", ofOption PersistedIdentity.toJson target.originalIdentity),
    ("original_sha256", ofOption .string target.originalSha256),
    ("original_length", ofOption u64Json target.originalLength),
    ("candidate_name", .string target.candidateName), ("backup_name", .string target.backupName),
    ("candidate_sha256", .string target.candidateSha256),
    ("candidate_length", u64Json target.candidateLength),
    ("metadata_policy", target.metadataPolicy.toJson),
    ("new_file_mode", ofOption u32Json target.newFileMode),
    ("segments", .array (target.segments.map ManifestSegment.toJson))]

def Manifest.toJson (manifest : Manifest) : Json :=
  .object [("transaction_version", u64Json manifest.transactionVersion),
    ("transaction_id", .string manifest.transactionId),
    ("workspace_identity", manifest.workspaceIdentity.toJson),
    ("plan_sha256", .string manifest.planSha256),
    ("inputs", .array (manifest.inputs.map ManifestInput.toJson)),
    ("targets", .array (manifest.targets.map ManifestTarget.toJson)),
    ("metadata_limitations", .array (manifest.metadataLimitations.map Json.string))]

def CandidateKind.toJson : CandidateKind → Json
  | missing => .string "missing"
  | ready => .string "ready"

def CandidateState.toJson (state : CandidateState) : Json :=
  .object [("kind", state.kind.toJson), ("identity", ofOption PersistedIdentity.toJson state.identity)]

def CommitKind.toJson : CommitKind → Json
  | untouched => .string "untouched"
  | backedUp => .string "backed_up"
  | installed => .string "installed"

def CommitState.toJson (state : CommitState) : Json :=
  .object [("kind", state.kind.toJson), ("identity", ofOption PersistedIdentity.toJson state.identity),
    ("preserved_mode", ofOption u32Json state.preservedMode)]

def RollbackKind.toJson : RollbackKind → Json
  | none => .string "none"
  | originalRestored => .string "original_restored"
  | absenceRestored => .string "absence_restored"

def RollbackState.toJson (state : RollbackState) : Json :=
  .object [("kind", state.kind.toJson), ("identity", ofOption PersistedIdentity.toJson state.identity)]

def TargetState.toJson (state : TargetState) : Json :=
  .object [("target_index", u64Json state.targetIndex), ("candidate", state.candidate.toJson),
    ("commit", state.commit.toJson), ("rollback", state.rollback.toJson)]

def GlobalState.toJson : GlobalState → Json
  | preparing => .string "preparing"
  | prepared => .string "prepared"
  | committing => .string "committing"
  | committed => .string "committed"
  | rollingBack => .string "rolling_back"
  | rolledBack => .string "rolled_back"

def StateSnapshot.toJson (state : StateSnapshot) : Json :=
  .object [("transaction_version", u64Json state.transactionVersion),
    ("sequence", u64Json state.sequence), ("manifest_checksum", .string state.manifestChecksum),
    ("prior_state_checksum", ofOption .string state.priorStateChecksum),
    ("global_state", state.globalState.toJson),
    ("targets", .array (state.targets.map TargetState.toJson))]

end Payloads

/-- `serde_json::to_vec` of a payload. -/
def toVec (json : Json) : Bytes := json.render.flatMap String.utf8EncodeChar

/-- What the engine uses of its third-party crates: the SHA-256 digest, and for each payload a strict
reader of the value at the front of some bytes, which leaves the rest, and which reads back what the
serializer wrote. -/
structure Crates where
  sha256 : Bytes → Sha256Digest
  readManifest : Bytes → Option (Manifest × Bytes)
  readState : Bytes → Option (StateSnapshot × Bytes)
  readManifest_toVec : ∀ manifest : Manifest, readManifest (toVec manifest.toJson) = some (manifest, [])
  readState_toVec : ∀ state : StateSnapshot, readState (toVec state.toJson) = some (state, [])

end Srcmv.Fs
