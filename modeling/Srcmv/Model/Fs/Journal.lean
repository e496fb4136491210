import Srcmv.Model.Fs.Records
import Srcmv.ToMathlib.Except

/-! # Checksummed record envelopes and state-machine validation

A record is its magic, a version, the payload length, the payload and the SHA-256 of everything
before it. Decoding checks each of these before the payload is read at all. The state machine is
validated as a shape, against the manifest, and from one snapshot to the next.
-/

namespace Srcmv.Fs

open Srcmv.Core

def recordFormatVersion : ℕ := 1

/-- `b"SRCMV-MANIFEST\0"`. -/
def manifestMagic : Bytes := utf8Bytes "SRCMV-MANIFEST" ++ [0]

/-- `b"SRCMV-STATE\0"`. -/
def stateMagic : Bytes := utf8Bytes "SRCMV-STATE" ++ [0]

def headerTrailerBytes : ℕ := 4 + 8 + 32

def isLowerHex (char : Char) : Bool := char.isDigit || ('a' ≤ char && char ≤ 'f')

def validateTransactionId (value : String) : Except FsError Unit :=
  if value.toList.length = 32 ∧ value.toList.all isLowerHex then .ok ()
  else .error (corrupt none "transaction_id_invalid")

def digestPrefix : List Char := "sha256:".toList

def validateDigest (value : String) (id : Option String) : Except FsError Unit :=
  if digestPrefix.isPrefixOf value.toList ∧ (value.toList.drop digestPrefix.length).length = 64 ∧
      (value.toList.drop digestPrefix.length).all isLowerHex then .ok ()
  else .error (corrupt id "record_digest_invalid")

def validateOptionalDigest (value : Option String) (id : Option String) : Except FsError Unit :=
  match value with
  | some digest => validateDigest digest id
  | none => .ok ()

/-- A number in decimal, padded with zeros to eight digits. -/
def eightDigits (number : ℕ) : List Char :=
  List.replicate (8 - (Nat.toDigits 10 number).length) '0' ++ Nat.toDigits 10 number

def generatedName (kind : String) (index : ℕ) : String :=
  String.ofList (kind.toList ++ '-' :: eightDigits index)

def validateGeneratedName (value kind : String) (index : ℕ) : Except FsError Unit :=
  if value = generatedName kind index then .ok ()
  else .error (corrupt none "generated_artifact_name_invalid")

def asciiLower (char : Char) : Char := if char.isUpper then char.toLower else char

def pathComponents (value : String) : List (List Char) := value.toList.splitOn '/'

/-- The first component spells the control directory, ignoring ASCII case. -/
def firstComponentReserved (value : String) : Bool :=
  (pathComponents value).head?.any fun component => component.map asciiLower = ".srcmv".toList

def validateNormalizedPath (value id : String) : Except FsError Unit :=
  if value.toList = [] ∨ (utf8Bytes value).length > 4096 ∨ value.toList.head? = some '/' ∨
      value.toList.contains '\x00' ∨
      (pathComponents value).any (fun part => part = [] || part = ['.'] || part = ['.', '.']) ∨
      firstComponentReserved value then
    .error (corrupt (some id) "manifest_path_invalid")
  else .ok ()

def validateOptionalInput (input : ManifestInput) (id : String) : Except FsError Unit :=
  let fields := (input.fileIdentity.isSome, input.sha256.isSome, input.length.isSome, input.linkCount.isSome)
  if input.existed ≠ decide (fields = (true, true, true, true)) ∨
      (input.existed = false ∧ fields ≠ (false, false, false, false)) then
    .error (corrupt (some id) "manifest_input_existence_fields_invalid")
  else validateOptionalDigest input.sha256 (some id)

def validateOptionalOriginal (target : ManifestTarget) (id : String) : Except FsError Unit :=
  let fields := (target.originalIdentity.isSome, target.originalSha256.isSome, target.originalLength.isSome)
  if target.originalExisted ≠ decide (fields = (true, true, true)) ∨
      (target.originalExisted = false ∧ fields ≠ (false, false, false)) then
    .error (corrupt (some id) "manifest_target_existence_fields_invalid")
  else validateOptionalDigest target.originalSha256 (some id)

/-- The bytes of the original, none when it did not exist. -/
def ManifestTarget.originalBytes (target : ManifestTarget) : ℕ :=
  (target.originalLength.map UInt64.toNat).getD 0

def projectedOverflow (limit : ℕ) : FsError :=
  .resourceLimitExceeded "projected_transaction_disk_bytes" u64Max limit

/-- Charge the candidate and the original of one target. -/
def chargeArtifacts (limits : TransactionLimits) (total : ℕ) (target : ManifestTarget) : Except FsError ℕ :=
  if total + target.candidateLength.toNat + target.originalBytes ≤ u64Max then
    .ok (total + target.candidateLength.toNat + target.originalBytes)
  else .error (projectedOverflow limits.projectedDiskBytes)

def metadataValid (target : ManifestTarget) : Bool :=
  match target.metadataPolicy with
  | .preserveExistingMode => target.originalExisted && target.newFileMode.isNone
  | .newFileMode => !target.originalExisted &&
      target.newFileMode.any fun mode => mode.toNat ≤ 0o666 && mode.toNat &&& 0o111 = 0

def validateSegment (manifest : Manifest) (segment : ManifestSegment) : Except FsError Unit :=
  match manifest.inputs[segment.inputIndex.toNat]? with
  | none => .error (corrupt (some manifest.transactionId) "manifest_segment_invalid")
  | some input =>
      if segment.start.toNat ≥ segment.stop.toNat then
        .error (corrupt (some manifest.transactionId) "manifest_segment_invalid")
      else if input.length.any fun length => segment.stop.toNat ≤ length.toNat then .ok ()
      else .error (corrupt (some manifest.transactionId) "manifest_segment_out_of_bounds")

/-- One iteration of the target loop, carrying the prior path and the projected bytes. -/
def validateTarget (manifest : Manifest) (limits : TransactionLimits) (carried : Option String × ℕ)
    (entry : ManifestTarget × ℕ) : Except FsError (Option String × ℕ) := do
  let target := entry.1
  let id := manifest.transactionId
  validateNormalizedPath target.path id
  Except.rejectIf (target.targetIndex ≠ lengthU64 entry.2)
    (corrupt (some id) "manifest_target_index_invalid")
  Except.rejectIf (carried.1.any fun prior => target.path ≤ prior)
    (corrupt (some id) "manifest_targets_not_sorted")
  validateGeneratedName target.candidateName "candidate" entry.2
  validateGeneratedName target.backupName "backup" entry.2
  validateDigest target.candidateSha256 (some id)
  validateOptionalOriginal target id
  let projected ← chargeArtifacts limits carried.2 target
  Except.rejectIf (metadataValid target = false) (corrupt (some id) "manifest_metadata_policy_invalid")
  target.segments.forM (validateSegment manifest)
  return (some target.path, projected)

def validateManifest (manifest : Manifest) (limits : TransactionLimits) : Except FsError Unit := do
  Except.rejectIf (manifest.transactionVersion ≠ 1)
    (corrupt (some manifest.transactionId) "manifest_version_unsupported")
  validateTransactionId manifest.transactionId
  validateDigest manifest.planSha256 (some manifest.transactionId)
  Except.rejectIf (manifest.targets.length = 0)
    (corrupt (some manifest.transactionId) "manifest_targets_empty")
  Except.rejectIf (manifest.targets.length > limits.targets)
    (.resourceLimitExceeded "transaction_targets" manifest.targets.length limits.targets)
  let (_, projected) ← manifest.targets.zipIdx.foldlM (validateTarget manifest limits) (none, 0)
  Except.rejectIf (projected > limits.projectedDiskBytes)
    (.resourceLimitExceeded "projected_transaction_disk_bytes" projected limits.projectedDiskBytes)
  manifest.inputs.forM fun input => do
    validateNormalizedPath input.path manifest.transactionId
    validateOptionalInput input manifest.transactionId

def projectedArtifactBytes (manifest : Manifest) (limits : TransactionLimits) : Except FsError ℕ :=
  manifest.targets.foldlM (chargeArtifacts limits) 0

def validateTargetFields (target : TargetState) : Except FsError Unit :=
  if decide (target.candidate.kind = .ready) ≠ target.candidate.identity.isSome then
    .error (corrupt none "candidate_identity_invalid")
  else
    let commitValid := match target.commit.kind with
      | .untouched => target.commit.identity.isNone && target.commit.preservedMode.isNone
      | .backedUp => target.commit.identity.isSome && target.commit.preservedMode.isSome
      | .installed => target.commit.identity.isSome
    if commitValid = false then .error (corrupt none "commit_fields_invalid")
    else
      let rollbackValid := match target.rollback.kind with
        | .none | .absenceRestored => target.rollback.identity.isNone
        | .originalRestored => target.rollback.identity.isSome
      Except.rejectIf (rollbackValid = false) (corrupt none "rollback_fields_invalid")

/-- Which combinations of target states a global state admits. -/
def globalConstraintsHold (state : StateSnapshot) : Bool :=
  let allReady := state.targets.all fun target => target.candidate.kind = .ready
  let allUntouched := state.targets.all fun target => target.commit.kind = .untouched
  let noneRolledBack := state.targets.all fun target => target.rollback.kind = .none
  match state.globalState with
  | .preparing => allUntouched && noneRolledBack
  | .prepared => allReady && allUntouched && noneRolledBack
  | .committing => allReady && noneRolledBack
  | .committed => allReady && noneRolledBack && state.targets.all fun target => target.commit.kind = .installed
  | .rollingBack => state.targets.all fun target => target.rollback.kind ≠ .none ||
      target.commit.kind = .untouched || target.candidate.kind = .ready
  | .rolledBack => state.targets.all fun target => target.rollback.kind ≠ .none

def validateGlobalConstraints (state : StateSnapshot) : Except FsError Unit :=
  if globalConstraintsHold state then .ok ()
  else .error (corrupt none "global_state_target_combination_invalid")

def validateStateShape (state : StateSnapshot) (limits : TransactionLimits) : Except FsError Unit := do
  Except.rejectIf (state.transactionVersion ≠ 1) (corrupt none "state_version_unsupported")
  Except.rejectIf (state.sequence.toNat ≥ limits.stateRecords)
    (.resourceLimitExceeded "state_records" (min (state.sequence.toNat + 1) u64Max) limits.stateRecords)
  validateDigest state.manifestChecksum none
  validateOptionalDigest state.priorStateChecksum none
  Except.rejectIf (state.sequence = 0 ∧ state.priorStateChecksum.isSome)
    (corrupt none "state_zero_prior_checksum_present")
  Except.rejectIf (state.sequence ≠ 0 ∧ state.priorStateChecksum.isNone)
    (corrupt none "state_prior_checksum_missing")
  Except.rejectIf (state.targets.length > limits.targets)
    (.resourceLimitExceeded "transaction_targets" state.targets.length limits.targets)
  state.targets.zipIdx.forM fun entry => do
    Except.rejectIf (entry.1.targetIndex ≠ lengthU64 entry.2) (corrupt none "state_target_index_invalid")
    validateTargetFields entry.1
  validateGlobalConstraints state

def validateStateAgainstOriginals (state : StateSnapshot) (originalExistence : List Bool) :
    Except FsError Unit :=
  if state.targets.length ≠ originalExistence.length then
    .error (corrupt none "state_target_count_mismatch")
  else
    (state.targets.zip originalExistence).forM fun entry =>
      if (entry.2 = false ∧ entry.1.commit.kind = .backedUp) ∨
          (entry.1.rollback.kind = .originalRestored ∧ entry.2 = false) ∨
          (entry.1.rollback.kind = .absenceRestored ∧ entry.2 = true) then
        .error (corrupt none "state_original_existence_mismatch")
      else .ok ()

def Manifest.originalExistence (manifest : Manifest) : List Bool :=
  manifest.targets.map ManifestTarget.originalExisted

def validateStateAgainstManifest (state : StateSnapshot) (manifest : Manifest) : Except FsError Unit :=
  validateStateAgainstOriginals state manifest.originalExistence

def commitRank : CommitKind → ℕ
  | .untouched => 0
  | .backedUp => 1
  | .installed => 2

def GlobalState.isRollback : GlobalState → Bool
  | .rollingBack | .rolledBack => true
  | _ => false

/-- Progress of one target never goes back, and commit and rollback progress exclude each other. -/
def validateTargetProgress (before after : TargetState) (global : GlobalState) : Except FsError Unit :=
  if ¬(before.candidate = after.candidate ∨
      (before.candidate.kind = .missing ∧ after.candidate.kind = .ready)) then
    .error (corrupt none "candidate_state_regressed")
  else if global.isRollback = false ∧ before.rollback ≠ after.rollback then
    .error (corrupt none "rollback_progress_outside_rollback")
  else if ¬(commitRank before.commit.kind ≤ commitRank after.commit.kind ∧
      (global.isRollback = false ∨ before.commit = after.commit)) then
    .error (corrupt none "commit_state_regressed")
  else if before.rollback.kind ≠ .none ∧ before.rollback ≠ after.rollback then
    .error (corrupt none "rollback_state_changed_after_restore")
  else .ok ()

/-- Which global state may follow which. -/
def GlobalState.precedes : GlobalState → GlobalState → Bool
  | .preparing, .preparing | .preparing, .prepared | .preparing, .rollingBack => true
  | .prepared, .prepared | .prepared, .committing | .prepared, .rollingBack => true
  | .committing, .committing | .committing, .committed | .committing, .rollingBack => true
  | .rollingBack, .rollingBack | .rollingBack, .rolledBack => true
  | _, _ => false

def validateStateTransition (previous next : StateSnapshot) (limits : TransactionLimits) :
    Except FsError Unit := do
  validateStateShape previous limits
  validateStateShape next limits
  Except.rejectIf (previous.sequence.toNat + 1 > u64Max) (corrupt none "state_sequence_overflow")
  Except.rejectIf (next.sequence.toNat ≠ previous.sequence.toNat + 1)
    (corrupt none "state_sequence_not_contiguous")
  Except.rejectIf (previous.globalState.precedes next.globalState = false)
    (corrupt none "invalid_global_state_transition")
  Except.rejectIf (previous.targets.length ≠ next.targets.length) (corrupt none "state_target_count_changed")
  (previous.targets.zip next.targets).forM fun pair => do
    Except.rejectIf (pair.1.targetIndex ≠ pair.2.targetIndex) (corrupt none "state_target_order_changed")
    validateTargetProgress pair.1 pair.2 next.globalState

section Envelope

variable (crates : Crates)

def checkedRecordLength (magic : Bytes) (payload : ℕ) : Except FsError ℕ :=
  if magic.length + headerTrailerBytes + payload ≤ u64Max then
    .ok (magic.length + headerTrailerBytes + payload)
  else .error (.resourceLimitExceeded "transaction_record_bytes" u64Max maxRecordBytes)

/-- Everything of a record before its checksum. -/
def recordBody (magic payload : Bytes) : Bytes :=
  magic ++ bigEndian 4 recordFormatVersion ++ bigEndian 8 (min payload.length u64Max) ++ payload

def encodeRecord (magic payload : Bytes) (limits : TransactionLimits) : Except FsError Bytes := do
  let total ← checkedRecordLength magic payload.length
  Except.rejectIf (total > limits.recordBytes)
    (.resourceLimitExceeded "transaction_record_bytes" total limits.recordBytes)
  let body := recordBody magic payload
  return body ++ (crates.sha256 body).bytes

structure DecodedRecord (α : Type) where
  payload : α
  checksum : Sha256Digest

/-- JSON white space, all that `Deserializer::end` accepts behind a value. -/
def isJsonSpace (byte : UInt8) : Bool := byte = 0x20 || byte = 0x09 || byte = 0x0A || byte = 0x0D

def decodeRecord {α : Type} (read : Bytes → Option (α × Bytes)) (bytes magic : Bytes) (transactionId : Option String)
    (limits : TransactionLimits) : Except FsError (DecodedRecord α) := do
  Except.rejectIf (bytes.length > limits.recordBytes) (corrupt transactionId "record_oversized")
  let header := magic.length + 12
  Except.rejectIf (bytes.length < header + 32 ∨ magic.isPrefixOf bytes = false)
    (corrupt transactionId "record_magic_or_truncation")
  Except.rejectIf (ofBigEndian ((bytes.drop magic.length).take 4) ≠ recordFormatVersion)
    (corrupt transactionId "record_version_unsupported")
  let payloadLength := ofBigEndian ((bytes.drop (magic.length + 4)).take 8)
  Except.rejectIf (header + payloadLength + 32 > u64Max) (corrupt transactionId "record_length_overflow")
  Except.rejectIf (bytes.length ≠ header + payloadLength + 32)
    (corrupt transactionId "record_length_mismatch")
  let payloadEnd := header + payloadLength
  let expectedChecksum := crates.sha256 (bytes.take payloadEnd)
  Except.rejectIf (bytes.drop payloadEnd ≠ expectedChecksum.bytes)
    (corrupt transactionId "record_checksum_invalid")
  match read ((bytes.drop header).take payloadLength) with
  | none => .error (corrupt transactionId "record_payload_invalid")
  | some (payload, rest) => do
      Except.rejectIf (rest.all isJsonSpace = false) (corrupt transactionId "record_payload_trailing_data")
      return ⟨payload, expectedChecksum⟩

def encodeManifestRecord (manifest : Manifest) (limits : TransactionLimits) : Except FsError Bytes := do
  validateManifest manifest limits
  let encoded ← encodeRecord crates manifestMagic (toVec manifest.toJson) limits
  let projected ← projectedArtifactBytes manifest limits
  Except.rejectIf (projected + encoded.length > u64Max) (projectedOverflow limits.projectedDiskBytes)
  Except.rejectIf (projected + encoded.length > limits.projectedDiskBytes)
    (.resourceLimitExceeded "projected_transaction_disk_bytes" (projected + encoded.length)
      limits.projectedDiskBytes)
  return encoded

def encodeStateRecord (state : StateSnapshot) (limits : TransactionLimits) : Except FsError Bytes := do
  validateStateShape state limits
  encodeRecord crates stateMagic (toVec state.toJson) limits

def decodeManifestRecord (bytes : Bytes) (transactionId : Option String) (limits : TransactionLimits) :
    Except FsError (DecodedRecord Manifest) := do
  let decoded ← decodeRecord crates crates.readManifest bytes manifestMagic transactionId limits
  validateManifest decoded.payload limits
  return decoded

def decodeStateRecord (bytes : Bytes) (transactionId : Option String) (limits : TransactionLimits) :
    Except FsError (DecodedRecord StateSnapshot) := do
  let decoded ← decodeRecord crates crates.readState bytes stateMagic transactionId limits
  validateStateShape decoded.payload limits
  return decoded

/-- The trailing 32 bytes of a record as a digest. -/
def recordChecksum (bytes : Bytes) : Except FsError Sha256Digest :=
  if long : 32 ≤ bytes.length then .ok ⟨bytes.drop (bytes.length - 32), by rw [List.length_drop]; omega⟩
  else .error (corrupt none "record_truncated")

def checksumText (digest : Sha256Digest) : String := digest.toPrefixedHex

end Envelope

end Srcmv.Fs
