import Srcmv.Model.Core.Reference
import Srcmv.Model.Fs.Records

/-! # Reading record payloads

A strict reader for the payloads of the records: every field in the order in which it is written,
numbers within the width of their field, nothing unknown. It reads back whatever was written, which
is all that the rest of the development uses of a reader.
-/

namespace Srcmv.Fs

open Srcmv.Core

/-- The characters of a UTF-8 text. -/
def textOf (bytes : Bytes) : Option (List Char) := bytes.toByteArray.utf8Decode?.map Array.toList

theorem textOf_toVec (json : Json) : textOf (toVec json) = some json.render := by
  have encoded : (toVec json).toByteArray = json.render.utf8Encode := rfl
  rw [textOf, encoded, List.utf8Decode?_utf8Encode]
  rfl

section Decoders

def u64OfJson : Json → Option UInt64
  | .number value => if value < 2 ^ 64 then some (UInt64.ofNat value) else none
  | _ => none

def u32OfJson : Json → Option UInt32
  | .number value => if value < 2 ^ 32 then some (UInt32.ofNat value) else none
  | _ => none

def boolOfJson : Json → Option Bool
  | .bool value => some value
  | _ => none

def stringOfJson : Json → Option String
  | .string value => some value
  | _ => none

def listOfJson {α : Type} (decode : Json → Option α) : Json → Option (List α)
  | .array items => items.mapM decode
  | _ => none

def optionOfJson {α : Type} (decode : Json → Option α) : Json → Option (Option α)
  | .null => some none
  | value => (decode value).map some

def identityOfJson : Json → Option PersistedIdentity
  | .object [("device", device), ("inode", inode)] => do
      return ⟨← u64OfJson device, ← u64OfJson inode⟩
  | _ => none

def inputOfJson : Json → Option ManifestInput
  | .object [("path", path), ("parent_identity", parentIdentity), ("existed", existed),
      ("file_identity", fileIdentity), ("sha256", sha256), ("length", length), ("link_count", linkCount)] => do
      return ⟨← stringOfJson path, ← identityOfJson parentIdentity, ← boolOfJson existed,
        ← optionOfJson identityOfJson fileIdentity, ← optionOfJson stringOfJson sha256,
        ← optionOfJson u64OfJson length, ← optionOfJson u64OfJson linkCount⟩
  | _ => none

def segmentOfJson : Json → Option ManifestSegment
  | .object [("input_index", inputIndex), ("start", start), ("end", stop), ("operation_index", operationIndex)] => do
      return ⟨← u64OfJson inputIndex, ← u64OfJson start, ← u64OfJson stop, ← optionOfJson u64OfJson operationIndex⟩
  | _ => none

def policyOfJson : Json → Option MetadataPolicy
  | .string "preserve_existing_mode" => some .preserveExistingMode
  | .string "new_file_mode" => some .newFileMode
  | _ => none

def targetOfJson : Json → Option ManifestTarget
  | .object [("target_index", targetIndex), ("path", path), ("parent_identity", parentIdentity),
      ("original_existed", originalExisted), ("original_identity", originalIdentity),
      ("original_sha256", originalSha256), ("original_length", originalLength), ("candidate_name", candidateName),
      ("backup_name", backupName), ("candidate_sha256", candidateSha256), ("candidate_length", candidateLength),
      ("metadata_policy", metadataPolicy), ("new_file_mode", newFileMode), ("segments", segments)] => do
      return ⟨← u64OfJson targetIndex, ← stringOfJson path, ← identityOfJson parentIdentity,
        ← boolOfJson originalExisted, ← optionOfJson identityOfJson originalIdentity,
        ← optionOfJson stringOfJson originalSha256, ← optionOfJson u64OfJson originalLength,
        ← stringOfJson candidateName, ← stringOfJson backupName, ← stringOfJson candidateSha256,
        ← u64OfJson candidateLength, ← policyOfJson metadataPolicy, ← optionOfJson u32OfJson newFileMode,
        ← listOfJson segmentOfJson segments⟩
  | _ => none

def manifestOfJson : Json → Option Manifest
  | .object [("transaction_version", transactionVersion), ("transaction_id", transactionId),
      ("workspace_identity", workspaceIdentity), ("plan_sha256", planSha256), ("inputs", inputs),
      ("targets", targets), ("metadata_limitations", metadataLimitations)] => do
      return ⟨← u64OfJson transactionVersion, ← stringOfJson transactionId, ← identityOfJson workspaceIdentity,
        ← stringOfJson planSha256, ← listOfJson inputOfJson inputs, ← listOfJson targetOfJson targets,
        ← listOfJson stringOfJson metadataLimitations⟩
  | _ => none

def candidateKindOfJson : Json → Option CandidateKind
  | .string "missing" => some .missing
  | .string "ready" => some .ready
  | _ => none

def commitKindOfJson : Json → Option CommitKind
  | .string "untouched" => some .untouched
  | .string "backed_up" => some .backedUp
  | .string "installed" => some .installed
  | _ => none

def rollbackKindOfJson : Json → Option RollbackKind
  | .string "none" => some .none
  | .string "original_restored" => some .originalRestored
  | .string "absence_restored" => some .absenceRestored
  | _ => none

def globalStateOfJson : Json → Option GlobalState
  | .string "preparing" => some .preparing
  | .string "prepared" => some .prepared
  | .string "committing" => some .committing
  | .string "committed" => some .committed
  | .string "rolling_back" => some .rollingBack
  | .string "rolled_back" => some .rolledBack
  | _ => none

def candidateOfJson : Json → Option CandidateState
  | .object [("kind", kind), ("identity", identity)] => do
      return ⟨← candidateKindOfJson kind, ← optionOfJson identityOfJson identity⟩
  | _ => none

def commitOfJson : Json → Option CommitState
  | .object [("kind", kind), ("identity", identity), ("preserved_mode", preservedMode)] => do
      return ⟨← commitKindOfJson kind, ← optionOfJson identityOfJson identity, ← optionOfJson u32OfJson preservedMode⟩
  | _ => none

def rollbackOfJson : Json → Option RollbackState
  | .object [("kind", kind), ("identity", identity)] => do
      return ⟨← rollbackKindOfJson kind, ← optionOfJson identityOfJson identity⟩
  | _ => none

def targetStateOfJson : Json → Option TargetState
  | .object [("target_index", targetIndex), ("candidate", candidate), ("commit", commit), ("rollback", rollback)] => do
      return ⟨← u64OfJson targetIndex, ← candidateOfJson candidate, ← commitOfJson commit, ← rollbackOfJson rollback⟩
  | _ => none

def stateOfJson : Json → Option StateSnapshot
  | .object [("transaction_version", transactionVersion), ("sequence", sequence),
      ("manifest_checksum", manifestChecksum), ("prior_state_checksum", priorStateChecksum),
      ("global_state", globalState), ("targets", targets)] => do
      return ⟨← u64OfJson transactionVersion, ← u64OfJson sequence, ← stringOfJson manifestChecksum,
        ← optionOfJson stringOfJson priorStateChecksum, ← globalStateOfJson globalState,
        ← listOfJson targetStateOfJson targets⟩
  | _ => none

end Decoders

section RoundTrip

@[simp] theorem u64OfJson_u64Json (value : UInt64) : u64OfJson (u64Json value) = some value := by
  rw [u64Json, u64OfJson, if_pos value.toNat_lt, UInt64.ofNat_toNat]

@[simp] theorem u32OfJson_u32Json (value : UInt32) : u32OfJson (u32Json value) = some value := by
  rw [u32Json, u32OfJson, if_pos value.toNat_lt, UInt32.ofNat_toNat]

variable {α : Type} {encode : α → Json} {decode : Json → Option α}

/-- An optional value is read back, when no value is written as `null`. -/
theorem optionOfJson_ofOption (back : ∀ value, decode (encode value) = some value)
    (present : ∀ value, encode value ≠ .null) (value : Option α) :
    optionOfJson decode (Json.ofOption encode value) = some value := by
  cases value with
  | none => rfl
  | some value =>
    rw [Json.ofOption, optionOfJson.eq_def]
    split
    · next null => exact absurd null (present value)
    · rw [back, Option.map_some]

theorem listOfJson_map (back : ∀ value, decode (encode value) = some value) (values : List α) :
    listOfJson decode (.array (values.map encode)) = some values := by
  rw [listOfJson]
  induction values with
  | nil => rfl
  | cons value rest ih => rw [List.map_cons, List.mapM_cons, back, ih]; rfl

@[simp] theorem identityOfJson_toJson (identity : PersistedIdentity) :
    identityOfJson identity.toJson = some identity := by
  simp [PersistedIdentity.toJson, identityOfJson]

@[simp] theorem optional_identity (identity : Option PersistedIdentity) :
    optionOfJson identityOfJson (Json.ofOption PersistedIdentity.toJson identity) = some identity :=
  optionOfJson_ofOption identityOfJson_toJson (fun _ => nofun) identity

@[simp] theorem optional_string (value : Option String) :
    optionOfJson stringOfJson (Json.ofOption .string value) = some value :=
  have back : ∀ text, stringOfJson (.string text) = some text := fun _ => rfl
  have present : ∀ text, Json.string text ≠ .null := fun _ => nofun
  optionOfJson_ofOption back present value

@[simp] theorem optional_u64 (value : Option UInt64) : optionOfJson u64OfJson (Json.ofOption u64Json value) = some value :=
  optionOfJson_ofOption u64OfJson_u64Json (fun _ => nofun) value

@[simp] theorem optional_u32 (value : Option UInt32) : optionOfJson u32OfJson (Json.ofOption u32Json value) = some value :=
  optionOfJson_ofOption u32OfJson_u32Json (fun _ => nofun) value

theorem inputOfJson_toJson (input : ManifestInput) : inputOfJson input.toJson = some input := by
  simp [ManifestInput.toJson, inputOfJson, stringOfJson, boolOfJson]

theorem segmentOfJson_toJson (segment : ManifestSegment) : segmentOfJson segment.toJson = some segment := by
  simp [ManifestSegment.toJson, segmentOfJson]

theorem policyOfJson_toJson (policy : MetadataPolicy) : policyOfJson policy.toJson = some policy := by
  cases policy <;> rfl

theorem targetOfJson_toJson (target : ManifestTarget) : targetOfJson target.toJson = some target := by
  simp [ManifestTarget.toJson, targetOfJson, stringOfJson, boolOfJson, policyOfJson_toJson,
    listOfJson_map segmentOfJson_toJson]

theorem manifestOfJson_toJson (manifest : Manifest) : manifestOfJson manifest.toJson = some manifest := by
  have strings : ∀ values : List String, listOfJson stringOfJson (.array (values.map Json.string)) = some values :=
    listOfJson_map fun _ => rfl
  simp [Manifest.toJson, manifestOfJson, stringOfJson, strings, listOfJson_map inputOfJson_toJson,
    listOfJson_map targetOfJson_toJson]

theorem targetStateOfJson_toJson (state : TargetState) : targetStateOfJson state.toJson = some state := by
  have candidate : candidateOfJson state.candidate.toJson = some state.candidate := by
    rcases state.candidate with ⟨kind, identity⟩
    cases kind <;> simp [CandidateState.toJson, CandidateKind.toJson, candidateOfJson, candidateKindOfJson]
  have commit : commitOfJson state.commit.toJson = some state.commit := by
    rcases state.commit with ⟨kind, identity, mode⟩
    cases kind <;> simp [CommitState.toJson, CommitKind.toJson, commitOfJson, commitKindOfJson]
  have rollback : rollbackOfJson state.rollback.toJson = some state.rollback := by
    rcases state.rollback with ⟨kind, identity⟩
    cases kind <;> simp [RollbackState.toJson, RollbackKind.toJson, rollbackOfJson, rollbackKindOfJson]
  simp [TargetState.toJson, targetStateOfJson, candidate, commit, rollback]

theorem stateOfJson_toJson (state : StateSnapshot) : stateOfJson state.toJson = some state := by
  have global : globalStateOfJson state.globalState.toJson = some state.globalState := by
    cases state.globalState <;> rfl
  simp [StateSnapshot.toJson, stateOfJson, stringOfJson, global, listOfJson_map targetStateOfJson_toJson]

end RoundTrip

/-- The payload at the front of a text, and the bytes that follow it. -/
def readPayload {α : Type} (decode : Json → Option α) (bytes : Bytes) : Option (α × Bytes) := do
  let (json, rest) ← (textOf bytes).bind Json.read
  let payload ← decode json
  return (payload, rest.flatMap String.utf8EncodeChar)

theorem readPayload_toVec {α : Type} {decode : Json → Option α} {json : Json} {payload : α}
    (decodes : decode json = some payload) : readPayload decode (toVec json) = some (payload, []) := by
  rw [readPayload, textOf_toVec, Option.bind_some, Json.read_render]
  simp [decodes]

/-- The digest and the readers of this development. -/
def Crates.reference : Crates where
  sha256 := sha256Digest
  readManifest := readPayload manifestOfJson
  readState := readPayload stateOfJson
  readManifest_toVec manifest := readPayload_toVec (manifestOfJson_toJson manifest)
  readState_toVec state := readPayload_toVec (stateOfJson_toJson state)

end Srcmv.Fs
