import Srcmv.Proofs.Fs.Envelope

/-! # How large a record gets

Whatever the identities and modes in it, the record of a state with at most a hundred targets stays
far below the limit of a single record, and so does that of a manifest with a few short paths and
segments. The digests in them are spelled the way the validator expects.
-/

namespace Srcmv.Fs

open Srcmv.Core Json

section Digests

theorem hexDigit_isLowerHex : ∀ nibble < 16, isLowerHex (hexDigit nibble) = true := by
  decide

theorem toList_toPrefixedHex (digest : Sha256Digest) : digest.toPrefixedHex.toList = digestPrefix ++
    digest.bytes.flatMap fun byte => [hexDigit (byte.toNat / 16), hexDigit (byte.toNat % 16)] := by
  unfold Sha256Digest.toPrefixedHex digestPrefix
  exact String.toList_ofList

theorem length_hex (bytes : Bytes) :
    (bytes.flatMap fun byte => [hexDigit (byte.toNat / 16), hexDigit (byte.toNat % 16)]).length = 2 * bytes.length := by
  simp [List.length_flatMap]
  omega

theorem length_toPrefixedHex (digest : Sha256Digest) : digest.toPrefixedHex.toList.length = 71 := by
  rw [toList_toPrefixedHex, List.length_append, length_hex, digest.size]
  rfl

/-- Every digest is spelled as the validator expects. -/
theorem validateDigest_toPrefixedHex (digest : Sha256Digest) (id : Option String) :
    validateDigest digest.toPrefixedHex id = .ok () := by
  unfold validateDigest
  rw [toList_toPrefixedHex, if_pos]
  refine ⟨List.isPrefixOf_iff_prefix.mpr (List.prefix_append _ _), ?_, ?_⟩
  · rw [List.drop_left, length_hex, digest.size]
  · rw [List.drop_left, List.all_eq_true]
    intro char member
    obtain ⟨byte, _, written⟩ := List.mem_flatMap.mp member
    have bound := byte.toNat_lt
    rcases List.mem_cons.mp written with rfl | written
    · exact hexDigit_isLowerHex _ (by omega)
    · rw [List.mem_singleton.mp written]
      exact hexDigit_isLowerHex _ (by omega)

end Digests

section Lengths

private theorem length_u64 (value : UInt64) : (u64Json value).render.length ≤ 20 :=
  length_render_number_le (by decide) (value.toNat_lt.trans (by decide))

private theorem length_u32 (value : UInt32) : (u32Json value).render.length ≤ 20 :=
  length_render_number_le (by decide) (value.toNat_lt.trans (by decide))

private theorem length_identity (identity : PersistedIdentity) : identity.toJson.render.length ≤ 70 := by
  have device := length_u64 identity.device
  have inode := length_u64 identity.inode
  have total := length_render_object_le [("device", u64Json identity.device), ("inode", u64Json identity.inode)]
  have names : (renderString "device").length = 8 ∧ (renderString "inode").length = 7 := by decide
  simp only [List.map_cons, List.map_nil, List.sum_cons, List.sum_nil, names.1, names.2] at total
  rw [PersistedIdentity.toJson]
  omega

private theorem length_candidate (state : CandidateState) : state.toJson.render.length ≤ 110 := by
  have identity := length_render_ofOption_le state.identity (by decide) fun found _ => length_identity found
  have kind : state.kind.toJson.render.length ≤ 9 := by cases state.kind <;> decide
  have total := length_render_object_le
    [("kind", state.kind.toJson), ("identity", ofOption PersistedIdentity.toJson state.identity)]
  have names : (renderString "kind").length = 6 ∧ (renderString "identity").length = 10 := by decide
  simp only [List.map_cons, List.map_nil, List.sum_cons, List.sum_nil, names.1, names.2] at total
  rw [CandidateState.toJson]
  omega

private theorem length_commit (state : CommitState) : state.toJson.render.length ≤ 160 := by
  have identity := length_render_ofOption_le state.identity (by decide) fun found _ => length_identity found
  have mode := length_render_ofOption_le state.preservedMode (by decide) fun found _ => length_u32 found
  have kind : state.kind.toJson.render.length ≤ 11 := by cases state.kind <;> decide
  have total := length_render_object_le [("kind", state.kind.toJson),
    ("identity", ofOption PersistedIdentity.toJson state.identity), ("preserved_mode", ofOption u32Json state.preservedMode)]
  have names : (renderString "kind").length = 6 ∧ (renderString "identity").length = 10 ∧
    (renderString "preserved_mode").length = 16 := by decide
  simp only [List.map_cons, List.map_nil, List.sum_cons, List.sum_nil, names.1, names.2.1, names.2.2] at total
  rw [CommitState.toJson]
  omega

private theorem length_rollback (state : RollbackState) : state.toJson.render.length ≤ 120 := by
  have identity := length_render_ofOption_le state.identity (by decide) fun found _ => length_identity found
  have kind : state.kind.toJson.render.length ≤ 19 := by cases state.kind <;> decide
  have total := length_render_object_le
    [("kind", state.kind.toJson), ("identity", ofOption PersistedIdentity.toJson state.identity)]
  have names : (renderString "kind").length = 6 ∧ (renderString "identity").length = 10 := by decide
  simp only [List.map_cons, List.map_nil, List.sum_cons, List.sum_nil, names.1, names.2] at total
  rw [RollbackState.toJson]
  omega

private theorem length_target (state : TargetState) : state.toJson.render.length ≤ 500 := by
  have index := length_u64 state.targetIndex
  have candidate := length_candidate state.candidate
  have commit := length_commit state.commit
  have rollback := length_rollback state.rollback
  have total := length_render_object_le [("target_index", u64Json state.targetIndex),
    ("candidate", state.candidate.toJson), ("commit", state.commit.toJson), ("rollback", state.rollback.toJson)]
  have names : (renderString "target_index").length = 14 ∧ (renderString "candidate").length = 11 ∧
    (renderString "commit").length = 8 ∧ (renderString "rollback").length = 10 := by decide
  simp only [List.map_cons, List.map_nil, List.sum_cons, List.sum_nil, names.1, names.2.1, names.2.2.1, names.2.2.2] at total
  rw [TargetState.toJson]
  omega

/-- No state record of a transaction exceeds this many bytes. -/
def maxStateRecordLength : ℕ := 220000

private theorem length_toVec_le (json : Json) : (toVec json).length ≤ 4 * json.render.length := by
  unfold toVec
  induction json.render with
  | nil => rfl
  | cons char rest ih =>
    have one := char.utf8Size_le_four
    rw [List.flatMap_cons, List.length_append, String.length_utf8EncodeChar, List.length_cons]
    omega

theorem length_stateRecord_le (crates : Crates) {state : StateSnapshot} (targets : state.targets.length ≤ maxTransactionTargets)
    (checksum : state.manifestChecksum.toList.length = 71)
    (prior : ∀ text, state.priorStateChecksum = some text → text.toList.length = 71) :
    (stateRecord crates state).length ≤ maxStateRecordLength := by
  have version := length_u64 state.transactionVersion
  have sequence := length_u64 state.sequence
  have manifest : (render (.string state.manifestChecksum)).length ≤ 428 := by
    have bound := length_renderString_le state.manifestChecksum
    rw [render]
    omega
  have previous : (render (ofOption .string state.priorStateChecksum)).length ≤ 428 := by
    refine length_render_ofOption_le _ (by decide) fun text found => ?_
    have bound := length_renderString_le text
    have length := prior text found
    rw [render]
    omega
  have global : state.globalState.toJson.render.length ≤ 14 := by cases state.globalState <;> decide
  have list : (render (.array (state.targets.map TargetState.toJson))).length ≤ maxTransactionTargets * 501 + 2 := by
    refine (length_render_array_le fun item member => ?_).trans (Nat.add_le_add_right (Nat.mul_le_mul_right 501 ?_) 2)
    · obtain ⟨target, _, rfl⟩ := List.mem_map.mp member
      exact length_target target
    · rw [List.length_map]
      exact targets
  have total := length_render_object_le [("transaction_version", u64Json state.transactionVersion),
    ("sequence", u64Json state.sequence), ("manifest_checksum", .string state.manifestChecksum),
    ("prior_state_checksum", ofOption .string state.priorStateChecksum), ("global_state", state.globalState.toJson),
    ("targets", .array (state.targets.map TargetState.toJson))]
  have names : (renderString "transaction_version").length = 21 ∧ (renderString "sequence").length = 10 ∧
    (renderString "manifest_checksum").length = 19 ∧ (renderString "prior_state_checksum").length = 22 ∧
    (renderString "global_state").length = 14 ∧ (renderString "targets").length = 9 := by decide
  simp only [List.map_cons, List.map_nil, List.sum_cons, List.sum_nil, names.1, names.2.1, names.2.2.1, names.2.2.2.1,
    names.2.2.2.2.1, names.2.2.2.2.2] at total
  have encoded := length_toVec_le state.toJson
  have magic : stateMagic.length = 12 := by decide
  rw [stateRecord, length_recordBytes, magic]
  unfold StateSnapshot.toJson at encoded ⊢
  unfold maxTransactionTargets at list
  unfold maxStateRecordLength
  omega

/-- A text of at most a hundred characters. -/
def IsShort (value : String) : Prop := value.toList.length ≤ 100

private theorem length_short {value : String} (short : IsShort value) : (render (.string value)).length ≤ 602 := by
  have bound := length_renderString_le value
  rw [IsShort] at short
  rw [render]
  omega

private theorem length_shortOption {value : Option String} (short : ∀ found ∈ value, IsShort found) :
    (render (ofOption .string value)).length ≤ 602 :=
  length_render_ofOption_le value (by decide) fun found same => length_short (short found same)

/-- Texts of a manifest are short and its lists have at most ten entries. -/
structure Manifest.Small (manifest : Manifest) : Prop where
  transactionId : IsShort manifest.transactionId
  planSha256 : IsShort manifest.planSha256
  inputs : manifest.inputs.length ≤ 10
  input : ∀ input ∈ manifest.inputs, IsShort input.path ∧ ∀ digest ∈ input.sha256, IsShort digest
  targets : manifest.targets.length ≤ 10
  target : ∀ target ∈ manifest.targets, IsShort target.path ∧ (∀ digest ∈ target.originalSha256, IsShort digest) ∧
    IsShort target.candidateName ∧ IsShort target.backupName ∧ IsShort target.candidateSha256 ∧ target.segments.length ≤ 10
  limitations : manifest.metadataLimitations.length ≤ 10
  limitation : ∀ limitation ∈ manifest.metadataLimitations, IsShort limitation

private theorem length_input {input : ManifestInput} (path : IsShort input.path) (digest : ∀ found ∈ input.sha256, IsShort found) :
    input.toJson.render.length ≤ 1500 := by
  have path := length_short path
  have digest := length_shortOption digest
  have parent := length_identity input.parentIdentity
  have existed : (render (.bool input.existed)).length ≤ 5 := by cases input.existed <;> decide
  have identity := length_render_ofOption_le input.fileIdentity (by decide) fun found _ => length_identity found
  have length := length_render_ofOption_le input.length (by decide) fun found _ => length_u64 found
  have links := length_render_ofOption_le input.linkCount (by decide) fun found _ => length_u64 found
  have total := length_render_object_le [("path", .string input.path), ("parent_identity", input.parentIdentity.toJson),
    ("existed", .bool input.existed), ("file_identity", ofOption PersistedIdentity.toJson input.fileIdentity),
    ("sha256", ofOption .string input.sha256), ("length", ofOption u64Json input.length),
    ("link_count", ofOption u64Json input.linkCount)]
  have names : (renderString "path").length = 6 ∧ (renderString "parent_identity").length = 17 ∧
    (renderString "existed").length = 9 ∧ (renderString "file_identity").length = 15 ∧ (renderString "sha256").length = 8 ∧
    (renderString "length").length = 8 ∧ (renderString "link_count").length = 12 := by decide
  simp only [List.map_cons, List.map_nil, List.sum_cons, List.sum_nil, names.1, names.2.1, names.2.2.1, names.2.2.2.1,
    names.2.2.2.2.1, names.2.2.2.2.2.1, names.2.2.2.2.2.2] at total
  rw [ManifestInput.toJson]
  omega

private theorem length_segment (segment : ManifestSegment) : segment.toJson.render.length ≤ 140 := by
  have index := length_u64 segment.inputIndex
  have start := length_u64 segment.start
  have stop := length_u64 segment.stop
  have operation := length_render_ofOption_le segment.operationIndex (by decide) fun found _ => length_u64 found
  have total := length_render_object_le [("input_index", u64Json segment.inputIndex), ("start", u64Json segment.start),
    ("end", u64Json segment.stop), ("operation_index", ofOption u64Json segment.operationIndex)]
  have names : (renderString "input_index").length = 13 ∧ (renderString "start").length = 7 ∧
    (renderString "end").length = 5 ∧ (renderString "operation_index").length = 17 := by decide
  simp only [List.map_cons, List.map_nil, List.sum_cons, List.sum_nil, names.1, names.2.1, names.2.2.1, names.2.2.2] at total
  rw [ManifestSegment.toJson]
  omega

/-- The rendering of at most ten items. -/
private theorem length_few {items : List Json} {bound : ℕ} (few : items.length ≤ 10)
    (each : ∀ item ∈ items, (render item).length ≤ bound) : (render (.array items)).length ≤ 10 * (bound + 1) + 2 :=
  (length_render_array_le each).trans (Nat.add_le_add_right (Nat.mul_le_mul_right _ few) 2)

private theorem length_manifestTarget {target : ManifestTarget} (path : IsShort target.path)
    (original : ∀ digest ∈ target.originalSha256, IsShort digest) (candidateName : IsShort target.candidateName)
    (backupName : IsShort target.backupName) (candidate : IsShort target.candidateSha256) (few : target.segments.length ≤ 10) :
    target.toJson.render.length ≤ 5200 := by
  have index := length_u64 target.targetIndex
  have path := length_short path
  have parent := length_identity target.parentIdentity
  have existed : (render (.bool target.originalExisted)).length ≤ 5 := by cases target.originalExisted <;> decide
  have identity := length_render_ofOption_le target.originalIdentity (by decide) fun found _ => length_identity found
  have original := length_shortOption original
  have length := length_render_ofOption_le target.originalLength (by decide) fun found _ => length_u64 found
  have candidateName := length_short candidateName
  have backupName := length_short backupName
  have candidate := length_short candidate
  have resulting := length_u64 target.candidateLength
  have policy : target.metadataPolicy.toJson.render.length ≤ 24 := by cases target.metadataPolicy <;> decide
  have mode := length_render_ofOption_le target.newFileMode (by decide) fun found _ => length_u32 found
  have segments : (render (.array (target.segments.map ManifestSegment.toJson))).length ≤ 10 * (140 + 1) + 2 := by
    refine length_few (by rwa [List.length_map]) fun item member => ?_
    obtain ⟨segment, -, rfl⟩ := List.mem_map.mp member
    exact length_segment segment
  have total := length_render_object_le [("target_index", u64Json target.targetIndex), ("path", .string target.path),
    ("parent_identity", target.parentIdentity.toJson), ("original_existed", .bool target.originalExisted),
    ("original_identity", ofOption PersistedIdentity.toJson target.originalIdentity),
    ("original_sha256", ofOption .string target.originalSha256), ("original_length", ofOption u64Json target.originalLength),
    ("candidate_name", .string target.candidateName), ("backup_name", .string target.backupName),
    ("candidate_sha256", .string target.candidateSha256), ("candidate_length", u64Json target.candidateLength),
    ("metadata_policy", target.metadataPolicy.toJson), ("new_file_mode", ofOption u32Json target.newFileMode),
    ("segments", .array (target.segments.map ManifestSegment.toJson))]
  have names : ∀ name ∈ ["target_index", "path", "parent_identity", "original_existed", "original_identity", "original_sha256",
      "original_length", "candidate_name", "backup_name", "candidate_sha256", "candidate_length", "metadata_policy",
      "new_file_mode", "segments"], (renderString name).length ≤ 20 := by decide
  simp only [List.forall_mem_cons, List.not_mem_nil, false_implies, implies_true, and_true] at names
  simp only [List.map_cons, List.map_nil, List.sum_cons, List.sum_nil] at total
  rw [ManifestTarget.toJson]
  omega

theorem length_manifestRecord_le (crates : Crates) {manifest : Manifest} (small : manifest.Small) :
    (manifestRecord crates manifest).length ≤ 320000 := by
  have version := length_u64 manifest.transactionVersion
  have id := length_short small.transactionId
  have identity := length_identity manifest.workspaceIdentity
  have digest := length_short small.planSha256
  have inputs : (render (.array (manifest.inputs.map ManifestInput.toJson))).length ≤ 10 * (1500 + 1) + 2 := by
    refine length_few (by rw [List.length_map]; exact small.inputs) fun item member => ?_
    obtain ⟨input, listed, rfl⟩ := List.mem_map.mp member
    obtain ⟨path, found⟩ := small.input input listed
    exact length_input path found
  have targets : (render (.array (manifest.targets.map ManifestTarget.toJson))).length ≤ 10 * (5200 + 1) + 2 := by
    refine length_few (by rw [List.length_map]; exact small.targets) fun item member => ?_
    obtain ⟨target, listed, rfl⟩ := List.mem_map.mp member
    obtain ⟨path, original, candidateName, backupName, candidate, few⟩ := small.target target listed
    exact length_manifestTarget path original candidateName backupName candidate few
  have limitations : (render (.array (manifest.metadataLimitations.map Json.string))).length ≤ 10 * (602 + 1) + 2 := by
    refine length_few (by rw [List.length_map]; exact small.limitations) fun item member => ?_
    obtain ⟨limitation, listed, rfl⟩ := List.mem_map.mp member
    exact length_short (small.limitation limitation listed)
  have total := length_render_object_le [("transaction_version", u64Json manifest.transactionVersion),
    ("transaction_id", .string manifest.transactionId), ("workspace_identity", manifest.workspaceIdentity.toJson),
    ("plan_sha256", .string manifest.planSha256), ("inputs", .array (manifest.inputs.map ManifestInput.toJson)),
    ("targets", .array (manifest.targets.map ManifestTarget.toJson)),
    ("metadata_limitations", .array (manifest.metadataLimitations.map Json.string))]
  have names : ∀ name ∈ ["transaction_version", "transaction_id", "workspace_identity", "plan_sha256", "inputs", "targets",
      "metadata_limitations"], (renderString name).length ≤ 22 := by decide
  simp only [List.forall_mem_cons, List.not_mem_nil, false_implies, implies_true, and_true] at names
  simp only [List.map_cons, List.map_nil, List.sum_cons, List.sum_nil] at total
  have encoded := length_toVec_le manifest.toJson
  have magic : manifestMagic.length = 15 := by decide
  rw [manifestRecord, length_recordBytes, magic]
  unfold Manifest.toJson at encoded ⊢
  omega

end Lengths

end Srcmv.Fs
