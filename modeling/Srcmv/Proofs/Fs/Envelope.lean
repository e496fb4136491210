import Srcmv.Model.Fs.Journal

/-! # Record envelopes

An encoded record decodes to its payload and to the checksum it carries. Every proper prefix of an
encoded record is rejected as corrupt, whatever the digest function is, because the length field or
the header itself is incomplete.
-/

namespace Srcmv.Fs

open Srcmv.Core

variable (crates : Crates)

/-- A whole record: its body and the digest of the body. -/
def recordBytes (magic payload : Bytes) : Bytes :=
  recordBody magic payload ++ (crates.sha256 (recordBody magic payload)).bytes

theorem length_recordBody (magic payload : Bytes) :
    (recordBody magic payload).length = magic.length + 12 + payload.length := by
  simp only [recordBody, List.length_append, length_bigEndian]

@[simp] theorem length_recordBytes (magic payload : Bytes) :
    (recordBytes crates magic payload).length = magic.length + 44 + payload.length := by
  rw [recordBytes, List.length_append, length_recordBody, Sha256Digest.size]
  omega

theorem encodeRecord_eq_ok {magic payload encoded : Bytes} {limits : TransactionLimits} :
    encodeRecord crates magic payload limits = .ok encoded ↔
      magic.length + 44 + payload.length ≤ u64Max ∧ magic.length + 44 + payload.length ≤ limits.recordBytes ∧
        encoded = recordBytes crates magic payload := by
  unfold encodeRecord checkedRecordLength
  rw [show magic.length + headerTrailerBytes + payload.length = magic.length + 44 + payload.length from rfl]
  split
  · next fits =>
    simp only [Except.ok_bind, Except.bind_eq_ok, Except.rejectIf_eq_ok, Except.pure_eq_ok, not_lt,
      exists_const, fits, true_and]
    exact and_congr_right fun _ => eq_comm
  · next overflow =>
    rw [Except.error_bind]
    exact ⟨nofun, fun ⟨fits, _⟩ => absurd fits overflow⟩

private theorem length_field {value : ℕ} (fits : value ≤ u64Max) : ofBigEndian (bigEndian 8 value) = value :=
  ofBigEndian_bigEndian 8 value (by simp only [u64Max] at fits; omega)

private theorem version_field : ofBigEndian (bigEndian 4 recordFormatVersion) = recordFormatVersion :=
  ofBigEndian_bigEndian 4 recordFormatVersion (by decide)

private theorem recordBytes_eq (magic payload : Bytes) (fits : payload.length ≤ u64Max) :
    recordBytes crates magic payload = magic ++ (bigEndian 4 recordFormatVersion ++
      (bigEndian 8 payload.length ++ (payload ++ (crates.sha256 (recordBody magic payload)).bytes))) := by
  simp only [recordBytes, recordBody, List.append_assoc, min_eq_left fits]

private theorem take_drop_version {magic rest : Bytes} :
    ((magic ++ (bigEndian 4 recordFormatVersion ++ rest)).drop magic.length).take 4 =
      bigEndian 4 recordFormatVersion := by
  rw [List.drop_left, List.take_left' (length_bigEndian 4 _)]

private theorem take_drop_length {magic rest : Bytes} {value : ℕ} :
    ((magic ++ (bigEndian 4 recordFormatVersion ++ (bigEndian 8 value ++ rest))).drop (magic.length + 4)).take 8 =
      bigEndian 8 value := by
  rw [← List.drop_drop, List.drop_left, List.drop_left' (length_bigEndian 4 _),
    List.take_left' (length_bigEndian 8 _)]

variable {α : Type} {read : Bytes → Option (α × Bytes)}

theorem decodeRecord_recordBytes {magic payload : Bytes} {value : α} {id : Option String}
    {limits : TransactionLimits} (fits : magic.length + 44 + payload.length ≤ u64Max)
    (within : magic.length + 44 + payload.length ≤ limits.recordBytes) (readable : read payload = some (value, [])) :
    decodeRecord crates read (recordBytes crates magic payload) magic id limits =
      .ok ⟨value, crates.sha256 (recordBody magic payload)⟩ := by
  have short : payload.length ≤ u64Max := by omega
  have total := length_recordBytes crates magic payload
  have whole := recordBytes_eq crates magic payload short
  have declared : ofBigEndian (((recordBytes crates magic payload).drop (magic.length + 4)).take 8) =
      payload.length := by
    rw [whole, take_drop_length, length_field short]
  have body : (recordBytes crates magic payload).take (magic.length + 12 + payload.length) =
      recordBody magic payload := List.take_left' (length_recordBody magic payload)
  have trailer : (recordBytes crates magic payload).drop (magic.length + 12 + payload.length) =
      (crates.sha256 (recordBody magic payload)).bytes := List.drop_left' (length_recordBody magic payload)
  have content : ((recordBytes crates magic payload).drop (magic.length + 12)).take payload.length = payload := by
    rw [show magic.length + 12 = magic.length + (4 + 8) from rfl, ← List.drop_drop, ← List.drop_drop, whole,
      List.drop_left, List.drop_left' (length_bigEndian 4 _), List.drop_left' (length_bigEndian 8 _),
      List.take_left]
  have prefixed : magic.isPrefixOf (recordBytes crates magic payload) = true := by
    rw [whole]
    exact List.isPrefixOf_iff_prefix.mpr (List.prefix_append _ _)
  unfold decodeRecord
  simp only [declared, body, trailer, content, readable, total]
  rw [Except.rejectIf_of_not (by omega), Except.ok_bind, Except.rejectIf_of_not (by simp [prefixed]), Except.ok_bind,
    Except.rejectIf_of_not (by rw [whole, take_drop_version, version_field]; exact fun different => different rfl),
    Except.ok_bind, Except.rejectIf_of_not (by omega), Except.ok_bind, Except.rejectIf_of_not (by omega), Except.ok_bind,
    Except.rejectIf_of_not (fun different => different rfl), Except.ok_bind]
  rfl

/-- Behind the header of a record only its own length is accepted. -/
theorem decodeRecord_otherLength {magic payload bytes : Bytes} {id : Option String} {limits : TransactionLimits}
    (fits : payload.length ≤ u64Max)
    (header : ∃ rest, bytes = magic ++ (bigEndian 4 recordFormatVersion ++ (bigEndian 8 payload.length ++ rest)))
    (other : bytes.length ≠ (recordBytes crates magic payload).length) :
    ∃ reason, decodeRecord crates read bytes magic id limits = .error (corrupt id reason) := by
  obtain ⟨rest, header⟩ := header
  have declared : ofBigEndian ((bytes.drop (magic.length + 4)).take 8) = payload.length := by
    rw [header, take_drop_length, length_field fits]
  have version : ofBigEndian ((bytes.drop magic.length).take 4) = recordFormatVersion := by
    rw [header, take_drop_version, version_field]
  rw [length_recordBytes] at other
  unfold decodeRecord
  simp only [declared, version]
  by_cases oversized : bytes.length > limits.recordBytes
  · exact ⟨_, by rw [Except.rejectIf_of oversized, Except.error_bind]⟩
  rw [Except.rejectIf_of_not oversized, Except.ok_bind]
  by_cases truncated : bytes.length < magic.length + 12 + 32 ∨ magic.isPrefixOf bytes = false
  · exact ⟨_, by rw [Except.rejectIf_of truncated, Except.error_bind]⟩
  rw [Except.rejectIf_of_not truncated, Except.ok_bind, Except.rejectIf_of_not (fun different => different rfl),
    Except.ok_bind]
  by_cases overflow : magic.length + 12 + payload.length + 32 > u64Max
  · exact ⟨_, by rw [Except.rejectIf_of overflow, Except.error_bind]⟩
  rw [Except.rejectIf_of_not overflow, Except.ok_bind, Except.rejectIf_of (by omega), Except.error_bind]
  exact ⟨_, rfl⟩

/-- A proper prefix of a record is corrupt. -/
theorem decodeRecord_take {magic payload : Bytes} {id : Option String} {limits : TransactionLimits} {count : ℕ}
    (fits : payload.length ≤ u64Max) (proper : count < (recordBytes crates magic payload).length) :
    ∃ reason, decodeRecord crates read ((recordBytes crates magic payload).take count) magic id limits =
      .error (corrupt id reason) := by
  have shorter : ((recordBytes crates magic payload).take count).length = count := by
    rw [List.length_take]; omega
  by_cases complete : magic.length + 12 ≤ count
  · obtain ⟨left, rfl⟩ := Nat.exists_eq_add_of_le complete
    refine decodeRecord_otherLength crates fits
      ⟨(payload ++ (crates.sha256 (recordBody magic payload)).bytes).take left, ?_⟩ (by omega)
    have widths : (magic ++ bigEndian 4 recordFormatVersion ++ bigEndian 8 payload.length).length = magic.length + 12 := by
      simp only [List.length_append, length_bigEndian]
    rw [recordBytes_eq crates magic payload fits, ← List.append_assoc, ← List.append_assoc, ← widths, List.take_length_add_append]
    simp only [List.append_assoc]
  · unfold decodeRecord
    simp only [shorter]
    by_cases oversized : count > limits.recordBytes
    · exact ⟨_, by rw [Except.rejectIf_of oversized, Except.error_bind]⟩
    rw [Except.rejectIf_of_not oversized, Except.ok_bind, Except.rejectIf_of (.inl (by omega)), Except.error_bind]
    exact ⟨_, rfl⟩

/-- A record with anything after it is corrupt. -/
theorem decodeRecord_append {magic payload extra : Bytes} {id : Option String} {limits : TransactionLimits}
    (fits : payload.length ≤ u64Max) (proper : extra ≠ []) :
    ∃ reason, decodeRecord crates read (recordBytes crates magic payload ++ extra) magic id limits =
      .error (corrupt id reason) := by
  have longer : 0 < extra.length := List.length_pos_iff.mpr proper
  apply decodeRecord_otherLength crates fits
  · refine ⟨payload ++ (crates.sha256 (recordBody magic payload)).bytes ++ extra, ?_⟩
    rw [recordBytes_eq crates magic payload fits]
    simp only [List.append_assoc]
  · rw [List.length_append]
    omega

/-- Other magic at the front is corrupt. -/
theorem decodeRecord_otherMagic {magic bytes : Bytes} {id : Option String} {limits : TransactionLimits}
    (other : magic.isPrefixOf bytes = false) :
    ∃ reason, decodeRecord crates read bytes magic id limits = .error (corrupt id reason) := by
  unfold decodeRecord
  dsimp only
  by_cases oversized : bytes.length > limits.recordBytes
  · exact ⟨_, by rw [Except.rejectIf_of oversized, Except.error_bind]⟩
  rw [Except.rejectIf_of_not oversized, Except.ok_bind,
    Except.rejectIf_of (show bytes.length < magic.length + 12 + 32 ∨ _ from .inr other), Except.error_bind]
  exact ⟨_, rfl⟩

theorem recordChecksum_recordBytes (magic payload : Bytes) :
    recordChecksum (recordBytes crates magic payload) = .ok (crates.sha256 (recordBody magic payload)) := by
  have total := length_recordBytes crates magic payload
  have trailer : (recordBytes crates magic payload).drop ((recordBytes crates magic payload).length - 32) =
      (crates.sha256 (recordBody magic payload)).bytes := by
    rw [total, show magic.length + 44 + payload.length - 32 = magic.length + 12 + payload.length by omega]
    exact List.drop_left' (length_recordBody magic payload)
  unfold recordChecksum
  rw [dif_pos (by omega)]
  congr 2

/-- The published record of a state. -/
def stateRecord (state : StateSnapshot) : Bytes := recordBytes crates stateMagic (toVec state.toJson)

def stateDigest (state : StateSnapshot) : Sha256Digest :=
  crates.sha256 (recordBody stateMagic (toVec state.toJson))

def manifestRecord (manifest : Manifest) : Bytes := recordBytes crates manifestMagic (toVec manifest.toJson)

def manifestDigest (manifest : Manifest) : Sha256Digest :=
  crates.sha256 (recordBody manifestMagic (toVec manifest.toJson))

/-- The state is well shaped and its record is not too large. -/
structure StateSnapshot.Encodes (state : StateSnapshot) : Prop where
  shape : validateStateShape state {} = .ok ()
  size : (stateRecord crates state).length ≤ maxRecordBytes

theorem encodeStateRecord_eq_ok {state : StateSnapshot} {encoded : Bytes} :
    encodeStateRecord crates state {} = .ok encoded ↔ state.Encodes crates ∧ encoded = stateRecord crates state := by
  unfold encodeStateRecord
  simp only [Except.bind_eq_ok, encodeRecord_eq_ok]
  have length := length_recordBytes crates stateMagic (toVec state.toJson)
  have limit : maxRecordBytes ≤ u64Max := by norm_num [maxRecordBytes, u64Max]
  constructor
  · rintro ⟨⟨⟩, shape, _, within, rfl⟩
    exact ⟨⟨shape, length.trans_le within⟩, rfl⟩
  · rintro ⟨⟨shape, size⟩, rfl⟩
    rw [stateRecord, length] at size
    exact ⟨(), shape, size.trans limit, size, rfl⟩

theorem decodeStateRecord_stateRecord {state : StateSnapshot} {id : Option String} (encodes : state.Encodes crates) :
    decodeStateRecord crates (stateRecord crates state) id {} =
      .ok ⟨state, stateDigest crates state⟩ := by
  have limit : maxRecordBytes ≤ u64Max := by norm_num [maxRecordBytes, u64Max]
  have size := encodes.size
  rw [stateRecord, length_recordBytes] at size
  unfold decodeStateRecord stateRecord
  rw [decodeRecord_recordBytes crates (size.trans limit) size (crates.readState_toVec state), Except.ok_bind,
    encodes.shape, Except.ok_bind]
  rfl

theorem decodeStateRecord_take {state : StateSnapshot} (id : Option String) {count : ℕ}
    (encodes : state.Encodes crates) (proper : count < (stateRecord crates state).length) :
    ∃ reason, decodeStateRecord crates ((stateRecord crates state).take count) id {} = .error (corrupt id reason) := by
  have limit : maxRecordBytes ≤ u64Max := by norm_num [maxRecordBytes, u64Max]
  have size := encodes.size
  rw [stateRecord, length_recordBytes] at size
  obtain ⟨reason, rejected⟩ : ∃ reason, decodeRecord crates crates.readState
      ((stateRecord crates state).take count) stateMagic id {} = .error (corrupt id reason) :=
    decodeRecord_take crates (by omega) proper
  exact ⟨reason, by rw [decodeStateRecord, rejected, Except.error_bind]⟩

theorem recordChecksum_stateRecord (state : StateSnapshot) :
    recordChecksum (stateRecord crates state) = .ok (stateDigest crates state) :=
  recordChecksum_recordBytes crates _ _

/-- Candidates and originals of every target. -/
def Manifest.artifactBytes (manifest : Manifest) : ℕ :=
  (manifest.targets.map fun target => target.candidateLength.toNat + target.originalBytes).sum

private theorem foldlM_chargeArtifacts (targets : List ManifestTarget) (limits : TransactionLimits) :
    ∀ total projected, total ≤ u64Max →
      (targets.foldlM (chargeArtifacts limits) total = .ok projected ↔
        projected = total + (targets.map fun target => target.candidateLength.toNat + target.originalBytes).sum ∧
          projected ≤ u64Max) := by
  induction targets with
  | nil =>
    intro total projected bounded
    rw [List.foldlM_nil, Except.pure_eq_ok, List.map_nil, List.sum_nil]
    omega
  | cons target rest ih =>
    intro total projected bounded
    rw [List.foldlM_cons, List.map_cons, List.sum_cons, chargeArtifacts]
    split
    · next fits => rw [Except.ok_bind, ih _ _ fits, show ∀ sum, total + (target.candidateLength.toNat +
        target.originalBytes + sum) = total + target.candidateLength.toNat + target.originalBytes + sum by intro; omega]
    · next overflow =>
      rw [Except.error_bind]
      exact ⟨nofun, fun ⟨equal, bounded⟩ => by omega⟩

theorem projectedArtifactBytes_eq_ok {manifest : Manifest} {limits : TransactionLimits} {projected : ℕ} :
    projectedArtifactBytes manifest limits = .ok projected ↔
      projected = manifest.artifactBytes ∧ projected ≤ u64Max := by
  rw [projectedArtifactBytes, foldlM_chargeArtifacts _ _ _ _ (Nat.zero_le _), Nat.zero_add]
  rfl

/-- The manifest is valid and its record fits. -/
structure Manifest.Encodes (manifest : Manifest) : Prop where
  valid : validateManifest manifest {} = .ok ()
  size : (manifestRecord crates manifest).length ≤ maxRecordBytes
  disk : manifest.artifactBytes + (manifestRecord crates manifest).length ≤ maxTransactionDiskBytes

theorem encodeManifestRecord_eq_ok {manifest : Manifest} {encoded : Bytes} :
    encodeManifestRecord crates manifest {} = .ok encoded ↔
      manifest.Encodes crates ∧ encoded = manifestRecord crates manifest := by
  have length := length_recordBytes crates manifestMagic (toVec manifest.toJson)
  have limit : maxRecordBytes ≤ u64Max := by norm_num [maxRecordBytes, u64Max]
  have disk : maxTransactionDiskBytes ≤ u64Max := by norm_num [maxTransactionDiskBytes, u64Max]
  unfold encodeManifestRecord
  simp only [Except.bind_eq_ok, encodeRecord_eq_ok, projectedArtifactBytes_eq_ok, Except.rejectIf_eq_ok,
    Except.pure_eq_ok, not_lt]
  constructor
  · rintro ⟨⟨⟩, valid, _, ⟨_, within, rfl⟩, _, ⟨rfl, _⟩, ⟨⟩, _, ⟨⟩, total, rfl⟩
    exact ⟨⟨valid, length.trans_le within, total⟩, rfl⟩
  · rintro ⟨⟨valid, size, total⟩, rfl⟩
    rw [manifestRecord, length] at size
    exact ⟨(), valid, _, ⟨size.trans limit, size, rfl⟩, _, ⟨rfl, by omega⟩, (), total.trans disk, (), total, rfl⟩

theorem decodeManifestRecord_manifestRecord {manifest : Manifest} {id : Option String}
    (encodes : manifest.Encodes crates) :
    decodeManifestRecord crates (manifestRecord crates manifest) id {} =
      .ok ⟨manifest, manifestDigest crates manifest⟩ := by
  have limit : maxRecordBytes ≤ u64Max := by norm_num [maxRecordBytes, u64Max]
  have size := encodes.size
  rw [manifestRecord, length_recordBytes] at size
  unfold decodeManifestRecord manifestRecord
  rw [decodeRecord_recordBytes crates (size.trans limit) size (crates.readManifest_toVec manifest), Except.ok_bind,
    encodes.valid, Except.ok_bind]
  rfl

theorem decodeManifestRecord_take {manifest : Manifest} (id : Option String) {count : ℕ}
    (encodes : manifest.Encodes crates) (proper : count < (manifestRecord crates manifest).length) :
    ∃ reason, decodeManifestRecord crates ((manifestRecord crates manifest).take count) id {} =
      .error (corrupt id reason) := by
  have limit : maxRecordBytes ≤ u64Max := by norm_num [maxRecordBytes, u64Max]
  have size := encodes.size
  rw [manifestRecord, length_recordBytes] at size
  obtain ⟨reason, rejected⟩ : ∃ reason, decodeRecord crates crates.readManifest
      ((manifestRecord crates manifest).take count) manifestMagic id {} = .error (corrupt id reason) :=
    decodeRecord_take crates (by omega) proper
  exact ⟨reason, by rw [decodeManifestRecord, rejected, Except.error_bind]⟩

theorem recordChecksum_manifestRecord (manifest : Manifest) :
    recordChecksum (manifestRecord crates manifest) = .ok (manifestDigest crates manifest) :=
  recordChecksum_recordBytes crates _ _

end Srcmv.Fs
