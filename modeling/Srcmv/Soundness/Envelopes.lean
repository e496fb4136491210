import Srcmv.Model.Fs.Decoding
import Srcmv.Proofs.Fs.Envelope
import Srcmv.Soundness.ManifestBuilding

/-! # Records decode to what was encoded

Under any limits an encoded manifest or state decodes to itself, and a prefix, an extension or a
record of the other kind does not decode at all. Decoding never panics, whatever the bytes are.
-/

namespace Srcmv.Fs

open Srcmv.Core

variable (crates : Crates)

section Faithful

/-- The records of an encoder decode to their values, and nothing shorter or longer decodes. -/
structure DecodesOnlyEncoded {α : Type} (encode : α → TransactionLimits → Except FsError Bytes)
    (decode : Bytes → Option String → TransactionLimits → Except FsError (DecodedRecord α)) : Prop where
  returns : ∀ value limits encoded id, encode value limits = .ok encoded →
    ∃ decoded, decode encoded id limits = .ok decoded ∧ decoded.payload = value
  shorter : ∀ value limits encoded id other count, encode value limits = .ok encoded → count < encoded.length →
    ∃ failure, decode (encoded.take count) id other = .error failure
  longer : ∀ value limits encoded id other extra, encode value limits = .ok encoded → extra ≠ [] →
    ∃ failure, decode (encoded ++ extra) id other = .error failure

variable {crates} {limits : TransactionLimits} {encoded : Bytes}

private theorem encodeManifest_ok {manifest : Manifest} (encodes : encodeManifestRecord crates manifest limits = .ok encoded) :
    validateManifest manifest limits = .ok () ∧
      encodeRecord crates manifestMagic (toVec manifest.toJson) limits = .ok encoded := by
  unfold encodeManifestRecord at encodes
  obtain ⟨⟨⟩, valid, encodes⟩ := Except.bind_eq_ok.mp encodes
  obtain ⟨record, encoded, encodes⟩ := Except.bind_eq_ok.mp encodes
  obtain ⟨projected, _, encodes⟩ := Except.bind_eq_ok.mp encodes
  obtain ⟨_, _, encodes⟩ := Except.bind_eq_ok.mp encodes
  obtain ⟨_, _, encodes⟩ := Except.bind_eq_ok.mp encodes
  rw [Except.pure_eq_ok] at encodes
  exact ⟨valid, encodes ▸ encoded⟩

private theorem encodeState_ok {state : StateSnapshot} (encodes : encodeStateRecord crates state limits = .ok encoded) :
    validateStateShape state limits = .ok () ∧ encodeRecord crates stateMagic (toVec state.toJson) limits = .ok encoded := by
  obtain ⟨⟨⟩, shape, encodes⟩ := Except.bind_eq_ok.mp encodes
  exact ⟨shape, encodes⟩

theorem manifests_decode_only_encoded : DecodesOnlyEncoded (encodeManifestRecord crates) (decodeManifestRecord crates) where
  returns manifest limits encoded id encodes := by
    obtain ⟨valid, encodes⟩ := encodeManifest_ok encodes
    obtain ⟨fits, within, rfl⟩ := (encodeRecord_eq_ok crates).mp encodes
    refine ⟨⟨manifest, manifestDigest crates manifest⟩, ?_, rfl⟩
    unfold decodeManifestRecord
    rw [decodeRecord_recordBytes crates fits within (crates.readManifest_toVec manifest), Except.ok_bind, valid, Except.ok_bind]
    rfl
  shorter manifest limits encoded id other count encodes proper := by
    obtain ⟨fits, _, rfl⟩ := (encodeRecord_eq_ok crates).mp (encodeManifest_ok encodes).2
    obtain ⟨reason, rejected⟩ : ∃ reason, decodeRecord crates crates.readManifest _ manifestMagic id other =
        .error (corrupt id reason) := decodeRecord_take crates (by omega) proper
    exact ⟨_, by rw [decodeManifestRecord, rejected, Except.error_bind]⟩
  longer manifest limits encoded id other extra encodes proper := by
    obtain ⟨fits, _, rfl⟩ := (encodeRecord_eq_ok crates).mp (encodeManifest_ok encodes).2
    obtain ⟨reason, rejected⟩ : ∃ reason, decodeRecord crates crates.readManifest _ manifestMagic id other =
        .error (corrupt id reason) :=
      decodeRecord_append crates (show (toVec manifest.toJson).length ≤ u64Max by omega) proper
    exact ⟨_, by rw [decodeManifestRecord, rejected, Except.error_bind]⟩

theorem states_decode_only_encoded : DecodesOnlyEncoded (encodeStateRecord crates) (decodeStateRecord crates) where
  returns state limits encoded id encodes := by
    obtain ⟨shape, encodes⟩ := encodeState_ok encodes
    obtain ⟨fits, within, rfl⟩ := (encodeRecord_eq_ok crates).mp encodes
    refine ⟨⟨state, stateDigest crates state⟩, ?_, rfl⟩
    unfold decodeStateRecord
    rw [decodeRecord_recordBytes crates fits within (crates.readState_toVec state), Except.ok_bind, shape, Except.ok_bind]
    rfl
  shorter state limits encoded id other count encodes proper := by
    obtain ⟨fits, _, rfl⟩ := (encodeRecord_eq_ok crates).mp (encodeState_ok encodes).2
    obtain ⟨reason, rejected⟩ : ∃ reason, decodeRecord crates crates.readState _ stateMagic id other =
        .error (corrupt id reason) := decodeRecord_take crates (by omega) proper
    exact ⟨_, by rw [decodeStateRecord, rejected, Except.error_bind]⟩
  longer state limits encoded id other extra encodes proper := by
    obtain ⟨fits, _, rfl⟩ := (encodeRecord_eq_ok crates).mp (encodeState_ok encodes).2
    obtain ⟨reason, rejected⟩ : ∃ reason, decodeRecord crates crates.readState _ stateMagic id other =
        .error (corrupt id reason) :=
      decodeRecord_append crates (show (toVec state.toJson).length ≤ u64Max by omega) proper
    exact ⟨_, by rw [decodeStateRecord, rejected, Except.error_bind]⟩

end Faithful

section Magic

/-- The two magics differ in the seventh byte. -/
private theorem not_isPrefixOf {left right rest : Bytes} {first second : UInt8} (atLeft : left[6]? = some first)
    (atRight : right[6]? = some second) (different : first ≠ second) : left.isPrefixOf (right ++ rest) = false := by
  rw [Bool.eq_false_iff, ne_eq, List.isPrefixOf_iff_prefix]
  rintro ⟨tail, same⟩
  have found := congrArg (·[6]?) same
  simp only [List.getElem?_append_left (List.getElem?_eq_some_iff.mp atLeft).1,
    List.getElem?_append_left (List.getElem?_eq_some_iff.mp atRight).1, atLeft, atRight, Option.some.injEq] at found
  exact different found

private theorem manifestMagic_sixth : manifestMagic[6]? = some 77 := by decide

private theorem stateMagic_sixth : stateMagic[6]? = some 83 := by decide

variable {crates} {limits : TransactionLimits} {encoded : Bytes}

private theorem encoded_magic {magic payload : Bytes} (encodes : encodeRecord crates magic payload limits = .ok encoded) :
    ∃ rest, encoded = magic ++ rest := by
  obtain ⟨_, _, rfl⟩ := (encodeRecord_eq_ok crates).mp encodes
  refine ⟨bigEndian 4 recordFormatVersion ++ bigEndian 8 (min payload.length u64Max) ++ payload ++
    (crates.sha256 (recordBody magic payload)).bytes, ?_⟩
  simp only [recordBytes, recordBody, List.append_assoc]

theorem manifest_not_state {manifest : Manifest} (encodes : encodeManifestRecord crates manifest limits = .ok encoded)
    (id : Option String) (other : TransactionLimits) : ∃ failure, decodeStateRecord crates encoded id other = .error failure := by
  obtain ⟨rest, rfl⟩ := encoded_magic (encodeManifest_ok encodes).2
  obtain ⟨reason, rejected⟩ : ∃ reason, decodeRecord crates crates.readState (manifestMagic ++ rest) stateMagic id other =
      .error (corrupt id reason) :=
    decodeRecord_otherMagic crates (not_isPrefixOf stateMagic_sixth manifestMagic_sixth (by decide))
  exact ⟨_, by rw [decodeStateRecord, rejected, Except.error_bind]⟩

theorem state_not_manifest {state : StateSnapshot} (encodes : encodeStateRecord crates state limits = .ok encoded)
    (id : Option String) (other : TransactionLimits) :
    ∃ failure, decodeManifestRecord crates encoded id other = .error failure := by
  obtain ⟨rest, rfl⟩ := encoded_magic (encodeState_ok encodes).2
  obtain ⟨reason, rejected⟩ : ∃ reason, decodeRecord crates crates.readManifest (stateMagic ++ rest) manifestMagic id other =
      .error (corrupt id reason) :=
    decodeRecord_otherMagic crates (not_isPrefixOf manifestMagic_sixth stateMagic_sixth (by decide))
  exact ⟨_, by rw [decodeManifestRecord, rejected, Except.error_bind]⟩

end Magic

section Total

namespace Panicking

variable {α β : Type}

/-- A check that returns early does so on both sides, and otherwise both go on. -/
theorem returns_rejectIf_bind {condition : Prop} [Decidable condition] {failure : FsError} {next : PUnit → Panicking β}
    {rest : PUnit → Except FsError β} (goesOn : ¬condition → next ⟨⟩ = returns (rest ⟨⟩)) :
    (returns (Except.rejectIf condition failure) >>= next) = returns (Except.rejectIf condition failure >>= rest) := by
  by_cases rejected : condition
  · rw [Except.rejectIf_of rejected]
    rfl
  · rw [Except.rejectIf_of_not rejected]
    exact goesOn rejected

/-- A check that always passes. -/
theorem returns_passed_bind {condition : Prop} [Decidable condition] {failure : FsError} {next : PUnit → Panicking β}
    (passed : ¬condition) : (returns (Except.rejectIf condition failure) >>= next) = next ⟨⟩ := by
  rw [Except.rejectIf_of_not passed]
  rfl

theorem slice_bind {bytes : Bytes} {start stop : ℕ} {next : Bytes → Panicking β} (ordered : start ≤ stop)
    (bounded : stop ≤ bytes.length) : (slice bytes start stop >>= next) = next ((bytes.drop start).take (stop - start)) := by
  rw [slice, if_pos ⟨ordered, bounded⟩]
  rfl

theorem add_bind {most left right : ℕ} {next : ℕ → Panicking β} (fits : left + right ≤ most) :
    (add most left right >>= next) = next (left + right) := by
  rw [add, if_pos fits]
  rfl

end Panicking

variable {α : Type} {read : Bytes → Option (α × Bytes)} {bytes magic : Bytes} {id : Option String} {limits : TransactionLimits}

/-- On a machine the decoder returns what it returns on unbounded numbers: it never panics. -/
theorem decodeRecordOnWords_eq {word : WordSize} (represented : bytes.length ≤ word.usizeMax)
    (small : magic.length + 44 ≤ word.usizeMax) :
    decodeRecordOnWords crates word read bytes magic id limits =
      Panicking.returns (decodeRecord crates read bytes magic id limits) := by
  have most := word.most
  unfold decodeRecordOnWords decodeRecord
  dsimp only
  rw [min_eq_left (show bytes.length ≤ u64Max by omega), min_eq_left (show magic.length + 12 ≤ u64Max by omega)]
  apply Panicking.returns_rejectIf_bind
  intro _
  rw [Panicking.returns_passed_bind (by omega), Panicking.add_bind (by omega)]
  apply Panicking.returns_rejectIf_bind
  intro whole
  rw [Panicking.add_bind (by omega), Panicking.slice_bind (by omega) (by omega), Nat.add_sub_cancel_left,
    Panicking.returns_passed_bind (by rw [List.length_take, List.length_drop]; omega)]
  apply Panicking.returns_rejectIf_bind
  intro _
  rw [Panicking.add_bind (by omega), Panicking.slice_bind (by omega) (by omega),
    show magic.length + 12 - (magic.length + 4) = 8 by omega,
    Panicking.returns_passed_bind (by rw [List.length_take, List.length_drop]; omega)]
  apply Panicking.returns_rejectIf_bind
  intro _
  apply Panicking.returns_rejectIf_bind
  intro exact
  rw [not_not] at exact
  rw [Panicking.returns_passed_bind (by omega), Panicking.add_bind (by omega), Panicking.slice_bind (Nat.zero_le _) (by omega),
    Panicking.slice_bind (by omega) le_rfl, List.drop_zero, Nat.sub_zero,
    List.take_of_length_le (by rw [List.length_drop])]
  apply Panicking.returns_rejectIf_bind
  intro _
  rw [Panicking.slice_bind (by omega) (by omega), Nat.add_sub_cancel_left]
  generalize read (List.take _ _) = payload
  cases payload with
  | none => rfl
  | some result =>
    apply Panicking.returns_rejectIf_bind
    intro _
    rfl

end Total

/-- Records decode to what was encoded and nothing else does; decoding returns or fails on every byte
string that a machine can hold. -/
theorem records_decode_only_encoded :
    DecodesOnlyEncoded (encodeManifestRecord crates) (decodeManifestRecord crates) ∧
    DecodesOnlyEncoded (encodeStateRecord crates) (decodeStateRecord crates) ∧
    (∀ manifest limits encoded id other, encodeManifestRecord crates manifest limits = .ok encoded →
      ∃ failure, decodeStateRecord crates encoded id other = .error failure) ∧
    (∀ state limits encoded id other, encodeStateRecord crates state limits = .ok encoded →
      ∃ failure, decodeManifestRecord crates encoded id other = .error failure) ∧
    ∀ (word : WordSize) (bytes : Bytes) (id : Option String) (limits : TransactionLimits), bytes.length ≤ word.usizeMax →
      decodeRecordOnWords crates word crates.readManifest bytes manifestMagic id limits =
          Panicking.returns (decodeRecord crates crates.readManifest bytes manifestMagic id limits) ∧
        decodeRecordOnWords crates word crates.readState bytes stateMagic id limits =
          Panicking.returns (decodeRecord crates crates.readState bytes stateMagic id limits) := by
  refine ⟨manifests_decode_only_encoded, states_decode_only_encoded, ?_, ?_, ?_⟩
  · exact fun _ _ _ id other encodes => manifest_not_state encodes id other
  · exact fun _ _ _ id other encodes => state_not_manifest encodes id other
  · intro word bytes id limits represented
    have least := word.least
    have manifest : manifestMagic.length = 15 := by decide
    have state : stateMagic.length = 12 := by decide
    exact ⟨decodeRecordOnWords_eq crates represented (by omega), decodeRecordOnWords_eq crates represented (by omega)⟩

theorem sample_decodes : ∃ decoded,
    decodeManifestRecord Sample.setting.crates (manifestRecord Sample.setting.crates Sample.manifest) none {} = .ok decoded ∧
      decoded.payload = Sample.manifest :=
  (records_decode_only_encoded Sample.setting.crates).1.returns _ {} _ none
    ((encodeManifestRecord_eq_ok Sample.setting.crates).mpr ⟨Sample.manifest_encodes, rfl⟩)

end Srcmv.Fs
