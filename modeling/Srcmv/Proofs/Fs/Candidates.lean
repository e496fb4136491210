import Srcmv.Model.Fs.Execution
import Srcmv.Model.Fs.Targets
import Srcmv.Proofs.Fs.Places

/-! # Writing a candidate

The segments of a target are streamed from the snapshot into a fresh private file, which then holds
exactly the planned bytes. Whatever stops the writing, a prefix of them is there. The observations of a
target's locations report what stands there.
-/

namespace Srcmv.Fs

open Srcmv.Core Machine Process

/-- The bytes the segments of a target name, in agreement with its recorded length and digest. -/
structure Planned (sha256 : Bytes → Sha256Digest) (snapshot : WorkspaceSnapshot) (target : ManifestTarget)
    (content : Bytes) : Prop where
  slices : ∃ pieces, List.Forall₂ (fun segment piece => candidateSlice snapshot segment = .ok piece)
    target.segments pieces ∧ pieces.flatten = content
  bounded : content.length ≤ u64Max
  length : target.candidateLength = UInt64.ofNat content.length
  digest : target.candidateSha256 = (sha256 content).toPrefixedHex

variable {denial : FsError → Prop} [CoversIo denial] {allowed : Site → Went → Prop} {setting : Setting} {manifest : Manifest} {world : World}
  {snapshot : WorkspaceSnapshot} {target : ManifestTarget}

theorem fingerprintOf_file {sha256 : Bytes → Sha256Digest} {node : Node} (bounded : node.bytes.length ≤ u64Max) :
    fingerprintOf sha256 (some (.file node)) =
      .ok (some ⟨node.identity, UInt64.ofNat node.bytes.length, sha256 node.bytes⟩) := by
  rw [fingerprintOf, if_neg (not_lt.mpr bounded)]

/-- Observing a location changes nothing. -/
theorem fingerprint_triple {location : Location} {reportPath : Option String} {actual : Option Fingerprint}
    (seen : fingerprintOf setting.crates.sha256 (world.item? location) = .ok actual) :
    Triple allowed (· = world) (fingerprint setting location reportPath)
      (Ends denial (Exactly actual world) (Held allowed world)) := by
  rw [fingerprint]
  exact ioRead_triple _ seen

/-- The segments written so far are followed by the rest. -/
private theorem writeSegments_triple {location : Location} {identity : FileIdentity} (reaches : world.Reaches location)
    {segments : List ManifestSegment} {pieces : List Bytes}
    (slices : List.Forall₂ (fun segment piece => candidateSlice snapshot segment = .ok piece) segments pieces) :
    ∀ written : Bytes, written.length + pieces.flatten.length ≤ u64Max →
    Triple allowed (· = world.place location (some (writtenItem identity written)))
      (segments.foldlM (writeSegment snapshot target location) written)
      (Ends denial (Exactly (written ++ pieces.flatten)
          (world.place location (some (writtenItem identity (written ++ pieces.flatten)))))
        fun later => Disturbed allowed ∧ ∃ count, later =
          world.place location (some (writtenItem identity (written ++ pieces.flatten.take count)))) := by
  induction slices with
  | nil =>
    intro written _
    apply Triple.returns
    rw [List.flatten_nil, List.append_nil]
    exact ⟨rfl, rfl⟩
  | @cons segment piece segments pieces sliced _ ih =>
    intro written bounded
    rw [List.flatten_cons, List.length_append] at bounded
    have summed : ¬written.length + piece.length > u64Max := by omega
    have first : Triple allowed (· = world.place location (some (writtenItem identity written)))
        (writeSegment snapshot target location written segment)
        (Ends denial (Exactly (written ++ piece) (world.place location (some (writtenItem identity (written ++ piece)))))
          fun later => Disturbed allowed ∧ ∃ count, later =
            world.place location (some (writtenItem identity (written ++ piece.take count)))) := by
      rw [writeSegment, sliced, Process.ofExcept_ok_bind]
      apply (writeAll_triple reaches piece written).exactlyThen
      · rintro later ⟨disturbed, prefixed⟩
        exact ⟨⟨_, disturbed⟩, prefixed⟩
      · rw [Except.rejectIf_of_not summed, Process.ofExcept_ok_bind]
        exact Triple.returns ⟨rfl, rfl⟩
    rw [List.foldlM_cons, List.flatten_cons]
    apply first.exactlyThen
    · rintro later ⟨disturbed, count, rfl⟩
      refine ⟨disturbed, min count piece.length, ?_⟩
      rw [List.take_append_of_le_length (Nat.min_le_right _ _), ← List.take_take, List.take_length]
    · apply (ih (written ++ piece) (by rw [List.length_append]; omega)).weaken
      · rintro _ later ⟨rfl, rfl⟩
        rw [List.append_assoc]
        exact ⟨rfl, rfl⟩
      · rintro later ⟨disturbed, count, rfl⟩
        refine ⟨disturbed, piece.length + count, ?_⟩
        rw [List.append_assoc, List.take_length_add_append]

/-- The candidate that is created holds the planned bytes; stopped early, at most a prefix of them. -/
theorem createCandidate_triple {content : Bytes} (planned : Planned setting.crates.sha256 snapshot target content)
    (reaches : world.Reaches (.artifact manifest.transactionId target.candidateName))
    (free : world.item? (.artifact manifest.transactionId target.candidateName) = none) :
    Triple allowed (· = world) (createCandidate setting manifest target snapshot)
      (Ends denial
        (Exactly (.ofIdentity (setting.newIdentity target.candidateName))
          (world.place (.artifact manifest.transactionId target.candidateName)
            (some (writtenItem (setting.newIdentity target.candidateName) content))))
        fun later => Disturbed allowed ∧ (later = world ∨ ∃ count, later =
          world.place (.artifact manifest.transactionId target.candidateName)
            (some (writtenItem (setting.newIdentity target.candidateName) (content.take count))))) := by
  obtain ⟨pieces, slices, rfl⟩ := planned.slices
  have matched : ¬(UInt64.ofNat pieces.flatten.length ≠ target.candidateLength ∨
      (setting.crates.sha256 pieces.flatten).toPrefixedHex ≠ target.candidateSha256) := by
    rw [planned.length, planned.digest]
    tauto
  rw [createCandidate]
  dsimp only
  generalize Location.artifact manifest.transactionId target.candidateName = location at reaches free ⊢
  generalize setting.newIdentity target.candidateName = identity
  have created : world.createNew location identity (.io "create_candidate" (some target.path)) =
      .ok ((), world.place location (some (writtenItem identity []))) := by
    rw [World.createNew, free]
    rfl
  have whole (disturbed : Disturbed allowed) : Disturbed allowed ∧
      (world.place location (some (writtenItem identity pieces.flatten)) = world ∨ ∃ count,
        world.place location (some (writtenItem identity pieces.flatten)) =
          world.place location (some (writtenItem identity (pieces.flatten.take count)))) :=
    ⟨disturbed, .inr ⟨pieces.flatten.length, by rw [List.take_length]⟩⟩
  apply Triple.actsThen created (isIo _ _)
  · intro disturbed
    exact ⟨⟨_, disturbed⟩, .inl rfl⟩
  apply (writeSegments_triple reaches slices [] (by rw [List.length_nil, Nat.zero_add]; exact planned.bounded)).exactlyThen
  · rintro later ⟨disturbed, count, rfl⟩
    exact ⟨disturbed, .inr ⟨count, rfl⟩⟩
  rw [List.nil_append]
  apply settle_triple.exactlyThen
  · rintro later ⟨disturbed, rfl⟩
    exact whole ⟨_, disturbed⟩
  apply settle_triple.exactlyThen
  · rintro later ⟨disturbed, rfl⟩
    exact whole ⟨_, disturbed⟩
  rw [Except.rejectIf_of_not matched, Process.ofExcept_ok_bind]
  -- The bytes are read back before the candidate counts as created.
  have readBack : fingerprintOf setting.crates.sha256
      ((world.place location (some (writtenItem identity pieces.flatten))).item? location) =
        .ok (some ⟨identity, UInt64.ofNat pieces.flatten.length, setting.crates.sha256 pieces.flatten⟩) := by
    rw [World.item?_place_self reaches]
    exact fingerprintOf_file planned.bounded
  apply (fingerprint_triple readBack).exactlyThen
  · rintro later ⟨disturbed, rfl⟩
    exact whole disturbed
  · have verified : verifiedFingerprint (some ⟨identity, UInt64.ofNat pieces.flatten.length,
        setting.crates.sha256 pieces.flatten⟩) pieces.flatten.length (setting.crates.sha256 pieces.flatten) =
          .ok ⟨identity, UInt64.ofNat pieces.flatten.length, setting.crates.sha256 pieces.flatten⟩ := by
      simp [verifiedFingerprint]
    rw [verified, Process.ofExcept_ok_bind]
    apply settle_triple.exactlyThen
    · rintro later ⟨disturbed, rfl⟩
      exact whole ⟨_, disturbed⟩
    · exact Triple.returns ⟨rfl, rfl⟩

end Srcmv.Fs
