import Srcmv.Model.Fs.Publication
import Srcmv.Proofs.Fs.Inspection

/-! # Accepting a state record

A journal reflects a directory when it carries the last state, its checksum and the bytes charged so
far. The checks before publication accept a state exactly when it extends the sound chain and the
projected disk use stays within its limit, and the journal then reflects the longer chain.
-/

namespace Srcmv.Fs

open Srcmv.Core

variable {crates : Crates} {manifest : Manifest} {chain : List StateSnapshot}

/-- The in-memory journal agrees with the records on disk. -/
structure Reflects (crates : Crates) (manifest : Manifest) (chain : List StateSnapshot)
    (journal : TransactionJournal) : Prop where
  directory : journal.directory = manifest.transactionId
  checksum : journal.manifestChecksum = manifestChecksum crates manifest
  originals : journal.originalExistence = manifest.originalExistence
  limits : journal.limits = {}
  disk : journal.projectedDiskBytes =
    manifest.artifactBytes + (manifestRecord crates manifest).length + chainBytes crates chain
  bytes : journal.stateRecordBytes = chainBytes crates chain
  last : journal.lastState = chain.getLast?
  lastChecksum : journal.lastChecksum = chain.getLast?.map fun state => checksumText (stateDigest crates state)

/-- The journal of a chain. -/
def journalOf (crates : Crates) (manifest : Manifest) (chain : List StateSnapshot) : TransactionJournal where
  directory := manifest.transactionId
  manifestChecksum := manifestChecksum crates manifest
  originalExistence := manifest.originalExistence
  limits := {}
  projectedDiskBytes := manifest.artifactBytes + (manifestRecord crates manifest).length + chainBytes crates chain
  stateRecordBytes := chainBytes crates chain
  lastState := chain.getLast?
  lastChecksum := chain.getLast?.map fun state => checksumText (stateDigest crates state)

theorem reflects_journalOf (chain : List StateSnapshot) : Reflects crates manifest chain (journalOf crates manifest chain) :=
  ⟨rfl, rfl, rfl, rfl, rfl, rfl, rfl, rfl⟩

theorem chainBytes_concat (state : StateSnapshot) :
    chainBytes crates (chain ++ [state]) = chainBytes crates chain + (stateRecord crates state).length := by
  simp [chainBytes]

theorem SoundChain.nil : SoundChain crates manifest [] where
  encodes := by simp
  sequence := by simp
  names := by simp
  originals := by simp
  first := by simp
  linked := by simp
  bytes := Nat.zero_le _

/-- What a state must satisfy to extend a sound chain. -/
structure Extends (crates : Crates) (manifest : Manifest) (chain : List StateSnapshot) (state : StateSnapshot) : Prop where
  encodes : state.Encodes crates
  names : state.manifestChecksum = manifestChecksum crates manifest
  originals : validateStateAgainstManifest state manifest = .ok ()
  prior : state.priorStateChecksum = chain.getLast?.map fun last => checksumText (stateDigest crates last)
  first : chain = [] → state.sequence = 0 ∧ state.globalState = .preparing
  next : ∀ last, chain.getLast? = some last → validateStateTransition last state {} = .ok ()
  bytes : chainBytes crates (chain ++ [state]) ≤ maxStateBytes

theorem sequence_of_transition {before after : StateSnapshot}
    (transition : validateStateTransition before after {} = .ok ()) :
    after.sequence.toNat = before.sequence.toNat + 1 := by
  unfold validateStateTransition at transition
  simp only [Except.bind_eq_ok, Except.rejectIf_eq_ok, not_not] at transition
  obtain ⟨_, _, _, _, _, _, _, contiguous, _⟩ := transition
  exact contiguous

theorem SoundChain.extend {state : StateSnapshot} (sound : SoundChain crates manifest chain)
    (extension : Extends crates manifest chain state) : SoundChain crates manifest (chain ++ [state]) := by
  have each : ∀ {property : StateSnapshot → Prop}, (∀ other ∈ chain, property other) → property state →
      ∀ other ∈ chain ++ [state], property other := by
    intro property earlier final other member
    rcases List.mem_append.mp member with inside | last
    · exact earlier other inside
    · rw [List.mem_singleton.mp last]; exact final
  have split : ∀ {index : ℕ} {other : StateSnapshot}, (chain ++ [state])[index]? = some other →
      (chain[index]? = some other) ∨ (index = chain.length ∧ other = state) := by
    intro index other found
    rcases Nat.lt_trichotomy index chain.length with less | equal | greater
    · exact .inl (by rwa [List.getElem?_append_left less] at found)
    · rw [equal, List.getElem?_append_right le_rfl, Nat.sub_self] at found
      exact .inr ⟨equal, (Option.some.inj found).symm⟩
    · rw [List.getElem?_eq_none (by simp; omega)] at found
      cases found
  refine ⟨each sound.encodes extension.encodes, ?_, each sound.names extension.names,
    each sound.originals extension.originals, ?_, ?_, extension.bytes⟩
  · intro index other found
    rcases split found with inside | ⟨rfl, rfl⟩
    · exact sound.sequence index other inside
    · cases final : chain.getLast? with
      | none =>
        obtain rfl := List.getLast?_eq_none_iff.mp final
        rw [(extension.first rfl).1]; rfl
      | some last =>
        have positive : 0 < chain.length := List.length_pos_of_mem (List.mem_of_getLast? final)
        rw [sequence_of_transition (extension.next last final),
          sound.sequence (chain.length - 1) last (by rw [← List.getLast?_eq_getElem?, final])]
        omega
  · intro other found
    rcases split found with inside | ⟨empty, rfl⟩
    · exact sound.first other inside
    · obtain rfl : chain = [] := List.length_eq_zero_iff.mp empty.symm
      exact ⟨(extension.first rfl).2, extension.prior⟩
  · intro index before after foundBefore foundAfter
    rcases split foundAfter with inside | ⟨atEnd, rfl⟩
    · have earlier : chain[index]? = some before := by
        rcases split foundBefore with inside' | ⟨equal, _⟩
        · exact inside'
        · rw [List.getElem?_eq_none (by omega)] at inside; cases inside
      exact sound.linked index before after earlier inside
    · have final : chain.getLast? = some before := by
        rw [List.getLast?_eq_getElem?, show chain.length - 1 = index by omega]
        rcases split foundBefore with inside | ⟨equal, _⟩
        · exact inside
        · omega
      exact ⟨by rw [extension.prior, final]; rfl, extension.next before final⟩

/-- The record that is written once a state is accepted. -/
def acceptedState (crates : Crates) (journal : TransactionJournal) (state : StateSnapshot) : AcceptedState where
  encoded := stateRecord crates state
  checksum := checksumText (stateDigest crates state)
  journal := { journal with
    lastState := some state
    lastChecksum := some (checksumText (stateDigest crates state))
    projectedDiskBytes := journal.projectedDiskBytes + (stateRecord crates state).length
    stateRecordBytes := journal.stateRecordBytes + (stateRecord crates state).length }

theorem Reflects.accepted {journal : TransactionJournal} {state : StateSnapshot}
    (reflects : Reflects crates manifest chain journal) :
    Reflects crates manifest (chain ++ [state]) (acceptedState crates journal state).journal where
  directory := reflects.directory
  checksum := reflects.checksum
  originals := reflects.originals
  limits := reflects.limits
  disk := by rw [chainBytes_concat, ← Nat.add_assoc, ← reflects.disk]; rfl
  bytes := by rw [chainBytes_concat, ← reflects.bytes]; rfl
  last := by rw [List.getLast?_concat]; rfl
  lastChecksum := by rw [List.getLast?_concat]; rfl

private theorem validateNext_ok {journal : TransactionJournal} {state : StateSnapshot}
    (reflects : Reflects crates manifest chain journal) :
    journal.validateNext state = .ok () ↔
      (chain = [] → (state.sequence = 0 ∧ state.globalState = .preparing) ∧ validateStateShape state {} = .ok ()) ∧
      ∀ last, chain.getLast? = some last → validateStateTransition last state {} = .ok () := by
  unfold TransactionJournal.validateNext
  rw [reflects.last, reflects.limits]
  cases final : chain.getLast? with
  | none =>
    have empty := List.getLast?_eq_none_iff.mp final
    simp [empty, Except.bind_eq_ok, Except.rejectIf_eq_ok]
  | some last =>
    have nonempty : chain ≠ [] := fun empty => by rw [empty] at final; cases final
    simp [nonempty]

/-- The checks of `publish_state` accept exactly the extensions of the chain that fit on disk. -/
theorem acceptState_eq_ok {journal : TransactionJournal} {state : StateSnapshot} {accepted : AcceptedState}
    (reflects : Reflects crates manifest chain journal) :
    journal.acceptState crates state = .ok accepted ↔
      Extends crates manifest chain state ∧
        manifest.artifactBytes + (manifestRecord crates manifest).length + chainBytes crates (chain ++ [state]) ≤
          maxTransactionDiskBytes ∧
        accepted = acceptedState crates journal state := by
  have stateLimit : maxStateBytes ≤ u64Max := by norm_num [maxStateBytes, u64Max]
  have diskLimit : maxTransactionDiskBytes ≤ u64Max := by norm_num [maxTransactionDiskBytes, u64Max]
  unfold TransactionJournal.acceptState
  rw [reflects.checksum, reflects.originals, reflects.limits, reflects.disk, reflects.bytes, reflects.lastChecksum]
  simp only [Except.bind_eq_ok, Except.rejectIf_eq_ok, Except.pure_eq_ok, encodeStateRecord_eq_ok,
    validateNext_ok reflects, not_not, not_lt]
  have concat : chainBytes crates (chain ++ [state]) = _ := chainBytes_concat state
  constructor
  · rintro ⟨⟨⟩, names, ⟨⟩, originals, ⟨⟩, prior, ⟨⟩, ⟨first, next⟩, _, ⟨encodes, rfl⟩, ⟨⟩, _, ⟨⟩, bytes, ⟨⟩, _, ⟨⟩,
      disk, digest, checksum, rfl⟩
    rw [recordChecksum_stateRecord] at checksum
    cases checksum
    refine ⟨⟨encodes, names, originals, prior, fun empty => (first empty).1, next, ?_⟩, ?_, ?_⟩
    · exact concat.trans_le bytes
    · rw [concat]; exact (Nat.add_assoc _ _ _).symm.trans_le disk
    · simp only [acceptedState, reflects.checksum, reflects.originals, reflects.limits, reflects.disk, reflects.bytes]
  · rintro ⟨extension, disk, rfl⟩
    have bytes := extension.bytes
    rw [concat] at bytes disk
    refine ⟨(), extension.names, (), extension.originals, (), extension.prior, (),
      ⟨fun empty => ⟨extension.first empty, extension.encodes.shape⟩, extension.next⟩, _, ⟨extension.encodes, rfl⟩,
      (), by omega, (), bytes, (), by omega, (), ?_, stateDigest crates state, recordChecksum_stateRecord crates state, ?_⟩
    · exact (Nat.add_assoc _ _ _).trans_le disk
    · simp only [acceptedState, reflects.checksum, reflects.originals, reflects.limits, reflects.disk, reflects.bytes]

end Srcmv.Fs
