import Srcmv.Proofs.Fs.ChainScan

/-! # Inspecting an active directory

An active directory is empty but for a manifest temporary, holds a manifest without states, or holds
a chain. In each case one temporary may stand beside the published records; it is accepted when it
is the complete next record, and any proper prefix of that record is corrupt.
-/

namespace Srcmv.Fs

open Srcmv.Core

variable {crates : Crates} {manifest : Manifest} {chain : List StateSnapshot} {contents : Entry → Option Item}
  {children : NameMap Item} {cumulative : ℕ}

/-- The scan reports the directory as corrupt. -/
def Corrupt {α : Type} (id : String) (result : Except FsError α) : Prop :=
  ∃ reason, result = .error (corrupt (some id) reason)

/-- No manifest has been published. -/
structure Unpublished (contents : Entry → Option Item) : Prop where
  only : ∀ entry, entry ≠ .manifestTemporary → contents entry = none

section Orphan

theorem Unpublished.not_mem (unpublished : Unpublished contents) (holds : Holds children contents) :
    "manifest.rec" ∉ children := by
  intro member
  have present : (contents .manifest).isSome = true := holds.mem_iff.mp member
  rw [unpublished.only .manifest (by decide)] at present
  cases present

private theorem Unpublished.keys (unpublished : Unpublished contents) (holds : Holds children contents) :
    ¬(children.keys.any fun name => name ≠ "manifest.tmp") = true := by
  simp only [List.any_eq_true, decide_eq_true_eq, not_exists, not_and, not_not]
  intro name member
  obtain ⟨entry, rfl, present⟩ := holds.mem_keys.mp member
  by_cases temporary : entry = .manifestTemporary
  · rw [temporary]; rfl
  · rw [unpublished.only entry temporary] at present
    cases present

def orphanEntry (id : String) : RecoveryEntry :=
  activeEntry id .orphanRecord ["status", "rollback"] "all_original"

theorem inspect_orphan_empty (unpublished : Unpublished contents) (holds : Holds children contents)
    (absent : contents .manifestTemporary = none) {id : String} :
    inspectActiveTransaction crates children id cumulative {} = .ok (orphanEntry id, cumulative) := by
  have missing : "manifest.tmp" ∉ children := by
    intro member
    have present : (contents .manifestTemporary).isSome = true := holds.mem_iff.mp member
    rw [absent] at present
    cases present
  unfold inspectActiveTransaction inspectOrphan
  rw [if_neg (unpublished.not_mem holds), Except.rejectIf_of_not (unpublished.keys holds), Except.ok_bind,
    if_neg missing]
  rfl

theorem inspect_orphan_complete (unpublished : Unpublished contents) (holds : Holds children contents)
    (encodes : manifest.Encodes crates)
    (written : HasBytes (contents .manifestTemporary) (manifestRecord crates manifest))
    (within : cumulative + (manifestRecord crates manifest).length ≤ maxRecoveryBytes) :
    inspectActiveTransaction crates children manifest.transactionId cumulative {} =
      .ok (orphanEntry manifest.transactionId, cumulative + (manifestRecord crates manifest).length) := by
  have present : "manifest.tmp" ∈ children := holds.mem_iff.mpr written.isSome
  rw [← holds.entry] at written
  unfold inspectActiveTransaction inspectOrphan
  rw [if_neg (unpublished.not_mem holds), Except.rejectIf_of_not (unpublished.keys holds), Except.ok_bind,
    if_pos present, show ("manifest.tmp" : String) = Entry.manifestTemporary.name from rfl,
    readRecordBounded_ok written encodes.size within, Except.ok_bind]
  dsimp only
  rw [decodeManifestRecord_manifestRecord crates encodes, Except.ok_bind,
    Except.rejectIf_of_not (fun different => different rfl)]
  rfl

theorem inspect_orphan_partial (unpublished : Unpublished contents) (holds : Holds children contents)
    (encodes : manifest.Encodes crates) {count : ℕ} (proper : count < (manifestRecord crates manifest).length)
    (written : HasBytes (contents .manifestTemporary) ((manifestRecord crates manifest).take count))
    (within : cumulative + (manifestRecord crates manifest).length ≤ maxRecoveryBytes) {id : String} :
    Corrupt id (inspectActiveTransaction crates children id cumulative {}) := by
  have present : "manifest.tmp" ∈ children := holds.mem_iff.mpr written.isSome
  have size := encodes.size
  have shorter : ((manifestRecord crates manifest).take count).length = count := by
    rw [List.length_take]; omega
  obtain ⟨reason, rejected⟩ := decodeManifestRecord_take crates (some id) encodes proper
  rw [← holds.entry] at written
  refine ⟨reason, ?_⟩
  unfold inspectActiveTransaction inspectOrphan
  rw [if_neg (unpublished.not_mem holds), Except.rejectIf_of_not (unpublished.keys holds), Except.ok_bind,
    if_pos present, show ("manifest.tmp" : String) = Entry.manifestTemporary.name from rfl,
    readRecordBounded_ok written (by omega) (by omega), Except.ok_bind]
  dsimp only
  rw [rejected, Except.error_bind]

end Orphan

section Published

/-- Reading the manifest leads to the inspection of what is beside it. -/
theorem inspect_journaled (holds : Holds children contents) (journaled : Journaled crates manifest chain contents)
    (encodes : manifest.Encodes crates)
    (within : cumulative + (manifestRecord crates manifest).length ≤ maxRecoveryBytes) :
    inspectActiveTransaction crates children manifest.transactionId cumulative {} =
      inspectPublished crates children manifest.transactionId manifest (manifestDigest crates manifest)
        (cumulative + (manifestRecord crates manifest).length) {} := by
  have written := journaled.published
  have present : "manifest.rec" ∈ children := holds.mem_iff.mpr written.isSome
  rw [← holds.entry] at written
  unfold inspectActiveTransaction
  rw [if_pos present, show ("manifest.rec" : String) = Entry.manifest.name from rfl,
    readRecordBounded_ok written encodes.size within, Except.ok_bind]
  dsimp only
  rw [decodeManifestRecord_manifestRecord crates encodes, Except.ok_bind,
    Except.rejectIf_of_not (fun different => different rfl), Except.ok_bind]

def manifestOnlyEntry (id : String) : RecoveryEntry :=
  activeEntry id .manifestOnly ["status", "rollback"] "all_original"

private theorem recordNames_nil (holds : Holds children contents) (journaled : Journaled crates manifest [] contents) :
    recordNames children = [] :=
  List.length_eq_zero_iff.mp (length_recordNames holds journaled (Nat.zero_le _))

/-- Beside a lone manifest only the first state's temporary is looked at. -/
private theorem inspectPublished_manifestOnly (holds : Holds children contents)
    (journaled : Journaled crates manifest [] contents) {id : String} {digest : Sha256Digest} :
    inspectPublished crates children id manifest digest cumulative {} = do
      let cumulative ← children.keys.foldlM
        (validateManifestOnlyEntry crates children id manifest digest {}) cumulative
      return (manifestOnlyEntry id, cumulative) := by
  unfold inspectPublished
  rw [show (children.keys.filterMap fun name => (parseStateName name "rec").map (·, name)) = [] from
    recordNames_nil holds journaled, if_pos rfl]
  rfl

/-- Without artifacts a lone manifest has only the first temporary beside it. -/
structure ManifestOnly (crates : Crates) (manifest : Manifest) (contents : Entry → Option Item) : Prop where
  journaled : Journaled crates manifest [] contents
  candidate : ∀ index, contents (.candidate index) = none
  backup : ∀ index, contents (.backup index) = none

private theorem ManifestOnly.entry_cases (only : ManifestOnly crates manifest contents) {entry : Entry}
    (present : (contents entry).isSome) : entry = .manifest ∨ entry = .temporary 0 := by
  cases entry with
  | manifest => exact .inl rfl
  | manifestTemporary => rw [only.journaled.noTemporary] at present; cases present
  | record index => rw [only.journaled.noRecord index (Nat.zero_le _)] at present; cases present
  | temporary index =>
    by_cases first : index = 0
    · exact .inr (by rw [first])
    · rw [only.journaled.temporary index first] at present; cases present
  | candidate index => rw [only.candidate] at present; cases present
  | backup index => rw [only.backup] at present; cases present

theorem stateName_zero : stateName 0 "tmp" = "state-00000000.tmp" := by decide

theorem inspect_manifestOnly_none (holds : Holds children contents) (only : ManifestOnly crates manifest contents)
    (encodes : manifest.Encodes crates) (absent : contents (.temporary 0) = none)
    (within : cumulative + (manifestRecord crates manifest).length ≤ maxRecoveryBytes) :
    inspectActiveTransaction crates children manifest.transactionId cumulative {} =
      .ok (manifestOnlyEntry manifest.transactionId, cumulative + (manifestRecord crates manifest).length) := by
  rw [inspect_journaled holds only.journaled encodes within, inspectPublished_manifestOnly holds only.journaled,
    List.foldlM_ok_of_forall]
  · rfl
  · intro name member
    obtain ⟨entry, rfl, present⟩ := holds.mem_keys.mp member
    rcases only.entry_cases present with rfl | rfl
    · rfl
    · rw [absent] at present; cases present

/-- With the temporary present, its check decides. -/
private theorem inspect_manifestOnly_some (holds : Holds children contents)
    (only : ManifestOnly crates manifest contents) (encodes : manifest.Encodes crates)
    (present : (contents (.temporary 0)).isSome)
    (within : cumulative + (manifestRecord crates manifest).length ≤ maxRecoveryBytes) :
    inspectActiveTransaction crates children manifest.transactionId cumulative {} = do
      let cumulative ← validateManifestOnlyEntry crates children manifest.transactionId manifest
        (manifestDigest crates manifest) {} (cumulative + (manifestRecord crates manifest).length)
        "state-00000000.tmp"
      return (manifestOnlyEntry manifest.transactionId, cumulative) := by
  have member : "state-00000000.tmp" ∈ children.keys :=
    holds.mem_keys.mpr ⟨.temporary 0, stateName_zero, present⟩
  rw [inspect_journaled holds only.journaled encodes within, inspectPublished_manifestOnly holds only.journaled,
    List.foldlM_single (OrderedMap.nodup_keys children) member]
  intro name inside other value
  obtain ⟨entry, rfl, here⟩ := holds.mem_keys.mp inside
  rcases only.entry_cases here with rfl | rfl
  · rfl
  · exact absurd stateName_zero other

theorem inspect_manifestOnly_complete (holds : Holds children contents)
    (only : ManifestOnly crates manifest contents) (encodes : manifest.Encodes crates) {next : StateSnapshot}
    (sound : SoundChain crates manifest [next])
    (written : HasBytes (contents (.temporary 0)) (stateRecord crates next))
    (within : cumulative + (manifestRecord crates manifest).length + (stateRecord crates next).length ≤
      maxRecoveryBytes) :
    inspectActiveTransaction crates children manifest.transactionId cumulative {} =
      .ok (manifestOnlyEntry manifest.transactionId,
        cumulative + (manifestRecord crates manifest).length + (stateRecord crates next).length) := by
  have encodesNext := sound.encodes next List.mem_cons_self
  rw [inspect_manifestOnly_some holds only encodes written.isSome (by omega)]
  rw [← holds.entry] at written
  have sequence : next.sequence = 0 := UInt64.toNat_inj.mp (sound.sequence 0 next rfl)
  unfold validateManifestOnlyEntry
  rw [if_neg (by decide), if_pos rfl, ← stateName_zero,
    show stateName 0 "tmp" = (Entry.temporary 0).name from rfl,
    readRecordBounded_ok written encodesNext.size within, Except.ok_bind]
  dsimp only
  rw [decodeStateRecord_stateRecord crates encodesNext, Except.ok_bind,
    Except.rejectIf_of_not (by
      rw [not_or, not_or, not_not, not_not, not_not]
      exact ⟨sequence, (sound.first next rfl).1, sound.names next List.mem_cons_self⟩), Except.ok_bind,
    sound.originals next List.mem_cons_self]
  rfl

theorem inspect_manifestOnly_partial (holds : Holds children contents)
    (only : ManifestOnly crates manifest contents) (encodes : manifest.Encodes crates) {next : StateSnapshot}
    (encodesNext : next.Encodes crates) {count : ℕ} (proper : count < (stateRecord crates next).length)
    (written : HasBytes (contents (.temporary 0)) ((stateRecord crates next).take count))
    (within : cumulative + (manifestRecord crates manifest).length + (stateRecord crates next).length ≤
      maxRecoveryBytes) :
    Corrupt manifest.transactionId
      (inspectActiveTransaction crates children manifest.transactionId cumulative {}) := by
  have size := encodesNext.size
  have shorter : ((stateRecord crates next).take count).length = count := by
    rw [List.length_take]; omega
  obtain ⟨reason, rejected⟩ := decodeStateRecord_take crates (some manifest.transactionId) encodesNext proper
  refine ⟨reason, ?_⟩
  rw [inspect_manifestOnly_some holds only encodes written.isSome (by omega)]
  rw [← holds.entry] at written
  unfold validateManifestOnlyEntry
  rw [if_neg (by decide), if_pos rfl, ← stateName_zero,
    show stateName 0 "tmp" = (Entry.temporary 0).name from rfl,
    readRecordBounded_ok written (by omega) (by omega), Except.ok_bind]
  dsimp only
  rw [rejected, Except.error_bind, Except.error_bind]

def chainEntry (id : String) (last : StateSnapshot) : RecoveryEntry :=
  activeEntry id .active (actionsForState last.globalState) (visibilityForState last.globalState)

/-- A chain leaves the temporaries to be checked. -/
private theorem inspect_chain (holds : Holds children contents)
    (journaled : Journaled crates manifest chain contents) (encodes : manifest.Encodes crates)
    (sound : SoundChain crates manifest chain) {last : StateSnapshot} (final : chain.getLast? = some last)
    (room : (contents (.temporary chain.length)).isSome → chain.length < maxStateRecords)
    (within : cumulative + (manifestRecord crates manifest).length + chainBytes crates chain ≤ maxRecoveryBytes) :
    inspectActiveTransaction crates children manifest.transactionId cumulative {} = do
      let cumulative ← validateTemporaries crates children manifest.transactionId
        ⟨manifest, manifestDigest crates manifest, last, checksumText (stateDigest crates last)⟩
        (cumulative + (manifestRecord crates manifest).length + chainBytes crates chain) {}
      return (chainEntry manifest.transactionId last, cumulative) := by
  have nonempty : recordNames children ≠ [] := by
    intro empty
    have length := length_recordNames holds journaled sound.length_le
    rw [empty, List.length_nil, eq_comm, List.length_eq_zero_iff] at length
    rw [length] at final
    cases final
  rw [inspect_journaled holds journaled encodes (by omega)]
  unfold inspectPublished
  dsimp only
  rw [show (children.keys.filterMap fun name => (parseStateName name "rec").map (·, name)) = recordNames children
    from rfl, if_neg nonempty, validateActiveName_journaled holds journaled (validateManifest_valid encodes.valid)
    sound.length_le room, Except.ok_bind, foldStateChain_sound holds journaled sound final within, Except.ok_bind]
  rfl

private theorem sequence_bounded (sound : SoundChain crates manifest chain) {last : StateSnapshot}
    (final : chain.getLast? = some last) : last.sequence.toNat + 1 ≤ u64Max := by
  have bounded := SoundChain.sequence_lt_of_shape (sound.shape (List.mem_of_getLast? final))
  have limit : maxStateRecords ≤ u64Max := by norm_num [maxStateRecords, u64Max]
  omega

theorem inspect_chain_none (holds : Holds children contents)
    (journaled : Journaled crates manifest chain contents) (encodes : manifest.Encodes crates)
    (sound : SoundChain crates manifest chain) {last : StateSnapshot} (final : chain.getLast? = some last)
    (absent : contents (.temporary chain.length) = none)
    (within : cumulative + (manifestRecord crates manifest).length + chainBytes crates chain ≤ maxRecoveryBytes) :
    inspectActiveTransaction crates children manifest.transactionId cumulative {} =
      .ok (chainEntry manifest.transactionId last,
        cumulative + (manifestRecord crates manifest).length + chainBytes crates chain) := by
  rw [inspect_chain holds journaled encodes sound final (fun present => by rw [absent] at present; cases present)
    within, validateTemporaries_none holds journaled absent (sequence_bounded sound final)]
  rfl

theorem SoundChain.init {next : StateSnapshot} (sound : SoundChain crates manifest (chain ++ [next])) :
    SoundChain crates manifest chain := by
  have extend : ∀ {index : ℕ} {state : StateSnapshot}, chain[index]? = some state →
      (chain ++ [next])[index]? = some state := fun found => by
    rw [List.getElem?_append_left (List.getElem?_eq_some_iff.mp found).1, found]
  refine ⟨fun state member => sound.encodes state (List.mem_append_left _ member),
    fun index state found => sound.sequence index state (extend found),
    fun state member => sound.names state (List.mem_append_left _ member),
    fun state member => sound.originals state (List.mem_append_left _ member),
    fun state found => sound.first state (extend found),
    fun index before after foundBefore foundAfter =>
      sound.linked index before after (extend foundBefore) (extend foundAfter), ?_⟩
  have bytes := sound.bytes
  rw [chainBytes, List.map_append, List.sum_append] at bytes
  rw [chainBytes]
  omega

/-- The successor of the last state, as a sound chain sees it. -/
private theorem successor {next last : StateSnapshot} (sound : SoundChain crates manifest (chain ++ [next]))
    (final : chain.getLast? = some last) :
    next.sequence.toNat = chain.length ∧ last.sequence.toNat + 1 = chain.length ∧
      next.priorStateChecksum = some (checksumText (stateDigest crates last)) ∧
      validateStateTransition last next {} = .ok () := by
  have positive : 0 < chain.length := List.length_pos_of_ne_nil fun empty => by rw [empty] at final; cases final
  have found : (chain ++ [next])[chain.length]? = some next := by
    rw [List.getElem?_append_right le_rfl, Nat.sub_self]; rfl
  have before : (chain ++ [next])[chain.length - 1]? = some last := by
    rw [List.getElem?_append_left (by omega), ← List.getLast?_eq_getElem?, final]
  have after : (chain ++ [next])[chain.length - 1 + 1]? = some next := by
    rw [Nat.sub_add_cancel positive, found]
  have linked := sound.linked _ last next before after
  have sequence := sound.sequence _ last before
  exact ⟨sound.sequence _ next found, by omega, linked.1, linked.2⟩

theorem inspect_chain_complete (holds : Holds children contents)
    (journaled : Journaled crates manifest chain contents) (encodes : manifest.Encodes crates)
    {next last : StateSnapshot} (sound : SoundChain crates manifest (chain ++ [next]))
    (final : chain.getLast? = some last)
    (written : HasBytes (contents (.temporary chain.length)) (stateRecord crates next))
    (within : cumulative + (manifestRecord crates manifest).length + chainBytes crates chain +
      (stateRecord crates next).length ≤ maxRecoveryBytes) :
    inspectActiveTransaction crates children manifest.transactionId cumulative {} =
      .ok (chainEntry manifest.transactionId last, cumulative + (manifestRecord crates manifest).length +
        chainBytes crates chain + (stateRecord crates next).length) := by
  have member : next ∈ chain ++ [next] := List.mem_append_right _ List.mem_cons_self
  have room : chain.length < maxStateRecords := by
    have length := sound.length_le
    rw [List.length_append, List.length_singleton] at length
    omega
  obtain ⟨sequence, before, prior, transition⟩ := successor sound final
  rw [inspect_chain holds journaled encodes sound.init final (fun _ => room) (by omega),
    validateTemporaries_some holds journaled written.isSome (sequence_bounded sound.init final)]
  rw [← holds.entry] at written
  unfold validateTemporary
  rw [parseStateName_stateName "tmp" room]
  dsimp only
  rw [show stateName chain.length "tmp" = (Entry.temporary chain.length).name from rfl,
    readRecordBounded_ok written (sound.encodes next member).size within, Except.ok_bind]
  dsimp only
  rw [decodeStateRecord_stateRecord crates (sound.encodes next member), Except.ok_bind,
    Except.rejectIf_of_not (by
      rw [not_or, not_or, not_or, not_not, not_not, not_not, not_not]
      exact ⟨sequence, sequence.trans before.symm, sound.names next member, prior⟩), Except.ok_bind,
    sound.originals next member, Except.ok_bind, transition]
  rfl

theorem inspect_chain_partial (holds : Holds children contents)
    (journaled : Journaled crates manifest chain contents) (encodes : manifest.Encodes crates)
    {next last : StateSnapshot} (sound : SoundChain crates manifest (chain ++ [next]))
    (final : chain.getLast? = some last) {count : ℕ} (proper : count < (stateRecord crates next).length)
    (written : HasBytes (contents (.temporary chain.length)) ((stateRecord crates next).take count))
    (within : cumulative + (manifestRecord crates manifest).length + chainBytes crates chain +
      (stateRecord crates next).length ≤ maxRecoveryBytes) :
    Corrupt manifest.transactionId
      (inspectActiveTransaction crates children manifest.transactionId cumulative {}) := by
  have encodesNext := sound.encodes next (List.mem_append_right _ List.mem_cons_self)
  have size := encodesNext.size
  have room : chain.length < maxStateRecords := by
    have length := sound.length_le
    rw [List.length_append, List.length_singleton] at length
    omega
  have shorter : ((stateRecord crates next).take count).length = count := by
    rw [List.length_take]; omega
  obtain ⟨reason, rejected⟩ := decodeStateRecord_take crates (some manifest.transactionId) encodesNext proper
  refine ⟨reason, ?_⟩
  rw [inspect_chain holds journaled encodes sound.init final (fun _ => room) (by omega),
    validateTemporaries_some holds journaled written.isSome (sequence_bounded sound.init final)]
  rw [← holds.entry] at written
  unfold validateTemporary
  rw [parseStateName_stateName "tmp" room]
  dsimp only
  rw [show stateName chain.length "tmp" = (Entry.temporary chain.length).name from rfl,
    readRecordBounded_ok written (by omega) (by omega), Except.ok_bind]
  dsimp only
  rw [rejected]
  rfl

end Published

end Srcmv.Fs
