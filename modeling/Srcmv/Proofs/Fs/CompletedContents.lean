import Srcmv.Proofs.Fs.ChainScan

/-! # What a completed directory is charged

Every entry of a completed directory is charged with its length, records and artifacts alike. A
directory that records a sound chain is therefore valid exactly when all its files together fit the
recovery limit.
-/

namespace Srcmv.Fs

open Srcmv.Core

section Charges

theorem chargeRecovery_eq_ok {cumulative length total : ℕ} :
    chargeRecovery cumulative length {} = .ok total ↔ total = cumulative + length ∧ cumulative + length ≤ maxRecoveryBytes := by
  have limit : maxRecoveryBytes ≤ u64Max := by norm_num [maxRecoveryBytes, u64Max]
  have bound : ({} : TransactionLimits).recoveryBytes = maxRecoveryBytes := rfl
  rw [chargeRecovery, bound]
  by_cases within : cumulative + length ≤ maxRecoveryBytes
  · rw [if_neg (by omega), if_neg (by omega)]
    exact ⟨fun same => ⟨(Except.ok.inj same).symm, within⟩, fun same => by rw [same.1]⟩
  · constructor
    · intro charged
      rw [if_pos (by omega : cumulative + length > maxRecoveryBytes)] at charged
      split at charged <;> cases charged
    · exact fun same => absurd same.2 within

/-- The files of a directory exceed the recovery limit. -/
def FsError.IsRecoveryLimit (error : FsError) : Prop := ∃ actual limit, error = .resourceLimitExceeded "recovery_bytes" actual limit

theorem chargeRecovery_error {cumulative length : ℕ} {limits : TransactionLimits} {error : FsError}
    (charged : chargeRecovery cumulative length limits = .error error) : error.IsRecoveryLimit := by
  rw [chargeRecovery] at charged
  split_ifs at charged <;> cases charged <;> exact ⟨_, _, rfl⟩

/-- A fold that charges lengths fails only for the limit. -/
theorem foldlM_charges_error {α : Type} {length : α → ℕ} {step : ℕ → α → Except FsError ℕ} {items : List α}
    (charges : ∀ item ∈ items, ∀ cumulative, step cumulative item = chargeRecovery cumulative (length item) {})
    {start : ℕ} {error : FsError} (folded : items.foldlM step start = .error error) : error.IsRecoveryLimit := by
  induction items generalizing start with
  | nil => cases folded
  | cons item rest ih =>
    rw [List.foldlM_cons, charges item List.mem_cons_self] at folded
    cases charged : chargeRecovery start (length item) {} with
    | error other =>
      rw [charged] at folded
      obtain rfl := Except.error.inj folded
      exact chargeRecovery_error charged
    | ok next =>
      rw [charged, Except.ok_bind] at folded
      exact ih (fun item member => charges item (List.mem_cons_of_mem _ member)) folded

/-- A fold that charges lengths. -/
theorem foldlM_charges {α : Type} {length : α → ℕ} {step : ℕ → α → Except FsError ℕ} {items : List α}
    (charges : ∀ item ∈ items, ∀ cumulative, step cumulative item = chargeRecovery cumulative (length item) {})
    {start total : ℕ} (within : start ≤ maxRecoveryBytes) :
    items.foldlM step start = .ok total ↔
      total = start + (items.map length).sum ∧ start + (items.map length).sum ≤ maxRecoveryBytes := by
  induction items generalizing start with
  | nil =>
    rw [List.foldlM_nil, Except.pure_eq_ok, List.map_nil, List.sum_nil, Nat.add_zero]
    exact ⟨fun same => ⟨same.symm, within⟩, fun same => same.1.symm⟩
  | cons item rest ih =>
    rw [List.foldlM_cons, charges item List.mem_cons_self, Except.bind_eq_ok, List.map_cons, List.sum_cons, ← Nat.add_assoc]
    have later := fun item member => charges item (List.mem_cons_of_mem _ member)
    constructor
    · rintro ⟨next, charged, folded⟩
      obtain ⟨rfl, fits⟩ := chargeRecovery_eq_ok.mp charged
      exact (ih later fits).mp folded
    · rintro ⟨rfl, fits⟩
      have first : start + length item ≤ maxRecoveryBytes := (Nat.le_add_right _ _).trans fits
      exact ⟨_, chargeRecovery_eq_ok.mpr ⟨rfl, first⟩, (ih later first).mpr ⟨rfl, fits⟩⟩

end Charges

section Lengths

/-- The bytes of the files of a directory. -/
def directoryBytes (children : NameMap Item) : ℕ := (children.toList.map fun entry => entry.2.length).sum

private theorem nodup_toList (children : NameMap Item) : children.toList.Nodup := by
  have keys := OrderedMap.nodup_keys children
  rw [← Std.ExtTreeMap.map_fst_toList_eq_keys] at keys
  exact keys.of_map

private theorem mem_toList {children : NameMap Item} {name : String} {item : Item} :
    (name, item) ∈ children.toList ↔ children[name]? = some item := Std.ExtTreeMap.mem_toList_iff_getElem?_eq_some

/-- A new file adds its bytes. -/
private theorem directoryBytes_alter {children : NameMap Item} {name : String} (free : children[name]? = none)
    (item : Option Item) :
    directoryBytes (children.alter name fun _ => item) = item.elim 0 Item.length + directoryBytes children := by
  cases item with
  | none =>
    rw [OrderedMap.alter_of_keeps free.symm]
    exact (Nat.zero_add _).symm
  | some item =>
    have perm : (children.alter name fun _ => some item).toList.Perm ((name, item) :: children.toList) := by
      apply (List.perm_ext_iff_of_nodup (nodup_toList _) (List.nodup_cons.mpr ⟨?_, nodup_toList _⟩)).mpr
      · rintro ⟨other, found⟩
        rw [mem_toList, OrderedMap.getElem?_alter, List.mem_cons, mem_toList, Prod.mk.injEq]
        split
        · next same =>
          subst same
          simp [free, eq_comm]
        · next different => simp [Ne.symm different]
      · rw [mem_toList, free]
        exact nofun
    exact (perm.map _).sum_eq

/-- The bytes of a directory, entry by entry. -/
theorem directoryBytes_of_holds {children : NameMap Item} {contents : Entry → Option Item} (holds : Holds children contents)
    {entries : List Entry} (distinct : entries.Nodup) (complete : ∀ entry, entry ∉ entries → contents entry = none) :
    directoryBytes children = (entries.map fun entry => (contents entry).elim 0 Item.length).sum := by
  rw [holds.ext (Holds.childrenAt_holds complete)]
  clear complete holds
  induction entries with
  | nil => rw [directoryBytes, Holds.childrenAt, List.foldr_nil, Std.ExtTreeMap.toList_eq_nil_iff.mpr rfl]; rfl
  | cons entry rest ih =>
    obtain ⟨fresh, distinct⟩ := List.nodup_cons.mp distinct
    have free : (Holds.childrenAt contents rest)[entry.name]? = none :=
      ((Holds.childrenAt_holds_mem rest).entry entry).trans (if_neg fresh)
    rw [List.map_cons, List.sum_cons, ← ih distinct]
    exact directoryBytes_alter free _

end Lengths

section Validation

variable {crates : Crates} {manifest : Manifest} {chain : List StateSnapshot} {contents : Entry → Option Item}
  {children : NameMap Item} {id : String}

private theorem readRecordBounded_eq {item : Option Item} {bytes : Bytes} (has : HasBytes item bytes)
    (size : bytes.length ≤ maxRecordBytes) (cumulative : ℕ) :
    readRecordBounded item cumulative {} = (bytes, ·) <$> chargeRecovery cumulative bytes.length {} := by
  obtain ⟨node, rfl, rfl⟩ := has
  rw [readRecordBounded, Except.rejectIf_of_not (not_lt.mpr size), Except.ok_bind]
  rfl

/-- What a record is charged, once it is known to decode. -/
private theorem charge_record {next : Bytes × ℕ → Except FsError ℕ} {item : Option Item} {bytes : Bytes}
    (has : HasBytes item bytes) (size : bytes.length ≤ maxRecordBytes) (cumulative : ℕ)
    (decodes : ∀ counter, next (bytes, counter) = .ok counter) :
    (readRecordBounded item cumulative {} >>= next) = chargeRecovery cumulative bytes.length {} := by
  rw [readRecordBounded_eq has size]
  cases chargeRecovery cumulative bytes.length {} with
  | error failure => rfl
  | ok counter => exact decodes counter

private theorem completedSequence_record {index : ℕ} (below : index < maxStateRecords) :
    completedSequence (stateName index "rec") = some index := by
  rw [completedSequence, parseStateName_stateName "rec" below]
  rfl

private theorem completedSequence_artifact {entry : Entry} (other : ∀ index, entry ≠ .record index ∧ entry ≠ .temporary index) :
    completedSequence entry.name = none := by
  rw [completedSequence]
  cases first : parseStateName entry.name "rec" with
  | some index => exact absurd (Entry.parseStateName_rec_name.mp first).1 (other index).1
  | none =>
    cases second : parseStateName entry.name "tmp" with
    | some index => exact absurd (Entry.parseStateName_tmp_name.mp second).1 (other index).2
    | none => rfl

private theorem charge_artifact {entry : Entry} {item : Item} (known : isArtifactName entry.name "candidate" = true ∨
    isArtifactName entry.name "backup" = true) (other : ∀ index, entry ≠ .record index ∧ entry ≠ .temporary index)
    (different : entry ≠ .manifest) (file : item.isFile = true) (cumulative : ℕ) :
    validateCompletedEntry crates id {} cumulative (entry.name, item) = chargeRecovery cumulative item.length {} := by
  have noManifest : entry.name ≠ "manifest.rec" := fun same => different (Entry.name_injective (same.trans rfl))
  rw [validateCompletedEntry, Except.rejectIf_of_not (fun unknown => unknown (.inr (.inr known))), Except.ok_bind,
    Except.rejectIf_of_not (not_not.mpr file), Except.ok_bind, if_neg noManifest, completedSequence_artifact other]

/-- Each entry is charged with its length. -/
private theorem validateCompletedEntry_eq (holds : Holds children contents)
    (journaled : Journaled crates manifest chain contents) (sound : SoundChain crates manifest chain)
    (encodes : manifest.Encodes crates) (unbegun : contents (.temporary chain.length) = none) {name : String} {item : Item}
    (found : children[name]? = some item) (cumulative : ℕ) :
    validateCompletedEntry crates id {} cumulative (name, item) = chargeRecovery cumulative item.length {} := by
  have member : name ∈ children := Std.ExtTreeMap.mem_iff_isSome_getElem?.mpr (by rw [found]; rfl)
  have few : manifest.targets.length ≤ maxTransactionTargets := (validateManifest_valid encodes.valid).few
  obtain ⟨entry, rfl⟩ := holds.named name member
  rw [holds.entry] at found
  cases entry with
  | manifest =>
    have has : HasBytes (some item) (manifestRecord crates manifest) := found ▸ journaled.published
    have file := has
    obtain ⟨node, same, bytes⟩ := file
    cases same
    rw [validateCompletedEntry, Except.rejectIf_of_not (fun unknown => unknown (.inl rfl)), Except.ok_bind,
      Except.rejectIf_of_not (fun irregular => irregular rfl), Except.ok_bind,
      if_pos (show Entry.manifest.name = "manifest.rec" from rfl), charge_record has encodes.size cumulative fun counter => ?_, ← bytes]
    · rfl
    · dsimp only
      rw [decodeManifestRecord_manifestRecord crates encodes]
      rfl
  | manifestTemporary => rw [journaled.noTemporary] at found; cases found
  | record index =>
    have below : index < chain.length := journaled.record_isSome.mp (by rw [found]; rfl)
    have small : index < maxStateRecords := below.trans_le sound.length_le
    obtain ⟨state, here⟩ : ∃ state, chain[index]? = some state := ⟨_, List.getElem?_eq_getElem below⟩
    have encodesState := sound.encodes state (List.mem_of_getElem? here)
    have has : HasBytes (some item) (stateRecord crates state) := found ▸ journaled.record index state here
    have file := has
    obtain ⟨node, same, bytes⟩ := file
    cases same
    have named := completedSequence_record small
    have noManifest : stateName index "rec" ≠ "manifest.rec" := fun same =>
      nomatch Entry.name_injective (show (Entry.record index).name = Entry.manifest.name from same)
    rw [show (Entry.record index).name = stateName index "rec" from rfl, validateCompletedEntry,
      Except.rejectIf_of_not (fun unknown => unknown (.inr (.inl (by rw [named]; rfl)))), Except.ok_bind,
      Except.rejectIf_of_not (fun irregular => irregular rfl), Except.ok_bind, if_neg noManifest, named]
    dsimp only
    rw [charge_record has encodesState.size cumulative fun counter => ?_, ← bytes]
    · rfl
    · dsimp only
      rw [decodeStateRecord_stateRecord crates encodesState, Except.ok_bind,
        Except.rejectIf_of_not (fun different => different (sound.sequence index state here))]
      rfl
  | temporary index =>
    by_cases next : index = chain.length
    · subst next
      rw [unbegun] at found
      cases found
    · rw [journaled.temporary index next] at found
      cases found
  | candidate index =>
    have inside : index < manifest.targets.length := by
      by_contra beyond
      rw [journaled.noCandidate index (not_lt.mp beyond)] at found
      cases found
    have known : isArtifactName (Entry.candidate index).name "candidate" = true :=
      isArtifactName_generatedName "candidate" (inside.trans_le few)
    exact charge_artifact (.inl known) (fun _ => ⟨nofun, nofun⟩) nofun (journaled.candidate index item found) cumulative
  | backup index =>
    have inside : index < manifest.targets.length := by
      by_contra beyond
      rw [journaled.noBackup index (not_lt.mp beyond)] at found
      cases found
    have known : isArtifactName (Entry.backup index).name "backup" = true :=
      isArtifactName_generatedName "backup" (inside.trans_le few)
    exact charge_artifact (.inr known) (fun _ => ⟨nofun, nofun⟩) nofun (journaled.backup index item found) cumulative

/-- A recorded directory is not valid once completed only for the recovery limit. -/
theorem validateCompletedContents_error (holds : Holds children contents)
    (journaled : Journaled crates manifest chain contents) (sound : SoundChain crates manifest chain)
    (encodes : manifest.Encodes crates) (unbegun : contents (.temporary chain.length) = none) {error : FsError}
    (refused : validateCompletedContents crates children id 0 {} = .error error) : error.IsRecoveryLimit := by
  apply @foldlM_charges_error _ (fun entry => entry.2.length) _ _ _ _ _ refused
  rintro ⟨name, item⟩ member cumulative
  exact validateCompletedEntry_eq holds journaled sound encodes unbegun (mem_toList.mp member) cumulative

/-- A recorded directory is valid once completed exactly when its files fit the recovery limit. -/
theorem validateCompletedContents_eq_ok (holds : Holds children contents)
    (journaled : Journaled crates manifest chain contents) (sound : SoundChain crates manifest chain)
    (encodes : manifest.Encodes crates) (unbegun : contents (.temporary chain.length) = none) {total : ℕ} :
    validateCompletedContents crates children id 0 {} = .ok total ↔
      total = directoryBytes children ∧ directoryBytes children ≤ maxRecoveryBytes := by
  rw [validateCompletedContents, @foldlM_charges _ (fun entry => entry.2.length) _ _ ?_ _ _ (Nat.zero_le _), Nat.zero_add]
  · rfl
  · rintro ⟨name, item⟩ member cumulative
    exact validateCompletedEntry_eq holds journaled sound encodes unbegun (mem_toList.mp member) cumulative

end Validation

end Srcmv.Fs
