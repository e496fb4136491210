import Srcmv.Proofs.Fs.CrashInPublication
import Srcmv.Soundness.ManifestBuilding

/-! # Record publication that is cut short

While the temporary of a record stands in the directory, the next scan accepts the directory exactly
when the temporary holds the whole record. This covers the three places in which a temporary can
stand: alone, beside a manifest without states, and beside a chain of states.
-/

namespace Srcmv.Fs

open Srcmv.Core Machine

/-- A directory with the records of a chain in which the next record has not been begun. Artifacts
appear only after the first state. -/
structure Recorded (crates : Crates) (manifest : Manifest) (chain : List StateSnapshot) (children : NameMap Item)
    (contents : Entry → Option Item) : Prop where
  encodes : manifest.Encodes crates
  holds : Holds children contents
  journaled : Journaled crates manifest chain contents
  sound : SoundChain crates manifest chain
  unbegun : contents (.temporary chain.length) = none
  bare : chain = [] → ∀ index, contents (.candidate index) = none ∧ contents (.backup index) = none

/-- The engine publishes a record in the only active transaction; a crash after `count` steps leaves
`stopped count`. -/
inductive PublicationRun (setting : Setting) (world : World) (id : String) : Bytes → (ℕ → World) → Prop
  | manifest {manifest : Manifest} {object : ControlObject} {encoded : Bytes}
      (only : OnlyActive world.control id object ∅) (same : manifest.transactionId = id)
      (encodes : encodeManifestRecord setting.crates manifest {} = .ok encoded) :
      PublicationRun setting world id encoded fun count =>
        ((createJournal setting id manifest).run (Oracle.crashAfter count) ⟨world, []⟩).2.world
  | state {manifest : Manifest} {object : ControlObject} {children : NameMap Item} {chain : List StateSnapshot}
      {contents : Entry → Option Item} {journal : TransactionJournal} {state : StateSnapshot}
      {accepted : AcceptedState} (only : OnlyActive world.control id object children)
      (same : manifest.transactionId = id) (recorded : Recorded setting.crates manifest chain children contents)
      (reflects : Reflects setting.crates manifest chain journal)
      (accept : journal.acceptState setting.crates state = .ok accepted) :
      PublicationRun setting world id accepted.encoded fun count =>
        ((publishState setting journal state).run (Oracle.crashAfter count) ⟨world, []⟩).2.world

variable {setting : Setting} {world : World} {id : String} {object : ControlObject} {children : NameMap Item}

/-- The checks of an encodable manifest take no step. -/
private theorem createJournal_run {manifest : Manifest} (encodes : manifest.Encodes setting.crates)
    (oracle : Oracle Site) :
    ((createJournal setting manifest.transactionId manifest).run oracle ⟨world, []⟩).2 =
      ((publishRecord setting manifest.transactionId "manifest.tmp" "manifest.rec"
        (manifestRecord setting.crates manifest) none).run oracle ⟨world, []⟩).2 := by
  have encoded := (encodeManifestRecord_eq_ok setting.crates).mpr ⟨encodes, rfl⟩
  have disk := encodes.disk
  have limit : maxTransactionDiskBytes ≤ u64Max := by norm_num [maxTransactionDiskBytes, u64Max]
  have projected : projectedArtifactBytes manifest {} = .ok manifest.artifactBytes :=
    projectedArtifactBytes_eq_ok.mpr ⟨rfl, by omega⟩
  unfold createJournal
  rw [Except.rejectIf_of_not (fun different => different rfl), Process.ofExcept_ok_bind, encodes.valid,
    Process.ofExcept_ok_bind, encoded, Process.ofExcept_ok_bind, projected, Process.ofExcept_ok_bind,
    Except.rejectIf_of_not (by omega), Process.ofExcept_ok_bind, recordChecksum_manifestRecord,
    Process.ofExcept_ok_bind, Process.run_bind_pure]

/-- An accepted state is published at once. -/
private theorem publishState_run {journal : TransactionJournal} {state : StateSnapshot} {accepted : AcceptedState}
    (accept : journal.acceptState setting.crates state = .ok accepted) (oracle : Oracle Site) :
    ((publishState setting journal state).run oracle ⟨world, []⟩).2 =
      ((publishRecord setting journal.directory (stateName state.sequence.toNat "tmp")
        (stateName state.sequence.toNat "rec") accepted.encoded (some state)).run oracle ⟨world, []⟩).2 := by
  unfold publishState acceptedOrRefused
  rw [accept]
  dsimp only
  rw [Process.pure_bind, Process.run_bind_pure]

/-- Before the manifest is published. -/
private theorem manifest_cut {manifest : Manifest} (only : OnlyActive world.control manifest.transactionId object ∅)
    (encodes : manifest.Encodes setting.crates) {count : ℕ} (created : 1 ≤ count)
    (unpublished : count ≤ (manifestRecord setting.crates manifest).length + 3) :
    ∃ contents, ∃ children, OnlyActive
        (((createJournal setting manifest.transactionId manifest).run (Oracle.crashAfter count) ⟨world, []⟩).2.world).control
        manifest.transactionId object children ∧
      Holds children contents ∧ Unpublished contents ∧
      HasBytes (contents .manifestTemporary) ((manifestRecord setting.crates manifest).take (count - 1)) := by
  refine ⟨Function.update (fun _ => none) .manifestTemporary
    (some (writtenItem (setting.newIdentity "manifest.tmp") ((manifestRecord setting.crates manifest).take (count - 1)))),
    _, ?_, Holds.empty.alter .manifestTemporary _, ⟨fun entry other => Function.update_of_ne other _ _⟩, _,
    Function.update_self _ _ _, rfl⟩
  rw [createJournal_run encodes, publishRecord_crashAfter only.isActive
    (by rw [World.item?_artifact only, Std.ExtTreeMap.getElem?_empty]) created unpublished]
  exact World.children_place_artifact only

/-- Before a state is published. -/
private theorem state_cut {manifest : Manifest} {chain : List StateSnapshot} {contents : Entry → Option Item}
    {journal : TransactionJournal} {state : StateSnapshot} {accepted : AcceptedState}
    (only : OnlyActive world.control manifest.transactionId object children)
    (recorded : Recorded setting.crates manifest chain children contents)
    (reflects : Reflects setting.crates manifest chain journal)
    (accept : journal.acceptState setting.crates state = .ok accepted) {count : ℕ} (created : 1 ≤ count)
    (unpublished : count ≤ accepted.encoded.length + 3) :
    ∃ contents', ∃ children', OnlyActive
        (((publishState setting journal state).run (Oracle.crashAfter count) ⟨world, []⟩).2.world).control
        manifest.transactionId object children' ∧
      Holds children' contents' ∧ Journaled setting.crates manifest chain contents' ∧
      HasBytes (contents' (.temporary chain.length)) ((stateRecord setting.crates state).take (count - 1)) ∧
      ∀ index, contents' (.candidate index) = contents (.candidate index) ∧
        contents' (.backup index) = contents (.backup index) := by
  obtain ⟨extension, _, rfl⟩ := (acceptState_eq_ok reflects).mp accept
  have sequence : state.sequence.toNat = chain.length :=
    (recorded.sound.extend extension).sequence chain.length state (by
      rw [List.getElem?_append_right le_rfl, Nat.sub_self]; rfl)
  refine ⟨Function.update contents (.temporary chain.length) (some (writtenItem
      (setting.newIdentity (stateName chain.length "tmp")) ((stateRecord setting.crates state).take (count - 1)))),
    _, ?_, recorded.holds.alter (.temporary chain.length) _, recorded.journaled.begin _,
    ⟨_, Function.update_self _ _ _, rfl⟩,
    fun index => ⟨Function.update_of_ne (by simp) _ _, Function.update_of_ne (by simp) _ _⟩⟩
  rw [publishState_run accept, reflects.directory, sequence,
    publishRecord_crashAfter only.isActive
      (by rw [World.item?_artifact only]; exact (recorded.holds.entry (.temporary chain.length)).trans recorded.unbegun)
      created unpublished]
  exact World.children_place_artifact only

/-- The recovery of the transaction starts: its directory is classified as an active one. -/
def RecoveryStarts (crates : Crates) (tree : ControlTree) (id : String) : Prop :=
  ∃ entry, recoveryEntry crates tree id = .ok entry ∧ entry.kind ≠ .cleanupOnly

private theorem not_recoveryStarts {crates : Crates} {tree : ControlTree} (only : OnlyActive tree id object children)
    (corrupted : Corrupt id (inspectActiveTransaction crates children id 0 {})) : ¬RecoveryStarts crates tree id := by
  rintro ⟨entry, found, _⟩
  obtain ⟨reason, failed⟩ := recoveryEntry_corrupt only corrupted
  rw [failed] at found
  cases found

private theorem recoveryStarts {crates : Crates} {tree : ControlTree} (only : OnlyActive tree id object children)
    {entry : RecoveryEntry} {total : ℕ}
    (inspected : inspectActiveTransaction crates children id 0 {} = .ok (entry, total))
    (same : entry.transactionId = id) (kind : entry.kind ≠ .cleanupOnly) : RecoveryStarts crates tree id :=
  ⟨entry, recoveryEntry_active only inspected same, kind⟩

private theorem manifest_crash {manifest : Manifest} (only : OnlyActive world.control manifest.transactionId object ∅)
    (encodes : manifest.Encodes setting.crates) {count : ℕ} (created : 1 ≤ count)
    (unpublished : count ≤ (manifestRecord setting.crates manifest).length + 3) :
    RecoveryStarts setting.crates
        (((createJournal setting manifest.transactionId manifest).run (Oracle.crashAfter count) ⟨world, []⟩).2.world).control
        manifest.transactionId ↔
      (manifestRecord setting.crates manifest).length + 1 ≤ count := by
  obtain ⟨contents, children, left, holds, unpublishedContents, written⟩ := manifest_cut only encodes created unpublished
  have size := encodes.size
  have limit : maxRecordBytes ≤ maxRecoveryBytes := by norm_num [maxRecordBytes, maxRecoveryBytes]
  rcases Nat.lt_or_ge (count - 1) (manifestRecord setting.crates manifest).length with cut | whole
  · refine iff_of_false (not_recoveryStarts left ?_) (by omega)
    exact inspect_orphan_partial unpublishedContents holds encodes cut written (by omega)
  · refine iff_of_true ?_ (by omega)
    rw [List.take_of_length_le whole] at written
    exact recoveryStarts left (inspect_orphan_complete unpublishedContents holds encodes written (by omega)) rfl fun same => by cases same

private theorem state_crash {manifest : Manifest} {chain : List StateSnapshot} {contents : Entry → Option Item}
    {journal : TransactionJournal} {state : StateSnapshot} {accepted : AcceptedState}
    (only : OnlyActive world.control manifest.transactionId object children)
    (recorded : Recorded setting.crates manifest chain children contents)
    (reflects : Reflects setting.crates manifest chain journal)
    (accept : journal.acceptState setting.crates state = .ok accepted) {count : ℕ} (created : 1 ≤ count)
    (unpublished : count ≤ accepted.encoded.length + 3) :
    RecoveryStarts setting.crates
        (((publishState setting journal state).run (Oracle.crashAfter count) ⟨world, []⟩).2.world).control
        manifest.transactionId ↔
      accepted.encoded.length + 1 ≤ count := by
  obtain ⟨contents', children', left, holds, journaled, written, artifacts⟩ :=
    state_cut only recorded reflects accept created unpublished
  obtain ⟨extension, _, rfl⟩ := (acceptState_eq_ok reflects).mp accept
  have sound := recorded.sound.extend extension
  have within := sound.records_within recorded.encodes
  rw [chainBytes_concat] at within
  change RecoveryStarts _ _ _ ↔ (stateRecord setting.crates state).length + 1 ≤ count
  cases final : chain.getLast? with
  | none =>
    obtain rfl := List.getLast?_eq_none_iff.mp final
    have bare := recorded.bare rfl
    have lone : ManifestOnly setting.crates manifest contents' :=
      ⟨journaled, fun index => (artifacts index).1.trans (bare index).1,
        fun index => (artifacts index).2.trans (bare index).2⟩
    rcases Nat.lt_or_ge (count - 1) (stateRecord setting.crates state).length with cut | whole
    · refine iff_of_false (not_recoveryStarts left ?_) (by omega)
      exact inspect_manifestOnly_partial holds lone recorded.encodes extension.encodes cut written (by omega)
    · refine iff_of_true ?_ (by omega)
      rw [List.take_of_length_le whole] at written
      exact recoveryStarts left (inspect_manifestOnly_complete holds lone recorded.encodes sound written (by omega))
        rfl fun same => by cases same
  | some last =>
    rcases Nat.lt_or_ge (count - 1) (stateRecord setting.crates state).length with cut | whole
    · refine iff_of_false (not_recoveryStarts left ?_) (by omega)
      exact inspect_chain_partial holds journaled recorded.encodes sound final cut written (by omega)
    · refine iff_of_true ?_ (by omega)
      rw [List.take_of_length_le whole] at written
      exact recoveryStarts left (inspect_chain_complete holds journaled recorded.encodes sound final written (by omega))
        rfl fun same => by cases same

/-- After a crash between the creation of a record's temporary and its rename, the recovery of the
transaction starts exactly when the whole record had been written. -/
theorem recovery_starts_iff_record_written {encoded : Bytes} {stopped : ℕ → World}
    (publication : PublicationRun setting world id encoded stopped) {count : ℕ} (created : 1 ≤ count)
    (unpublished : count ≤ encoded.length + 3) :
    RecoveryStarts setting.crates (stopped count).control id ↔ encoded.length + 1 ≤ count := by
  cases publication with
  | manifest only same encodes =>
    subst same
    obtain ⟨encodable, rfl⟩ := (encodeManifestRecord_eq_ok setting.crates).mp encodes
    exact manifest_crash only encodable created unpublished
  | state only same recorded reflects accept =>
    subst same
    exact state_crash only recorded reflects accept created unpublished

/-- The manifest of the sample is published in its fresh directory. -/
private theorem sample_publication : PublicationRun Sample.setting Sample.world Sample.transactionId
    (manifestRecord Sample.setting.crates Sample.manifest) fun count =>
      ((createJournal Sample.setting Sample.transactionId Sample.manifest).run (Oracle.crashAfter count)
        ⟨Sample.world, []⟩).2.world :=
  .manifest Sample.onlyActive rfl
    ((encodeManifestRecord_eq_ok Sample.setting.crates).mpr ⟨Sample.manifest_encodes, rfl⟩)

/-- A crash right after the last byte of the manifest does not block the recovery. -/
theorem recovery_starts_after_whole_record :
    RecoveryStarts Sample.setting.crates
      ((createJournal Sample.setting Sample.transactionId Sample.manifest).run
        (Oracle.crashAfter ((manifestRecord Sample.setting.crates Sample.manifest).length + 1))
          ⟨Sample.world, []⟩).2.world.control Sample.transactionId := by
  -- For any process, since the kernel would run the one of the sample to compare the worlds.
  have starts : ∀ {α : Type} (process : Engine α) {encoded : Bytes},
      PublicationRun Sample.setting Sample.world Sample.transactionId encoded
        (fun count => (process.run (Oracle.crashAfter count) ⟨Sample.world, []⟩).2.world) → ∀ count, 1 ≤ count →
          count ≤ encoded.length + 3 → (RecoveryStarts Sample.setting.crates
            (process.run (Oracle.crashAfter count) ⟨Sample.world, []⟩).2.world.control Sample.transactionId ↔
              encoded.length + 1 ≤ count) :=
    fun _ _ publication _ created unpublished => recovery_starts_iff_record_written publication created unpublished
  exact (starts _ sample_publication _ (Nat.le_add_left _ _) (by omega)).mpr le_rfl

/-- An empty temporary is not a record. -/
private theorem empty_temporary_blocks {manifest : Manifest} (only : OnlyActive world.control id object ∅)
    (same : manifest.transactionId = id) (encodes : manifest.Encodes setting.crates) :
    ¬RecoveryStarts setting.crates
      ((createJournal setting id manifest).run (Oracle.crashAfter 1) ⟨world, []⟩).2.world.control id := by
  subst same
  intro starts
  have length := length_recordBytes setting.crates manifestMagic (toVec manifest.toJson)
  have written := (manifest_crash only encodes le_rfl (by omega)).mp starts
  rw [manifestRecord] at written
  omega

/-- A crash right after the creation of the temporary blocks the recovery for good. -/
theorem recovery_blocked_by_empty_temporary :
    PublicationRun Sample.setting Sample.world Sample.transactionId
      (manifestRecord Sample.setting.crates Sample.manifest) (fun count =>
        ((createJournal Sample.setting Sample.transactionId Sample.manifest).run (Oracle.crashAfter count)
          ⟨Sample.world, []⟩).2.world) ∧
    ¬RecoveryStarts Sample.setting.crates
      ((createJournal Sample.setting Sample.transactionId Sample.manifest).run (Oracle.crashAfter 1)
        ⟨Sample.world, []⟩).2.world.control Sample.transactionId :=
  ⟨sample_publication, empty_temporary_blocks Sample.onlyActive rfl Sample.manifest_encodes⟩

end Srcmv.Fs
