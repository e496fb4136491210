import Srcmv.Proofs.Fs.Finishing

/-! # Creating the journal of a transaction

The manifest and the first state record are published before anything else. Until the first record is
there, the directory holds no state record, the workspace is untouched, and a rollback only removes
the directory.
-/

namespace Srcmv.Fs

open Srcmv.Core Machine Process

variable {allowed : Site → Went → Prop} {rest : World → Prop} {job : Job} {config : Config} {world : World}

/-- The transaction directory has just been created. -/
structure Job.Fresh (job : Job) (world : World) : Prop where
  files : world.files = job.base
  directory : ∃ object, OnlyActive world.control job.manifest.transactionId object ∅
  identities : captureControlIdentities world.control = .ok job.setting.lock
  published : world.published = []
  refusals : world.refusals = []

/-- A directory without state records and without artifacts. -/
structure Stateless (children : NameMap Item) : Prop where
  files : OnlyFiles children
  named : ∀ name ∈ children, name = Entry.manifest.name ∨ name = Entry.manifestTemporary.name ∨ name = (Entry.temporary 0).name

/-- The configuration before any state is recorded. -/
def Job.unrecordedConfig (job : Job) : Config := ⟨[], job.untouched, none⟩

/-- Without a state record the directory is empty or holds the manifest, unless a publication can be cut. -/
def Job.Whole (job : Job) (allowed : Site → Went → Prop) (children : NameMap Item) : Prop :=
  Torn allowed ∨ children = ∅ ∨ Holds children (job.contentsOf job.unrecordedConfig)

/-- No state has been recorded, and the workspace is untouched. -/
structure Job.Unrecorded (job : Job) (allowed : Site → Went → Prop) (world : World) : Prop where
  files : world.files = job.base
  directory : ∃ object children, OnlyActive world.control job.manifest.transactionId object children ∧ Stateless children ∧
    job.Whole allowed children
  published : world.published = []
  refusals : world.refusals = []

/-- A transaction without state records may be left as it is. -/
def Job.LeavesUnrecorded (job : Job) (allowed : Site → Went → Prop) (rest : World → Prop) : Prop :=
  Disturbed allowed → ∀ world, job.Unrecorded allowed world → rest world

namespace Stateless

variable {children : NameMap Item}

theorem empty : Stateless ∅ where
  files name item found := by
    rw [Std.ExtTreeMap.getElem?_empty] at found
    cases found
  named name member := absurd member Std.ExtTreeMap.not_mem_empty

theorem removeFirst (stateless : Stateless children) (count : ℕ) : Stateless (removeFirst count children) where
  files name item found := by
    rw [getElem?_removeFirst] at found
    split at found
    · cases found
    · exact stateless.files name item found
  named name member := by
    rw [Std.ExtTreeMap.mem_iff_isSome_getElem?, getElem?_removeFirst] at member
    split at member
    · cases member
    · exact stateless.named name (Std.ExtTreeMap.mem_iff_isSome_getElem?.mpr member)

theorem of_holds {contents : Entry → Option Item} (holds : Holds children contents)
    (files : ∀ entry, OnlyFile (contents entry))
    (named : ∀ entry, (contents entry).isSome → entry = .manifest ∨ entry = .manifestTemporary ∨ entry = .temporary 0) :
    Stateless children where
  files name item found := by
    have member : name ∈ children := Std.ExtTreeMap.mem_iff_isSome_getElem?.mpr (by rw [found]; rfl)
    obtain ⟨entry, rfl⟩ := holds.named name member
    rw [holds.entry] at found
    exact files entry item found
  named name member := by
    obtain ⟨entry, rfl⟩ := holds.named name member
    exact (named entry (holds.mem_iff.mp member)).imp (congrArg Entry.name) (.imp (congrArg Entry.name) (congrArg Entry.name))

/-- Nothing stands at the other entries. -/
theorem free (stateless : Stateless children) {entry : Entry} (manifest : entry ≠ .manifest)
    (temporary : entry ≠ .manifestTemporary) (first : entry ≠ .temporary 0) : children[entry.name]? = none := by
  apply Std.ExtTreeMap.getElem?_eq_none
  intro member
  rcases stateless.named _ member with same | same | same
  · exact manifest (Entry.name_injective same)
  · exact temporary (Entry.name_injective same)
  · exact first (Entry.name_injective same)

theorem unrecorded (stateless : Stateless children) (name : String) (member : name ∈ children) :
    parseStateName name "rec" = none := by
  cases parsed : parseStateName name "rec" with
  | none => rfl
  | some index =>
    rcases stateless.named name member with rfl | rfl | rfl <;> cases (Entry.parseStateName_rec_name.mp parsed).1

end Stateless

theorem Job.Fresh.unrecorded (fresh : job.Fresh world) : job.Unrecorded allowed world := by
  obtain ⟨object, only⟩ := fresh.directory
  exact ⟨fresh.files, ⟨object, ∅, only, .empty, .inr (.inl rfl)⟩, fresh.published, fresh.refusals⟩

/-- Whatever was written of the first record, no state is recorded yet. -/
theorem Job.Shows.unrecorded (sound : job.Sound) (shows_ : job.Shows config world) (phases : config.phases = [])
    (untouched : ∀ index, config.layout index = job.untouched index) (whole : ∀ children, Holds children (job.contentsOf config) →
      job.Whole allowed children) : job.Unrecorded allowed world := by
  obtain ⟨object, children, only, holds⟩ := shows_.active
  refine ⟨?_, ⟨object, children, only, .of_holds holds ?_ ?_, whole children holds⟩, ?_, shows_.refusals⟩
  · rw [shows_.files]
    apply Job.filesOf_untouched sound
    intro index _
    rw [untouched]
    rfl
  · intro entry item found
    cases entry with
    | manifest => cases found; rfl
    | manifestTemporary => cases found
    | record index => rw [Job.contentsOf, phases] at found; cases found
    | temporary index =>
      rw [Job.contentsOf] at found
      split at found
      · obtain ⟨bytes, -, rfl⟩ := Option.map_eq_some_iff.mp found
        rfl
      · cases found
    | candidate index => rw [Job.contentsOf, untouched] at found; split at found <;> cases found
    | backup index => rw [Job.contentsOf, untouched] at found; split at found <;> cases found
  · intro entry present
    cases entry with
    | manifest => exact .inl rfl
    | manifestTemporary => exact .inr (.inl rfl)
    | record index => rw [Job.contentsOf, phases] at present; cases present
    | temporary index =>
      rw [Job.contentsOf, phases] at present
      split at present
      · next same =>
        subst same
        exact .inr (.inr rfl)
      · cases present
    | candidate index => rw [Job.contentsOf, untouched] at present; split at present <;> cases present
    | backup index => rw [Job.contentsOf, untouched] at present; split at present <;> cases present
  · rw [shows_.published, phases]
    rfl

section Create

variable (sound : job.Sound) (fresh : job.Fresh world) (leaves : job.LeavesUnrecorded allowed rest)

/-- A directory that is otherwise empty, with one file in it. -/
private theorem Job.Fresh.holds (entry : Entry) (item : Item) :
    Holds ((∅ : NameMap Item).alter entry.name fun _ => some item) (Function.update (fun _ => none) entry (some item)) :=
  Holds.empty.alter entry (some item)

include fresh in
/-- While the manifest is written, nothing else stands in the directory. -/
private theorem unrecorded_writing (torn : Torn allowed) (bytes : Bytes) : job.Unrecorded allowed
    (world.place (.artifact job.manifest.transactionId "manifest.tmp")
      (some (writtenItem (job.setting.newIdentity "manifest.tmp") bytes))) := by
  obtain ⟨object, only⟩ := fresh.directory
  refine ⟨fresh.files, ⟨object, _, World.children_place_artifact only, ?_, .inl torn⟩, fresh.published, fresh.refusals⟩
  apply Stateless.of_holds (Job.Fresh.holds .manifestTemporary _)
  · intro entry item found
    by_cases same : entry = .manifestTemporary
    · rw [same, Function.update_self] at found
      cases found
      rfl
    · rw [Function.update_of_ne same] at found
      cases found
  · intro entry present
    by_cases same : entry = .manifestTemporary
    · exact .inr (.inl same)
    · rw [Function.update_of_ne same] at present
      cases present

include fresh sound in
/-- The published manifest alone. -/
private theorem shows_created : job.Shows job.unrecordedConfig
    (world.afterPublication (.artifact job.manifest.transactionId "manifest.tmp")
      (.artifact job.manifest.transactionId "manifest.rec")
      (writtenItem (job.setting.newIdentity "manifest.tmp") (manifestRecord job.crates job.manifest)) none) := by
  obtain ⟨object, only⟩ := fresh.directory
  refine ⟨?_, ⟨object, _, World.children_place_artifact (World.children_place_artifact only), ?_⟩, fresh.identities, ?_,
    fresh.refusals⟩
  · change world.files = _
    rw [fresh.files]
    exact (Job.filesOf_untouched sound fun _ _ => rfl).symm
  · have contents : job.contentsOf job.unrecordedConfig =
        Function.update (Function.update (fun _ => none) .manifestTemporary none) .manifest
          (some (job.recordItem "manifest.tmp" (manifestRecord job.crates job.manifest))) := by
      funext entry
      cases entry with
      | manifest => rw [Function.update_self]; rfl
      | manifestTemporary => rw [Function.update_of_ne (by simp), Function.update_self]; rfl
      | record index => rw [Function.update_of_ne (by simp), Function.update_of_ne (by simp)]; rfl
      | temporary index => rw [Function.update_of_ne (by simp), Function.update_of_ne (by simp)]; exact ite_self _
      | candidate index => rw [Function.update_of_ne (by simp), Function.update_of_ne (by simp)]; exact ite_self _
      | backup index => rw [Function.update_of_ne (by simp), Function.update_of_ne (by simp)]; exact ite_self _
    rw [contents]
    exact (Holds.empty.alter .manifestTemporary none).alter .manifest _
  · change world.published ++ _ = _
    rw [fresh.published]
    rfl

include sound fresh leaves in
/-- Creating the journal publishes the manifest. -/
theorem createJournal_triple : Triple allowed (· = world)
    (createJournal job.setting job.manifest.transactionId job.manifest)
    (Ends FsError.IsSystem (Returns (job.journalOf []) (job.Shows job.unrecordedConfig)) rest) := by
  obtain ⟨object, only⟩ := fresh.directory
  have encodes := sound.encodes
  have disk := encodes.disk
  have limit : maxTransactionDiskBytes ≤ u64Max := by norm_num [maxTransactionDiskBytes, u64Max]
  have free : ∀ name, world.item? (.artifact job.manifest.transactionId name) = none := by
    intro name
    rw [World.item?_artifact only, Std.ExtTreeMap.getElem?_empty]
  have reaches : ∀ name, world.Reaches (.artifact job.manifest.transactionId name) := fun _ => only.isActive
  have created := shows_created sound fresh
  rw [createJournal, Except.rejectIf_of_not (fun different => different rfl), ofExcept_ok_bind, encodes.valid,
    ofExcept_ok_bind, (encodeManifestRecord_eq_ok job.crates).mpr ⟨encodes, rfl⟩, ofExcept_ok_bind,
    projectedArtifactBytes_eq_ok.mpr ⟨rfl, by omega⟩, ofExcept_ok_bind, Except.rejectIf_of_not (by omega), ofExcept_ok_bind,
    recordChecksum_manifestRecord, ofExcept_ok_bind]
  apply (publishRecord_triple reaches (by decide) (free _) (free _) ?_ ?_ ?_).proceeds
  · rintro _ later ⟨-, rfl⟩
    apply Triple.returns
    refine ⟨?_, created⟩
    rw [Job.journalOf, journalOf]
    rfl
  · exact fun disturbed => leaves disturbed world fresh.unrecorded
  · exact fun torn count => leaves torn.disturbed _ (unrecorded_writing fresh torn _)
  · exact fun disturbed => leaves disturbed _ (created.unrecorded sound rfl (fun _ => rfl) fun _ holds => .inr (.inr holds))

/-- The first state is that of the first phase. -/
private theorem initialState_eq (sound : job.Sound) : initialState job.manifest (manifestChecksum job.crates job.manifest) =
    stateAfter job.crates job.manifest job.course [] Phase.start := by
  have targets : (job.manifest.targets.map fun target => untouchedTargetState target.targetIndex) =
      Phase.start.targets job.course := by
    apply List.ext_getElem?
    intro index
    rw [List.getElem?_map]
    cases here : job.manifest.targets[index]? with
    | none =>
      rw [List.getElem?_eq_none (by rw [Phase.length_targets]; exact List.getElem?_eq_none_iff.mp here)]
      rfl
    | some target =>
      have inside : index < job.course.count := (List.getElem?_eq_some_iff.mp here).1
      have unrestored : ¬Phase.start.Restored job.course index := not_le.mpr inside
      rw [Phase.getElem?_targets inside, Option.map_some, untouchedTargetState,
        (sound.valid.target index target here).targetIndex, Phase.target, Phase.candidate_of_le (Nat.zero_le _),
        Phase.commit_untouched (Nat.zero_le _) fun _ => rfl, Phase.rollback_none unrestored]
  rw [initialState, targets]
  rfl

include sound leaves in
/-- Publishing the first state makes the transaction a running one. -/
theorem publishFirst_triple (leavesRunning : job.Leaves allowed rest) (created : job.Shows job.unrecordedConfig world) :
    Triple allowed (· = world)
      (publishState job.setting (job.journalOf [])
        (initialState job.manifest (manifestChecksum job.crates job.manifest)))
      (Ends FsError.IsSystem (fun result later =>
        job.Preparing 0 ⟨result.1, ⟨initialState job.manifest (manifestChecksum job.crates job.manifest), result.2⟩⟩ later
          (job.unrecordedConfig.record Phase.start)) rest) := by
  have of := sound.course_of
  have untouched : ∀ index, job.unrecordedConfig.layout index = job.untouched index := fun _ => rfl
  have starting : job.preparedTo 0 = Phase.start := by
    rw [Job.preparedTo, if_neg of.positive.ne]
    rfl
  rw [initialState_eq sound]
  apply (publishState_triple sound created rfl SoundChain.nil (start_extends of) ?_ ?_ ?_).weaken
  · rintro ⟨journal, checksum⟩ later ⟨same, published⟩
    cases same
    refine ⟨published, rfl, ?_, ⟨fun index impossible => absurd impossible (Nat.not_lt_zero _), fun _ _ => rfl⟩⟩
    rw [starting]
    exact ⟨.start, rfl, ⟨[], rfl, rfl⟩, rfl⟩
  · exact fun _ stopped => stopped
  · exact fun disturbed => leaves disturbed world (created.unrecorded sound rfl untouched fun _ holds => .inr (.inr holds))
  · exact fun torn count later written => leaves torn.disturbed later (written.unrecorded sound rfl untouched fun _ _ => .inl torn)
  · intro disturbed later published
    refine leavesRunning disturbed _ Phase.start later (.of published rfl .start ?_)
    intro index inside
    exact ⟨.untouched, .inr ⟨Nat.zero_le _, .inl rfl⟩, rfl⟩

end Create

end Srcmv.Fs
