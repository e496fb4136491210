import Srcmv.Proofs.Fs.Moving

/-! # Publishing the next record

A record is published by way of a temporary. A session follows the phases recorded so far; publishing
the record of a next phase is accepted, and stopped early it leaves the old records, with a prefix of
the new one as a temporary if the publication itself can be cut, or the new record.
-/

namespace Srcmv.Fs

open Srcmv.Core Machine Process

/-- The environment may disturb the publication of a record once its temporary exists. -/
def Torn (allowed : Site → Went → Prop) : Prop := ∃ operation, Disturbs allowed (.publication operation)

theorem Torn.disturbed {allowed : Site → Went → Prop} (torn : Torn allowed) : Disturbed allowed :=
  torn.imp' Site.publication fun _ disturbs => disturbs

variable {allowed : Site → Went → Prop} {rest : World → Prop} {world : World}

/-- A world after a record was published. -/
def World.afterPublication (world : World) (temporary published : Location) (item : Item) (record : Option StateSnapshot) :
    World :=
  let placed := (world.place temporary none).place published (some item)
  { placed with published := placed.published ++ record.toList }

theorem publishRecord_triple {setting : Setting} {directory temporary published : String} {bytes : Bytes}
    {record : Option StateSnapshot} (reaches : ∀ name, world.Reaches (.artifact directory name))
    (different : temporary ≠ published) (free : world.item? (.artifact directory temporary) = none)
    (unpublished : world.item? (.artifact directory published) = none)
    (before : Disturbed allowed → rest world)
    (torn : Torn allowed → ∀ count, rest (world.place (.artifact directory temporary)
      (some (writtenItem (setting.newIdentity temporary) (bytes.take count)))))
    (after : Disturbed allowed → rest (world.afterPublication (.artifact directory temporary)
      (.artifact directory published) (writtenItem (setting.newIdentity temporary) bytes) record)) :
    Triple allowed (· = world) (publishRecord setting directory temporary published bytes record)
      (Ends FsError.IsSystem (Exactly () (world.afterPublication (.artifact directory temporary)
        (.artifact directory published) (writtenItem (setting.newIdentity temporary) bytes) record)) rest) := by
  have creation : world.createNew (.artifact directory temporary) (setting.newIdentity temporary)
      (.io "create_record_temporary" none) =
        .ok ((), world.place (.artifact directory temporary) (some (writtenItem (setting.newIdentity temporary) []))) := by
    rw [World.createNew, free]
    rfl
  have whole (operation : String) (disturbed : Disturbs allowed (.publication operation)) :
      rest (world.place (.artifact directory temporary) (some (writtenItem (setting.newIdentity temporary) bytes))) := by
    have cut := torn ⟨operation, disturbed⟩ bytes.length
    rwa [List.take_length] at cut
  rw [publishRecord, io]
  apply Triple.actsThen creation (isIo _ _)
  · exact fun disturbed => before ⟨_, disturbed⟩
  apply (writeAll_triple (reaches temporary) bytes []).exactlyThen
  · rintro later ⟨disturbed, count, rfl⟩
    exact torn ⟨_, disturbed⟩ count
  rw [List.nil_append]
  apply settle_triple.exactlyThen
  · rintro later ⟨disturbed, rfl⟩
    exact whole _ disturbed
  apply settle_triple.exactlyThen
  · rintro later ⟨disturbed, rfl⟩
    exact whole _ disturbed
  have publication : (world.place (.artifact directory temporary) (some (writtenItem (setting.newIdentity temporary)
      bytes))).publish directory temporary published record =
        .ok ((), world.afterPublication (.artifact directory temporary) (.artifact directory published)
          (writtenItem (setting.newIdentity temporary) bytes) record) := by
    rw [World.publish, World.renameNoReplace, World.item?_place_self (reaches temporary),
      World.item?_place_ne (by simpa using different.symm), unpublished]
    dsimp only
    rw [World.place_place]
    rfl
  apply Triple.actsThen publication (isIo _ _)
  · exact fun disturbed => whole _ disturbed
  exact settle_safely after

/-- The world while the next record is written shows the part that is there. -/
def Config.writing (config : Config) (bytes : Bytes) : Config := { config with temporary := some bytes }

variable {job : Job} {config : Config}

section Contents

private theorem chain_concat (phases : List Phase) (phase : Phase) :
    job.chain (phases ++ [phase]) =
      job.chain phases ++ [stateAfter job.crates job.manifest job.course (job.chain phases) phase] :=
  chainOf_concat

private theorem length_chain (phases : List Phase) : (job.chain phases).length = phases.length := length_chainOf

private theorem contentsOf_writing (bytes : Bytes) : job.contentsOf (config.writing bytes) =
    Function.update (job.contentsOf config) (.temporary config.phases.length)
      (some (job.recordItem (stateName config.phases.length "tmp") bytes)) := by
  funext entry
  cases entry with
  | temporary index =>
    by_cases same : index = config.phases.length
    · subst same
      simp [Job.contentsOf, Config.writing]
    · rw [Function.update_of_ne (by simpa using same)]
      simp [Job.contentsOf, Config.writing, same]
  | _ => rw [Function.update_of_ne (by simp)]; rfl

private theorem contentsOf_record (unbegun : config.temporary = none) (phase : Phase) :
    job.contentsOf (config.record phase) =
      Function.update (Function.update (job.contentsOf config) (.temporary config.phases.length) none)
        (.record config.phases.length) (some (job.recordItem (stateName config.phases.length "tmp")
          (stateRecord job.crates (stateAfter job.crates job.manifest job.course (job.chain config.phases) phase)))) := by
  funext entry
  cases entry with
  | temporary index =>
    rw [Function.update_of_ne (by simp)]
    by_cases same : index = config.phases.length
    · subst same
      simp [Job.contentsOf, Config.record]
    · rw [Function.update_of_ne (by simpa using same)]
      simp [Job.contentsOf, Config.record, unbegun]
  | record index =>
    have length : (job.chain config.phases).length = config.phases.length := length_chain _
    by_cases same : index = config.phases.length
    · subst same
      rw [Function.update_self]
      simp only [Job.contentsOf, Config.record, chain_concat]
      rw [List.getElem?_append_right length.le, length, Nat.sub_self]
      rfl
    · rw [Function.update_of_ne (by simpa using same), Function.update_of_ne (by simp)]
      simp only [Job.contentsOf, Config.record, chain_concat]
      rcases Nat.lt_or_ge index config.phases.length with before | beyond
      · rw [List.getElem?_append_left (by omega)]
      · rw [List.getElem?_eq_none (by rw [List.length_append, List.length_singleton]; omega),
          List.getElem?_eq_none (by omega)]
  | _ => rw [Function.update_of_ne (by simp), Function.update_of_ne (by simp)]; rfl

namespace Job.Shows

theorem reachesArtifact (shows_ : job.Shows config world) (name : String) :
    world.Reaches (.artifact job.manifest.transactionId name) := by
  obtain ⟨object, children, only, -⟩ := shows_.active
  exact only.isActive

theorem entry (shows_ : job.Shows config world) (entry : Entry) :
    world.item? (.artifact job.manifest.transactionId entry.name) = job.contentsOf config entry := by
  obtain ⟨object, children, only, holds⟩ := shows_.active
  rw [World.item?_artifact only]
  exact holds.entry entry

/-- Writing the next record. -/
theorem writing (shows_ : job.Shows config world) (bytes : Bytes) :
    job.Shows (config.writing bytes)
      (world.place (.artifact job.manifest.transactionId (stateName config.phases.length "tmp"))
        (some (writtenItem (job.setting.newIdentity (stateName config.phases.length "tmp")) bytes))) := by
  obtain ⟨object, children, only, holds⟩ := shows_.active
  refine ⟨?_, ⟨object, _, World.children_place_artifact only, ?_⟩, shows_.identities, shows_.published, shows_.refusals⟩
  · exact shows_.files
  · rw [contentsOf_writing]
    exact holds.alter (.temporary config.phases.length) _

/-- Publishing the next record. -/
theorem recorded (shows_ : job.Shows config world) (unbegun : config.temporary = none) (phase : Phase) :
    job.Shows (config.record phase)
      (world.afterPublication (.artifact job.manifest.transactionId (stateName config.phases.length "tmp"))
        (.artifact job.manifest.transactionId (stateName config.phases.length "rec"))
        (writtenItem (job.setting.newIdentity (stateName config.phases.length "tmp"))
          (stateRecord job.crates (stateAfter job.crates job.manifest job.course (job.chain config.phases) phase)))
        (some (stateAfter job.crates job.manifest job.course (job.chain config.phases) phase))) := by
  obtain ⟨object, children, only, holds⟩ := shows_.active
  refine ⟨?_, ⟨object, _, World.children_place_artifact (World.children_place_artifact only), ?_⟩, shows_.identities, ?_,
    shows_.refusals⟩
  · exact shows_.files
  · rw [contentsOf_record unbegun]
    exact (holds.alter (.temporary config.phases.length) none).alter (.record config.phases.length) _
  · change world.published ++ _ = _
    rw [shows_.published]
    exact (chain_concat _ _).symm

end Job.Shows

end Contents

section Sessions

/-- The journal of the records of a transaction. -/
abbrev Job.journalOf (job : Job) (chain : List StateSnapshot) : TransactionJournal := Srcmv.Fs.journalOf job.crates job.manifest chain

private theorem accepted_journalOf (chain : List StateSnapshot) (state : StateSnapshot) :
    (acceptedState job.crates (job.journalOf chain) state).journal = job.journalOf (chain ++ [state]) := by
  simp only [acceptedState, journalOf, chainBytes_concat, List.getLast?_concat, Option.map_some, Nat.add_assoc]

/-- The session of a transaction whose last recorded phase is this one. -/
structure Job.Follows (job : Job) (session : Session) (phases : List Phase) (phase : Phase) : Prop where
  path : Path job.course phases phase
  journal : session.journal = job.journalOf (job.chain phases)
  last : ∃ earlier, phases = earlier ++ [phase] ∧
    session.progress.state = stateAfter job.crates job.manifest job.course (job.chain earlier) phase
  checksum : session.progress.checksum = checksumText (stateDigest job.crates session.progress.state)

theorem Job.Follows.records {session : Session} {phases : List Phase} {phase : Phase}
    (follows : job.Follows session phases phase) : job.Records session.progress.state phase := by
  obtain ⟨earlier, -, state⟩ := follows.last
  rw [state]
  exact ⟨rfl, rfl⟩

/-- A state that extends the records is accepted: there is room for it. -/
theorem acceptState_ok (sound : job.Sound) {phases : List Phase} {state : StateSnapshot}
    (extension : Extends job.crates job.manifest (job.chain phases) state) :
    (job.journalOf (job.chain phases)).acceptState job.crates state =
      .ok (acceptedState job.crates (job.journalOf (job.chain phases)) state) := by
  have manifestSize := sound.encodes.size
  have artifacts := sound.room
  have records := extension.bytes
  apply (acceptState_eq_ok (reflects_journalOf _)).mpr
  refine ⟨extension, ?_, rfl⟩
  have fits : 2 * 1024 * 1024 * 1024 + maxRecordBytes + maxStateBytes ≤ maxTransactionDiskBytes := by
    norm_num [maxRecordBytes, maxStateBytes, maxTransactionDiskBytes]
  omega

/-- Publishing a state that extends the records. -/
theorem publishState_triple (sound : job.Sound) (shows_ : job.Shows config world) (unbegun : config.temporary = none)
    {phase : Phase} (chained : SoundChain job.crates job.manifest (job.chain config.phases))
    (extension : Extends job.crates job.manifest (job.chain config.phases)
      (stateAfter job.crates job.manifest job.course (job.chain config.phases) phase))
    (before : Disturbed allowed → rest world)
    (torn : Torn allowed → ∀ count later, job.Shows (config.writing ((stateRecord job.crates
      (stateAfter job.crates job.manifest job.course (job.chain config.phases) phase)).take count)) later → rest later)
    (after : Disturbed allowed → ∀ later, job.Shows (config.record phase) later → rest later) :
    Triple allowed (· = world)
      (publishState job.setting (job.journalOf (job.chain config.phases))
        (stateAfter job.crates job.manifest job.course (job.chain config.phases) phase))
      (Ends FsError.IsSystem (Returns (job.journalOf (job.chain (config.phases ++ [phase])), checksumText (stateDigest job.crates
        (stateAfter job.crates job.manifest job.course (job.chain config.phases) phase)))
        (job.Shows (config.record phase))) rest) := by
  have sequence : (stateAfter job.crates job.manifest job.course (job.chain config.phases) phase).sequence.toNat =
      config.phases.length := by
    rw [← length_chain config.phases]
    exact (chained.extend extension).sequence _ _ (by rw [List.getElem?_append_right le_rfl, Nat.sub_self]; rfl)
  have different : stateName config.phases.length "tmp" ≠ stateName config.phases.length "rec" :=
    (stateName_rec_ne_tmp _ _).symm
  have free : world.item? (.artifact job.manifest.transactionId (stateName config.phases.length "tmp")) = none := by
    rw [show stateName config.phases.length "tmp" = (Entry.temporary config.phases.length).name from rfl, shows_.entry]
    simp [Job.contentsOf, unbegun]
  have unpublished : world.item? (.artifact job.manifest.transactionId (stateName config.phases.length "rec")) = none := by
    rw [show stateName config.phases.length "rec" = (Entry.record config.phases.length).name from rfl, shows_.entry]
    simp [Job.contentsOf, List.getElem?_eq_none (length_chain config.phases).le]
  have published := shows_.recorded unbegun phase
  rw [publishState, acceptState_ok sound extension, acceptedOrRefused, pure_bind, sequence]
  apply (publishRecord_triple shows_.reachesArtifact different free unpublished before
    (fun torn_ count => torn torn_ count _ (shows_.writing _)) fun disturbed => after disturbed _ published).proceeds
  rintro _ later ⟨-, rfl⟩
  apply Triple.returns
  refine ⟨?_, published⟩
  rw [accepted_journalOf, ← chain_concat]
  rfl

/-- The state of a next phase follows the records of a session. -/
theorem Job.Follows.nextState_eq (sound : job.Sound) {session : Session} {phases : List Phase} {phase after : Phase}
    (follows : job.Follows session phases phase) {update : List TargetState → Except FsError (List TargetState)}
    (updates : update (phase.targets job.course) = .ok (after.targets job.course)) :
    nextState session.progress after.globalState update =
      .ok (stateAfter job.crates job.manifest job.course (job.chain phases) after) := by
  have of := sound.course_of
  have chained : SoundChain job.crates job.manifest (job.chain phases) := follows.path.sound of
  obtain ⟨earlier, same, state⟩ := follows.last
  have checksum := follows.checksum
  have length := follows.path.length_le of.positive
  have bounded : job.course.count ≤ 100 := of.bounded
  have sequence : session.progress.state.sequence.toNat = (job.chain earlier).length := by
    apply chained.sequence
    rw [same, chain_concat, List.getElem?_append_right le_rfl, Nat.sub_self, state]
    rfl
  have short : (job.chain earlier).length + 1 ≤ 404 := by
    rw [length_chain]
    rw [same, List.length_append, List.length_singleton] at length
    omega
  have targets : update session.progress.state.targets = .ok (after.targets job.course) := by
    rw [follows.records.targets]
    exact updates
  rw [nextState, sequence, Except.rejectIf_of_not (by unfold u64Max; omega), Except.ok_bind, targets, Except.ok_bind]
  have last : (job.chain phases).getLast? = some session.progress.state := by
    rw [same, chain_concat, List.getLast?_concat, state]
  have counted : session.progress.state.sequence + 1 = UInt64.ofNat (job.chain phases).length := by
    rw [same, chain_concat, List.length_append, List.length_singleton, state]
    exact (UInt64.ofNat_add _ _).symm
  rw [stateAfter, last, Option.map_some, ← checksum, ← counted]
  rw [state]
  rfl

/-- Publishing the record of a next phase. -/
theorem publishTransition_triple (sound : job.Sound) (shows_ : job.Shows config world) (unbegun : config.temporary = none)
    {session : Session} {phase after : Phase} (follows : job.Follows session config.phases phase)
    (next : Next job.course phase after) {update : List TargetState → Except FsError (List TargetState)}
    (updates : update (phase.targets job.course) = .ok (after.targets job.course))
    (before : Disturbed allowed → rest world)
    (torn : Torn allowed → ∀ count later, job.Shows (config.writing ((stateRecord job.crates
      (stateAfter job.crates job.manifest job.course (job.chain config.phases) after)).take count)) later → rest later)
    (done : Disturbed allowed → ∀ later, job.Shows (config.record after) later → rest later) :
    Triple allowed (· = world) (publishTransition job.setting session after.globalState update)
      (Ends FsError.IsSystem (fun session' later => job.Follows session' (config.phases ++ [after]) after ∧
        job.Shows (config.record after) later) rest) := by
  have of := sound.course_of
  have extension : Extends job.crates job.manifest (job.chain config.phases) _ := follows.path.extends of next
  have chained : SoundChain job.crates job.manifest (job.chain config.phases) := follows.path.sound of
  rw [publishTransition, follows.nextState_eq sound updates, ofExcept_ok_bind, follows.journal]
  apply (publishState_triple sound shows_ unbegun chained extension before torn done).calls
  intro later published
  apply Triple.returns
  refine ⟨⟨follows.path.next next, rfl, ⟨config.phases, rfl, rfl⟩, rfl⟩, published⟩

/-- Changing one target of the recorded ones. -/
theorem updateTarget_targets {before after : Phase} {index : ℕ} (inside : index < job.course.count)
    {update : TargetState → TargetState} (changed : update (before.target job.course index) = after.target job.course index)
    (others : ∀ other < job.course.count, other ≠ index →
      before.target job.course other = after.target job.course other) :
    updateTarget index update (before.targets job.course) = .ok (after.targets job.course) := by
  rw [updateTarget, Phase.getElem?_targets inside]
  dsimp only
  apply congrArg Except.ok
  apply List.ext_getElem?
  intro other
  rw [List.getElem?_set, Phase.length_targets]
  split_ifs with same
  · rw [← same, Phase.getElem?_targets inside, changed]
  · rcases Nat.lt_or_ge other job.course.count with within | beyond
    · rw [Phase.getElem?_targets within, Phase.getElem?_targets within, others other within (Ne.symm same)]
    · rw [List.getElem?_eq_none (by rwa [Phase.length_targets]), List.getElem?_eq_none (by rwa [Phase.length_targets])]

end Sessions

/-! ## Running transactions -/

/-- Every target is where the phase allows it to be. -/
def Job.Placed (job : Job) (config : Config) (phase : Phase) : Prop :=
  ∀ index < job.manifest.targets.length, job.Admits phase index (config.layout index)

/-- The directory records a path of phases and every target is where the last phase allows it to be.
Part of the next record may have been written. -/
structure Job.Running (job : Job) (allowed : Site → Went → Prop) (config : Config) (phase : Phase) (world : World) :
    Prop where
  shows_ : job.Shows config world
  path : Path job.course config.phases phase
  placed : job.Placed config phase
  temporary : ∀ bytes, config.temporary = some bytes → Torn allowed ∧ ∃ count after, Next job.course phase after ∧
    bytes = (stateRecord job.crates (stateAfter job.crates job.manifest job.course (job.chain config.phases) after)).take count

/-- A running transaction may be left as it is. -/
def Job.Leaves (job : Job) (allowed : Site → Went → Prop) (rest : World → Prop) : Prop :=
  Disturbed allowed → ∀ config phase world, job.Running allowed config phase world → rest world

section Leaving

variable {phase after : Phase}

/-- A running transaction without a temporary. -/
theorem Job.Running.of (shows_ : job.Shows config world) (unbegun : config.temporary = none)
    (path : Path job.course config.phases phase) (placed : job.Placed config phase) :
    job.Running allowed config phase world :=
  ⟨shows_, path, placed, fun bytes some_ => by rw [unbegun] at some_; cases some_⟩

/-- A session of a running transaction, with everything its last record promises. -/
structure Job.Active (job : Job) (phase : Phase) (session : Session) (config : Config) (world : World) : Prop where
  shows_ : job.Shows config world
  unbegun : config.temporary = none
  follows : job.Follows session config.phases phase
  placed : job.Placed config phase

theorem Job.Active.running {session : Session} (active : job.Active phase session config world) :
    job.Running allowed config phase world := .of active.shows_ active.unbegun active.follows.path active.placed

theorem Job.Active.safe {session : Session} (active : job.Active phase session config world)
    (leaves : job.Leaves allowed rest) (disturbed : Disturbed allowed) : rest world :=
  leaves disturbed config phase world active.running

/-- One target has moved to another admitted layout. -/
theorem Job.Active.lay {session : Session} (active : job.Active phase session config world) {index : ℕ} {layout : Layout}
    {later : World} (moved : job.Shows (config.lay index layout) later) (admits : job.Admits phase index layout) :
    job.Active phase session (config.lay index layout) later where
  shows_ := moved
  unbegun := active.unbegun
  follows := active.follows
  placed other inside := by
    by_cases same : other = index
    · rw [same, Config.lay_layout_self]
      exact admits
    · rw [Config.lay_layout_of_ne same]
      exact active.placed other inside

/-- Before a rollback begins every target can be recovered. -/
theorem Job.Placed.recoverable (placed : job.Placed config phase) (forward : phase.globalState ≠ .rollingBack) :
    job.Recoverable config phase := by
  intro index target here
  obtain ⟨stage, allows, lies⟩ := placed index (List.getElem?_eq_some_iff.mp here).1
  exact ⟨stage, allows, lies, fun begun => absurd begun forward⟩

/-- Publishing the record of a next phase, from a running transaction to a running transaction. -/
theorem publishNext_triple (sound : job.Sound) (shows_ : job.Shows config world) (unbegun : config.temporary = none)
    {session : Session} (follows : job.Follows session config.phases phase) (next : Next job.course phase after)
    {update : List TargetState → Except FsError (List TargetState)}
    (updates : update (phase.targets job.course) = .ok (after.targets job.course))
    (placed : job.Placed config phase) (placedAfter : job.Placed config after) (leaves : job.Leaves allowed rest) :
    Triple allowed (· = world) (publishTransition job.setting session after.globalState update)
      (Ends FsError.IsSystem (fun session' later => job.Follows session' (config.phases ++ [after]) after ∧
        job.Shows (config.record after) later) rest) := by
  apply publishTransition_triple sound shows_ unbegun follows next updates
  · exact fun disturbed => leaves disturbed config phase world (.of shows_ unbegun follows.path placed)
  · intro torn count later written
    refine leaves torn.disturbed (config.writing _) phase later ⟨written, follows.path, placed, ?_⟩
    rintro bytes same
    exact ⟨torn, count, after, next, (Option.some.inj same).symm⟩
  · intro disturbed later published
    exact leaves disturbed (config.record after) after later (.of published rfl (follows.path.next next) placedAfter)

end Leaving

end Srcmv.Fs
