import Srcmv.Proofs.Fs.Loading
import Srcmv.Proofs.Fs.Preparing

/-! # Resuming a running transaction

A recovery begins with a scan, which accepts the directory unless part of a record stands in it, and
loads the transaction back. The session it goes on with follows the recorded phases, and the targets
are where the last of them allows them to be.
-/

namespace Srcmv.Fs

open Srcmv.Core Machine Process

variable {allowed : Site → Went → Prop} {rest : World → Prop} {job : Job} {config : Config} {world : World} {phase : Phase}

/-- The configuration once a temporary is removed. -/
def Config.settled (config : Config) : Config := { config with temporary := none }

theorem Config.settled_of_unbegun (unbegun : config.temporary = none) : config.settled = config := by
  rw [settled, ← unbegun]

section Directory

theorem Job.Placed.plain (sound : job.Sound) (placed : job.Placed config phase) {index : ℕ}
    (inside : index < job.manifest.targets.length) : Layout.Plain (config.layout index) := by
  obtain ⟨stage, _, lies⟩ := placed index inside
  exact lies.plain sound (List.getElem?_eq_getElem inside)

private theorem onlyFile_slot (sound : job.Sound) (placed : job.Placed config phase) (index : ℕ) (slot : Slot) :
    OnlyFile (if index < job.manifest.targets.length then config.layout index slot else none) := by
  intro item found
  split at found
  · next inside =>
    obtain ⟨node, rfl, -⟩ := placed.plain sound inside slot item found
    rfl
  · cases found

/-- The directory records the phases. -/
theorem Job.Placed.journaled (sound : job.Sound) (placed : job.Placed config phase) :
    Journaled job.crates job.manifest (job.chain config.phases) (job.contentsOf config) where
  published := ⟨_, rfl, rfl⟩
  noTemporary := rfl
  record index state found := by
    rw [Job.contentsOf, found]
    exact ⟨_, rfl, rfl⟩
  noRecord index beyond := by
    rw [Job.contentsOf, List.getElem?_eq_none beyond]
    rfl
  temporary index other := if_neg fun same => other (same.trans length_chainOf.symm)
  candidate index := onlyFile_slot sound placed index .candidate
  noCandidate index beyond := if_neg (not_lt.mpr beyond)
  backup index := onlyFile_slot sound placed index .backup
  noBackup index beyond := if_neg (not_lt.mpr beyond)

/-- The last record of some phases. -/
theorem Job.chain_getLast? (path : Path job.course config.phases phase) : ∃ earlier, config.phases = earlier ++ [phase] ∧
    (job.chain config.phases).getLast? = some (stateAfter job.crates job.manifest job.course (job.chain earlier) phase) := by
  obtain ⟨earlier, same⟩ := path.eq_concat
  refine ⟨earlier, same, ?_⟩
  rw [same, Job.chain, chainOf_concat, List.getLast?_concat]
  rfl

/-- The records of a transaction and the next one fit the recovery limit. -/
private theorem records_within (sound : job.Sound) {chain : List StateSnapshot}
    (chained : SoundChain job.crates job.manifest chain) :
    0 + (manifestRecord job.crates job.manifest).length + chainBytes job.crates chain ≤ maxRecoveryBytes := by
  rw [Nat.zero_add]
  exact chained.records_within sound.encodes

/-- What the inspection of the directory finds, if it accepts it. -/
private theorem inspect_running (sound : job.Sound) (running : job.Running allowed config phase world) {children : NameMap Item}
    (holds : Holds children (job.contentsOf config)) : ∃ last, last.globalState = phase.globalState ∧
      ((∃ total, inspectActiveTransaction job.crates children job.manifest.transactionId 0 {} =
          .ok (chainEntry job.manifest.transactionId last, total)) ∨
        (config.temporary ≠ none ∧
          Corrupt job.manifest.transactionId
            (inspectActiveTransaction job.crates children job.manifest.transactionId 0 {}))) := by
  have of := sound.course_of
  have journaled := running.placed.journaled sound
  have chained : SoundChain job.crates job.manifest (job.chain config.phases) := running.path.sound of
  have length : (job.chain config.phases).length = config.phases.length := length_chainOf
  obtain ⟨earlier, -, final⟩ := Job.chain_getLast? running.path
  refine ⟨stateAfter job.crates job.manifest job.course (job.chain earlier) phase, rfl, ?_⟩
  have stands : job.contentsOf config (.temporary (job.chain config.phases).length) =
      config.temporary.map (job.recordItem (stateName (job.chain config.phases).length "tmp")) := if_pos length
  cases written : config.temporary with
  | none =>
    rw [written] at stands
    exact .inl ⟨_, inspect_chain_none holds journaled sound.encodes chained final stands (records_within sound chained)⟩
  | some bytes =>
    rw [written] at stands
    obtain ⟨-, count, after, next, rfl⟩ := running.temporary bytes written
    have longer := chained.extend (running.path.extends of next)
    have within := records_within sound longer
    rw [chainBytes_concat, ← Nat.add_assoc] at within
    by_cases proper : count < (stateRecord job.crates (stateAfter job.crates job.manifest job.course
        (job.chain config.phases) after)).length
    · exact .inr ⟨Option.some_ne_none _,
        inspect_chain_partial holds journaled sound.encodes longer final proper ⟨_, stands, rfl⟩ within⟩
    · rw [List.take_of_length_le (not_lt.mp proper)] at stands
      exact .inl ⟨_, inspect_chain_complete holds journaled sound.encodes longer final ⟨_, stands, rfl⟩ within⟩

/-- What a scan says of a running transaction. -/
theorem Job.Running.scanned (sound : job.Sound) (running : job.Running allowed config phase world) {entry : RecoveryEntry}
    (scanned : recoveryEntry job.crates world.control job.manifest.transactionId = .ok entry) :
    ∃ last, last.globalState = phase.globalState ∧ entry = chainEntry job.manifest.transactionId last := by
  obtain ⟨object, children, only, holds⟩ := running.shows_.active
  obtain ⟨last, global, ⟨total, inspected⟩ | ⟨-, corrupted⟩⟩ := inspect_running sound running holds
  · rw [recoveryEntry_active only inspected rfl] at scanned
    exact ⟨last, global, (Except.ok.inj scanned).symm⟩
  · obtain ⟨reason, failed⟩ := recoveryEntry_corrupt only corrupted
    rw [failed] at scanned
    cases scanned

/-- A running transaction without a temporary is accepted. -/
theorem Job.Running.accepted (sound : job.Sound) (running : job.Running allowed config phase world)
    (unbegun : config.temporary = none) : ∃ last, last.globalState = phase.globalState ∧
      recoveryEntry job.crates world.control job.manifest.transactionId =
        .ok (chainEntry job.manifest.transactionId last) := by
  obtain ⟨object, children, only, holds⟩ := running.shows_.active
  obtain ⟨last, global, ⟨total, inspected⟩ | ⟨begun, -⟩⟩ := inspect_running sound running holds
  · exact ⟨last, global, recoveryEntry_active only inspected rfl⟩
  · exact absurd unbegun begun

end Directory

section Load

/-- A world without the temporary shows the settled configuration. -/
theorem Job.Shows.settled (shows_ : job.Shows config world) :
    job.Shows config.settled (world.withoutTemporary job.manifest.transactionId config.phases.length) := by
  obtain ⟨object, children, only, holds⟩ := shows_.active
  refine ⟨shows_.files, ⟨object, _, World.children_place_artifact only, ?_⟩, shows_.identities, shows_.published,
    shows_.refusals⟩
  have contents : job.contentsOf config.settled =
      Function.update (job.contentsOf config) (.temporary config.phases.length) none := by
    funext entry
    cases entry with
    | temporary index =>
      by_cases same : index = config.phases.length
      · subst same
        simp [Job.contentsOf, Config.settled]
      · rw [Function.update_of_ne (by simpa using same)]
        simp [Job.contentsOf, Config.settled, same]
    | _ => rw [Function.update_of_ne (by simp)]; rfl
  rw [contents]
  exact holds.alter (.temporary config.phases.length) none

/-- A running transaction is loaded as a session of it. -/
theorem Job.Running.load_triple (sound : job.Sound) (running : job.Running allowed config phase world)
    (leaves : job.Leaves allowed rest) :
    Triple allowed (· = world) (loadActiveTransaction job.setting job.manifest.transactionId)
      (Ends FsError.IsSystem (fun loaded later => loaded.manifest = job.manifest ∧
        job.Active phase loaded.session config.settled later) rest) := by
  have of := sound.course_of
  obtain ⟨object, children, only, holds⟩ := running.shows_.active
  have journaled := running.placed.journaled sound
  have chained : SoundChain job.crates job.manifest (job.chain config.phases) := running.path.sound of
  have length : (job.chain config.phases).length = config.phases.length := length_chainOf
  obtain ⟨earlier, phases, final⟩ := Job.chain_getLast? running.path
  have settled := running.shows_.settled
  rw [← length] at settled
  have active : job.Active phase ⟨job.journalOf (job.chain config.phases), ⟨_, checksumText (stateDigest job.crates
      (stateAfter job.crates job.manifest job.course (job.chain earlier) phase))⟩⟩ config.settled _ :=
    ⟨settled, rfl, ⟨running.path, rfl, ⟨earlier, phases, rfl⟩, rfl⟩, running.placed⟩
  have room : job.manifest.artifactBytes + (manifestRecord job.crates job.manifest).length +
      chainBytes job.crates (job.chain config.phases) ≤ u64Max := by
    have artifacts := sound.room
    have manifest := sound.encodes.size
    have states := chained.bytes
    have fits : 2 * 1024 * 1024 * 1024 + maxRecordBytes + maxStateBytes ≤ u64Max := by
      norm_num [maxRecordBytes, maxStateBytes, u64Max]
    omega
  apply (loadActiveTransaction_triple only holds journaled chained sound.encodes final room
    (fun disturbed => leaves disturbed config phase world running) (active.safe leaves)).weaken
  · rintro loaded later ⟨rfl, rfl⟩
    exact ⟨rfl, active⟩
  · exact fun _ stopped => stopped

end Load

end Srcmv.Fs
