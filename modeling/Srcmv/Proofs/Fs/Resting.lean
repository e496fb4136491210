import Srcmv.Model.Fs.Commit
import Srcmv.Proofs.Fs.Executing

/-! # What a run may leave behind

Wherever the engine stops, its transaction has no state record yet, is running, or has ended. Every
command starts from such a world and leaves one: the commit itself, a recovery in either mode, and
the gate before the next transaction.
-/

namespace Srcmv.Fs

open Srcmv.Core Machine Process OrderedMap

variable {allowed : Site → Went → Prop} {rest : World → Prop} {job : Job} {config : Config} {world : World} {phase : Phase}
  {committed : Bool}

/-- What a transaction may be left as. -/
inductive Job.Rests (job : Job) (allowed : Site → Went → Prop) (world : World) : Prop where
  | unrecorded (unrecorded : job.Unrecorded allowed world)
  | running {config : Config} {phase : Phase} (running : job.Running allowed config phase world)
  | ended {committed : Bool} (ended : job.Ended committed world)

section Unrecorded

/-- The manifest stands alone. -/
private theorem unrecorded_keys {children : NameMap Item} (holds : Holds children (job.contentsOf job.unrecordedConfig)) :
    children.keys.length ≤ 1 := by
  have only : ∀ name ∈ children.keys, name = "manifest.rec" := by
    intro name member
    obtain ⟨entry, rfl, present⟩ := holds.mem_keys.mp member
    cases entry with
    | manifest => rfl
    | manifestTemporary => cases present
    | record index => cases present
    | temporary index => rw [Job.contentsOf] at present; split at present <;> cases present
    | candidate index => rw [Job.contentsOf] at present; split at present <;> cases present
    | backup index => rw [Job.contentsOf] at present; split at present <;> cases present
  have distinct := nodup_keys children
  rw [List.eq_replicate_of_mem only, List.nodup_replicate] at distinct
  exact distinct

private theorem removeFirst_whole {children : NameMap Item} (whole : job.Whole allowed children) (count : ℕ) :
    job.Whole allowed (removeFirst count children) := by
  have all (few : children.keys.length ≤ count) : removeFirst count children = ∅ := removeFirst_of_le few
  rcases whole with torn | rfl | holds
  · exact .inl torn
  · have none : (∅ : NameMap Item).keys.length ≤ count := by
      rw [List.length_eq_zero_iff.mpr (Std.ExtTreeMap.keys_eq_nil_iff.mpr rfl)]
      exact Nat.zero_le _
    exact .inr (.inl (all none))
  · rcases Nat.eq_zero_or_pos count with rfl | positive
    · rw [removeFirst_zero]
      exact .inr (.inr holds)
    · exact .inr (.inl (all ((unrecorded_keys holds).trans positive)))

/-- What a scan says of a transaction without state records. -/
theorem Job.Unrecorded.scanned (unrecorded : job.Unrecorded allowed world) {entry : RecoveryEntry}
    (scanned : recoveryEntry job.crates world.control job.manifest.transactionId = .ok entry) :
    entry = orphanEntry job.manifest.transactionId ∨ entry = manifestOnlyEntry job.manifest.transactionId := by
  obtain ⟨object, children, only, stateless, -⟩ := unrecorded.directory
  obtain ⟨total, inspected⟩ := (recoveryEntry_eq_ok only).mp scanned
  exact inspect_stateless inspected stateless.unrecorded

/-- Where no publication can be cut, a transaction without state records is accepted. -/
theorem Job.Unrecorded.accepted (sound : job.Sound) (unrecorded : job.Unrecorded allowed world) (untorn : ¬Torn allowed) :
    ∃ entry, recoveryEntry job.crates world.control job.manifest.transactionId = .ok entry := by
  obtain ⟨object, children, only, -, torn | rfl | holds⟩ := unrecorded.directory
  · exact absurd torn untorn
  · exact ⟨_, (recoveryEntry_eq_ok only).mpr ⟨_, inspect_orphan_empty ⟨fun _ _ => rfl⟩ .empty rfl⟩⟩
  · have placed : job.Placed job.unrecordedConfig Phase.start := fun index _ =>
      ⟨.untouched, .inr ⟨Nat.zero_le _, .inl rfl⟩, rfl⟩
    have manifestOnly : ManifestOnly job.crates job.manifest (job.contentsOf job.unrecordedConfig) :=
      ⟨placed.journaled sound, fun index => ite_self _, fun index => ite_self _⟩
    have size := sound.encodes.size
    have limit : maxRecordBytes ≤ maxRecoveryBytes := by norm_num [maxRecordBytes, maxRecoveryBytes]
    exact ⟨_, (recoveryEntry_eq_ok only).mpr
      ⟨_, inspect_manifestOnly_none holds manifestOnly sound.encodes rfl (by omega)⟩⟩

/-- Where a control-only rollback may be left. -/
def Job.PartlyRolledBack (job : Job) (allowed : Site → Went → Prop) (world : World) : Prop :=
  job.Unrecorded allowed world ∨ job.Ended false world

private theorem Job.Unrecorded.cleaned (unrecorded : job.Unrecorded allowed world) {left : World}
    (partly : PartlyCleaned world (.active job.manifest.transactionId) left) : job.PartlyRolledBack allowed left := by
  obtain ⟨object, children, only, stateless, whole⟩ := unrecorded.directory
  rcases partly with ⟨count, rfl⟩ | rfl
  · refine .inl ⟨unrecorded.files, ⟨object, removeFirst count children, ?_, stateless.removeFirst count,
      removeFirst_whole whole count⟩, unrecorded.published, unrecorded.refusals⟩
    exact only.alterChildren (removeFirst count)
  · refine .inr ⟨unrecorded.files, .gone ⟨only.valid, only.active.erase, only.completed⟩, .inl ⟨rfl, unrecorded.published⟩,
      unrecorded.refusals⟩

/-- The directory of a transaction without state records is removed. -/
theorem Job.Unrecorded.rollback_triple (unrecorded : job.Unrecorded allowed world) :
    Triple allowed (· = world) (rollbackControlOnly job.setting job.manifest.transactionId)
      (Ends (fun _ => True) (fun _ later => job.Ended false later ∧ Idle later.control) fun later =>
        (Disturbed allowed ∨ ¬∃ entry, recoveryEntry job.crates world.control job.manifest.transactionId = .ok entry) ∧
          job.PartlyRolledBack allowed later) := by
  obtain ⟨object, children, only, stateless, -⟩ := unrecorded.directory
  by_cases accepted : ∃ entry, recoveryEntry job.crates world.control job.manifest.transactionId = .ok entry
  · obtain ⟨entry, scanned⟩ := accepted
    have unstated : (entry.kind = .orphanRecord ∨ entry.kind = .manifestOnly) ∧
        entry.activePath = some job.manifest.transactionId := by
      rcases unrecorded.scanned scanned with rfl | rfl
      · exact ⟨.inl rfl, rfl⟩
      · exact ⟨.inr rfl, rfl⟩
    have files : OnlyFiles (world.childrenOf (.active job.manifest.transactionId)) := by
      rw [show world.childrenOf (.active job.manifest.transactionId) = children from only.children_eq]
      exact stateless.files
    apply (rollbackControlOnly_triple scanned unstated.1 unstated.2 files).mono
    · exact fun _ same => same
    · rintro _ later rfl
      exact ⟨⟨unrecorded.files, .gone ⟨only.valid, only.active.erase, only.completed⟩, .inl ⟨rfl, unrecorded.published⟩,
        unrecorded.refusals⟩, only.valid, only.active.erase, only.completed⟩
    · rintro _ later ⟨-, ⟨operation, failed⟩, partly⟩
      exact ⟨trivial, .inl ⟨_, .inl failed⟩, unrecorded.cleaned partly⟩
    · rintro later ⟨⟨operation, crashed⟩, partly⟩
      exact ⟨.inl ⟨_, .inr crashed⟩, unrecorded.cleaned partly⟩
  · have stays := And.intro (Or.inr accepted : Disturbed allowed ∨ _) (Or.inl unrecorded : job.PartlyRolledBack allowed world)
    rw [rollbackControlOnly, scanRecoveryEntry, ioRead]
    apply Triple.bind fun _ _ => False
    · apply Triple.observe
      · rintro - later rfl
        exact stays
      · rintro - later rfl
        exact ⟨trivial, stays⟩
      · rintro later rfl entry scanned
        exact accepted ⟨entry, scanned⟩
      · rintro - later rfl _ _
        exact ⟨trivial, stays⟩
    · exact fun _ _ _ impossible => impossible.elim

/-- A rollback of a transaction without state records removes its directory, if a scan accepts it. -/
theorem Job.Unrecorded.recover_triple (unrecorded : job.Unrecorded allowed world) (mode : RecoveryMode) :
    Triple allowed (· = world) (recoverLocked job.setting job.manifest.transactionId mode)
      (Ends (fun _ => True) (fun outcome later => mode = .rollback ∧ outcome = ⟨job.manifest.transactionId, "rolled_back"⟩ ∧
        job.Ended false later ∧ Idle later.control) fun later =>
        (Disturbed allowed ∨ mode = .complete ∨
          ¬∃ entry, recoveryEntry job.crates world.control job.manifest.transactionId = .ok entry) ∧
            job.PartlyRolledBack allowed later) := by
  have stays : job.PartlyRolledBack allowed world := .inl unrecorded
  rw [recoverLocked, scanRecoveryEntry, ioRead]
  apply Triple.bind fun entry later => (entry.kind = .orphanRecord ∨ entry.kind = .manifestOnly) ∧ later = world
  · apply Triple.observe
    · rintro permitted later rfl
      exact ⟨.inl ⟨_, .inr permitted⟩, stays⟩
    · rintro permitted later rfl
      exact ⟨trivial, .inl ⟨_, .inl permitted⟩, stays⟩
    · rintro later rfl entry scanned
      rcases unrecorded.scanned scanned with rfl | rfl
      · exact ⟨.inl rfl, rfl⟩
      · exact ⟨.inr rfl, rfl⟩
    · rintro - later rfl error scanned
      refine ⟨trivial, .inr (.inr ?_), stays⟩
      rintro ⟨entry, accepted⟩
      have impossible := scanned.symm.trans accepted
      cases impossible
  · intro entry
    apply Triple.fact
    intro unstated
    have unpublished : Triple allowed (· = world) (recoverUnpublished job.setting job.manifest.transactionId mode)
        (Ends (fun _ => True) (fun outcome later => mode = .rollback ∧ outcome = ⟨job.manifest.transactionId, "rolled_back"⟩ ∧
        job.Ended false later ∧ Idle later.control) fun later =>
          (Disturbed allowed ∨ mode = .complete ∨
            ¬∃ entry, recoveryEntry job.crates world.control job.manifest.transactionId = .ok entry) ∧
              job.PartlyRolledBack allowed later) := by
      cases mode with
      | complete =>
        apply Triple.refuse
        rintro _ rfl
        exact ⟨trivial, .inr (.inl rfl), stays⟩
      | rollback =>
        rw [recoverUnpublished]
        apply Triple.proceeds
        · apply unrecorded.rollback_triple.weaken
          · exact fun _ _ finished => finished
          · exact fun later stopped => ⟨stopped.1.imp_right .inr, stopped.2⟩
        · exact fun _ later finished => Triple.returns ⟨rfl, rfl, finished⟩
    rcases unstated with kind | kind
    · rw [kind]; exact unpublished
    · rw [kind]; exact unpublished

end Unrecorded

section Ended

/-- What a scan says of a transaction that has ended. -/
theorem Job.Ended.scanned (sound : job.Sound) (ended : job.Ended committed world) {entry : RecoveryEntry}
    (scanned : recoveryEntry job.crates world.control job.manifest.transactionId = .ok entry) :
    ∃ object children, OnlyCompleted world.control (completedName job.manifest.transactionId committed) object children ∧
      (∀ index item, children[(Entry.backup index).name]? = some item → job.originalItem index = some item) ∧
      entry = completedEntry job.manifest.transactionId (completedName job.manifest.transactionId committed)
        (if committed then "committed" else "rolledback") := by
  have parsed := parseCompletedName_completedName sound.valid.identifier committed
  obtain ⟨⟨⟩, -, scanned⟩ := Except.bind_eq_ok.mp scanned
  obtain ⟨entries, found, scanned⟩ := Except.bind_eq_ok.mp scanned
  cases ended.left with
  | @directory object children only backups =>
    refine ⟨object, children, only, backups, ?_⟩
    rw [only.scanControl_eq parsed] at found
    obtain ⟨total, -, same⟩ := Except.bind_eq_ok.mp found
    obtain rfl := Except.ok.inj same
    rw [Std.ExtTreeMap.getElem?_insert_self] at scanned
    exact (Except.ok.inj scanned).symm
  | gone idle =>
    rw [idle.scanControl_eq] at found
    obtain rfl := Except.ok.inj found
    rw [Std.ExtTreeMap.getElem?_empty] at scanned
    cases scanned

/-- Whether the mode completes a transaction. -/
def RecoveryMode.commits : RecoveryMode → Bool
  | complete => true
  | rollback => false

private theorem completedIsCommitted_eq (mode : RecoveryMode) (committed : Bool) :
    ¬completedIsCommitted (completedName job.manifest.transactionId committed) ≠ decide (mode = .complete) ↔
      committed = mode.commits := by
  rw [not_not, completedIsCommitted, isSuffixOf_completedName]
  cases mode <;> rfl

/-- A recovery of a transaction that has ended at most removes its directory, and only in its own mode. -/
theorem Job.Ended.recover_triple (sound : job.Sound) (ended : job.Ended committed world) (mode : RecoveryMode) :
    Triple allowed (· = world) (recoverLocked job.setting job.manifest.transactionId mode)
      (Ends (fun _ => True) (fun _ later => committed = mode.commits ∧ job.Ended committed later) (job.Ended committed)) := by
  rw [recoverLocked, scanRecoveryEntry, ioRead]
  apply Triple.bind fun entry later =>
    recoveryEntry job.crates world.control job.manifest.transactionId = .ok entry ∧ later = world
  · apply Triple.observe
    · rintro - later rfl
      exact ended
    · rintro - later rfl
      exact ⟨trivial, ended⟩
    · rintro later rfl entry scanned
      exact ⟨scanned, rfl⟩
    · rintro - later rfl _ _
      exact ⟨trivial, ended⟩
  · intro entry
    apply Triple.fact
    intro scanned
    obtain ⟨object, children, only, backups, rfl⟩ := ended.scanned sound scanned
    rw [completedEntry]
    dsimp only
    rw [recoverCleanup]
    dsimp only
    apply Triple.bind fun _ later => committed = mode.commits ∧ later = world
    · apply Triple.ofExcept
      · rintro _ accepted later rfl
        exact ⟨(completedIsCommitted_eq mode committed).mp (Except.rejectIf_eq_ok.mp accepted), rfl⟩
      · rintro _ _ later rfl
        exact ⟨trivial, ended⟩
    · intro _
      apply Triple.fact
      intro own
      apply Triple.proceeds
      · exact ended.cleanup_ended only backups Site.io
      · exact fun _ later cleaned => Triple.returns ⟨own, cleaned⟩

end Ended

section Gate

/-- The gate refuses a new transaction while this one is active. -/
theorem OnlyActive.gate_triple {setting : Setting} {id : String} {object : ControlObject} {children : NameMap Item}
    (only : OnlyActive world.control id object children) : Triple allowed (· = world) (gateNewTransaction setting)
      (Ends (fun _ => True) (fun _ _ => False) (· = world)) := by
  rw [gateNewTransaction, ioRead]
  apply Triple.bind fun (entries : NameMap RecoveryEntry) later =>
    (entries.toList.filter fun entry => entry.2.activePath.isSome) ≠ [] ∧ later = world
  · apply Triple.observe
    · rintro - later rfl
      rfl
    · rintro - later rfl
      exact ⟨trivial, rfl⟩
    · rintro later rfl entries found
      rw [only.scanControl_eq] at found
      obtain ⟨⟨entry, total⟩, inspected, same⟩ := Except.bind_eq_ok.mp found
      obtain rfl := Except.ok.inj same
      refine ⟨?_, rfl⟩
      rw [(Only.of_insert_empty _ _).toList, List.filter_cons_of_pos (by rw [(inspect_entry inspected).2.1]; rfl)]
      exact List.cons_ne_nil _ _
    · rintro - later rfl _ _
      exact ⟨trivial, rfl⟩
  · intro entries
    apply Triple.fact
    intro active
    dsimp only
    rw [if_pos active]
    apply Triple.refuse
    rintro _ rfl
    exact ⟨trivial, rfl⟩

/-- The gate removes the directory of a transaction that has ended. -/
theorem Job.Ended.gate_triple (sound : job.Sound) (ended : job.Ended committed world) :
    Triple allowed (· = world) (gateNewTransaction job.setting) (Keeps (job.Ended committed)) := by
  have parsed := parseCompletedName_completedName sound.valid.identifier committed
  have kept : Triple allowed (job.Ended committed) (pure () : Engine Unit) (Keeps (job.Ended committed)) := Triple.pureKeeps
  rw [gateNewTransaction, ioRead]
  apply Triple.bind fun entries later => scanControl job.crates world.control {} = .ok entries ∧ later = world
  · apply Triple.observe
    · rintro - later rfl
      exact ended
    · rintro - later rfl
      exact ended
    · rintro later rfl entries found
      exact ⟨found, rfl⟩
    · rintro - later rfl _ _
      exact ended
  · intro entries
    apply Triple.fact
    intro found
    dsimp only
    cases ended.left with
    | @directory object children only backups =>
      rw [only.scanControl_eq parsed] at found
      obtain ⟨total, -, same⟩ := Except.bind_eq_ok.mp found
      obtain rfl := Except.ok.inj same
      rw [(Only.of_insert_empty _ _).toList, List.filter_cons_of_neg (by rw [completedEntry]; exact Bool.false_ne_true),
        List.filter_nil, if_neg (not_not.mpr rfl), List.foldlM_cons, cleanupIfCompleted, completedEntry]
      dsimp only
      apply Triple.keepsThen _ fun _ => kept
      apply Triple.keeps
      · exact ended.cleanup_ended only backups Site.io
      · exact fun _ _ finished => finished
    | gone idle =>
      rw [idle.scanControl_eq] at found
      obtain rfl := Except.ok.inj found
      rw [Std.ExtTreeMap.toList_eq_nil_iff.mpr rfl, List.filter_nil, if_neg (not_not.mpr rfl), List.foldlM_nil]
      apply Triple.pure
      rintro _ rfl
      exact ended

end Gate

/-! ## Every command -/

section Commands

variable (sound : job.Sound) (sees : ∀ subject, ¬allowed (.existence subject) .failed)

include sound sees in
/-- A recovery in either mode, wherever it starts and stops. -/
theorem Job.Rests.recover_triple (mode : RecoveryMode) : Triple allowed (job.Rests allowed)
    (recoverLocked job.setting job.manifest.transactionId mode)
      (Ends (fun _ => True) (fun _ => job.Ended mode.commits) (job.Rests allowed)) := by
  apply Triple.pointwise
  rintro world (unrecorded | running | ended)
  · apply (unrecorded.recover_triple mode).weaken
    · rintro _ later ⟨rfl, -, ended, -⟩
      exact ended
    · rintro later ⟨-, unrecorded | ended⟩
      · exact .unrecorded unrecorded
      · exact .ended ended
  · have recovering : Triple allowed (· = world) (recoverLocked job.setting job.manifest.transactionId mode)
        (Finishes (fun outcome later => outcome = ⟨job.manifest.transactionId, mode.outcome⟩ ∧ job.Recovered mode later)
          (job.Rests allowed)) := by
      apply recoverLocked_triple sound (fun _ _ _ _ running => .running running) sees running mode
      · exact fun _ => .running running
      · exact fun _ _ _ active => .running active.running
      · exact fun _ _ _ _ _ running => .running running
      · exact fun _ _ _ ended => .ended ended
      · exact fun _ _ _ ended => .ended ended
    apply recovering.weaken
    · rintro _ later ⟨-, recovered⟩
      cases mode with
      | complete => exact recovered.2.ended
      | rollback => exact recovered.ended
    · exact fun _ rests => rests
  · apply (ended.recover_triple sound mode).weaken
    · rintro _ later ⟨rfl, ended⟩
      exact ended
    · exact fun _ ended => .ended ended

include sound sees in
/-- The commit of a new transaction, with its automatic rollback, wherever it stops. -/
theorem Job.Fresh.commit_triple (fresh : job.Fresh world) : Triple allowed (· = world)
    (commitManifest job.setting job.manifest job.snapshot) (Keeps (job.Rests allowed)) := by
  have executed : Triple allowed (· = world)
      (executeNewTransaction job.setting job.manifest job.manifest.transactionId job.snapshot) (Keeps (job.Rests allowed)) := by
    apply Triple.keeps
    · apply executeNewTransaction_triple sound (fun _ _ _ _ running => .running running) fresh
      · exact fun _ _ unrecorded => .unrecorded unrecorded
      · exact fun _ _ _ _ running => .running running
      · exact fun _ _ ended => .ended ended
    · exact fun _ _ finished => .ended finished.2.ended
  have rolledBack : Triple allowed (job.Rests allowed) (automaticRollback job.setting job.manifest.transactionId)
      (Keeps (job.Rests allowed)) := by
    rw [automaticRollback]
    apply ((Job.Rests.recover_triple sound sees .rollback).keeps fun _ _ ended => .ended ended).attemptKeeps.keepsThen
    rintro (_ | _)
    · exact Triple.pureKeeps
    · exact Triple.pureKeeps
  rw [commitManifest]
  apply executed.attemptKeeps.keepsThen
  rintro (original | outcome)
  · dsimp only
    rw [rollBackFailed]
    apply Triple.keepsThen
    · exact Triple.probe (fun _ _ rests => rests) (fun _ _ rests => rests) fun _ rests => rests
    · intro remains
      have failing : ∀ failed : Bool, Triple allowed (job.Rests allowed)
          (if failed then Process.refuse (.transactionRecoveryRequired [job.manifest.transactionId])
            else Process.refuse original : Engine CommitOutcome) (Keeps (job.Rests allowed)) := by
        intro failed
        split
        · exact Triple.refuseKeeps
        · exact Triple.refuseKeeps
      cases remains with
      | true => exact rolledBack.keepsThen failing
      | false => exact failing false
  · exact Triple.pureKeeps

include sound in
/-- The gate before the next transaction, wherever it stops. -/
theorem Job.Rests.gate_triple : Triple allowed (job.Rests allowed) (gateNewTransaction job.setting) (Keeps (job.Rests allowed)) := by
  have refuses (object : ControlObject) (children : NameMap Item) (world : World)
      (only : OnlyActive world.control job.manifest.transactionId object children) (rests : job.Rests allowed world) :
      Triple allowed (· = world) (gateNewTransaction job.setting) (Keeps (job.Rests allowed)) := by
    apply (only.gate_triple).mono
    · exact fun _ same => same
    · exact fun _ _ impossible => impossible.elim
    · rintro _ _ ⟨-, rfl⟩
      exact rests
    · rintro _ rfl
      exact rests
  apply Triple.pointwise
  rintro world (unrecorded | running | ended)
  · obtain ⟨object, children, only, -⟩ := unrecorded.directory
    exact refuses object children world only (.unrecorded unrecorded)
  · obtain ⟨object, children, only, -⟩ := running.shows_.active
    exact refuses object children world only (.running running)
  · apply (ended.gate_triple sound).mono
    · exact fun _ same => same
    · exact fun _ _ ended => .ended ended
    · exact fun _ _ ended => .ended ended
    · exact fun _ ended => .ended ended

end Commands

end Srcmv.Fs
