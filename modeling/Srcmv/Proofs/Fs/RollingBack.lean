import Srcmv.Model.Fs.Recovery
import Srcmv.Proofs.Fs.Recording

/-! # Restoring the originals

A rollback visits the targets last to first. Each one is brought back from whatever stage it was left
in: an installed candidate is removed, the backup moved back, a staged candidate removed, and the
restored target recorded. A target that is recorded as restored already is left as it is.
-/

namespace Srcmv.Fs

open Srcmv.Core Machine Process

variable {allowed : Site → Went → Prop} {rest : World → Prop} {job : Job} {config : Config} {world : World}
  {target : ManifestTarget} {session : Session} {index : ℕ} {phase : Phase}

/-- The target is in one of some stages, and the session is that of a running transaction. -/
def Job.Stands (job : Job) (phase : Phase) (session : Session) (index : ℕ) (stages : List Stage) (world : World) : Prop :=
  ∃ config stage, job.Active phase session config world ∧ phase.Allows job.course index stage ∧
    job.Lies index (config.layout index) stage ∧ stage ∈ stages

private theorem Job.Active.stands (active : job.Active phase session config world) {stage : Stage} {stages : List Stage}
    (allows : phase.Allows job.course index stage) (lies : job.Lies index (config.layout index) stage)
    (member : stage ∈ stages) : job.Stands phase session index stages world := ⟨config, stage, active, allows, lies, member⟩

/-- The target has moved to another stage. -/
private theorem Job.Active.moves (active : job.Active phase session config world) {layout : Layout} {later : World}
    (moved : job.Shows (config.lay index layout) later) {stage : Stage} (allows : phase.Allows job.course index stage)
    (lies : job.Lies index layout stage) {stages : List Stage} (member : stage ∈ stages) :
    job.Stands phase session index stages later := by
  refine ⟨config.lay index layout, stage, active.lay moved ⟨stage, allows, lies⟩, allows, ?_, member⟩
  rw [Config.lay_layout_self]
  exact lies

private theorem Job.Stands.safe {stages : List Stage} (stands : job.Stands phase session index stages world)
    (leaves : job.Leaves allowed rest) (disturbed : Disturbed allowed) : rest world := by
  obtain ⟨config, stage, active, -⟩ := stands
  exact active.safe leaves disturbed

section Rollback

variable (global : phase.globalState = .rollingBack)

include global in
private theorem allows_untouched : phase.Allows job.course index .untouched := by
  rw [Phase.Allows, global]
  exact .inl rfl

include global in
/-- Where a recorded candidate may be. -/
private theorem ready_of_allows {stage : Stage} (allows : phase.Allows job.course index stage)
    (moved : stage ∈ [Stage.staged, .backedUp, .installed, .cleared]) : index < phase.ready := by
  rw [Phase.Allows, global] at allows
  rcases allows with rfl | ⟨-, ⟨ready, -⟩ | ⟨-, rfl⟩⟩
  · simp at moved
  · exact ready
  · simp at moved

include global in
/-- A recorded candidate may be in any stage on the way back. -/
private theorem allows_back {stage other : Stage} (allows : phase.Allows job.course index stage)
    (moved : stage ∈ [Stage.staged, .backedUp, .installed, .cleared])
    (back : other ∈ [Stage.staged, .backedUp, .installed, .cleared]) : phase.Allows job.course index other := by
  have ready := ready_of_allows global allows moved
  rw [Phase.Allows, global] at allows ⊢
  rcases allows with rfl | ⟨unrestored, -⟩
  · simp at moved
  · refine .inr ⟨unrestored, .inl ⟨ready, ?_⟩⟩
    simpa using back

variable (sound : job.Sound) (here : job.manifest.targets[index]? = some target) (leaves : job.Leaves allowed rest)

include sound here leaves global in
/-- An installed candidate is removed from the target's path. -/
theorem removeInstalled_triple (active : job.Active phase session config world) {stage : Stage}
    (allows : phase.Allows job.course index stage) (lies : job.Lies index (config.layout index) stage) :
    Triple allowed (· = world)
      (removeInstalled job.setting target (locationsOf job.manifest.transactionId target) (phase.target job.course index)
        (observationOf job.crates.sha256 target (phase.target job.course index) .rollingBack (config.layout index)))
      (Ends FsError.IsSystem (fun _ later =>
        job.Stands phase session index [.untouched, .partly, .staged, .backedUp, .cleared] later) rest) := by
  have safe := active.safe leaves
  have existed := sound.existed index target here
  have initial : initialTarget target.originalExisted ≠ .candidate := by cases target.originalExisted <;> decide
  have remains (other : (observationOf job.crates.sha256 target (phase.target job.course index) .rollingBack
      (config.layout index)).target ≠ .candidate) (member : stage ∈ [Stage.untouched, .partly, .staged, .backedUp, .cleared]) :
      Triple allowed (· = world)
        (removeInstalled job.setting target (locationsOf job.manifest.transactionId target) (phase.target job.course index)
          (observationOf job.crates.sha256 target (phase.target job.course index) .rollingBack (config.layout index)))
        (Ends FsError.IsSystem (fun _ later =>
          job.Stands phase session index [.untouched, .partly, .staged, .backedUp, .cleared] later) rest) := by
    rw [removeInstalled, if_neg other]
    exact Triple.returns (active.stands allows lies member)
  cases stage with
  | untouched =>
    apply remains
    · rw [show config.layout index = job.untouched index from lies, observation_untouched sound here]
      exact initial
    · simp
  | partly =>
    apply remains _ (by simp)
    obtain ⟨count, layout⟩ := lies
    have unready : phase.ready ≤ index := by
      rw [Phase.Allows, global] at allows
      rcases allows with impossible | ⟨-, ⟨-, impossible⟩ | ⟨same, -⟩⟩
      · cases impossible
      · simp at impossible
      · exact same.ge
    rw [layout, observation_partly sound here _ unready]
    exact initial
  | staged =>
    apply remains _ (by simp)
    obtain ⟨mode, layout⟩ := lies
    rw [layout, observation_staged sound here _ (ready_of_allows global allows (by simp))]
    exact initial
  | backedUp =>
    apply remains _ (by simp)
    obtain ⟨-, mode, layout⟩ := lies
    rw [layout, observation_backedUp sound here _ (ready_of_allows global allows (by simp))]
    simp
  | cleared =>
    apply remains _ (by simp)
    rw [lies.2, observation_cleared sound here]
    simp
  | installed =>
    have ready := ready_of_allows global allows (by simp)
    have isInstalled : config.layout index = job.installed index := lies
    have there : config.layout index .target =
        some (job.candidateItem index (job.finalMode index) (job.content index)) := by rw [isInstalled]; rfl
    have plain := lies.plain sound here
    have seen : (observationOf job.crates.sha256 target (phase.target job.course index) .rollingBack
        (config.layout index)).target = .candidate := by
      rw [isInstalled, observation_installed sound here _ ready]
    rw [removeInstalled, if_pos seen]
    apply (verifyCandidate_triple sound active.shows_ here safe ready there plain).exactlyThen fun _ stopped => stopped
    apply (removeFile_triple sound active.shows_ here there _ _ safe).calls
    intro later shown
    rw [isInstalled, Job.installed, update_layoutOf.1] at shown
    have stands : job.Stands phase session index [.untouched, .partly, .staged, .backedUp, .cleared] later := by
      cases original : job.original index with
      | none =>
        have same : layoutOf none none (job.originalItem index) = job.untouched index := by
          rw [Job.untouched, Job.originalItem, original]
          rfl
        exact active.moves shown (allows_untouched global) same (by simp)
      | some node =>
        exact active.moves shown (allows_back global allows (by simp) (by simp) : phase.Allows job.course index .cleared)
          ⟨by rw [original]; rfl, rfl⟩ (by simp)
    apply (settle_safely (stands.safe leaves)).weaken
    · rintro _ after ⟨-, rfl⟩
      exact stands
    · exact fun _ stopped => stopped

variable (sees : ∀ subject, ¬allowed (.existence subject) .failed)

/-- Whether an original is in the backup location. -/
private theorem backup_isSome {stage : Stage} (lies : job.Lies index (config.layout index) stage)
    (member : stage ∈ [Stage.untouched, .partly, .staged, .backedUp, .cleared]) :
    (config.layout index .backup).isSome = true ↔ stage = .backedUp ∨ stage = .cleared := by
  cases stage with
  | untouched => rw [show config.layout index = job.untouched index from lies]; simp [Job.untouched]
  | partly => obtain ⟨count, layout⟩ := lies; rw [layout]; simp [Job.partly]
  | staged => obtain ⟨mode, layout⟩ := lies; rw [layout]; simp [Job.staged]
  | backedUp =>
    obtain ⟨there, mode, layout⟩ := lies
    rw [layout, Job.backedUp, layoutOf_backup, Job.originalItem, Option.isSome_map, there]
    simp
  | cleared =>
    rw [lies.2, Job.cleared, layoutOf_backup, Job.originalItem, Option.isSome_map, lies.1]
    simp
  | installed => simp at member

include sound here leaves global sees in
/-- The backup is moved back to the target's path. -/
theorem restoreBackup_triple (active : job.Active phase session config world) {stage : Stage}
    (allows : phase.Allows job.course index stage) (lies : job.Lies index (config.layout index) stage)
    (member : stage ∈ [Stage.untouched, .partly, .staged, .backedUp, .cleared]) :
    Triple allowed (· = world) (restoreBackup job.setting target (locationsOf job.manifest.transactionId target))
      (Ends FsError.IsSystem (fun _ later => job.Stands phase session index [.untouched, .partly, .staged] later) rest) := by
  have safe := active.safe leaves
  have existed := sound.existed index target here
  have restoring : Triple allowed (· = world)
      (if (config.layout index .backup).isSome = true then do
        let _ ← verifyOriginalLocation job.setting (locationsOf job.manifest.transactionId target).backup target
        noReplaceRename (locationsOf job.manifest.transactionId target).backup
          (locationsOf job.manifest.transactionId target).target "restore_backup"
        syncDirectory
        syncDirectory
      else pure ())
      (Ends FsError.IsSystem (fun _ later => job.Stands phase session index [.untouched, .partly, .staged] later) rest) := by
    by_cases moved : stage = .backedUp ∨ stage = .cleared
    · rw [if_pos ((backup_isSome lies member).mpr moved)]
      have wasThere : (job.original index).isSome := by
        rcases moved with rfl | rfl
        · exact lies.1
        · exact lies.1
      obtain ⟨node, original⟩ := Option.isSome_iff_exists.mp wasThere
      have isOriginal : job.originalItem index = some (.file node) := by rw [Job.originalItem, original]; rfl
      have there : config.layout index .backup = job.originalItem index ∧ config.layout index .target = none := by
        rcases moved with rfl | rfl
        · obtain ⟨-, mode, layout⟩ := lies
          rw [layout]
          exact ⟨rfl, rfl⟩
        · rw [lies.2]
          exact ⟨rfl, rfl⟩
      apply (verifyOriginal_triple sound active.shows_ here safe original there.1
        (lies.plain sound here)).exactlyThen fun _ stopped => stopped
      apply (rename_triple sound active.shows_ here (there.1.trans isOriginal) there.2 _ safe).calls
      intro later shown
      have stands : job.Stands phase session index [.untouched, .partly, .staged] later := by
        rcases moved with rfl | rfl
        · obtain ⟨-, mode, layout⟩ := lies
          rw [layout, Job.backedUp, update_layoutOf.2.2, update_layoutOf.1, ← isOriginal] at shown
          exact active.moves shown (allows_back global allows (by simp) (by simp) : phase.Allows job.course index .staged)
            ⟨mode, rfl⟩ (by simp)
        · rw [lies.2, Job.cleared, update_layoutOf.2.2, update_layoutOf.1, ← isOriginal] at shown
          have untouched : job.Lies index (layoutOf (job.originalItem index) none none) .untouched := rfl
          exact active.moves shown (allows_untouched global) untouched (by simp)
      apply (settle_safely (stands.safe leaves)).exactlyThen fun _ stopped => stopped
      apply (settle_safely (stands.safe leaves)).weaken
      · rintro _ after ⟨-, rfl⟩
        exact stands
      · exact fun _ stopped => stopped
    · rw [if_neg fun occupied => moved ((backup_isSome lies member).mp occupied)]
      apply Triple.returns
      refine active.stands allows lies ?_
      cases stage <;> simp_all
  rw [restoreBackup]
  split_ifs with wasThere
  · exact (pathExists_triple sound active.shows_ here safe sees .backup "backup").exactlyThen (fun _ stopped => stopped) restoring
  · have free : ¬(config.layout index .backup).isSome = true := by
      intro occupied
      rcases (backup_isSome lies member).mp occupied with rfl | rfl
      · exact wasThere (existed.trans lies.1)
      · exact wasThere (existed.trans lies.1)
    rw [if_neg free] at restoring
    exact restoring

include sound here leaves global sees in
/-- A staged candidate is removed, recorded or not. -/
theorem removeStaged_triple (active : job.Active phase session config world) {stage : Stage}
    (allows : phase.Allows job.course index stage) (lies : job.Lies index (config.layout index) stage)
    (member : stage ∈ [Stage.untouched, .partly, .staged]) :
    Triple allowed (· = world)
      (removeStaged job.setting target (locationsOf job.manifest.transactionId target) (phase.target job.course index))
      (Ends FsError.IsSystem (fun _ later => job.Stands phase session index [.untouched] later) rest) := by
  have safe := active.safe leaves
  have plain := lies.plain sound here
  rw [removeStaged]
  apply (pathExists_triple sound active.shows_ here safe sees .candidate "candidate").exactlyThen fun _ stopped => stopped
  have removing {mode : UInt32} {bytes : Bytes} (layout : config.layout index = layoutOf (job.originalItem index)
      (some (job.candidateItem index mode bytes)) none) :
      Triple allowed (· = world)
        (do
          io "remove_staged_candidate" (some target.path) fun world =>
            world.removeFile (locationsOf job.manifest.transactionId target).candidate
              (.io "remove_staged_candidate" (some target.path))
          syncDirectory)
        (Ends FsError.IsSystem (fun _ later => job.Stands phase session index [.untouched] later) rest) := by
    have full : config.layout index .candidate = some (job.candidateItem index mode bytes) := by rw [layout]; rfl
    apply (removeFile_triple sound active.shows_ here full _ _ safe).calls
    intro later shown
    rw [layout, update_layoutOf.2.1] at shown
    have stands : job.Stands phase session index [.untouched] later :=
      active.moves shown (allows_untouched global) rfl (by simp)
    apply (settle_safely (stands.safe leaves)).weaken
    · rintro _ after ⟨-, rfl⟩
      exact stands
    · exact fun _ stopped => stopped
  cases stage with
  | untouched =>
    have free : config.layout index .candidate = none := by rw [show config.layout index = job.untouched index from lies]; rfl
    rw [free, Option.isSome_none, if_neg Bool.false_ne_true]
    exact Triple.returns (active.stands allows lies (by simp))
  | partly =>
    obtain ⟨count, layout⟩ := lies
    have unready : phase.ready ≤ index := by
      rw [Phase.Allows, global] at allows
      rcases allows with impossible | ⟨-, ⟨-, impossible⟩ | ⟨same, -⟩⟩
      · cases impossible
      · simp at impossible
      · exact same.ge
    have full : config.layout index .candidate = some (job.candidateItem index 0o600 ((job.content index).take count)) := by
      rw [layout]
      rfl
    have unrecorded : ¬(phase.target job.course index).candidate.kind = .ready := by
      rw [Phase.target, Phase.candidate_of_le unready]
      simp
    rw [full, Option.isSome_some, if_pos rfl, checkStagedCandidate, if_neg unrecorded, validatePartialCandidate]
    have occupied : world.item? (locationsOf job.manifest.transactionId target).candidate =
        some (job.candidateItem index 0o600 ((job.content index).take count)) :=
      (active.shows_.item? sound here .candidate).trans full
    apply ((ioRead_triple _ (by rw [occupied]; rfl)).safely safe).exactlyThen fun _ stopped => stopped
    exact removing layout
  | staged =>
    obtain ⟨mode, layout⟩ := lies
    have ready := ready_of_allows global allows (by simp)
    have full : config.layout index .candidate = some (job.candidateItem index mode (job.content index)) := by
      rw [layout]
      rfl
    have recorded : (phase.target job.course index).candidate.kind = .ready := by
      rw [Phase.target, Phase.candidate_of_lt ready]
    have checked : Triple allowed (· = world)
        (checkStagedCandidate job.setting target (locationsOf job.manifest.transactionId target)
          (phase.target job.course index)) (Ends FsError.IsSystem (Exactly () world) rest) := by
      rw [checkStagedCandidate, if_pos recorded]
      apply (verifyCandidate_triple sound active.shows_ here safe ready full plain).exactlyThen fun _ stopped => stopped
      exact Triple.returns ⟨rfl, rfl⟩
    rw [full, Option.isSome_some, if_pos rfl]
    apply checked.exactlyThen fun _ stopped => stopped
    exact removing layout
  | _ => simp at member

/-- What is recorded of a restored target. -/
def Job.restoredState (job : Job) (index : ℕ) : RollbackState :=
  if job.course.existed index then ⟨.originalRestored, some (job.course.original index)⟩ else ⟨.absenceRestored, none⟩

include sound here leaves sees in
/-- The target is what it was before the transaction. -/
theorem verifyRestored_triple (active : job.Active phase session config world)
    (untouched : config.layout index = job.untouched index) :
    Triple allowed (· = world) (verifyRestored job.setting target (locationsOf job.manifest.transactionId target))
      (Ends FsError.IsSystem (Exactly (job.restoredState index) world) rest) := by
  have safe := active.safe leaves
  have existed := sound.existed index target here
  have lies : job.Lies index (config.layout index) .untouched := untouched
  have noBackup : config.layout index .backup = none := by rw [untouched]; rfl
  rw [verifyRestored]
  cases original : job.original index with
  | some node =>
    have wasThere : target.originalExisted = true := by rw [existed, original]; rfl
    have there : config.layout index .target = job.originalItem index := by rw [untouched]; rfl
    rw [if_pos wasThere]
    apply (verifyOriginal_triple sound active.shows_ here safe original there
      (lies.plain sound here)).exactlyThen fun _ stopped => stopped
    apply (pathExists_triple sound active.shows_ here safe sees .backup "backup").exactlyThen fun _ stopped => stopped
    rw [noBackup, Option.isSome_none, Except.rejectIf_of_not Bool.false_ne_true, ofExcept_ok_bind]
    apply Triple.returns
    refine ⟨?_, rfl⟩
    simp [Job.restoredState, Job.course, original]
  | none =>
    have notThere : ¬target.originalExisted = true := by rw [existed, original]; exact Bool.false_ne_true
    have free : config.layout index .target = none := by
      rw [untouched, Job.untouched, layoutOf_target, Job.originalItem, original]
      rfl
    rw [if_neg notThere]
    apply (pathExists_triple sound active.shows_ here safe sees .target "target").exactlyThen fun _ stopped => stopped
    rw [free, Option.isSome_none, if_neg Bool.false_ne_true]
    apply (pathExists_triple sound active.shows_ here safe sees .backup "backup").exactlyThen fun _ stopped => stopped
    rw [noBackup, Option.isSome_none]
    beta_reduce
    rw [Except.rejectIf_of_not Bool.false_ne_true, ofExcept_ok_bind]
    apply Triple.returns
    refine ⟨?_, rfl⟩
    simp [Job.restoredState, Job.course, original]

end Rollback

/-! ## The loop over the targets -/

/-- The phase of a rollback with this many targets restored. -/
def rollingBackAt (ready installed : ℕ) (backedUp : Bool) (restored : ℕ) : Phase :=
  ⟨.rollingBack, ready, installed, backedUp, restored⟩

/-- At least this many targets are recorded as restored, from the last one on. -/
def Job.RestoredTo (job : Job) (count : ℕ) (session : Session) (world : World) : Prop :=
  ∃ config ready installed backedUp restored, job.Active (rollingBackAt ready installed backedUp restored) session config world ∧
    count ≤ restored

section Loop

variable (sound : job.Sound) (here : job.manifest.targets[index]? = some target) (leaves : job.Leaves allowed rest)
  (sees : ∀ subject, ¬allowed (.existence subject) .failed) {ready installed restored count : ℕ} {backedUp : Bool}

private theorem update_restored (inside : index < job.course.count) (last : index + (restored + 1) = job.course.count) :
    updateTarget index (fun state => { state with rollback := job.restoredState index })
      ((rollingBackAt ready installed backedUp restored).targets job.course) =
        .ok ((rollingBackAt ready installed backedUp (restored + 1)).targets job.course) := by
  apply updateTarget_targets inside
  · have now : (rollingBackAt ready installed backedUp (restored + 1)).Restored job.course index := last.ge
    have after : (rollingBackAt ready installed backedUp (restored + 1)).rollback job.course index = job.restoredState index :=
      if_pos now
    rw [Phase.target, Phase.target, after]
    rfl
  · intro other _ different
    have same : (rollingBackAt ready installed backedUp restored).Restored job.course other ↔
        (rollingBackAt ready installed backedUp (restored + 1)).Restored job.course other := by
      change job.course.count ≤ other + restored ↔ job.course.count ≤ other + (restored + 1)
      omega
    have rollback : (rollingBackAt ready installed backedUp restored).rollback job.course other =
        (rollingBackAt ready installed backedUp (restored + 1)).rollback job.course other :=
      ite_congr (propext same) (fun _ => rfl) fun _ => rfl
    rw [Phase.target, Phase.target, rollback]
    rfl

include sound here leaves in
/-- The restored target is recorded unless it is already. -/
theorem recordRestored_triple (active : job.Active (rollingBackAt ready installed backedUp restored) session config world)
    (untouched : config.layout index = job.untouched index) (position : index + (count + 1) = job.course.count)
    (passed : count ≤ restored) :
    Triple allowed (· = world) (recordRestored job.setting session index (job.restoredState index))
      (Ends FsError.IsSystem (fun session' later => job.RestoredTo (count + 1) session' later) rest) := by
  rw [recordRestored, active.follows.records.recorded here, ofExcept_ok_bind]
  rcases passed.lt_or_eq with earlier | rfl
  · have already : (rollingBackAt ready installed backedUp restored).Restored job.course index := by
      change job.course.count ≤ index + restored
      omega
    have recorded : ¬((rollingBackAt ready installed backedUp restored).target job.course index).rollback.kind = .none := by
      rw [Phase.target, Phase.rollback, if_pos already]
      split_ifs <;> simp
    rw [if_neg recorded]
    exact Triple.returns ⟨config, ready, installed, backedUp, restored, active, earlier⟩
  · have unrestored : ¬(rollingBackAt ready installed backedUp count).Restored job.course index := by
      change ¬job.course.count ≤ index + count
      omega
    have unrecorded : ((rollingBackAt ready installed backedUp count).target job.course index).rollback.kind = .none := by
      rw [Phase.target, Phase.rollback_none unrestored]
    have placedAfter : job.Placed config (rollingBackAt ready installed backedUp (count + 1)) := by
      intro other inside
      obtain ⟨stage, allows, lies⟩ := active.placed other inside
      by_cases same : other = index
      · rw [same]
        exact ⟨.untouched, .inl rfl, untouched⟩
      · rcases allows with rfl | ⟨unrestored, moved⟩
        · exact ⟨.untouched, .inl rfl, lies⟩
        · refine ⟨stage, .inr ⟨?_, moved⟩, lies⟩
          change ¬job.course.count ≤ other + (count + 1)
          change ¬job.course.count ≤ other + count at unrestored
          omega
    rw [if_pos unrecorded, publishTargetTransition]
    apply (publishNext_triple sound active.shows_ active.unbegun active.follows (.restore (by omega))
      (update_restored (by omega) position) active.placed placedAfter leaves).weaken
    · rintro session' later ⟨follows, published⟩
      exact ⟨config.record _, ready, installed, backedUp, count + 1, ⟨published, rfl, follows, placedAfter⟩, le_rfl⟩
    · exact fun _ stopped => stopped

include sound here leaves sees in
/-- Restoring one target. -/
theorem rollbackTarget_triple (position : index + (count + 1) = job.course.count)
    (restoredTo : job.RestoredTo count session world) :
    Triple allowed (· = world) (rollbackTarget job.setting job.manifest session (target, index))
      (Ends FsError.IsSystem (fun session' later => job.RestoredTo (count + 1) session' later) rest) := by
  obtain ⟨config, ready, installed, backedUp, restored, active, passed⟩ := restoredTo
  obtain ⟨stage, allows, lies⟩ := active.placed index (List.getElem?_eq_some_iff.mp here).1
  have safe := active.safe leaves
  have plain := lies.plain sound here
  have global : (rollingBackAt ready installed backedUp restored).globalState = .rollingBack := rfl
  rw [rollbackTarget]
  apply (targetPaths_triple sound active.shows_ here plain safe).exactlyThen fun _ stopped => stopped
  rw [active.follows.records.recorded here, ofExcept_ok_bind, active.follows.records.global]
  apply (observeTarget_triple sound active.shows_ here safe plain _ _).exactlyThen fun _ stopped => stopped
  apply (removeInstalled_triple global sound here leaves active allows lies).proceeds
  rintro _ later ⟨config', stage', active', allows', lies', member'⟩
  apply (restoreBackup_triple global sound here leaves sees active' allows' lies' member').proceeds
  rintro _ later ⟨config', stage', active', allows', lies', member'⟩
  apply (removeStaged_triple global sound here leaves sees active' allows' lies' member').proceeds
  rintro _ later ⟨config', stage', active', allows', lies', member'⟩
  obtain rfl := List.mem_singleton.mp member'
  apply (verifyRestored_triple sound here leaves sees active' lies').exactlyThen fun _ stopped => stopped
  exact recordRestored_triple sound here leaves active' lies' position passed

end Loop

variable (sound : job.Sound) (leaves : job.Leaves allowed rest) (sees : ∀ subject, ¬allowed (.existence subject) .failed)

/-- The targets from the last one on. -/
private theorem reversed_target {entry : ManifestTarget × ℕ} {count : ℕ}
    (visited : job.manifest.targets.zipIdx.reverse[count]? = some entry) :
    entry.2 + (count + 1) = job.course.count ∧ job.manifest.targets[entry.2]? = some entry.1 := by
  have inside : count < job.manifest.targets.zipIdx.length := by
    have bound := (List.getElem?_eq_some_iff.mp visited).1
    rwa [List.length_reverse] at bound
  rw [List.getElem?_reverse inside, List.getElem?_zipIdx, Option.map_eq_some_iff] at visited
  obtain ⟨target, here, rfl⟩ := visited
  rw [List.length_zipIdx] at inside here ⊢
  refine ⟨?_, by rw [Nat.zero_add]; exact here⟩
  change 0 + (job.manifest.targets.length - 1 - count) + (count + 1) = job.manifest.targets.length
  omega

include sound leaves sees in
theorem restoreTargets_triple (restoredTo : job.RestoredTo 0 session world) :
    Triple allowed (· = world) (job.manifest.targets.zipIdx.reverse.foldlM (rollbackTarget job.setting job.manifest) session)
      (Ends FsError.IsSystem (fun session' later => job.RestoredTo job.course.count session' later) rest) := by
  have loop : Triple allowed (job.RestoredTo 0 session)
      (job.manifest.targets.zipIdx.reverse.foldlM (rollbackTarget job.setting job.manifest) session)
      ⟨job.RestoredTo job.manifest.targets.zipIdx.reverse.length, fun error later => error.IsSystem ∧ rest later, rest⟩ := by
    apply Triple.foldlM job.RestoredTo
    rintro count ⟨target, index⟩ visited session'
    obtain ⟨position, here⟩ := reversed_target visited
    apply Triple.pointwise
    exact fun later restoredTo => rollbackTarget_triple sound here leaves sees position restoredTo
  rw [List.length_reverse, List.length_zipIdx] at loop
  apply loop.mono
  · rintro later rfl
    exact restoredTo
  · exact fun _ _ finished => finished
  · exact fun _ _ failed => failed
  · exact fun _ stopped => stopped

/-- The phase of a transaction that was rolled back. -/
def Job.rolledBackPhase (job : Job) (ready installed : ℕ) (backedUp : Bool) : Phase :=
  ⟨.rolledBack, ready, installed, backedUp, job.course.count⟩

/-- A session of a transaction that was rolled back. -/
def Job.RolledBack (job : Job) (session : Session) (world : World) : Prop :=
  ∃ config ready installed backedUp, job.Active (job.rolledBackPhase ready installed backedUp) session config world

include sound leaves sees in
/-- A rollback that has begun is brought to its end. -/
theorem restoreOriginals_triple {ready installed restored : ℕ} {backedUp : Bool}
    (active : job.Active (rollingBackAt ready installed backedUp restored) session config world) :
    Triple allowed (· = world) (restoreOriginals job.setting ⟨job.manifest, session⟩)
      (Ends FsError.IsSystem (fun session' later => job.RolledBack session' later) rest) := by
  rw [restoreOriginals]
  have restoring : Triple allowed (· = world) (rollbackAllTargets job.setting ⟨job.manifest, session⟩)
      (Ends FsError.IsSystem (fun session' later => ∃ config ready installed backedUp,
        job.Active (rollingBackAt ready installed backedUp job.course.count) session' config later) rest) := by
    rw [rollbackAllTargets]
    apply (restoreTargets_triple sound leaves sees
      ⟨config, ready, installed, backedUp, restored, active, Nat.zero_le _⟩).proceeds
    rintro session' later ⟨config', ready', installed', backedUp', restored', active', all⟩
    have good := active'.follows.path.good sound.course_of.positive
    obtain rfl : restored' = job.course.count := Nat.le_antisymm good.restored_le all
    have recoverable : job.Recoverable config' (rollingBackAt ready' installed' backedUp' job.course.count) := by
      intro index target here
      obtain ⟨stage, allows, lies⟩ := active'.placed index (List.getElem?_eq_some_iff.mp here).1
      refine ⟨stage, allows, lies, fun _ isPartly => ?_⟩
      rcases allows with rfl | ⟨unrestored, -⟩
      · cases isPartly
      · exact unrestored (Nat.le_add_left _ _)
    have starts : RecoveryMode.Starts .rollback .rollingBack := .inr (.inr (.inr rfl))
    apply (classifyAllTargets_triple sound active'.shows_ good active'.follows.records recoverable starts
      (active'.safe leaves)).exactlyThen fun _ stopped => stopped
    exact Triple.returns ⟨config', ready', installed', backedUp', active'⟩
  apply restoring.proceeds
  rintro session' later ⟨config', ready', installed', backedUp', active'⟩
  have placedAfter : job.Placed config' (job.rolledBackPhase ready' installed' backedUp') := by
    intro index inside
    obtain ⟨stage, allows, lies⟩ := active'.placed index inside
    rcases allows with rfl | ⟨unrestored, -⟩
    · exact ⟨.untouched, rfl, lies⟩
    · exact absurd (Nat.le_add_left _ _) unrestored
  rw [publishGlobalTransition]
  apply (publishNext_triple sound active'.shows_ active'.unbegun active'.follows .rollBack rfl active'.placed placedAfter
    leaves).weaken
  · rintro session'' after ⟨follows, published⟩
    exact ⟨_, _, _, _, published, rfl, follows, placedAfter⟩
  · exact fun _ stopped => stopped

/-! ## Beginning a rollback -/

/-- Every target is in a stage a rollback may start from. -/
theorem placed_rollingBack {global : GlobalState} {ready installed : ℕ} {backedUp : Bool}
    (unfinished : global = .preparing ∨ global = .prepared ∨ global = .committing)
    (good : (⟨global, ready, installed, backedUp, 0⟩ : Phase).Good job.course)
    (placed : job.Placed config ⟨global, ready, installed, backedUp, 0⟩) :
    job.Placed config (rollingBackAt ready installed backedUp 0) := by
  intro index inside
  obtain ⟨stage, allows, lies⟩ := placed index inside
  refine ⟨stage, ?_, lies⟩
  have unrestored : ¬(rollingBackAt ready installed backedUp 0).Restored job.course index := not_le.mpr inside
  have preparing (begun : (index < ready ∧ stage = .staged) ∨
      (ready ≤ index ∧ (stage = .untouched ∨ index = ready ∧ stage = .partly))) :
      (rollingBackAt ready installed backedUp 0).Allows job.course index stage := by
    rcases begun with ⟨recorded, isStaged⟩ | ⟨-, isUntouched | ⟨next, isPartly⟩⟩
    · exact .inr ⟨unrestored, .inl ⟨recorded, .inl isStaged⟩⟩
    · exact .inl isUntouched
    · exact .inr ⟨unrestored, .inr ⟨next, isPartly⟩⟩
  rcases unfinished with rfl | rfl | rfl
  · exact preparing allows
  · exact preparing allows
  · have recorded : index < ready := inside.trans_eq (good.committing rfl).symm
    refine .inr ⟨unrestored, .inl ⟨recorded, ?_⟩⟩
    rcases allows with ⟨-, isInstalled⟩ | ⟨-, isStaged⟩ | ⟨-, physical⟩
    · exact .inr (.inr (.inl isInstalled))
    · exact .inl isStaged
    · split_ifs at physical <;> rcases physical with same | same <;> simp [same]

/-- A session whose rollback has begun. -/
def Job.BegunRollback (job : Job) (loaded : LoadedTransaction) (world : World) : Prop :=
  loaded.manifest = job.manifest ∧ ∃ config ready installed backedUp restored,
    job.Active (rollingBackAt ready installed backedUp restored) loaded.session config world

include sound leaves in
/-- The rollback is recorded before anything is restored. -/
theorem beginRollback_triple (active : job.Active phase session config world)
    (starts : RecoveryMode.rollback.Starts phase.globalState) :
    Triple allowed (· = world) (beginRollback job.setting ⟨job.manifest, session⟩)
      (Ends FsError.IsSystem job.BegunRollback rest) := by
  obtain ⟨global, ready, installed, backedUp, restored⟩ := phase
  rw [beginRollback]
  dsimp only at starts ⊢
  rw [active.follows.records.global]
  by_cases begun : global = .rollingBack
  · subst begun
    rw [if_neg (not_not.mpr rfl)]
    exact Triple.returns ⟨rfl, config, ready, installed, backedUp, restored, active⟩
  · have unfinished : global = .preparing ∨ global = .prepared ∨ global = .committing := by
      rcases starts with same | same | same | same
      · exact .inl same
      · exact .inr (.inl same)
      · exact .inr (.inr same)
      · exact absurd same begun
    have good := active.follows.path.good sound.course_of.positive
    obtain rfl : restored = 0 := good.forward (by rcases unfinished with rfl | rfl | rfl <;> rfl)
    have placedAfter := placed_rollingBack unfinished good active.placed
    rw [if_pos begun, publishGlobalTransition]
    apply (publishNext_triple sound active.shows_ active.unbegun active.follows (.beginRollback unfinished) rfl active.placed
      placedAfter leaves).proceeds
    rintro session' later ⟨follows, published⟩
    exact Triple.returns ⟨rfl, _, ready, installed, backedUp, 0, published, rfl, follows, placedAfter⟩

end Srcmv.Fs
