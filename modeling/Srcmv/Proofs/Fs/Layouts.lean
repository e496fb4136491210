import Srcmv.Proofs.Fs.Staging

/-! # How the locations of a target are classified

The observation of a target in a configuration is computed from the three items and the recorded
state alone. An original is recognized anywhere; a candidate is recognized once it is recorded, and
while the transaction is preparing anything at the candidate location counts as one.
-/

namespace Srcmv.Fs

open Srcmv.Core Machine Process

/-- The fingerprint of a file, if there is one. -/
def printOf (sha256 : Bytes → Sha256Digest) : Option Item → Option Fingerprint
  | some (.file node) => some ⟨node.identity, UInt64.ofNat node.bytes.length, sha256 node.bytes⟩
  | _ => none

/-- Every location is free or holds a file of at most `u64::MAX` bytes. -/
def Layout.Plain (layout : Layout) : Prop :=
  ∀ slot item, layout slot = some item → ∃ node, item = .file node ∧ node.bytes.length ≤ u64Max

theorem Layout.Plain.fingerprint {layout : Layout} (plain : layout.Plain) (sha256 : Bytes → Sha256Digest) (slot : Slot) :
    fingerprintOf sha256 (layout slot) = .ok (printOf sha256 (layout slot)) := by
  cases found : layout slot with
  | none => rfl
  | some item =>
    obtain ⟨node, rfl, bounded⟩ := plain slot item found
    exact fingerprintOf_file bounded

/-- What is observed of a target. -/
def observationOf (sha256 : Bytes → Sha256Digest) (target : ManifestTarget) (state : TargetState) (global : GlobalState)
    (layout : Layout) : SyntheticTargetObservation where
  parentMatches := true
  target := classifyFingerprint (printOf sha256 (layout .target)) target state false global
  candidate := classifyFingerprint (printOf sha256 (layout .candidate)) target state true global
  backup := classifyBackupFingerprint (printOf sha256 (layout .backup)) target

section Classified

variable {job : Job} {index : ℕ} {target : ManifestTarget}

theorem Job.Sound.plain_original (sound : job.Sound) {item : Item} (found : job.originalItem index = some item) :
    ∃ node, item = .file node ∧ node.bytes.length ≤ u64Max := by
  obtain ⟨node, original, rfl⟩ := Option.map_eq_some_iff.mp found
  exact ⟨node, rfl, sound.originalBytes index node original⟩

/-- An original, wherever it is. -/
theorem classify_original (sound : job.Sound) (here : job.manifest.targets[index]? = some target) {item : Item}
    (found : job.originalItem index = some item) (state : TargetState) (candidateLocation : Bool) (global : GlobalState) :
    classifyFingerprint (printOf job.crates.sha256 (some item)) target state candidateLocation global = .original ∧
      classifyBackupFingerprint (printOf job.crates.sha256 (some item)) target = .original := by
  obtain ⟨node, original, rfl⟩ := Option.map_eq_some_iff.mp found
  have existed : target.originalExisted = true := by rw [sound.existed index target here, original]; rfl
  have recorded := sound.recorded index target node here original
  constructor
  · rw [printOf, classifyFingerprint, existed, recorded]
    rfl
  · rw [printOf, classifyBackupFingerprint, existed, recorded]
    rfl

/-- No candidate passes for the original. -/
private theorem not_matchesOriginal (sound : job.Sound) (here : job.manifest.targets[index]? = some target)
    (length : UInt64) (digest : Sha256Digest) :
    (target.originalExisted && matchesOriginal ⟨job.setting.newIdentity (generatedName "candidate" index), length, digest⟩
      target) = false := by
  rw [sound.existed index target here]
  cases original : job.original index with
  | none => rfl
  | some node =>
    have recorded := sound.recorded index target node here original
    rw [matchesOriginal] at recorded ⊢
    simp only [Bool.and_eq_true, decide_eq_true_eq] at recorded
    have different : target.originalIdentity ≠
        some (.ofIdentity (job.setting.newIdentity (generatedName "candidate" index))) := by
      rw [recorded.1.1]
      intro same
      exact sound.distinct index node original (PersistedIdentity.ofIdentity_injective (Option.some.inj same)).symm
    simp [different]

variable {phase : Phase}

/-- A complete candidate that is recorded. -/
theorem classify_ready (sound : job.Sound) (here : job.manifest.targets[index]? = some target)
    (ready : index < phase.ready) (mode : UInt32) (candidateLocation : Bool) (global : GlobalState) :
    classifyFingerprint (printOf job.crates.sha256 (some (job.candidateItem index mode (job.content index)))) target
      (phase.target job.course index) candidateLocation global = .candidate := by
  have planned := sound.planned index target here
  have recorded : (phase.target job.course index).candidate = ⟨.ready, some (job.course.candidate index)⟩ :=
    Phase.candidate_of_lt ready
  rw [Job.candidateItem, printOf, classifyFingerprint, not_matchesOriginal sound here, if_neg Bool.false_ne_true, if_pos]
  rw [matchesCandidate, recorded, planned.length, planned.digest]
  simp [Job.course]

/-- What stands at a candidate location before it is recorded. -/
theorem classify_unrecorded (sound : job.Sound) (here : job.manifest.targets[index]? = some target)
    (unready : phase.ready ≤ index) (mode : UInt32) (bytes : Bytes) (global : GlobalState) :
    classifyFingerprint (printOf job.crates.sha256 (some (job.candidateItem index mode bytes))) target
      (phase.target job.course index) true global = if global = .preparing then .candidate else .unexpected := by
  have recorded : (phase.target job.course index).candidate = ⟨.missing, none⟩ := Phase.candidate_of_le unready
  rw [Job.candidateItem, printOf, classifyFingerprint, not_matchesOriginal sound here, if_neg Bool.false_ne_true, recorded,
    if_neg (by simp)]
  simp

theorem matchesCandidate_ready (sound : job.Sound) (here : job.manifest.targets[index]? = some target)
    (ready : index < phase.ready) :
    matchesCandidate ⟨job.setting.newIdentity (generatedName "candidate" index), UInt64.ofNat (job.content index).length,
      job.crates.sha256 (job.content index)⟩ target (phase.target job.course index) = true := by
  have planned := sound.planned index target here
  have recorded : (phase.target job.course index).candidate = ⟨.ready, some (job.course.candidate index)⟩ :=
    Phase.candidate_of_lt ready
  rw [matchesCandidate, recorded, planned.length, planned.digest]
  simp [Job.course]

end Classified

/-! ## Stages -/

/-- How far one target has come physically. -/
inductive Stage where
  | untouched
  | partly
  | staged
  | backedUp
  | installed
  | cleared
deriving DecidableEq

/-- The layouts of a stage. -/
def Job.Lies (job : Job) (index : ℕ) (layout : Layout) : Stage → Prop
  | .untouched => layout = job.untouched index
  | .partly => ∃ count, layout = job.partly index ((job.content index).take count)
  | .staged => ∃ mode, layout = job.staged index mode
  | .backedUp => (job.original index).isSome ∧ ∃ mode, layout = job.backedUp index mode
  | .installed => layout = job.installed index
  | .cleared => (job.original index).isSome ∧ layout = job.cleared index

/-- The stages a target may have been left in when this phase was the last one recorded. -/
def Phase.Allows (course : Course) (phase : Phase) (index : ℕ) (stage : Stage) : Prop :=
  match phase.globalState with
  | .preparing | .prepared =>
      (index < phase.ready ∧ stage = .staged) ∨
        (phase.ready ≤ index ∧ (stage = .untouched ∨ index = phase.ready ∧ stage = .partly))
  | .committing =>
      (index < phase.installed ∧ stage = .installed) ∨ (phase.installed < index ∧ stage = .staged) ∨
        (index = phase.installed ∧
          if course.existed index then
            if phase.backedUp then stage = .backedUp ∨ stage = .installed else stage = .staged ∨ stage = .backedUp
          else stage = .staged ∨ stage = .installed)
  | .committed => stage = .installed
  | .rollingBack =>
      stage = .untouched ∨ (¬phase.Restored course index ∧
        ((index < phase.ready ∧ (stage = .staged ∨ stage = .backedUp ∨ stage = .installed ∨ stage = .cleared)) ∨
          (index = phase.ready ∧ stage = .partly)))
  | .rolledBack => stage = .untouched

/-- The layout a target may have been left in. -/
def Job.Admits (job : Job) (phase : Phase) (index : ℕ) (layout : Layout) : Prop :=
  ∃ stage, phase.Allows job.course index stage ∧ job.Lies index layout stage

section Observed

variable {job : Job} {index : ℕ} {target : ManifestTarget} {phase : Phase} {layout : Layout}

theorem Job.Sound.content_bounded (sound : job.Sound) (here : job.manifest.targets[index]? = some target) :
    (job.content index).length ≤ u64Max := (sound.planned index target here).bounded

theorem Job.Lies.plain (sound : job.Sound) (here : job.manifest.targets[index]? = some target) {stage : Stage}
    (lies : job.Lies index layout stage) : layout.Plain := by
  have original : ∀ item, job.originalItem index = some item → ∃ node, item = .file node ∧ node.bytes.length ≤ u64Max :=
    fun item found => sound.plain_original found
  have bounded := sound.content_bounded here
  have candidate : ∀ mode (bytes : Bytes) item, bytes.length ≤ u64Max → some (job.candidateItem index mode bytes) = some item →
      ∃ node, item = .file node ∧ node.bytes.length ≤ u64Max := by
    rintro mode bytes item short same
    exact ⟨_, (Option.some.inj same).symm, short⟩
  intro slot item found
  cases stage with
  | untouched =>
    rw [lies] at found
    cases slot with
    | target => exact original item found
    | candidate => cases found
    | backup => cases found
  | partly =>
    obtain ⟨count, rfl⟩ := lies
    cases slot with
    | target => exact original item found
    | candidate => exact candidate _ _ item ((List.length_take_le' _ _).trans bounded) found
    | backup => cases found
  | staged =>
    obtain ⟨mode, rfl⟩ := lies
    cases slot with
    | target => exact original item found
    | candidate => exact candidate _ _ item bounded found
    | backup => cases found
  | backedUp =>
    obtain ⟨-, mode, rfl⟩ := lies
    cases slot with
    | target => cases found
    | candidate => exact candidate _ _ item bounded found
    | backup => exact original item found
  | installed =>
    rw [lies] at found
    cases slot with
    | target => exact candidate _ _ item bounded found
    | candidate => cases found
    | backup => exact original item found
  | cleared =>
    rw [lies.2] at found
    cases slot with
    | target => cases found
    | candidate => cases found
    | backup => exact original item found

variable (sound : job.Sound) (here : job.manifest.targets[index]? = some target) (global : GlobalState)

include sound here in
private theorem classify_originalItem (state : TargetState) (candidateLocation : Bool) :
    classifyFingerprint (printOf job.crates.sha256 (job.originalItem index)) target state candidateLocation global =
        initialTarget target.originalExisted ∧
      classifyBackupFingerprint (printOf job.crates.sha256 (job.originalItem index)) target =
        initialTarget target.originalExisted := by
  have existed := sound.existed index target here
  cases found : job.originalItem index with
  | none =>
    rw [Option.map_eq_none_iff.mp found] at existed
    rw [existed]
    exact ⟨rfl, rfl⟩
  | some item =>
    obtain ⟨node, original, -⟩ := Option.map_eq_some_iff.mp found
    rw [original] at existed
    rw [existed]
    exact classify_original sound here found state candidateLocation global

include sound here in
theorem observation_untouched (state : TargetState) :
    observationOf job.crates.sha256 target state global (job.untouched index) =
      ⟨true, initialTarget target.originalExisted, .absent, .absent⟩ := by
  rw [observationOf, Job.untouched, layoutOf_target, (classify_originalItem sound here global state false).1]
  rfl

include sound here in
theorem observation_partly (unready : phase.ready ≤ index) (bytes : Bytes) :
    observationOf job.crates.sha256 target (phase.target job.course index) global (job.partly index bytes) =
      ⟨true, initialTarget target.originalExisted, if global = .preparing then .candidate else .unexpected, .absent⟩ := by
  rw [observationOf, Job.partly, layoutOf_target, layoutOf_candidate, (classify_originalItem sound here global _ false).1,
    classify_unrecorded sound here unready]
  rfl

include sound here in
theorem observation_staged (ready : index < phase.ready) (mode : UInt32) :
    observationOf job.crates.sha256 target (phase.target job.course index) global (job.staged index mode) =
      ⟨true, initialTarget target.originalExisted, .candidate, .absent⟩ := by
  rw [observationOf, Job.staged, layoutOf_target, layoutOf_candidate, (classify_originalItem sound here global _ false).1,
    classify_ready sound here ready]
  rfl

include sound here in
theorem observation_backedUp (ready : index < phase.ready) (mode : UInt32) :
    observationOf job.crates.sha256 target (phase.target job.course index) global (job.backedUp index mode) =
      ⟨true, .absent, .candidate, initialTarget target.originalExisted⟩ := by
  rw [observationOf, Job.backedUp, layoutOf_candidate, layoutOf_backup,
    (classify_originalItem sound here global (phase.target job.course index) false).2, classify_ready sound here ready]
  rfl

include sound here in
theorem observation_installed (ready : index < phase.ready) :
    observationOf job.crates.sha256 target (phase.target job.course index) global (job.installed index) =
      ⟨true, .candidate, .absent, initialTarget target.originalExisted⟩ := by
  rw [observationOf, Job.installed, layoutOf_target, layoutOf_backup,
    (classify_originalItem sound here global (phase.target job.course index) false).2, classify_ready sound here ready]
  rfl

include sound here in
theorem observation_cleared (state : TargetState) :
    observationOf job.crates.sha256 target state global (job.cleared index) =
      ⟨true, .absent, .absent, initialTarget target.originalExisted⟩ := by
  rw [observationOf, Job.cleared, layoutOf_backup, (classify_originalItem sound here global state false).2]
  rfl

end Observed

/-! ## Classification -/

/-- The recorded states a recovery mode starts from. -/
def RecoveryMode.Starts : RecoveryMode → GlobalState → Prop
  | .complete, global => global = .prepared ∨ global = .committing ∨ global = .committed
  | .rollback, global => global = .preparing ∨ global = .prepared ∨ global = .committing ∨ global = .rollingBack

section Classification

variable {job : Job} {index : ℕ} {target : ManifestTarget} {phase : Phase} {layout : Layout}

private theorem ready_of_inside (here : job.manifest.targets[index]? = some target) (all : phase.ready = job.course.count) :
    index < phase.ready := by
  rw [all]
  exact (List.getElem?_eq_some_iff.mp here).1

private theorem classify_initial (sound : job.Sound) (here : job.manifest.targets[index]? = some target) {stage : Stage}
    (lies : job.Lies index layout stage) (begun : phase.globalState = .preparing ∨ phase.globalState = .prepared)
    (good : phase.Good job.course) (allows : phase.Allows job.course index stage) {mode : RecoveryMode}
    (starts : mode.Starts phase.globalState) :
    ∃ disposition, classifyRecovery phase.globalState target.originalExisted (phase.target job.course index)
      (observationOf job.crates.sha256 target (phase.target job.course index) phase.globalState layout) = .ok disposition ∧
        mode.allows disposition = true := by
  have staged : index < phase.ready → stage = .staged →
      observationOf job.crates.sha256 target (phase.target job.course index) phase.globalState layout =
        ⟨true, initialTarget target.originalExisted, .candidate, .absent⟩ := by
    rintro ready rfl
    obtain ⟨mode, rfl⟩ := lies
    exact observation_staged sound here _ ready mode
  rcases begun with same | same
  · -- While preparing, a candidate location may hold anything or nothing.
    have observed : ∃ atCandidate, (atCandidate = .absent ∨ atCandidate = .candidate) ∧
        observationOf job.crates.sha256 target (phase.target job.course index) phase.globalState layout =
          ⟨true, initialTarget target.originalExisted, atCandidate, .absent⟩ := by
      rw [Phase.Allows, same] at allows
      rcases allows with ⟨ready, isStaged⟩ | ⟨unready, rfl | ⟨-, rfl⟩⟩
      · exact ⟨_, .inr rfl, staged ready isStaged⟩
      · rw [show layout = job.untouched index from lies]
        exact ⟨_, .inl rfl, observation_untouched sound here _ _⟩
      · obtain ⟨count, rfl⟩ := lies
        refine ⟨_, .inr rfl, ?_⟩
        rw [observation_partly sound here _ unready, if_pos same]
    obtain ⟨atCandidate, free, observed⟩ := observed
    have rollback : mode = .rollback := by
      cases mode with
      | complete => rw [same] at starts; rcases starts with impossible | impossible | impossible <;> cases impossible
      | rollback => rfl
    rw [observed, same, rollback]
    refine ⟨.forRollbackOnly, ?_, rfl⟩
    cases target.originalExisted <;> rcases free with rfl | rfl <;> rfl
  · have ready := ready_of_inside here (good.prepared same).1
    have isStaged : stage = .staged := by
      rw [Phase.Allows, same] at allows
      rcases allows with ⟨-, isStaged⟩ | ⟨unready, -⟩
      · exact isStaged
      · omega
    rw [staged ready isStaged, same]
    refine ⟨.forCompletionAndRollback, ?_, ?_⟩
    · cases target.originalExisted <;> rfl
    · cases mode <;> rfl

private theorem classify_committing (sound : job.Sound) (here : job.manifest.targets[index]? = some target) {stage : Stage}
    (lies : job.Lies index layout stage) (begun : phase.globalState = .committing)
    (good : phase.Good job.course) (allows : phase.Allows job.course index stage) (mode : RecoveryMode) :
    ∃ disposition, classifyRecovery phase.globalState target.originalExisted (phase.target job.course index)
      (observationOf job.crates.sha256 target (phase.target job.course index) phase.globalState layout) = .ok disposition ∧
        mode.allows disposition = true := by
  have ready := ready_of_inside here (good.committing begun)
  have existed := sound.existed index target here
  have staged : stage = .staged → observationOf job.crates.sha256 target (phase.target job.course index) phase.globalState
      layout = ⟨true, initialTarget target.originalExisted, .candidate, .absent⟩ := by
    rintro rfl
    obtain ⟨mode, rfl⟩ := lies
    exact observation_staged sound here _ ready mode
  have backedUp : stage = .backedUp → observationOf job.crates.sha256 target (phase.target job.course index)
      phase.globalState layout = ⟨true, .absent, .candidate, initialTarget target.originalExisted⟩ := by
    rintro rfl
    obtain ⟨-, mode, rfl⟩ := lies
    exact observation_backedUp sound here _ ready mode
  have installed : stage = .installed → observationOf job.crates.sha256 target (phase.target job.course index)
      phase.globalState layout = ⟨true, .candidate, .absent, initialTarget target.originalExisted⟩ := by
    rintro rfl
    rw [show layout = job.installed index from lies]
    exact observation_installed sound here _ ready
  refine ⟨.forCompletionAndRollback, ?_, by cases mode <;> rfl⟩
  rw [Phase.Allows, begun] at allows
  rw [begun] at staged backedUp installed ⊢
  rcases allows with ⟨before, isInstalled⟩ | ⟨after, isStaged⟩ | ⟨current, physical⟩
  · rw [installed isInstalled, Phase.target, Phase.commit_of_lt before]
    cases target.originalExisted <;> rfl
  · rw [staged isStaged, Phase.target, Phase.commit_untouched after.le fun same => by omega]
    cases target.originalExisted <;> rfl
  · rw [show job.course.existed index = target.originalExisted from existed.symm] at physical
    cases wasThere : target.originalExisted with
    | false =>
      have noBackup : phase.backedUp = false := by
        by_contra backed
        have there := (good.backedUp (by simpa using backed)).2
        rw [← current] at there
        rw [show job.course.existed index = target.originalExisted from existed.symm, wasThere] at there
        cases there
      rw [wasThere, if_neg Bool.false_ne_true] at physical
      rw [wasThere] at staged installed
      rcases physical with isStaged | isInstalled
      · rw [staged isStaged, Phase.target, Phase.commit_untouched current.ge fun _ => noBackup]
        rfl
      · rw [installed isInstalled, Phase.target, Phase.commit_untouched current.ge fun _ => noBackup]
        rfl
    | true =>
      rw [wasThere, if_pos rfl] at physical
      rw [wasThere] at staged backedUp installed
      cases backed : phase.backedUp with
      | false =>
        rw [backed, if_neg Bool.false_ne_true] at physical
        rcases physical with isStaged | isBackedUp
        · rw [staged isStaged, Phase.target, Phase.commit_untouched current.ge fun _ => backed]
          rfl
        · rw [backedUp isBackedUp, Phase.target, Phase.commit_untouched current.ge fun _ => backed]
          rfl
      | true =>
        rw [backed, if_pos rfl] at physical
        rcases physical with isBackedUp | isInstalled
        · rw [backedUp isBackedUp, Phase.target, Phase.commit_backedUp current backed]
          rfl
        · rw [installed isInstalled, Phase.target, Phase.commit_backedUp current backed]
          rfl

private theorem classify_committed (sound : job.Sound) (here : job.manifest.targets[index]? = some target) {stage : Stage}
    (lies : job.Lies index layout stage) (done : phase.globalState = .committed)
    (good : phase.Good job.course) (allows : phase.Allows job.course index stage) (mode : RecoveryMode) :
    ∃ disposition, classifyRecovery phase.globalState target.originalExisted (phase.target job.course index)
      (observationOf job.crates.sha256 target (phase.target job.course index) phase.globalState layout) = .ok disposition ∧
        mode.allows disposition = true := by
  have ready := ready_of_inside here (good.committed done).1
  rw [Phase.Allows, done] at allows
  dsimp only at allows
  subst allows
  rw [show layout = job.installed index from lies, observation_installed sound here _ ready, done]
  refine ⟨.forCleanupOnly, ?_, by cases mode <;> rfl⟩
  cases target.originalExisted <;> rfl

private theorem classify_rollingBack (sound : job.Sound) (here : job.manifest.targets[index]? = some target) {stage : Stage}
    (lies : job.Lies index layout stage) (begun : phase.globalState = .rollingBack)
    (allows : phase.Allows job.course index stage) (unblocked : stage ≠ .partly) :
    classifyRecovery phase.globalState target.originalExisted (phase.target job.course index)
      (observationOf job.crates.sha256 target (phase.target job.course index) phase.globalState layout) =
        .ok .forRollbackOnly := by
  have existed := sound.existed index target here
  rw [Phase.Allows, begun] at allows
  rw [begun]
  by_cases restored : phase.Restored job.course index
  · have isUntouched : stage = .untouched := by
      rcases allows with isUntouched | ⟨unrestored, -⟩
      · exact isUntouched
      · exact absurd restored unrestored
    subst isUntouched
    rw [show layout = job.untouched index from lies, observation_untouched sound here, Phase.target]
    cases wasThere : target.originalExisted with
    | true => rw [Phase.rollback_original restored (existed.symm.trans wasThere)]; rfl
    | false => rw [Phase.rollback_absence restored (existed.symm.trans wasThere)]; rfl
  · have unrecorded : (phase.target job.course index).rollback = ⟨.none, none⟩ := Phase.rollback_none restored
    have general : ∀ (wasThere : Bool) (atTarget atCandidate atBackup : LocationObservation), atTarget ≠ .unexpected →
        atCandidate ≠ .unexpected → atBackup ≠ .unexpected →
        rollingBackValid wasThere (atTarget, atCandidate, atBackup) = true →
        classifyRecovery .rollingBack wasThere (phase.target job.course index) ⟨true, atTarget, atCandidate, atBackup⟩ =
          .ok .forRollbackOnly := by
      intro wasThere atTarget atCandidate atBackup known known' known'' valid
      rw [classifyRecovery, if_neg (by simp [known, known', known'']), classifyRollingBack]
      · exact if_pos valid
      · rw [unrecorded]
    rcases allows with rfl | ⟨-, ⟨ready, rfl | rfl | rfl | rfl⟩ | ⟨-, isPartly⟩⟩
    · rw [show layout = job.untouched index from lies, observation_untouched sound here]
      cases target.originalExisted <;> apply general <;> decide
    · obtain ⟨mode, rfl⟩ := lies
      rw [observation_staged sound here _ ready]
      cases target.originalExisted <;> apply general <;> decide
    · obtain ⟨there, mode, rfl⟩ := lies
      rw [observation_backedUp sound here _ ready, existed, there]
      apply general <;> decide
    · rw [show layout = job.installed index from lies, observation_installed sound here _ ready]
      cases target.originalExisted <;> apply general <;> decide
    · obtain ⟨there, rfl⟩ := lies
      rw [observation_cleared sound here, existed, there]
      apply general <;> decide
    · exact absurd isPartly unblocked

/-- Every admitted layout but an unrecorded candidate in a rollback is classified as recoverable. -/
theorem classify_admitted (sound : job.Sound) (here : job.manifest.targets[index]? = some target) {stage : Stage}
    (lies : job.Lies index layout stage) (good : phase.Good job.course) (allows : phase.Allows job.course index stage)
    (unblocked : phase.globalState = .rollingBack → stage ≠ .partly) {mode : RecoveryMode}
    (starts : mode.Starts phase.globalState) :
    ∃ disposition, classifyRecovery phase.globalState target.originalExisted (phase.target job.course index)
      (observationOf job.crates.sha256 target (phase.target job.course index) phase.globalState layout) = .ok disposition ∧
        mode.allows disposition = true := by
  cases global : phase.globalState with
  | preparing => rw [← global]; exact classify_initial sound here lies (.inl global) good allows starts
  | prepared => rw [← global]; exact classify_initial sound here lies (.inr global) good allows starts
  | committing => rw [← global]; exact classify_committing sound here lies global good allows mode
  | committed => rw [← global]; exact classify_committed sound here lies global good allows mode
  | rollingBack =>
    have rollback : mode = .rollback := by
      cases mode with
      | complete => rw [global] at starts; rcases starts with impossible | impossible | impossible <;> cases impossible
      | rollback => rfl
    rw [← global]
    exact ⟨_, classify_rollingBack sound here lies global allows (unblocked global), by rw [rollback]; rfl⟩
  | rolledBack =>
    rw [global] at starts
    cases mode with
    | complete => rcases starts with impossible | impossible | impossible <;> cases impossible
    | rollback => rcases starts with impossible | impossible | impossible | impossible <;> cases impossible

/-- An unrecorded candidate stops every later rollback. -/
theorem classify_blocked (sound : job.Sound) (here : job.manifest.targets[index]? = some target)
    (begun : phase.globalState = .rollingBack) (unready : phase.ready ≤ index) (bytes : Bytes) :
    classifyRecovery phase.globalState target.originalExisted (phase.target job.course index)
      (observationOf job.crates.sha256 target (phase.target job.course index) phase.globalState (job.partly index bytes)) =
        .error (conflict "unexpected_location_or_parent") := by
  rw [observation_partly sound here _ unready, begun, if_neg (by decide), classifyRecovery, if_pos (by simp)]

end Classification

end Srcmv.Fs
