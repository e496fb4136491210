import Srcmv.Proofs.Fs.Layouts

/-! # Reading the state of a transaction

The functions that only look at the targets, in a world that shows a configuration: what they return
and that nothing changes. Whatever stops them, the world is where it was.
-/

namespace Srcmv.Fs

open Srcmv.Core Machine Process

variable {allowed : Site → Went → Prop} {rest : World → Prop} {job : Job} {config : Config} {world : World}
  {index : ℕ} {target : ManifestTarget} {layout : Layout}

section Locations

theorem targetPaths_triple (sound : job.Sound) (shows_ : job.Shows config world)
    (here : job.manifest.targets[index]? = some target) (plain : Layout.Plain (config.layout index))
    (safe : Disturbed allowed → rest world) :
    Triple allowed (· = world) (targetPaths job.setting job.manifest.transactionId target)
      (Ends FsError.IsSystem (Exactly (locationsOf job.manifest.transactionId target) world) rest) := by
  obtain ⟨identity, identities, walked, parent, device⟩ := sound.parents index target here
  have item : (job.setting.view world).item target.path = config.layout index .target := by
    change world.files target.path = _
    rw [shows_.files, Job.filesOf_target sound here]
  have validated : ∃ validated, (job.setting.view world).validatePath ⟨target.path⟩ = .ok validated ∧
      validated.parentIdentity = identity := by
    rw [WorkspaceView.validatePath, show (job.setting.view world).parents target.path = .ok (identity, identities) from walked,
      Except.ok_bind]
    dsimp only
    rw [item]
    cases found : config.layout index .target with
    | none => exact ⟨_, rfl, rfl⟩
    | some item =>
      obtain ⟨node, rfl, -⟩ := plain .target item found
      exact ⟨_, rfl, rfl⟩
  obtain ⟨validated, found, same⟩ := validated
  have accepted : validateTargetParent (job.setting.view world) target = .ok () := by
    rw [validateTargetParent, found, Except.ok_bind, same, Except.rejectIf_of_not (not_not.mpr parent), Except.ok_bind]
    exact if_pos device
  rw [targetPaths]
  apply ((ioRead_triple _ accepted).safely safe).calls
  rintro later rfl
  exact Triple.returns ⟨rfl, rfl⟩

variable (sound : job.Sound) (shows_ : job.Shows config world) (here : job.manifest.targets[index]? = some target)
  (safe : Disturbed allowed → rest world)

include sound shows_ here safe in
theorem fingerprint_location (plain : Layout.Plain (config.layout index)) (slot : Slot) (reportPath : Option String) :
    Triple allowed (· = world) (fingerprint job.setting (job.locationOf target slot) reportPath)
      (Ends FsError.IsSystem (Exactly (printOf job.crates.sha256 (config.layout index slot)) world) rest) := by
  apply (fingerprint_triple _).safely safe
  rw [shows_.item? sound here]
  exact plain.fingerprint _ slot

include sound shows_ here safe in
theorem observeTarget_triple (plain : Layout.Plain (config.layout index)) (recorded : TargetState) (global : GlobalState) :
    Triple allowed (· = world)
      (observeTarget job.setting target (locationsOf job.manifest.transactionId target) recorded global)
      (Ends FsError.IsSystem
        (Exactly (observationOf job.crates.sha256 target recorded global (config.layout index)) world) rest) := by
  have seen := fingerprint_location sound shows_ here safe plain
  have classified (slot : Slot) (candidateLocation : Bool) : Triple allowed (· = world)
      (classifyLocation job.setting (job.locationOf target slot) target recorded candidateLocation global)
      (Ends FsError.IsSystem (Exactly (classifyFingerprint (printOf job.crates.sha256 (config.layout index slot)) target recorded
        candidateLocation global) world) rest) := by
    rw [classifyLocation]
    apply (seen slot _).calls
    rintro later rfl
    exact Triple.returns ⟨rfl, rfl⟩
  have backup : Triple allowed (· = world) (classifyBackup job.setting (job.locationOf target .backup) target)
      (Ends FsError.IsSystem
        (Exactly (classifyBackupFingerprint (printOf job.crates.sha256 (config.layout index .backup)) target) world) rest) := by
    rw [classifyBackup]
    apply (seen .backup _).calls
    rintro later rfl
    exact Triple.returns ⟨rfl, rfl⟩
  rw [observeTarget]
  apply (classified .target false).calls
  rintro later rfl
  apply (classified .candidate true).calls
  rintro later rfl
  apply backup.calls
  rintro later rfl
  exact Triple.returns ⟨rfl, rfl⟩

end Locations

/-- The state records the phase. -/
structure Job.Records (job : Job) (state : StateSnapshot) (phase : Phase) : Prop where
  global : state.globalState = phase.globalState
  targets : state.targets = phase.targets job.course

theorem Job.Records.recorded {state : StateSnapshot} {phase : Phase} (records : job.Records state phase)
    (here : job.manifest.targets[index]? = some target) :
    recordedTarget state index = .ok (phase.target job.course index) := by
  have inside : index < job.course.count := (List.getElem?_eq_some_iff.mp here).1
  rw [recordedTarget, records.targets, Phase.getElem?_targets inside]

/-- Every target is where the phase allows it to be, and no rollback finds an unrecorded candidate. -/
def Job.Recoverable (job : Job) (config : Config) (phase : Phase) : Prop :=
  ∀ index target, job.manifest.targets[index]? = some target → ∃ stage, phase.Allows job.course index stage ∧
    job.Lies index (config.layout index) stage ∧ (phase.globalState = .rollingBack → stage ≠ .partly)

/-- A loop over the targets in order, from a known world. -/
theorem overTargets_triple {α : Type} {denial : FsError → Prop} (manifest : Manifest) {step : α → ManifestTarget × ℕ → Engine α}
    (invariant : ℕ → α → World → Prop)
    (each : ∀ index target, manifest.targets[index]? = some target → ∀ value later, invariant index value later →
      Triple allowed (· = later) (step value (target, index)) (Ends denial (invariant (index + 1)) rest))
    {initial : α} (holds : invariant 0 initial world) :
    Triple allowed (· = world) (manifest.targets.zipIdx.foldlM step initial)
      (Ends denial (invariant manifest.targets.length) rest) := by
  have loop : Triple allowed (invariant 0 initial) (manifest.targets.zipIdx.foldlM step initial)
      ⟨invariant manifest.targets.zipIdx.length, fun error later => denial error ∧ rest later, rest⟩ := by
    apply Triple.foldlM invariant
    rintro index ⟨target, position⟩ visited value
    rw [List.getElem?_zipIdx, Option.map_eq_some_iff] at visited
    obtain ⟨other, here, same⟩ := visited
    rw [Nat.zero_add, Prod.mk.injEq] at same
    obtain ⟨rfl, rfl⟩ := same
    exact Triple.pointwise (each _ _ here value)
  rw [List.length_zipIdx] at loop
  apply loop.mono
  · rintro later rfl
    exact holds
  · exact fun _ _ finished => finished
  · exact fun _ _ failed => failed
  · exact fun _ stopped => stopped

/-- A recoverable transaction passes the classification of all its targets. -/
theorem classifyAllTargets_triple (sound : job.Sound) (shows_ : job.Shows config world) {phase : Phase}
    (good : phase.Good job.course) {state : StateSnapshot} (records : job.Records state phase)
    (recoverable : job.Recoverable config phase) {mode : RecoveryMode} (starts : mode.Starts phase.globalState)
    (safe : Disturbed allowed → rest world) :
    Triple allowed (· = world) (classifyAllTargets job.setting job.manifest state mode)
      (Ends FsError.IsSystem (Exactly () world) rest) := by
  rw [classifyAllTargets]
  apply (overTargets_triple job.manifest (fun _ _ later => later = world) _ rfl).weaken (fun _ _ same => ⟨rfl, same⟩)
    fun _ stopped => stopped
  rintro index target here _ later rfl
  obtain ⟨stage, allows, lies, unblocked⟩ := recoverable index target here
  obtain ⟨disposition, classified, permitted⟩ := classify_admitted sound here lies good allows unblocked starts
  have plain := lies.plain sound here
  rw [classifyTarget, records.recorded here, ofExcept_ok_bind]
  apply (targetPaths_triple sound shows_ here plain safe).exactlyThen fun _ stopped => stopped
  apply (observeTarget_triple sound shows_ here safe plain _ _).exactlyThen fun _ stopped => stopped
  rw [records.global, classified, ofExcept_ok_bind, Except.rejectIf_of_not (by rw [permitted]; exact nofun)]
  exact Triple.returns rfl

section Verified

variable (sound : job.Sound) (shows_ : job.Shows config world) (here : job.manifest.targets[index]? = some target)
  (safe : Disturbed allowed → rest world)

include sound shows_ here safe in
/-- The original is verified wherever it is. -/
theorem verifyOriginal_triple {slot : Slot} {node : Node} (original : job.original index = some node)
    (there : config.layout index slot = job.originalItem index) (plain : Layout.Plain (config.layout index)) :
    Triple allowed (· = world) (verifyOriginalLocation job.setting (job.locationOf target slot) target)
      (Ends FsError.IsSystem (Exactly ⟨node.identity, UInt64.ofNat node.bytes.length, job.crates.sha256 node.bytes⟩ world)
        rest) := by
  have printed : printOf job.crates.sha256 (config.layout index slot) =
      some ⟨node.identity, UInt64.ofNat node.bytes.length, job.crates.sha256 node.bytes⟩ := by
    rw [there, Job.originalItem, original]
    rfl
  rw [verifyOriginalLocation]
  apply (fingerprint_location sound shows_ here safe plain slot _).calls
  rintro later rfl
  rw [printed, verifiedOriginal, if_pos (sound.recorded index target node here original)]
  exact Triple.returns ⟨rfl, rfl⟩

include sound shows_ here safe in
/-- A recorded candidate is verified wherever it is. -/
theorem verifyCandidate_triple {slot : Slot} {phase : Phase} (ready : index < phase.ready) {mode : UInt32}
    (there : config.layout index slot = some (job.candidateItem index mode (job.content index)))
    (plain : Layout.Plain (config.layout index)) :
    Triple allowed (· = world)
      (verifyCandidateLocation job.setting (job.locationOf target slot) target (phase.target job.course index))
      (Ends FsError.IsSystem (Exactly ⟨job.setting.newIdentity (generatedName "candidate" index),
        UInt64.ofNat (job.content index).length, job.crates.sha256 (job.content index)⟩ world) rest) := by
  have printed : printOf job.crates.sha256 (config.layout index slot) =
      some ⟨job.setting.newIdentity (generatedName "candidate" index), UInt64.ofNat (job.content index).length,
        job.crates.sha256 (job.content index)⟩ := by
    rw [there, Job.candidateItem]
    rfl
  rw [verifyCandidateLocation]
  apply (fingerprint_location sound shows_ here safe plain slot _).calls
  rintro later rfl
  rw [printed, verifiedCandidate, if_pos (matchesCandidate_ready sound here ready)]
  exact Triple.returns ⟨rfl, rfl⟩

include sound shows_ here safe in
theorem modeOf_triple {slot : Slot} {node : Node} (there : config.layout index slot = some (.file node)) (reportPath : String) :
    Triple allowed (· = world) (modeOf (job.locationOf target slot) reportPath)
      (Ends FsError.IsSystem (Exactly (node.mode &&& 0o7777) world) rest) := by
  rw [modeOf]
  apply (ioRead_triple _ _).safely safe
  rw [shows_.item? sound here, there]

include sound shows_ here safe in
theorem pathExists_triple (sees : ∀ subject, ¬allowed (.existence subject) .failed) (slot : Slot) (subject : String) :
    Triple allowed (· = world) (pathExists (job.locationOf target slot) subject)
      (Ends FsError.IsSystem (Exactly (config.layout index slot).isSome world) rest) := by
  rw [pathExists, ← shows_.item? sound here slot]
  apply (Triple.probes (sees subject)).weaken
  · exact fun _ _ finished => finished
  · rintro later ⟨disturbed, rfl⟩
    exact safe ⟨_, disturbed⟩

end Verified

theorem revalidateControlIdentities_triple (shows_ : job.Shows config world) (safe : Disturbed allowed → rest world) :
    Triple allowed (· = world) (revalidateControlIdentities job.setting)
      (Ends FsError.IsSystem (Exactly () world) rest) := by
  rw [revalidateControlIdentities]
  apply (ioRead_triple _ _).safely safe
  rw [shows_.identities, Except.ok_bind, Except.rejectIf_of_not (not_not.mpr rfl)]

end Srcmv.Fs
