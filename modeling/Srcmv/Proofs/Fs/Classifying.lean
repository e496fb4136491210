import Srcmv.Machine.Reading
import Srcmv.Model.Fs.Recovery

/-! # Classification only reads

What the engine decides about its targets before it touches any of them is a function of the world.
`dispositionIn` computes the disposition of one target from the world alone; the classification of
all targets reads it for each of them.
-/

namespace Srcmv.Fs

open Srcmv.Core Machine Process

section Views

variable (setting : Setting) (manifest : Manifest)

/-- What is observed of a target in a world. -/
def observationIn (world : World) (target : ManifestTarget) (paths : TargetPaths) (recorded : TargetState)
    (global : GlobalState) : Except FsError SyntheticTargetObservation := do
  let atTarget ← fingerprintOf setting.crates.sha256 (world.item? paths.target)
  let atCandidate ← fingerprintOf setting.crates.sha256 (world.item? paths.candidate)
  let atBackup ← fingerprintOf setting.crates.sha256 (world.item? paths.backup)
  return ⟨true, classifyFingerprint atTarget target recorded false global,
    classifyFingerprint atCandidate target recorded true global, classifyBackupFingerprint atBackup target⟩

/-- The disposition of one target in a world. -/
def dispositionIn (world : World) (state : StateSnapshot) (entry : ManifestTarget × ℕ) : Except FsError RecoveryDisposition := do
  let recorded ← recordedTarget state entry.2
  validateTargetParent (setting.view world) entry.1
  let observed ← observationIn setting world entry.1 (locationsOf manifest.transactionId entry.1) recorded state.globalState
  classifyRecovery state.globalState entry.1.originalExisted recorded observed

/-- The target may be recovered in this mode. -/
def Permits (world : World) (state : StateSnapshot) (mode : RecoveryMode) (entry : ManifestTarget × ℕ) : Prop :=
  ∃ disposition, dispositionIn setting manifest world state entry = .ok disposition ∧ mode.allows disposition = true

/-- What the classification of one target makes of a world. -/
private def classifiedIn (world : World) (state : StateSnapshot) (mode : RecoveryMode) (entry : ManifestTarget × ℕ) :
    Except FsError Unit := do
  let disposition ← dispositionIn setting manifest world state entry
  Except.rejectIf (mode.allows disposition = false) (.recoveryActionNotAllowed manifest.transactionId mode.refusal)

end Views

variable (setting : Setting) (manifest : Manifest)

section Readings

theorem reads_fingerprint (location : Location) (reportPath : Option String) :
    Reads (fingerprint setting location reportPath) fun world => fingerprintOf setting.crates.sha256 (world.item? location) := by
  rw [fingerprint, ioRead]
  apply Reads.observe

theorem reads_targetPaths (transactionId : String) (target : ManifestTarget) :
    Reads (targetPaths setting transactionId target) fun world =>
      validateTargetParent (setting.view world) target >>= fun _ => .ok (locationsOf transactionId target) := by
  rw [targetPaths, ioRead]
  exact Reads.bind (Reads.observe _ _ _) fun _ => Reads.pure _

theorem reads_classifyLocation (location : Location) (target : ManifestTarget) (recorded : TargetState)
    (candidateLocation : Bool) (global : GlobalState) :
    Reads (classifyLocation setting location target recorded candidateLocation global) fun world =>
      fingerprintOf setting.crates.sha256 (world.item? location) >>= fun actual =>
        .ok (classifyFingerprint actual target recorded candidateLocation global) :=
  Reads.bind (reads_fingerprint setting location _) fun _ => Reads.pure _

theorem reads_classifyBackup (location : Location) (target : ManifestTarget) :
    Reads (classifyBackup setting location target) fun world =>
      fingerprintOf setting.crates.sha256 (world.item? location) >>= fun actual =>
        .ok (classifyBackupFingerprint actual target) :=
  Reads.bind (reads_fingerprint setting location _) fun _ => Reads.pure _

theorem reads_observeTarget (target : ManifestTarget) (paths : TargetPaths) (recorded : TargetState) (global : GlobalState) :
    Reads (observeTarget setting target paths recorded global) fun world =>
      observationIn setting world target paths recorded global := by
  apply (Reads.bind (reads_classifyLocation setting paths.target target recorded false global) fun _ =>
    Reads.bind (reads_classifyLocation setting paths.candidate target recorded true global) fun _ =>
      Reads.bind (reads_classifyBackup setting paths.backup target) fun _ => Reads.pure _).congr
  intro world
  rw [observationIn]
  simp only [bind_assoc]
  rfl

theorem reads_classifyTarget (state : StateSnapshot) (mode : RecoveryMode) (entry : ManifestTarget × ℕ) :
    Reads (classifyTarget setting manifest state mode entry) fun world => classifiedIn setting manifest world state mode entry := by
  apply (Reads.bind (Reads.ofExcept (recordedTarget state entry.2)) fun recorded =>
    Reads.bind (reads_targetPaths setting manifest.transactionId entry.1) fun paths =>
      Reads.bind (reads_observeTarget setting entry.1 paths recorded state.globalState) fun observed =>
        Reads.bind (Reads.ofExcept (classifyRecovery state.globalState entry.1.originalExisted recorded observed))
          fun _ => Reads.ofExcept _).congr
  intro world
  rw [classifiedIn, dispositionIn]
  simp only [bind_assoc]
  rfl

theorem reads_classifyAllTargets (state : StateSnapshot) (mode : RecoveryMode) :
    Reads (classifyAllTargets setting manifest state mode) fun world =>
      manifest.targets.zipIdx.foldlM (fun _ entry => classifiedIn setting manifest world state mode entry) () :=
  Reads.foldlM (fun _ entry => reads_classifyTarget setting manifest state mode entry) ()

end Readings

variable {setting manifest}

/-- All targets pass only if each of them may be recovered. -/
theorem permits_of_classified {world : World} {state : StateSnapshot} {mode : RecoveryMode}
    (classified : manifest.targets.zipIdx.foldlM (fun _ entry => classifiedIn setting manifest world state mode entry) () =
      .ok ()) :
    ∀ entry ∈ manifest.targets.zipIdx, Permits setting manifest world state mode entry := by
  intro entry member
  obtain ⟨_, _, accepted⟩ := List.foldlM_ok_mem classified entry member
  obtain ⟨disposition, found, allowed⟩ := Except.bind_eq_ok.mp accepted
  rw [Except.rejectIf_eq_ok, Bool.not_eq_false] at allowed
  exact ⟨disposition, found, allowed⟩

/-- If some target may not be recovered, nothing that follows the classification is reached. -/
theorem classifyAllTargets_refusesThen {α : Type} {allowed : Site → Went → Prop} {world : World} {state : StateSnapshot}
    {mode : RecoveryMode} {next : Unit → Engine α} {ending : Ending World FsError α} {entry : ManifestTarget × ℕ}
    (member : entry ∈ manifest.targets.zipIdx) (refused : ¬Permits setting manifest world state mode entry)
    (failed : ∀ error, ending.failed error world) (crashed : ending.crashed world) :
    Triple allowed (· = world) (classifyAllTargets setting manifest state mode >>= next) ending := by
  apply (reads_classifyAllTargets setting manifest state mode).refusesThen _ failed crashed
  rintro ⟨⟩ classified
  exact refused (permits_of_classified classified entry member)

end Srcmv.Fs
