import Srcmv.Proofs.Fs.Resting

/-! # Every world a transaction can be in

A transaction begins in its empty directory and is committed once; after that it may be completed,
rolled back and cleaned up any number of times, each run stopped anywhere. `Job.Rests` holds of all
these worlds.
-/

namespace Srcmv.Fs

open Srcmv.Core Machine Process

/-- Any step may be the last one before a crash, and none fails. -/
def Crashing (_ : Site) (went : Went) : Prop := went ≠ .failed

/-- Crashes do not cut the publication of a record. -/
def CrashingBetweenRecords (site : Site) (went : Went) : Prop :=
  went ≠ .failed ∧ (went = .crashed → ∀ operation, site ≠ .publication operation)

/-- Any step may fail or be the last one before a crash, but existence checks answer. -/
def Answering (site : Site) (went : Went) : Prop := ∀ subject, site = .existence subject → went ≠ .failed

/-- The worlds of a transaction: it is created, committed, and then recovered or cleaned up any number of times. -/
inductive Job.Reaches (job : Job) (allowed : Site → Went → Prop) : World → Prop where
  | fresh {world : World} (fresh : job.Fresh world) : Reaches job allowed world
  | commit {world later : World} (fresh : job.Fresh world)
      (leads : Leads allowed (commitManifest job.setting job.manifest job.snapshot) world later) : Reaches job allowed later
  | recover {world later : World} (reached : Reaches job allowed world) (mode : RecoveryMode)
      (leads : Leads allowed (recoverLocked job.setting job.manifest.transactionId mode) world later) : Reaches job allowed later
  | gate {world later : World} (reached : Reaches job allowed world)
      (leads : Leads allowed (gateNewTransaction job.setting) world later) : Reaches job allowed later

variable {allowed : Site → Went → Prop} {job : Job} {world : World}

theorem Job.Reaches.rests (sound : job.Sound) (sees : ∀ subject, ¬allowed (.existence subject) .failed)
    (reaches : job.Reaches allowed world) : job.Rests allowed world := by
  induction reaches with
  | fresh fresh => exact .unrecorded fresh.unrecorded
  | commit fresh leads => exact (fresh.commit_triple sound sees).leads rfl leads
  | recover _ mode leads ih =>
    exact ((Job.Rests.recover_triple sound sees mode).keeps fun _ _ ended => .ended ended).leads ih leads
  | gate _ leads ih => exact (Job.Rests.gate_triple sound).leads ih leads

section Environments

theorem Crashing.sees (subject : String) : ¬Crashing (.existence subject) .failed := fun permitted => permitted rfl

theorem CrashingBetweenRecords.sees (subject : String) : ¬CrashingBetweenRecords (.existence subject) .failed :=
  fun permitted => permitted.1 rfl

theorem Answering.sees (subject : String) : ¬Answering (.existence subject) .failed := fun permitted => permitted subject rfl rfl

theorem Answering.of_calmly (site : Site) (went : Went) (calm : Calmly site went) : Answering site went := by
  rintro subject - rfl
  rcases calm with impossible | impossible <;> cases impossible

theorem CrashingBetweenRecords.untorn : ¬Torn CrashingBetweenRecords := by
  rintro ⟨operation, failed | crashed⟩
  · exact failed.1 rfl
  · exact crashed.2 rfl operation rfl

theorem CrashingBetweenRecords.crashing {site : Site} {went : Went} (permitted : CrashingBetweenRecords site went) :
    Crashing site went := permitted.1

theorem Calmly.undisturbed : ¬Disturbed (Calmly : Site → Went → Prop) := by
  rintro ⟨site, (impossible | impossible) | (impossible | impossible)⟩ <;> cases impossible

theorem Calmly.sees (subject : String) : ¬(Calmly : Site → Went → Prop) (.existence subject) .failed := by
  rintro (impossible | impossible) <;> cases impossible

/-- Fewer disturbances reach fewer worlds. -/
theorem Job.Reaches.mono {allowed' : Site → Went → Prop} (reaches : job.Reaches allowed world)
    (more : ∀ site went, allowed site went → allowed' site went) : job.Reaches allowed' world := by
  have leads {α : Type} {process : Engine α} {before after : World} (leads : Leads allowed process before after) :
      Leads allowed' process before after := by
    obtain ⟨oracle, within, same⟩ := leads
    exact ⟨oracle, fun step member => more _ _ (within step member), same⟩
  induction reaches with
  | fresh fresh => exact .fresh fresh
  | commit fresh led => exact .commit fresh (leads led)
  | recover _ mode led ih => exact .recover ih mode (leads led)
  | gate _ led ih => exact .gate ih (leads led)

end Environments

section Locations

variable {index : ℕ} {target : ManifestTarget}

/-- The target holds what it held before the transaction. -/
def Job.HoldsOriginal (job : Job) (world : World) : Prop :=
  ∀ (index : ℕ) (target : ManifestTarget), job.manifest.targets[index]? = some target →
    world.files target.path = job.originalItem index

/-- Every target holds its candidate, in the mode it is installed with. -/
def Job.HoldsPlanned (job : Job) (world : World) : Prop :=
  ∀ (index : ℕ) (target : ManifestTarget), job.manifest.targets[index]? = some target →
    world.files target.path = some (job.candidateItem index (job.finalMode index) (job.content index))

theorem Job.holdsOriginal_of_files (sound : job.Sound) (files : world.files = job.base) : job.HoldsOriginal world := by
  intro index target here
  rw [files]
  exact sound.base index target here

theorem Job.holdsPlanned_of_files (sound : job.Sound) (files : world.files = job.plannedFiles) : job.HoldsPlanned world := by
  intro index target here
  rw [files, Job.plannedFiles, Job.filesOf_target sound here]
  rfl

theorem Job.Ended.holds {committed : Bool} (sound : job.Sound) (ended : job.Ended committed world) :
    if committed then job.HoldsPlanned world else job.HoldsOriginal world := by
  have files := ended.files
  cases committed with
  | true => exact Job.holdsPlanned_of_files sound files
  | false => exact Job.holdsOriginal_of_files sound files

/-- As long as no target was moved, or once all are back, every target holds its original. -/
theorem Job.Running.holdsOriginal {config : Config} {phase : Phase} (sound : job.Sound)
    (running : job.Running allowed config phase world)
    (untouched : phase.globalState = .preparing ∨ phase.globalState = .prepared ∨ phase.globalState = .rolledBack) :
    job.HoldsOriginal world := by
  intro index target here
  rw [running.shows_.files, Job.filesOf_target sound here]
  obtain ⟨stage, allows, lies⟩ := running.placed index (List.getElem?_eq_some_iff.mp here).1
  have unmoved : stage = .staged ∨ stage = .untouched ∨ stage = .partly := by
    rw [Phase.Allows] at allows
    rcases untouched with global | global | global
    · rw [global] at allows
      rcases allows with ⟨-, isStaged⟩ | ⟨-, isUntouched | ⟨-, isPartly⟩⟩
      · exact .inl isStaged
      · exact .inr (.inl isUntouched)
      · exact .inr (.inr isPartly)
    · rw [global] at allows
      rcases allows with ⟨-, isStaged⟩ | ⟨-, isUntouched | ⟨-, isPartly⟩⟩
      · exact .inl isStaged
      · exact .inr (.inl isUntouched)
      · exact .inr (.inr isPartly)
    · rw [global] at allows
      exact .inr (.inl allows)
  rcases unmoved with rfl | rfl | rfl
  · obtain ⟨mode, layout⟩ := lies
    rw [layout]
    rfl
  · rw [show config.layout index = job.untouched index from lies]
    rfl
  · obtain ⟨count, layout⟩ := lies
    rw [layout]
    rfl

/-- Once the commit is recorded, every target holds its candidate. -/
theorem Job.Running.holdsPlanned {config : Config} {phase : Phase} (sound : job.Sound)
    (running : job.Running allowed config phase world) (committed : phase.globalState = .committed) : job.HoldsPlanned world := by
  intro index target here
  rw [running.shows_.files, Job.filesOf_target sound here]
  obtain ⟨stage, allows, lies⟩ := running.placed index (List.getElem?_eq_some_iff.mp here).1
  rw [Phase.Allows, committed] at allows
  subst allows
  rw [show config.layout index = job.installed index from lies]
  rfl

end Locations

end Srcmv.Fs
