import Srcmv.Soundness.Completion
import Srcmv.Soundness.OneTransaction

/-! # What the result of a commit says

A commit that is done has installed its plan. One that reports an error other than a required recovery
has left every file as it was, unless its directory had been moved among the completed ones before: then
the whole plan is installed, and only a step after that move, or the recovery limit, can be the reason.
-/

namespace Srcmv.Cli

open Srcmv.Core Srcmv.Fs Machine Process

variable {allowed : Site → Went → Prop} {setting : Setting} {world later : World} {snapshot : WorkspaceSnapshot}
  {editPlan : EditPlan}

/-- Every changed output stands at its path, byte for byte as it was planned. -/
def PlanInstalled (snapshot : WorkspaceSnapshot) (editPlan : EditPlan) (world : World) : Prop :=
  ∀ output ∈ Fs.changedOutputs editPlan, ∃ node, world.files output.path.value = some (.file node) ∧
    output.bytes? snapshot = some node.bytes

section Installed

variable {manifest : Manifest} {newFileMode : UInt32}

/-- The candidates of a planned transaction are its changed outputs. -/
theorem planInstalled_of_holds (from_ : PlannedFrom setting world snapshot editPlan manifest newFileMode)
    (holds : (plannedJob setting world snapshot editPlan manifest).HoldsPlanned later) : PlanInstalled snapshot editPlan later := by
  intro output member
  obtain ⟨index, inside, rfl⟩ := List.mem_iff_getElem.mp member
  have listed := List.getElem?_eq_getElem inside
  obtain ⟨_, built⟩ := from_.built
  have count : manifest.targets.length = (Fs.changedOutputs editPlan).length := by
    rw [← List.length_map ManifestTarget.path, buildManifest_paths built, List.length_map]
  have here := List.getElem?_eq_getElem (count ▸ inside)
  obtain ⟨output, found, made⟩ := from_.manifest_built.target here
  obtain rfl := Option.some.inj (listed.symm.trans found)
  obtain ⟨bytes, planned, -⟩ := (from_.outputs_valid _ member).bytes
  have stands := holds index _ here
  rw [plannedJob_content listed planned, manifestTargetOf_path made] at stands
  exact ⟨_, stands, planned⟩

end Installed

section Result

variable {arguments : CommitArguments}

/-- What the result of a commit says about the files. -/
def Truthful (allowed : Site → Went → Prop) (world : World) (snapshot : WorkspaceSnapshot) (editPlan : EditPlan) :
    Ending World FsError CommitOutcome where
  done _ later := PlanInstalled snapshot editPlan later
  failed error later := (∃ ids, error = .transactionRecoveryRequired ids) ∨ later.files = world.files ∨
    PlanInstalled snapshot editPlan later ∧ later.control.transactions = ∅ ∧
      ((∃ operation, allowed (.terminal true operation) .failed) ∨ error.IsRecoveryLimit)
  crashed _ := True

private theorem commit_truthful (sees : ∀ subject, ¬allowed (.existence subject) .failed) (ready : CommitReady setting world)
    (acquired : (setting.view world).acquireSnapshot setting.crates.sha256 (snapshotRequirements arguments.batch) {} = .ok snapshot)
    (planned : expectedPlan setting arguments snapshot = .ok editPlan) : Triple allowed (· = world)
      (Fs.commit setting snapshot editPlan arguments.newFileMode arguments.identifiers) (Truthful allowed world snapshot editPlan) := by
  have sound {manifest : Manifest} (admits : Admits setting arguments world snapshot editPlan manifest) :
      (plannedJob setting world snapshot editPlan manifest).Sound := admits.from_.sound admits.encodes ready.fresh
  refine (commit_triple sees ready acquired planned).mono (fun _ same => same) (fun outcome later finished => ?_)
    (fun error later stopped => ?_) fun _ _ => trivial
  · obtain ⟨manifest, admits, -, concluded, -⟩ := finished
    exact planInstalled_of_holds admits.from_ (concluded.ended.holds (sound admits))
  · rcases stopped with ⟨-, kept⟩ | ⟨manifest, admits, reports⟩
    · exact .inr (.inl kept)
    · cases reports with
      | recoveryRequired => exact .inl ⟨_, rfl⟩
      | rolledBack _ ended => exact .inr (.inl ended.files)
      | committed ended late =>
        refine .inr (.inr ⟨planInstalled_of_holds admits.from_ (ended.holds (sound admits)), ended.left.inactive, ?_⟩)
        exact late.imp (fun failed => failed.2) fun large => large.2

end Result

section Late

variable {arguments : CommitArguments} {manifest : Manifest}

/-- An admitted commit can fail when its directory is moved. -/
private theorem admitted_fails_late (admits : Admits setting arguments world snapshot editPlan manifest)
    (ready : CommitReady setting world) : ∃ later,
      Fails Answering (Fs.commit setting snapshot editPlan arguments.newFileMode arguments.identifiers) world
        (.io "sync_directory" none) later ∧ later.files ≠ world.files := by
  have sound : (plannedJob setting world snapshot editPlan manifest).Sound := admits.from_.sound admits.encodes ready.fresh
  obtain ⟨id, _, identifiers, built⟩ := admits.built
  obtain ⟨-, -, named, -⟩ := buildManifest_ok built
  have identifier : validateTransactionId manifest.transactionId = .ok () :=
    CommitArguments.identifier_valid (by rw [named, identifiers]; exact List.mem_cons_self)
  have fresh : (plannedJob setting world snapshot editPlan manifest).Fresh (world.opening setting manifest.transactionId) :=
    plannedJob_fresh ready.idle ready.captured ready.published ready.refusals identifier
  obtain ⟨taken, opens⟩ := admits.commit_advances ready.idle within_start
  obtain ⟨rest, last, ended, moves, runs⟩ := fresh.moves sound admits.from_.inputsHold opens.calm
  have ran := ((opens.trans moves).fails 0).trans (runs 0)
  refine ⟨last.world, ⟨Oracle.failAt last.taken.length 0, ?_, by rw [ran], by rw [ran]; rfl⟩, ?_⟩
  · rw [ran]
    intro step member
    rcases List.mem_cons.mp member with rfl | member
    · exact fun _ _ => by decide
    · rcases List.mem_cons.mp member with rfl | earlier
      · exact fun _ impossible => nomatch impossible
      · exact Answering.of_calmly _ _ (moves.calm step earlier)
  · rw [ended.files, if_pos rfl]
    exact sound.plannedFiles_ne

end Late

end Srcmv.Cli
