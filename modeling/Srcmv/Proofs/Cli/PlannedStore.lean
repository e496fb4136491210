import Srcmv.Model.Cli.Store
import Srcmv.Proofs.Core.PlanMeaning
import Srcmv.Proofs.Fs.PlannedJob
import Srcmv.Proofs.Fs.Reaching

/-! # The store a planned transaction leaves

Installing every candidate of a planned job is the store after the batch, path by path. Before that, a
path shows its original, its candidate, or nothing while it is being replaced.
-/

namespace Srcmv.Cli

open Srcmv.Core Srcmv.Fs Machine Process

variable {setting : Setting} {world : World} {snapshot : WorkspaceSnapshot} {editPlan : EditPlan} {manifest : Manifest}
  {newFileMode : UInt32} {allowed : Site → Went → Prop}

section Bits

/-- Masking the permission bits twice is masking them once. -/
theorem mode_masked (mode : UInt32) : mode &&& 0o7777 &&& 0o7777 = mode &&& 0o7777 := by
  rw [UInt32.and_assoc]
  rfl

theorem newMode_masked (mode : UInt32) : mode &&& 0o666 &&& 0o7777 = mode &&& 0o666 := by
  rw [UInt32.and_assoc]
  rfl

end Bits

section Files

variable {job : Job} {config : Config} {path : String}

/-- Away from the targets the files are those from before. -/
theorem filesOf_elsewhere (elsewhere : ∀ target ∈ job.manifest.targets, target.path ≠ path) : job.filesOf config path = job.base path := by
  have none : job.manifest.targets.findIdx? (fun target => target.path = path) = none := by
    rw [List.findIdx?_eq_none_iff]
    exact fun target member => decide_eq_false (elsewhere target member)
  rw [Job.filesOf, none]

/-- While a transaction runs, every path shows its original, its candidate, or nothing. -/
theorem running_shows {phase : Phase} (sound : job.Sound) (running : job.Running allowed config phase world) (path : String) :
    world.files path = job.base path ∨ world.files path = job.plannedFiles path ∨ world.files path = none := by
  rw [running.shows_.files, Job.plannedFiles]
  by_cases targeted : ∃ target ∈ job.manifest.targets, target.path = path
  · obtain ⟨target, member, rfl⟩ := targeted
    obtain ⟨index, inside, rfl⟩ := List.mem_iff_getElem.mp member
    have here := List.getElem?_eq_getElem inside
    rw [Job.filesOf_target sound here, Job.filesOf_target sound here, sound.base index _ here]
    obtain ⟨stage, -, lies⟩ := running.placed index inside
    cases stage with
    | untouched => rw [show config.layout index = _ from lies]; exact .inl rfl
    | partly => obtain ⟨count, layout⟩ := lies; rw [layout]; exact .inl rfl
    | staged => obtain ⟨mode, layout⟩ := lies; rw [layout]; exact .inl rfl
    | backedUp => obtain ⟨-, mode, layout⟩ := lies; rw [layout]; exact .inr (.inr rfl)
    | installed => rw [show config.layout index = _ from lies]; exact .inr (.inl rfl)
    | cleared => rw [lies.2]; exact .inr (.inr rfl)
  · exact .inl (filesOf_elsewhere fun target member same => targeted ⟨target, member, same⟩)

end Files

section Planned

variable {batch : BatchSpecification} {sizes : TypeSizes} (from_ : PlannedFrom setting world snapshot editPlan manifest newFileMode)
  (planned : plan setting.crates.sha256 sizes snapshot batch {} = .ok editPlan)

include from_ in
private theorem mem_changed {output : PlannedOutput} :
    output ∈ Fs.changedOutputs editPlan ↔ output ∈ editPlan.outputs ∧ output.change ≠ .unchanged := by
  obtain ⟨_, _, planned⟩ := from_.planned
  rw [changedOutputs_eq (plan_valid from_.snapshot_acquired.indexed planned).2, List.mem_filter, decide_eq_true_eq]

include from_ planned in
/-- A changed output has the reference bytes of its path. -/
private theorem changed_reference {output : PlannedOutput} (member : output ∈ Fs.changedOutputs editPlan) :
    output.bytes? snapshot = some (referenceOutput snapshot batch output.path) := by
  obtain ⟨listed, changed⟩ := (mem_changed from_).mp member
  cases plan_leaves from_.snapshot_acquired.indexed planned output.path with
  | keeps quiet => exact absurd (quiet output listed rfl) changed
  | @changes other inside named changed' bytes =>
    have other' := (mem_changed from_).mpr ⟨inside, changed'⟩
    have same : other = output := List.inj_on_of_nodup_map from_.outputs_distinct other' member named
    exact same ▸ bytes

include from_ in
/-- What the snapshot read at a path stands there. -/
private theorem file_stands {file : FileSnapshot} (member : file ∈ snapshot.files) :
    ∃ node, world.files file.path.value = some (.file node) ∧ node.bytes = file.bytes := by
  obtain ⟨node, here, -, same⟩ := (from_.snapshot_read.files file member).here
  exact ⟨node, here, same⟩

include from_ planned in
/-- A target is left as the batch leaves its path. -/
private theorem target_after (sound : (plannedJob setting world snapshot editPlan manifest).Sound) {index : ℕ}
    {target : ManifestTarget} (here : manifest.targets[index]? = some target) :
    storeOf (plannedJob setting world snapshot editPlan manifest).plannedFiles target.path =
      (storeOf world.files).after snapshot batch newFileMode target.path := by
  obtain ⟨output, listed, made⟩ := from_.manifest_built.target here
  have member := List.mem_of_getElem? listed
  have named : target.path = output.path.value := manifestTargetOf_path made
  have read := from_.target_read here
  have content : (plannedJob setting world snapshot editPlan manifest).content index =
      referenceOutput snapshot batch output.path := plannedJob_content listed (changed_reference from_ planned member)
  have installed : storeOf (plannedJob setting world snapshot editPlan manifest).plannedFiles target.path =
      some (.file ((plannedJob setting world snapshot editPlan manifest).finalMode index &&& 0o7777)
        (referenceOutput snapshot batch output.path)) := by
    rw [storeOf, Job.plannedFiles, Job.filesOf_target sound here, ← content]
    rfl
  have standing : world.files target.path =
      ((plannedJob setting world snapshot editPlan manifest).original index).map Item.file := read.here
  rw [installed, Store.after, storeOf, standing]
  have known := (from_.outputs_valid output member).known
  have finalMode : (plannedJob setting world snapshot editPlan manifest).finalMode index =
      ((plannedJob setting world snapshot editPlan manifest).original index).elim
        ((target.newFileMode).getD 0 &&& 0o7777) fun node => node.mode &&& 0o7777 := by
    have same : (plannedJob setting world snapshot editPlan manifest).manifest.targets[index]? = some target := here
    rw [Job.finalMode, same]
    cases (plannedJob setting world snapshot editPlan manifest).original index <;> rfl
  rw [finalMode]
  cases original : (plannedJob setting world snapshot editPlan manifest).original index with
  | some node =>
    have read_here : ∃ file ∈ snapshot.files, file.path.value = target.path := by
      rcases known with ⟨file, inside, same⟩ | ⟨missing, inside, same⟩
      · exact ⟨file, inside, by rw [same, named]⟩
      · have free := (from_.snapshot_read.absentPaths missing inside).free
        rw [same, ← named, show (setting.view world).item target.path = world.files target.path from rfl, standing,
          original] at free
        cases free
    rw [Option.elim_some, mode_masked, Option.map_some, Option.map_some, PathContent.ofItem]
    dsimp only
    rw [if_pos read_here, named]
  | none =>
    have created : ∃ operation ∈ batch.operations, operation.Creates ⟨target.path⟩ := by
      rw [named]
      rcases known with ⟨file, inside, same⟩ | ⟨missing, inside, same⟩
      · obtain ⟨node, stands, -⟩ := file_stands from_ inside
        rw [same, ← named, standing, original] at stands
        cases stands
      · rw [← same]
        refine (plan_creates_iff from_.snapshot_acquired.indexed planned inside).mp ⟨output, ?_, same.symm, ?_⟩
        · exact ((mem_changed from_).mp member).1
        · exact ((mem_changed from_).mp member).2
    rw [Option.elim_none, read.mode original, Option.getD_some, mode_masked, newMode_masked, Option.map_none, Option.map_none]
    dsimp only
    rw [if_pos created, named]

include from_ in
/-- A path with a changed output is a target. -/
private theorem target_of_changed {output : PlannedOutput} (member : output ∈ Fs.changedOutputs editPlan) :
    ∃ target ∈ manifest.targets, target.path = output.path.value := by
  obtain ⟨_, built⟩ := from_.built
  have listed : output.path.value ∈ manifest.targets.map ManifestTarget.path := by
    rw [buildManifest_paths built]
    exact List.mem_map_of_mem member
  exact List.mem_map.mp listed

include from_ planned in
/-- Away from the targets the batch changes nothing. -/
private theorem elsewhere_after {path : String} (elsewhere : ∀ target ∈ manifest.targets, target.path ≠ path) :
    (storeOf world.files).after snapshot batch newFileMode path = storeOf world.files path := by
  have quiet (output : PlannedOutput) (listed : output ∈ editPlan.outputs) (named : output.path = ⟨path⟩) :
      output.change = .unchanged := by
    by_contra changed
    obtain ⟨target, member, same⟩ := target_of_changed from_ ((mem_changed from_).mpr ⟨listed, changed⟩)
    exact elsewhere target member (same.trans (congrArg WorkspaceRelativePath.value named))
  rw [Store.after]
  cases stands : world.files path with
  | none =>
    have uncreated : ¬∃ operation ∈ batch.operations, operation.Creates ⟨path⟩ := by
      rintro ⟨operation, member, creates⟩
      obtain ⟨missing, inside, same⟩ := plan_creates_absent planned member creates
      obtain ⟨output, listed, named, changed⟩ := (plan_creates_iff from_.snapshot_acquired.indexed planned inside).mpr
        ⟨operation, member, same ▸ creates⟩
      exact changed (quiet output listed (named.trans same))
    rw [storeOf, stands, Option.map_none]
    dsimp only
    rw [if_neg uncreated]
  | some item =>
    cases item with
    | symlink => rw [storeOf, stands]; rfl
    | other => rw [storeOf, stands]; rfl
    | file node =>
      rw [storeOf, stands, Option.map_some, PathContent.ofItem]
      dsimp only
      split_ifs with read
      · obtain ⟨file, inside, rfl⟩ := read
        have original : referenceOutput snapshot batch file.path = snapshot.originalBytes file.path := by
          cases plan_leaves from_.snapshot_acquired.indexed planned file.path with
          | keeps _ same => exact same
          | changes member named changed _ => exact absurd (quiet _ member named) changed
        obtain ⟨first, found⟩ : ∃ first, snapshot.fileAt? file.path = some first := by
          rw [← Option.isSome_iff_exists, WorkspaceSnapshot.fileAt?, List.find?_isSome]
          exact ⟨file, inside, decide_eq_true rfl⟩
        have bytes : snapshot.originalBytes file.path = node.bytes := by
          obtain ⟨node', stands', same⟩ := file_stands from_ (fileAt?_mem found)
          have named : first.path = file.path := by simpa using List.find?_some found
          rw [named, stands] at stands'
          cases stands'
          rw [WorkspaceSnapshot.originalBytes, found, Option.map_some, Option.getD_some, same]
        rw [show (⟨file.path.value⟩ : WorkspaceRelativePath) = file.path from rfl, original, bytes]
      · rfl

include from_ planned in
/-- Once every candidate is installed, the store is the one after the batch. -/
theorem plannedFiles_store (sound : (plannedJob setting world snapshot editPlan manifest).Sound) :
    storeOf (plannedJob setting world snapshot editPlan manifest).plannedFiles =
      (storeOf world.files).after snapshot batch newFileMode := by
  funext path
  by_cases targeted : ∃ target ∈ manifest.targets, target.path = path
  · obtain ⟨target, member, rfl⟩ := targeted
    obtain ⟨index, inside, rfl⟩ := List.mem_iff_getElem.mp member
    exact target_after from_ planned sound (List.getElem?_eq_getElem inside)
  · have elsewhere (target : ManifestTarget) (member : target ∈ manifest.targets) : target.path ≠ path :=
      fun same => targeted ⟨target, member, same⟩
    rw [elsewhere_after from_ planned elsewhere, storeOf, Job.plannedFiles, filesOf_elsewhere elsewhere]
    rfl

end Planned

end Srcmv.Cli
