import Srcmv.Model.Core.Planner
import Srcmv.ToMathlib.Except

/-! # The paths of a plan

The operations of a plan keep the paths of the batch, and its outputs have different paths, each that of
an operation.
-/

namespace Srcmv.Core

variable {sha256 : Bytes → Sha256Digest} {states : StatesByPath} {edits result : Edits}

/-- The source and the destination of a request. -/
def endpointsOf (operation : Operation) : List WorkspaceRelativePath :=
  [(operationParts operation).2.source.path, (operationParts operation).2.destination.path]

/-- The source and the destination of a resolved operation. -/
def ResolvedOperation.paths (operation : ResolvedOperation) : List WorkspaceRelativePath :=
  [operation.sourcePath, operation.destinationPath]

private theorem resolveOperation_paths {operation : Operation} {operationIndex : ℕ} {resolution : Resolution}
    (resolved : resolveOperation sha256 states operation operationIndex = .ok resolution) :
    resolution.operation.paths = endpointsOf operation := by
  rw [resolveOperation] at resolved
  obtain ⟨_, -, resolved⟩ := Except.bind_eq_ok.mp resolved
  obtain ⟨_, -, resolved⟩ := Except.bind_eq_ok.mp resolved
  obtain ⟨_, -, resolved⟩ := Except.bind_eq_ok.mp resolved
  obtain ⟨_, -, resolved⟩ := Except.bind_eq_ok.mp resolved
  obtain ⟨_, -, resolved⟩ := Except.bind_eq_ok.mp resolved
  obtain rfl := Except.pure_eq_ok.mp resolved
  rfl

/-- Edits are recorded under their own path, and only under these paths. -/
def Touches (paths : List WorkspaceRelativePath) (edits : Edits) : Prop :=
  ∀ (path : WorkspaceRelativePath) (output : OutputEdits), edits[path]? = some output → output.path = path ∧ path ∈ paths

private theorem Touches.mono {paths more : List WorkspaceRelativePath} (touches : Touches paths edits) (within : paths ⊆ more) :
    Touches more edits :=
  fun path output found => ⟨(touches path output found).1, within (touches path output found).2⟩

private theorem outputEdits_touches {paths : List WorkspaceRelativePath} {path : WorkspaceRelativePath} {state : SnapshotState}
    {update : OutputEdits → OutputEdits} (touches : Touches paths edits) (listed : path ∈ paths)
    (accepted : outputEdits edits path state update = .ok result) (keeps : ∀ output, (update output).path = output.path) :
    Touches paths result := by
  unfold outputEdits at accepted
  simp only at accepted
  split_ifs at accepted
  obtain rfl := Except.ok.inj accepted
  intro other output found
  rw [Std.TreeMap.getElem?_insert] at found
  by_cases same : path = other
  · subst same
    simp only [Std.ReflCmp.compare_self, if_true, Option.some.injEq] at found
    refine ⟨?_, listed⟩
    rw [← found, keeps]
    cases present : edits[path]? with
    | none => rfl
    | some previous => exact (touches path previous present).1
  · simp only [Std.LawfulEqCmp.compare_eq_iff_eq, same, if_false] at found
    exact touches other output found

private theorem applyResolution_touches {paths : List WorkspaceRelativePath} {resolution : Resolution}
    (touches : Touches paths edits) (listed : resolution.operation.paths ⊆ paths)
    (accepted : applyResolution edits resolution = .ok result) : Touches paths result := by
  have source : resolution.operation.sourcePath ∈ paths := listed List.mem_cons_self
  have destination : resolution.operation.destinationPath ∈ paths := listed (List.mem_cons_of_mem _ List.mem_cons_self)
  simp only [applyResolution] at accepted
  split_ifs at accepted
  · obtain rfl := Except.pure_eq_ok.mp accepted
    exact touches
  · obtain ⟨middle, deleted, inserted⟩ := Except.bind_eq_ok.mp accepted
    have first := outputEdits_touches touches source deleted fun _ => rfl
    exact outputEdits_touches first destination inserted fun _ => rfl
  · obtain ⟨middle, untouched, inserted⟩ := Except.bind_eq_ok.mp accepted
    obtain rfl := Except.ok.inj untouched
    exact outputEdits_touches touches destination inserted fun _ => rfl

/-- What the planning loop has kept after a part of the batch. -/
private structure Kept (done : List (Operation × ℕ)) (progress : List ResolvedOperation × Edits) : Prop where
  paths : progress.1.map ResolvedOperation.paths = done.map fun entry => endpointsOf entry.1
  touches : Touches (done.flatMap fun entry => endpointsOf entry.1) progress.2

private theorem kept_step (done : List (Operation × ℕ)) (entry : Operation × ℕ) (current next : List ResolvedOperation × Edits)
    (kept : Kept done current) (accepted : planOperation sha256 states current entry = .ok next) :
    Kept (done ++ [entry]) next := by
  rw [planOperation] at accepted
  obtain ⟨resolution, resolved, accepted⟩ := Except.bind_eq_ok.mp accepted
  obtain ⟨edits, applied, accepted⟩ := Except.bind_eq_ok.mp accepted
  obtain rfl := Except.pure_eq_ok.mp accepted
  have same := resolveOperation_paths resolved
  constructor
  · rw [List.map_append, List.map_append, kept.paths, List.map_singleton, List.map_singleton, same]
  · rw [List.flatMap_append, List.flatMap_singleton]
    refine applyResolution_touches (kept.touches.mono (List.subset_append_left _ _)) ?_ applied
    rw [same]
    exact List.subset_append_right _ _

private theorem planOutput_path {filesById : FilesById} {edits : OutputEdits} {output : PlannedOutput}
    (produced : planOutput sha256 filesById edits = .ok output) : output.path = edits.path := by
  rw [planOutput] at produced
  obtain ⟨_, -, produced⟩ := Except.bind_eq_ok.mp produced
  obtain ⟨_, -, produced⟩ := Except.bind_eq_ok.mp produced
  obtain ⟨_, -, produced⟩ := Except.bind_eq_ok.mp produced
  obtain ⟨_, -, produced⟩ := Except.bind_eq_ok.mp produced
  obtain rfl := Except.pure_eq_ok.mp produced
  rfl

private theorem map_path {edits : List OutputEdits} {outputs : List PlannedOutput}
    (produced : List.Forall₂ (fun edits output => output.path = edits.path) edits outputs) :
    outputs.map PlannedOutput.path = edits.map OutputEdits.path := by
  induction produced with
  | nil => rfl
  | cons same _ ih => rw [List.map_cons, List.map_cons, ih, same]

/-- Operations keep the paths of the batch; outputs have different paths, all of them among these. -/
theorem plan_paths {sizes : TypeSizes} {snapshot : WorkspaceSnapshot} {batch : BatchSpecification} {budget : ResourceBudget}
    {editPlan : EditPlan} (planned : plan sha256 sizes snapshot batch budget = .ok editPlan) :
    editPlan.operations.map ResolvedOperation.paths = batch.operations.map endpointsOf ∧
      (editPlan.outputs.map PlannedOutput.path).Nodup ∧
      editPlan.outputs.map PlannedOutput.path ⊆ batch.operations.flatMap endpointsOf := by
  obtain ⟨⟨states, filesById⟩, -, planned⟩ := Except.bind_eq_ok.mp planned
  obtain ⟨_, -, planned⟩ := Except.bind_eq_ok.mp planned
  obtain ⟨⟨resolved, edits⟩, looped, planned⟩ := Except.bind_eq_ok.mp planned
  obtain ⟨outputs, traversed, planned⟩ := Except.bind_eq_ok.mp planned
  obtain ⟨_, -, planned⟩ := Except.bind_eq_ok.mp planned
  obtain ⟨_, -, planned⟩ := Except.bind_eq_ok.mp planned
  obtain ⟨_, -, planned⟩ := Except.bind_eq_ok.mp planned
  obtain rfl := Except.pure_eq_ok.mp planned
  have start : Kept [] ([], (∅ : Edits)) := ⟨rfl, fun _ _ absent => by simp at absent⟩
  have kept := List.foldlM_ok_induction kept_step batch.operations.zipIdx start looped
  rw [List.nil_append] at kept
  have recorded : ∀ entry ∈ edits.toList, entry.2.path = entry.1 ∧
      entry.1 ∈ batch.operations.zipIdx.flatMap fun entry => endpointsOf entry.1 :=
    fun entry member => kept.touches entry.1 entry.2 (Std.TreeMap.mem_toList_iff_getElem?_eq_some.mp member)
  have keys : outputs.map PlannedOutput.path = edits.toList.map Prod.fst := by
    rw [map_path ((List.forall₂_of_mapM_ok traversed).imp fun _ _ produced => planOutput_path produced), List.map_map]
    exact List.map_congr_left fun entry member => (recorded entry member).1
  have endpoints : (batch.operations.zipIdx.map fun entry => endpointsOf entry.1) = batch.operations.map endpointsOf := by
    rw [← Function.comp_def, ← List.map_map, List.zipIdx_map_fst]
  dsimp only
  refine ⟨kept.paths.trans endpoints, ?_, ?_⟩
  · rw [keys]
    rw [Std.TreeMap.map_fst_toList_eq_keys]
    exact Std.TreeMap.nodup_keys
  · rw [keys]
    intro path member
    obtain ⟨entry, listed, rfl⟩ := List.mem_map.mp member
    have touched := (recorded entry listed).2
    rwa [List.flatMap_def, endpoints, ← List.flatMap_def] at touched

end Srcmv.Core
