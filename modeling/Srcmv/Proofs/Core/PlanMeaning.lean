import Srcmv.Proofs.Core.PlannedOutputs
import Srcmv.Proofs.Core.Projection
import Srcmv.Soundness.OutputSummary

/-! # What a plan does at every path

A path with a changed output is left with the reference bytes of the batch. At any other path the
reference bytes are the original ones: either nothing was recorded there, or what was recorded
gives the original back.
-/

/-! ## The bytes an accepted plan writes

The outputs of an accepted plan together stay within the budget.
-/

namespace Srcmv.Core

variable {sizes : TypeSizes} {usage next : PlanningUsage}

/-- The bytes of some outputs. -/
def outputsBytes (outputs : List PlannedOutput) : ℕ := (outputs.map PlannedOutput.resultingLength).sum

private theorem chargeOutput_bytes {output : PlannedOutput} (charged : chargeOutput sizes usage output = .ok next) :
    next.totalOutputBytes = usage.totalOutputBytes + output.resultingLength := by
  rw [chargeOutput] at charged
  obtain ⟨_, added, charged⟩ := Except.bind_eq_ok.mp charged
  obtain ⟨_, -, charged⟩ := Except.bind_eq_ok.mp charged
  obtain ⟨-, rfl⟩ := checkedAdd_eq_ok.mp added
  extract_lets paths finish at charged
  have finishes (changed : ℕ) (finished : finish changed = .ok next) :
      next.totalOutputBytes = usage.totalOutputBytes + output.resultingLength := by
    obtain ⟨_, -, finished⟩ := Except.bind_eq_ok.mp finished
    obtain ⟨_, -, finished⟩ := Except.bind_eq_ok.mp finished
    obtain ⟨_, -, finished⟩ := Except.bind_eq_ok.mp finished
    obtain ⟨_, -, finished⟩ := Except.bind_eq_ok.mp finished
    obtain ⟨_, -, finished⟩ := Except.bind_eq_ok.mp finished
    obtain ⟨_, -, finished⟩ := Except.bind_eq_ok.mp finished
    obtain ⟨_, -, finished⟩ := Except.bind_eq_ok.mp finished
    obtain rfl := Except.pure_eq_ok.mp finished
    rfl
  split_ifs at charged
  · obtain ⟨changed, -, charged⟩ := Except.bind_eq_ok.mp charged
    exact finishes _ charged
  · exact finishes _ charged

private theorem chargeOutputs_bytes {outputs : List PlannedOutput}
    (charged : outputs.foldlM (chargeOutput sizes) usage = .ok next) :
    next.totalOutputBytes = usage.totalOutputBytes + outputsBytes outputs := by
  induction outputs generalizing usage with
  | nil =>
    obtain rfl := Except.pure_eq_ok.mp charged
    rfl
  | cons output rest ih =>
    rw [List.foldlM_cons] at charged
    obtain ⟨middle, first, charged⟩ := Except.bind_eq_ok.mp charged
    rw [ih charged, chargeOutput_bytes first, outputsBytes, outputsBytes, List.map_cons, List.sum_cons, Nat.add_assoc]

theorem plan_outputBytes {sha256 : Bytes → Sha256Digest} {snapshot : WorkspaceSnapshot} {batch : BatchSpecification}
    {budget : ResourceBudget} {editPlan : EditPlan} (planned : plan sha256 sizes snapshot batch budget = .ok editPlan) :
    outputsBytes editPlan.outputs ≤ budget.plannedOutputBytes := by
  obtain ⟨⟨states, filesById⟩, -, planned⟩ := Except.bind_eq_ok.mp planned
  obtain ⟨_, -, planned⟩ := Except.bind_eq_ok.mp planned
  obtain ⟨⟨resolved, edits⟩, -, planned⟩ := Except.bind_eq_ok.mp planned
  obtain ⟨outputs, -, planned⟩ := Except.bind_eq_ok.mp planned
  obtain ⟨usage, calculated, planned⟩ := Except.bind_eq_ok.mp planned
  obtain ⟨_, enforced, planned⟩ := Except.bind_eq_ok.mp planned
  obtain ⟨_, -, planned⟩ := Except.bind_eq_ok.mp planned
  obtain rfl := Except.pure_eq_ok.mp planned
  rw [calculateUsage] at calculated
  obtain ⟨_, -, calculated⟩ := Except.bind_eq_ok.mp calculated
  obtain ⟨_, -, calculated⟩ := Except.bind_eq_ok.mp calculated
  obtain ⟨_, -, calculated⟩ := Except.bind_eq_ok.mp calculated
  obtain ⟨_, -, calculated⟩ := Except.bind_eq_ok.mp calculated
  have total := chargeOutputs_bytes calculated
  rw [enforceUsage] at enforced
  obtain ⟨_, -, enforced⟩ := Except.bind_eq_ok.mp enforced
  obtain ⟨_, within, -⟩ := Except.bind_eq_ok.mp enforced
  rw [enforceLimit] at within
  split_ifs at within with exceeds
  have bounded : usage.totalOutputBytes ≤ budget.plannedOutputBytes := not_lt.mp exceeds
  rw [total] at bounded
  exact (Nat.le_add_left _ _).trans bounded

end Srcmv.Core

/-! ## Changed and kept paths -/

namespace Srcmv.Core

variable {snapshot : WorkspaceSnapshot} {states : StatesByPath} {filesById : FilesById} {sha256 : Bytes → Sha256Digest}
  {batch : BatchSpecification} {editPlan : EditPlan} {path : WorkspaceRelativePath}

/-- What a plan leaves at a path. -/
inductive EditPlan.Leaves (editPlan : EditPlan) (snapshot : WorkspaceSnapshot) (batch : BatchSpecification)
    (path : WorkspaceRelativePath) : Prop where
  | changes {output : PlannedOutput} (member : output ∈ editPlan.outputs) (named : output.path = path)
      (changed : output.change ≠ .unchanged) (bytes : output.bytes? snapshot = some (referenceOutput snapshot batch path)) :
      Leaves editPlan snapshot batch path
  | keeps (quiet : ∀ output ∈ editPlan.outputs, output.path = path → output.change = .unchanged)
      (same : referenceOutput snapshot batch path = snapshot.originalBytes path) : Leaves editPlan snapshot batch path

/-- All items of a list in order are the list. -/
private theorem flatMap_getElem? {α : Type} (items : List α) :
    (List.range (items.length + 1)).flatMap (fun position => items[position]?.toList) = items := by
  induction items with
  | nil => rfl
  | cons item rest ih =>
    rw [List.range_succ_eq_map, List.flatMap_cons, List.flatMap_map]
    simpa using ih

/-- Where no request puts or takes anything, the original is left. -/
private theorem reference_silent {resolutions : List Resolution} (looksUp : LooksUp snapshot states filesById)
    (read : List.Forall₂ (fun entry resolution => resolution.Reads snapshot states entry) batch.operations.zipIdx resolutions)
    (deletions : resolutions.filterMap (·.deletes path) = []) (insertions : resolutions.filterMap (·.inserts path) = []) :
    referenceOutput snapshot batch path = snapshot.originalBytes path := by
  have takes (position : ℕ) := deletions_reference read path position
  have puts (position : ℕ) := insertions_reference looksUp read path position
  rw [deletions] at takes
  rw [insertions] at puts
  rw [referenceOutput, reference_edits read]
  simp only [← takes, ← puts]
  exact flatMap_getElem? _

/-- An output that is recorded as unchanged has the bytes of the file. -/
private theorem planOutput_unchanged {edits : OutputEdits} {output : PlannedOutput} {state : SnapshotState}
    (looksUp : LooksUp snapshot states filesById) (known : states[path.value]? = some state)
    (fileId : edits.existingFileId = state.fileId) (produced : planOutput sha256 filesById edits = .ok output)
    {bytes : Bytes} (named : output.bytes? snapshot = some bytes) (unchanged : output.change = .unchanged) :
    bytes = snapshot.originalBytes path := by
  obtain ⟨-, -, -, read⟩ := planOutput_ok looksUp produced
  rw [planOutput] at produced
  obtain ⟨_, -, produced⟩ := Except.bind_eq_ok.mp produced
  obtain ⟨segments, -, produced⟩ := Except.bind_eq_ok.mp produced
  obtain ⟨⟨length, digest, equal⟩, streamed, produced⟩ := Except.bind_eq_ok.mp produced
  obtain ⟨_, -, produced⟩ := Except.bind_eq_ok.mp produced
  obtain rfl := Except.pure_eq_ok.mp produced
  obtain rfl := Option.some.inj (read.symm.trans named)
  have original := looksUp.byPath path state known
  rw [WorkspaceSnapshot.originalBytes, ← original]
  rw [fileId] at streamed
  dsimp only at unchanged
  rw [fileId] at unchanged
  cases state with
  | absent missing => simp [SnapshotState.fileId, classifyOutput] at unchanged
  | existing file =>
    have byId := looksUp.unique file (fileAt?_mem original.symm)
    refine (streamOutput_equal looksUp byId streamed).mp ?_
    dsimp only
    cases equal with
    | true => rfl
    | false =>
      by_cases empty : length = 0
      · simp [classifyOutput, SnapshotState.fileId, empty] at unchanged
      · simp [classifyOutput, SnapshotState.fileId, empty] at unchanged

theorem plan_leaves {sizes : TypeSizes} {budget : ResourceBudget} (indexed : snapshot.Indexed)
    (planned : plan sha256 sizes snapshot batch budget = .ok editPlan) (path : WorkspaceRelativePath) :
    editPlan.Leaves snapshot batch path := by
  obtain ⟨-, increasing⟩ := plan_valid indexed planned
  obtain ⟨⟨states, filesById⟩, indexedStates, planned⟩ := Except.bind_eq_ok.mp planned
  have looksUp := indexSnapshot_ok indexedStates
  obtain ⟨byPath, -⟩ := indexSnapshot_lookups indexedStates
  obtain ⟨_, -, planned⟩ := Except.bind_eq_ok.mp planned
  obtain ⟨⟨resolved, edits⟩, looped, planned⟩ := Except.bind_eq_ok.mp planned
  obtain ⟨resolutions, read, composes⟩ := planOperations_ok indexed looksUp looped
  obtain ⟨outputs, traversed, planned⟩ := Except.bind_eq_ok.mp planned
  obtain ⟨_, -, planned⟩ := Except.bind_eq_ok.mp planned
  obtain ⟨_, -, planned⟩ := Except.bind_eq_ok.mp planned
  obtain ⟨_, -, planned⟩ := Except.bind_eq_ok.mp planned
  obtain rfl := Except.pure_eq_ok.mp planned
  dsimp only at increasing
  have produces (output : PlannedOutput) (member : output ∈ outputs) : ∃ edit, edits[output.path]? = some edit ∧
      planOutput sha256 filesById edit = .ok output := by
    obtain ⟨edit, listed, produced⟩ := List.mapM_ok_mem traversed member
    obtain ⟨⟨key, _⟩, stored, rfl⟩ := List.mem_map.mp listed
    have found := Std.TreeMap.mem_toList_iff_getElem?_eq_some.mp stored
    obtain ⟨state, known, shape⟩ := composes.recorded key _ found
    have same : output.path = key := (planOutput_ok looksUp produced).1.trans (congrArg OutputEdits.path shape)
    exact ⟨_, same ▸ found, produced⟩
  cases found : edits[path]? with
  | none =>
    obtain ⟨deletions, insertions⟩ := composes.silent path found
    refine .keeps (fun output member same => ?_) (reference_silent looksUp read deletions insertions)
    obtain ⟨edit, recorded, -⟩ := produces output member
    rw [same, found] at recorded
    cases recorded
  | some edit =>
    obtain ⟨state, known, shape⟩ := composes.recorded path edit found
    have listed : edit ∈ edits.toList.map Prod.snd :=
      List.mem_map.mpr ⟨(path, edit), Std.TreeMap.mem_toList_iff_getElem?_eq_some.mpr found, rfl⟩
    obtain ⟨output, member, produced⟩ := List.mapM_ok_of_mem traversed listed
    obtain ⟨outputPath, valid, built, bytes⟩ := planOutput_ok looksUp produced
    rw [recipe_reference looksUp read known shape valid built] at bytes
    have here : output.path = path := outputPath.trans (congrArg OutputEdits.path shape)
    by_cases unchanged : output.change = .unchanged
    · refine .keeps (fun other inside same => ?_) ?_
      · obtain ⟨edit', recorded, produced'⟩ := produces other inside
        rw [same, found] at recorded
        obtain rfl := Option.some.inj recorded
        rw [← Except.ok.inj (produced.symm.trans produced')]
        exact unchanged
      · exact planOutput_unchanged looksUp known (congrArg OutputEdits.existingFileId shape) produced bytes unchanged
    · exact .changes member here unchanged bytes

end Srcmv.Core
