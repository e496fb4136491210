import Srcmv.Proofs.Core.PlannedOutputs

/-! # The projected size of a response

The usage of an accepted plan charges a fixed amount and the bytes of its paths for every operation and
output, and a fixed amount for every segment. It counts the outputs that change.
-/

namespace Srcmv.Core

def operationCharge (operation : ResolvedOperation) : ℕ :=
  1024 + (pathLength operation.sourcePath + pathLength operation.destinationPath)

def outputCharge (output : PlannedOutput) : ℕ := 512 + pathLength output.path + output.segments.length * 512

variable {sizes : TypeSizes} {usage next : PlanningUsage}

theorem checkedMul_eq_ok {left right product : ℕ} {resource : String} :
    checkedMul left right resource = .ok product ↔ left * right ≤ u64Max ∧ product = left * right := by
  rw [checkedMul]
  split_ifs with fits
  · exact ⟨fun same => ⟨fits, (Except.ok.inj same).symm⟩, fun accepted => by rw [accepted.2]⟩
  · constructor
    · intro rejected
      cases rejected
    · exact fun accepted => absurd accepted.1 fits

private theorem chargeOperation_projects {operation : ResolvedOperation} (charged : chargeOperation usage operation = .ok next) :
    next.projectedResponseBytes = usage.projectedResponseBytes + operationCharge operation ∧
      next.changedTargets = usage.changedTargets := by
  rw [chargeOperation] at charged
  obtain ⟨paths, added, charged⟩ := Except.bind_eq_ok.mp charged
  obtain ⟨one, summed, charged⟩ := Except.bind_eq_ok.mp charged
  obtain ⟨projected, total, charged⟩ := Except.bind_eq_ok.mp charged
  obtain ⟨_, -, charged⟩ := Except.bind_eq_ok.mp charged
  obtain rfl := Except.pure_eq_ok.mp charged
  obtain ⟨-, rfl⟩ := checkedAdd_eq_ok.mp added
  obtain ⟨-, rfl⟩ := checkedAdd_eq_ok.mp summed
  obtain ⟨-, rfl⟩ := checkedAdd_eq_ok.mp total
  exact ⟨rfl, rfl⟩

private theorem chargeOutput_projects {output : PlannedOutput} (charged : chargeOutput sizes usage output = .ok next) :
    next.projectedResponseBytes = usage.projectedResponseBytes + outputCharge output ∧
      next.changedTargets = usage.changedTargets + if output.change ≠ .unchanged then 1 else 0 := by
  rw [chargeOutput] at charged
  obtain ⟨_, -, charged⟩ := Except.bind_eq_ok.mp charged
  obtain ⟨_, -, charged⟩ := Except.bind_eq_ok.mp charged
  extract_lets paths finish at charged
  have finishes : ∀ changed, finish changed = .ok next →
      next.projectedResponseBytes = usage.projectedResponseBytes + outputCharge output ∧ next.changedTargets = changed := by
    intro changed finished
    obtain ⟨segments, multiplied, finished⟩ := Except.bind_eq_ok.mp finished
    obtain ⟨fixed, added, finished⟩ := Except.bind_eq_ok.mp finished
    obtain ⟨one, summed, finished⟩ := Except.bind_eq_ok.mp finished
    obtain ⟨projected, total, finished⟩ := Except.bind_eq_ok.mp finished
    obtain ⟨_, -, finished⟩ := Except.bind_eq_ok.mp finished
    obtain ⟨_, -, finished⟩ := Except.bind_eq_ok.mp finished
    obtain ⟨_, -, finished⟩ := Except.bind_eq_ok.mp finished
    obtain rfl := Except.pure_eq_ok.mp finished
    obtain ⟨-, rfl⟩ := checkedMul_eq_ok.mp multiplied
    obtain ⟨-, rfl⟩ := checkedAdd_eq_ok.mp added
    obtain ⟨-, rfl⟩ := checkedAdd_eq_ok.mp summed
    obtain ⟨-, rfl⟩ := checkedAdd_eq_ok.mp total
    exact ⟨rfl, rfl⟩
  split_ifs at charged ⊢
  · obtain ⟨changed, counted, charged⟩ := Except.bind_eq_ok.mp charged
    obtain ⟨-, rfl⟩ := checkedAdd_eq_ok.mp counted
    exact finishes _ charged
  · exact finishes _ charged

private theorem chargeOperations_project {operations : List ResolvedOperation}
    (charged : operations.foldlM chargeOperation usage = .ok next) :
    next.projectedResponseBytes = usage.projectedResponseBytes + (operations.map operationCharge).sum ∧
      next.changedTargets = usage.changedTargets := by
  induction operations generalizing usage with
  | nil =>
    obtain rfl := Except.pure_eq_ok.mp charged
    exact ⟨rfl, rfl⟩
  | cons operation rest ih =>
    rw [List.foldlM_cons] at charged
    obtain ⟨middle, first, charged⟩ := Except.bind_eq_ok.mp charged
    obtain ⟨projected, changed⟩ := chargeOperation_projects first
    obtain ⟨projected', changed'⟩ := ih charged
    rw [List.map_cons, List.sum_cons]
    omega

private theorem chargeOutputs_project {outputs : List PlannedOutput}
    (charged : outputs.foldlM (chargeOutput sizes) usage = .ok next) :
    next.projectedResponseBytes = usage.projectedResponseBytes + (outputs.map outputCharge).sum ∧
      next.changedTargets = usage.changedTargets + (outputs.filter fun output => output.change ≠ .unchanged).length := by
  induction outputs generalizing usage with
  | nil =>
    obtain rfl := Except.pure_eq_ok.mp charged
    exact ⟨rfl, rfl⟩
  | cons output rest ih =>
    rw [List.foldlM_cons] at charged
    obtain ⟨middle, first, charged⟩ := Except.bind_eq_ok.mp charged
    obtain ⟨projected, changed⟩ := chargeOutput_projects first
    obtain ⟨projected', changed'⟩ := ih charged
    rw [List.map_cons, List.sum_cons]
    by_cases same : output.change = .unchanged
    · rw [if_neg (not_not.mpr same)] at changed
      rw [List.filter_cons_of_neg (by simp [same])]
      omega
    · rw [if_pos same] at changed
      rw [List.filter_cons_of_pos (by simp [same]), List.length_cons]
      omega

/-- What the usage of an accepted plan says of its response and of its targets. -/
theorem plan_projects {sha256 : Bytes → Sha256Digest} {snapshot : WorkspaceSnapshot} {batch : BatchSpecification}
    {budget : ResourceBudget} {editPlan : EditPlan} (planned : plan sha256 sizes snapshot batch budget = .ok editPlan) :
    editPlan.usage.projectedResponseBytes =
        1024 + (editPlan.operations.map operationCharge).sum + (editPlan.outputs.map outputCharge).sum ∧
      editPlan.usage.changedTargets = (editPlan.outputs.filter fun output => output.change ≠ .unchanged).length ∧
      editPlan.usage.changedTargets ≤ budget.changedTargets := by
  obtain ⟨⟨states, filesById⟩, -, planned⟩ := Except.bind_eq_ok.mp planned
  obtain ⟨_, -, planned⟩ := Except.bind_eq_ok.mp planned
  obtain ⟨⟨resolved, edits⟩, -, planned⟩ := Except.bind_eq_ok.mp planned
  obtain ⟨outputs, -, planned⟩ := Except.bind_eq_ok.mp planned
  obtain ⟨usage, calculated, planned⟩ := Except.bind_eq_ok.mp planned
  obtain ⟨_, enforced, planned⟩ := Except.bind_eq_ok.mp planned
  obtain ⟨_, -, planned⟩ := Except.bind_eq_ok.mp planned
  obtain rfl := Except.pure_eq_ok.mp planned
  dsimp only
  rw [calculateUsage] at calculated
  obtain ⟨_, -, calculated⟩ := Except.bind_eq_ok.mp calculated
  obtain ⟨charged, operations, calculated⟩ := Except.bind_eq_ok.mp calculated
  obtain ⟨_, -, calculated⟩ := Except.bind_eq_ok.mp calculated
  obtain ⟨_, -, calculated⟩ := Except.bind_eq_ok.mp calculated
  obtain ⟨projected, unchanged⟩ := chargeOperations_project operations
  obtain ⟨projected', changed⟩ := chargeOutputs_project calculated
  dsimp only at projected unchanged projected' changed
  refine ⟨by omega, by omega, ?_⟩
  rw [enforceUsage] at enforced
  obtain ⟨_, -, enforced⟩ := Except.bind_eq_ok.mp enforced
  obtain ⟨_, -, enforced⟩ := Except.bind_eq_ok.mp enforced
  obtain ⟨_, -, enforced⟩ := Except.bind_eq_ok.mp enforced
  obtain ⟨_, -, enforced⟩ := Except.bind_eq_ok.mp enforced
  obtain ⟨_, within, enforced⟩ := Except.bind_eq_ok.mp enforced
  rw [enforceLimit] at within
  split_ifs at within with exceeds
  exact not_lt.mp exceeds

end Srcmv.Core
