import Srcmv.Proofs.Cli.CommitLine
import Srcmv.Proofs.Core.Projection
import Srcmv.Soundness.Composition

/-! # The projected and the real size of a response

A plan is charged for a response before it is committed: fixed amounts for its operations, outputs and
segments, and the bytes of its paths. The response escapes the paths, repeats those of changed outputs and
of preserved modes, and adds digits, so the projection covers it only while these fit into the fixed amounts.
-/

namespace Srcmv.Cli

open Srcmv.Core Srcmv.Fs Srcmv.Protocol CompactJson

section Escapes

/-- The bytes that escapes add to a text. -/
def escapeBytes (text : String) : ℕ := escapedLength text - (utf8Bytes text).length

theorem escapedLength_eq (text : String) : escapedLength text = (utf8Bytes text).length + escapeBytes text := by
  have longer := (escapedLength_bounds text).1
  rw [escapeBytes, utf8Bytes]
  omega

end Escapes

section Condition

/-- What an operation needs beyond its paths and fixed texts: escapes, digits and its effect. -/
def operationExtra (operation : ResolvedOperation) : ℕ :=
  escapeBytes operation.sourcePath.value + escapeBytes operation.destinationPath.value +
    (naturalLength operation.operationIndex + naturalLength operation.sourceRange.start +
      naturalLength operation.sourceRange.stop + naturalLength operation.destinationOffset) +
    (if operation.effect = .changed then 82 else 11)

/-- What an output needs beyond its path and fixed texts. -/
def outputExtra (snapshot : WorkspaceSnapshot) (output : PlannedOutput) : ℕ :=
  escapeBytes output.path.value + changeLength output.change +
    ((originalBytes snapshot output.path.value).map List.length).elim 4 naturalLength +
    (if output.originalDigest.isSome then 73 else 4) + naturalLength output.resultingLength

/-- A second copy of the path of every changed output, and another one of every path with a preserved mode. -/
def repeatedPaths (plan : EditPlan) (modes : List (String × ℕ)) : ℕ :=
  (((changedOutputs plan).map listedLength).sum + ((changedOutputs plan).length - 1)) +
    ((modes.map modeLength).sum + (modes.length - 1))

/-- What is reported once. -/
def reportExtra (warnings : List WarningDto) (transactionId : Option String) : ℕ :=
  transactionLength transactionId + (2 + (warnings.map warningLength).sum + (warnings.length - 1))

/-- What is not charged for fits into what is charged without being needed. -/
def ProjectionCovers (snapshot : WorkspaceSnapshot) (plan : EditPlan) (warnings : List WarningDto)
    (transactionId : Option String) (modes : List (String × ℕ)) : Prop :=
  (plan.operations.map operationExtra).sum + (plan.operations.length - 1) +
      ((plan.outputs.map (outputExtra snapshot)).sum + (plan.outputs.length - 1)) + repeatedPaths plan modes +
      reportExtra warnings transactionId ≤
    525 + 762 * plan.operations.length + 345 * plan.outputs.length +
      512 * (plan.outputs.map fun output => output.segments.length).sum

private theorem operations_split (operations : List ResolvedOperation) :
    (operations.map operationLength).sum + 762 * operations.length =
      (operations.map operationCharge).sum + (operations.map operationExtra).sum := by
  induction operations with
  | nil => rfl
  | cons operation rest ih =>
    have source := escapedLength_eq operation.sourcePath.value
    have destination := escapedLength_eq operation.destinationPath.value
    simp only [List.map_cons, List.sum_cons, List.length_cons, operationLength, operationCharge, operationExtra, pathLength]
    omega

private theorem outputs_split (snapshot : WorkspaceSnapshot) (outputs : List PlannedOutput) :
    (outputs.map (outputLength snapshot)).sum + 345 * outputs.length +
        512 * (outputs.map fun output => output.segments.length).sum =
      (outputs.map outputCharge).sum + (outputs.map (outputExtra snapshot)).sum := by
  induction outputs with
  | nil => rfl
  | cons output rest ih =>
    have path := escapedLength_eq output.path.value
    simp only [List.map_cons, List.sum_cons, List.length_cons, outputLength, outputCharge, outputExtra, pathLength]
    omega

instance (snapshot : WorkspaceSnapshot) (plan : EditPlan) (warnings : List WarningDto) (transactionId : Option String)
    (modes : List (String × ℕ)) : Decidable (ProjectionCovers snapshot plan warnings transactionId modes) :=
  inferInstanceAs (Decidable (_ ≤ _))

private theorem projected_iff {toVec : Content → Bytes} (serializer : Content.Compact toVec) {sha256 : Bytes → Sha256Digest}
    {sizes : TypeSizes} {snapshot : WorkspaceSnapshot} {batch : BatchSpecification} {budget : ResourceBudget} {plan : EditPlan}
    (planned : Core.plan sha256 sizes snapshot batch budget = .ok plan) (hash : Sha256Digest) {warnings : List WarningDto}
    (bare : ∀ warning ∈ warnings, warning.context = []) (transactionId : Option String) (modes : List (String × ℕ)) :
    (toJsonLine toVec (buildCommitResponse snapshot plan hash warnings transactionId modes).content).length ≤
        plan.usage.projectedResponseBytes ↔
      ProjectionCovers snapshot plan warnings transactionId modes := by
  have operations := operations_split plan.operations
  have outputs := outputs_split snapshot plan.outputs
  rw [length_commitLine serializer, (plan_projects planned).1, length_warnings serializer bare, ProjectionCovers, repeatedPaths,
    reportExtra]
  omega

/-- A commit response is within its projection exactly when its escapes, its repeated paths, its digits and
what is reported once fit into the fixed charges. -/
theorem projected_response_covers_iff (toVec : Content → Bytes) (serializer : Content.Compact toVec)
    (sha256 : Bytes → Sha256Digest) (sizes : TypeSizes) (snapshot : WorkspaceSnapshot) (batch : BatchSpecification)
    (budget : ResourceBudget) (plan : EditPlan) (planned : Core.plan sha256 sizes snapshot batch budget = .ok plan)
    (hash : Sha256Digest) (warnings : List WarningDto) (bare : ∀ warning ∈ warnings, warning.context = [])
    (transactionId : Option String) (modes : List (String × ℕ)) :
    (toJsonLine toVec (buildCommitResponse snapshot plan hash warnings transactionId modes).content).length ≤
        plan.usage.projectedResponseBytes ↔
      ProjectionCovers snapshot plan warnings transactionId modes :=
  projected_iff serializer planned hash bare transactionId modes

/-- The example of a composed plan is covered. -/
theorem projected_response_covers_iff_example : ∃ editPlan,
    plan sha256Digest ⟨224, 120, 72⟩ exampleSnapshot exampleBatch {} = .ok editPlan ∧
      (toJsonLine Content.compact (buildCommitResponse exampleSnapshot editPlan zeroDigest [metadataWarning]
        (some "00000000000000000000000000000000") [("a", 420), ("b", 420)]).content).length ≤
          editPlan.usage.projectedResponseBytes := by
  have bare : ∀ warning ∈ [metadataWarning], warning.context = [] := List.forall_mem_singleton.mpr rfl
  have covered : (plan sha256Digest ⟨224, 120, 72⟩ exampleSnapshot exampleBatch {}).toOption.map (fun editPlan =>
      decide (ProjectionCovers exampleSnapshot editPlan [metadataWarning] (some "00000000000000000000000000000000")
        [("a", 420), ("b", 420)])) = some true := by decide +kernel
  cases planned : plan sha256Digest ⟨224, 120, 72⟩ exampleSnapshot exampleBatch {} with
  | error failure =>
    rw [planned] at covered
    cases covered
  | ok editPlan =>
    rw [planned] at covered
    have covers := of_decide_eq_true (Option.some.inj covered)
    exact ⟨editPlan, rfl, (projected_response_covers_iff Content.compact Content.compact_compact _ _ _ _ _ _ planned zeroDigest _
      bare _ _).mpr covers⟩

end Condition

section Uncovered

/-- A file name of control characters, each of which is escaped with six bytes. -/
def controlPath : WorkspaceRelativePath := ⟨String.ofList (List.replicate 150 (Char.ofNat 1))⟩

def controlSnapshot : WorkspaceSnapshot where
  workspaceIdentity := ⟨1, 1⟩
  files := [exampleFile 0 "a" (utf8Bytes "1")]
  absentPaths := [⟨controlPath, ⟨1, 1⟩, [⟨1, 1⟩], controlPath.value⟩]

/-- A copy to a new file of this name. -/
def controlBatch : BatchSpecification :=
  ⟨[.copy (exampleOperation (exampleFile 0 "a" (utf8Bytes "1")) (.bytes 0 1) controlPath.value .fileStart .mustNotExist)]⟩

/-- The new path stands in the operation, in its output and among the changed files. -/
theorem control_path_exceeds_projection : ∃ editPlan,
    plan sha256Digest ⟨224, 120, 72⟩ controlSnapshot controlBatch {} = .ok editPlan ∧
      editPlan.usage.projectedResponseBytes <
        (toJsonLine Content.compact (buildCommitResponse controlSnapshot editPlan zeroDigest [metadataWarning]
          (some "00000000000000000000000000000000") []).content).length := by
  have bare : ∀ warning ∈ [metadataWarning], warning.context = [] := List.forall_mem_singleton.mpr rfl
  have uncovered : (plan sha256Digest ⟨224, 120, 72⟩ controlSnapshot controlBatch {}).toOption.map (fun editPlan =>
      decide (ProjectionCovers controlSnapshot editPlan [metadataWarning] (some "00000000000000000000000000000000") [])) =
        some false := by decide +kernel
  cases planned : plan sha256Digest ⟨224, 120, 72⟩ controlSnapshot controlBatch {} with
  | error failure =>
    rw [planned] at uncovered
    cases uncovered
  | ok editPlan =>
    rw [planned] at uncovered
    refine ⟨editPlan, rfl, not_le.mp fun fits => ?_⟩
    have covers := (projected_iff Content.compact_compact planned zeroDigest bare _ _).mp fits
    exact of_decide_eq_false (Option.some.inj uncovered) covers

end Uncovered

end Srcmv.Cli
