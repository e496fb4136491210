import Srcmv.Model.Cli.Diff
import Srcmv.Model.Cli.Samples
import Srcmv.Model.Cli.Select
import Srcmv.Model.Protocol.Responses

/-! # Previews and their budget

A preview answers with a bounded diff or a summary of the changed outputs. With a review summary the
whole response must fit, so the diff gets what a response without its text leaves over. How content is
written is a parameter.
-/

namespace Srcmv.Cli

open Srcmv.Core Srcmv.Fs Srcmv.Protocol

def detailedDiffInputBytes : ℕ := 8 * 1024 * 1024

def originalBytes (snapshot : WorkspaceSnapshot) (path : String) : Option Bytes :=
  (snapshot.files.find? fun file => file.path.value = path).map FileSnapshot.bytes

def isBinary (bytes : Bytes) : Bool := bytes.contains 0 || (Utf8.decode bytes).isNone

def detailedInputExceeded (length : ℕ) : Bool := length > detailedDiffInputBytes

/-! ## The review summary -/

def snapshotFileForPath (snapshot : WorkspaceSnapshot) (path : String) : Except FsError FileSnapshot :=
  match snapshot.files.find? fun file => file.path.value = path with
  | some file => .ok file
  | none => .error (.internalInvariant "review_operation_source_file")

def ReviewOutput.response (review : ReviewOutput) : ReviewOutputResponse where
  outputIndex := review.outputIndex
  beforeLogicalLineCount := review.beforeLogicalLineCount
  afterLogicalLineCount := review.afterLogicalLineCount
  insertionGroupsInOutputOrder := review.insertionGroupsInOutputOrder.map fun group =>
    ⟨group.destinationOffset, group.operationIndices⟩

def reviewOperation (snapshot : WorkspaceSnapshot) (operation : ResolvedOperation) :
    Except FsError ReviewOperationResponse := do
  let source ← snapshotFileForPath snapshot operation.sourcePath.value
  let metrics ← ofCore (source.lineIndex.metricsForRange source.bytes operation.sourceRange)
  return ⟨operation.operationIndex, metrics.byteCount, metrics.lineCount⟩

def buildReviewSummary (snapshot : WorkspaceSnapshot) (plan : EditPlan) (files : SnapshotFileId → Option FileSnapshot) :
    Except FsError ReviewSummaryResponse := do
  let operations ← plan.operations.mapM (reviewOperation snapshot)
  let outputs ← plan.outputs.zipIdx.mapM fun entry => buildReviewOutput entry.2 entry.1 snapshot plan files
  return .v1 plan.digest operations (outputs.map ReviewOutput.response)

/-- `Map::insert`: members stay in the order of their names, and an equal name is replaced. -/
def insertMember (name : String) (value : Content) : List (String × Content) → List (String × Content)
  | [] => [(name, value)]
  | (other, stored) :: rest =>
      if name < other then (name, value) :: (other, stored) :: rest
      else if name = other then (name, value) :: rest
      else (other, stored) :: insertMember name value rest

def reviewOnlySummaryValue (review : Content) : Content := .map (insertMember "review" review [])

def mergeReviewSummary (legacy review : Option Content) : Except FsError (Option Content) :=
  match review with
  | none => .ok legacy
  | some review =>
      match legacy with
      | some (.map summary) => .ok (some (.map (insertMember "review" review summary)))
      | none => .ok (some (reviewOnlySummaryValue review))
      | some _ => .error (.internalInvariant "preview_summary_is_object")

/-! ## Summaries in place of a diff -/

def EncodedSamples.toValue (samples : EncodedSamples) : Content :=
  .map [("head_base64", .string (String.ofList samples.headBase64)), ("tail_base64", .string (String.ofList samples.tailBase64))]

def summaryEntry (snapshot : WorkspaceSnapshot) (files : SnapshotFileId → Option FileSnapshot) (output : PlannedOutput) :
    Except FsError Content := do
  let before := originalBytes snapshot output.path.value
  let afterSamples ← samplesForOutput output files
  return .map [("after_length", naturalContent output.resultingLength), ("after_samples", afterSamples.toValue),
    ("after_sha256", .string output.resultingDigest.toPrefixedHex),
    ("before_length", naturalOption (before.map List.length)),
    ("before_samples", (before.map fun bytes => (samplesForBytes bytes).toValue).getD .null),
    ("before_sha256", optionContent (output.originalDigest.map Sha256Digest.toPrefixedHex)),
    ("path", .string output.path.value)]

def summaryValue (snapshot : WorkspaceSnapshot) (outputs : List PlannedOutput)
    (files : SnapshotFileId → Option FileSnapshot) (reason : String) : Except FsError Content := do
  let entries ← outputs.mapM (summaryEntry snapshot files)
  return .map [("outputs", .seq entries), ("reason", .string reason)]

/-! ## The diff -/

def diffTruncationReason (truncation : DiffTruncation) (maximumOutputBytes : ℕ) : String :=
  if truncation = .output ∧ maximumOutputBytes < diffOutputBytes then "response_budget" else "diff_budget"

def diffTruncatedWarning (reason : String) : WarningDto :=
  ⟨"DIFF_TRUNCATED", "the bounded preview diff omitted detail", [("reason", .string reason)]⟩

/-- The summary of a truncated diff. -/
def truncationSummary (reason : String) : Content :=
  .map [("maximum_diff_bytes", naturalContent diffOutputBytes), ("maximum_work_units", naturalContent diffWorkUnits),
    ("reason", .string reason)]

structure BuiltDiff where
  response : DiffResponse
  warning : Option WarningDto

/-- What a response holds besides its diff. -/
structure ResponseBudgetContext where
  plan : EditPlan
  workspaceIdentityHash : Sha256Digest
  resolvedOperations : List ResolvedOperationResponse
  outputs : List OutputResponse
  warnings : List WarningDto

/-- The response with this diff and these warnings. -/
def ResponseBudgetContext.response (context : ResponseBudgetContext) (diff : DiffResponse) (warnings : List WarningDto) :
    PreviewResponse :=
  .create context.plan.digest context.workspaceIdentityHash context.resolvedOperations context.outputs diff warnings

def responseAwareDiffBudget (toVec : Content → Bytes) (context : ResponseBudgetContext) (review : Content) :
    Except FsError ℕ := do
  match ← mergeReviewSummary (some (truncationSummary "response_budget")) (some review) with
  | none => .error (.internalInvariant "reserved_review_summary")
  | some reservedSummary =>
      let reserved := context.response (.ofText (some "") (some reservedSummary))
        (context.warnings ++ [diffTruncatedWarning "response_budget"])
      let reservedBytes := (toJsonLine toVec reserved.content).length
      if maxResponseBytes < reservedBytes then
        .error (.core (.resourceLimitExceeded "serialized_json_response" reservedBytes maxResponseBytes))
      else .ok (min (maxResponseBytes - reservedBytes) diffOutputBytes)

def enforceCompleteSummaryResponse (toVec : Content → Bytes) (response : PreviewResponse) : Except FsError Unit :=
  let actual := (toJsonLine toVec response.content).length
  if actual > maxResponseBytes then
    .error (.core (.resourceLimitExceeded "serialized_json_response" actual maxResponseBytes))
  else .ok ()

/-- Write the changes of outputs, up to the first that is cut. -/
def writeOutputs (snapshot : WorkspaceSnapshot) (files : SnapshotFileId → Option FileSnapshot) (writer : DiffWriter) :
    List PlannedOutput → Except FsError DiffWriter
  | [] => .ok writer
  | output :: rest => do
      let before := (originalBytes snapshot output.path.value).getD []
      let after ← materializeOutput output files
      let (whole, written) ← writer.writeOutput output.path.value before after
      if whole then writeOutputs snapshot files written rest else .ok written

def changedOutputs (plan : EditPlan) : List PlannedOutput := plan.outputs.filter fun output => output.change ≠ .unchanged

/-- One side of a changed output is too long for a detailed diff. -/
def detailedInputLimited (snapshot : WorkspaceSnapshot) (changed : List PlannedOutput) : Bool :=
  changed.any fun output =>
    detailedInputExceeded (((originalBytes snapshot output.path.value).map List.length).getD 0) ||
      detailedInputExceeded output.resultingLength

/-- Whether a changed output is binary, on either side; the search stops at the first. -/
def anyBinary (snapshot : WorkspaceSnapshot) (files : SnapshotFileId → Option FileSnapshot) :
    List PlannedOutput → Except FsError Bool
  | [] => .ok false
  | output :: rest => do
      let before := (originalBytes snapshot output.path.value).getD []
      let after ← materializeOutput output files
      if isBinary before || isBinary after then return true else anyBinary snapshot files rest

/-- The bounded diff of text outputs. -/
def textDiff (snapshot : WorkspaceSnapshot) (files : SnapshotFileId → Option FileSnapshot) (changed : List PlannedOutput)
    (review : Option Content) (maximumOutputBytes : ℕ) : Except FsError BuiltDiff := do
  let writer ← writeOutputs snapshot files (.withMaximumOutputBytes maximumOutputBytes) changed
  let truncationReason := writer.truncation.map fun cause => diffTruncationReason cause maximumOutputBytes
  let summary ← mergeReviewSummary (truncationReason.map truncationSummary) review
  return ⟨.ofText (some (String.ofList writer.text)) summary, truncationReason.map diffTruncatedWarning⟩

def buildDiff (toVec : Content → Bytes) (snapshot : WorkspaceSnapshot) (plan : EditPlan)
    (files : SnapshotFileId → Option FileSnapshot) (noDiff : Bool) (review : Option Content)
    (context : Option ResponseBudgetContext) : Except FsError BuiltDiff := do
  if noDiff then
    return ⟨review.elim .omitted fun review => .omittedWithSummary (reviewOnlySummaryValue review), none⟩
  let changed := changedOutputs plan
  if changed = [] then
    return ⟨.ofText (some "") (review.map reviewOnlySummaryValue), none⟩
  if detailedInputLimited snapshot changed then
    let summary ← mergeReviewSummary (some (← summaryValue snapshot changed files "detailed_input_limit")) review
    return ⟨.ofText none summary, some (diffTruncatedWarning "detailed_input_limit")⟩
  if ← anyBinary snapshot files changed then
    match ← mergeReviewSummary (some (← summaryValue snapshot changed files "binary_content")) review with
    | none => .error (.internalInvariant "binary_preview_summary")
    | some summary => return ⟨.binary summary, none⟩
  match context, review with
  | some context, some review => do
      textDiff snapshot files changed (some review) (← responseAwareDiffBudget toVec context review)
  | none, _ => textDiff snapshot files changed review diffOutputBytes
  | some _, none => .error (.internalInvariant "response_budget_requires_review")

/-! ## The preview -/

def outputResponse (snapshot : WorkspaceSnapshot) (output : PlannedOutput) : OutputResponse :=
  .create output.path.value output.change ((originalBytes snapshot output.path.value).map List.length)
    output.originalDigest output.resultingLength output.resultingDigest

/-- What a preview answers besides its diff. -/
def previewContext (snapshot : WorkspaceSnapshot) (plan : EditPlan) (workspaceIdentityHash : Sha256Digest)
    (warnings : List WarningDto) : ResponseBudgetContext where
  plan
  workspaceIdentityHash
  resolvedOperations := plan.operations.map .fromResolved
  outputs := plan.outputs.map (outputResponse snapshot)
  warnings

/-- The response of a preview, before its size is checked. -/
def previewResponse (toVec : Content → Bytes) (snapshot : WorkspaceSnapshot) (plan : EditPlan)
    (workspaceIdentityHash : Sha256Digest) (noDiff includeSummary : Bool) (warnings : List WarningDto) :
    Except FsError PreviewResponse := do
  let context := previewContext snapshot plan workspaceIdentityHash warnings
  let review ← if includeSummary then (buildReviewSummary snapshot plan (filesById snapshot)).map some else .ok none
  let reviewValue := review.map ReviewSummaryResponse.toValue
  let diff ← buildDiff toVec snapshot plan (filesById snapshot) noDiff reviewValue (reviewValue.map fun _ => context)
  return context.response diff.response (warnings ++ diff.warning.toList)

def buildPreview (toVec : Content → Bytes) (snapshot : WorkspaceSnapshot) (plan : EditPlan)
    (workspaceIdentityHash : Sha256Digest) (noDiff includeSummary : Bool) (warnings : List WarningDto) :
    Except FsError PreviewResponse := do
  let response ← previewResponse toVec snapshot plan workspaceIdentityHash noDiff includeSummary warnings
  if includeSummary then enforceCompleteSummaryResponse toVec response
  return response

end Srcmv.Cli
