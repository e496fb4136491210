import Srcmv.Model.Core.PlanHash
import Srcmv.Model.Core.Planner
import Srcmv.Model.Protocol.Selection
import Srcmv.ToMathlib.Except

/-! # Reports of an edit

What a preview or a commit answers, the content that its derived serializers write, and the line that
carries it. A summary is a value, whose members are in the order of their names; the members of a record
are in the order of their declaration.
-/

namespace Srcmv.Protocol

open Srcmv.Core

/-! ## Operations and outputs -/

structure ResolvedOperationResponse where
  operationIndex : ℕ
  kind : String
  sourcePath : String
  sourceStart : ℕ
  sourceEnd : ℕ
  destinationPath : String
  destinationOffset : ℕ
  effect : String
  selectedPayloadSha256 : String
  insertedPayloadSha256 : Option (Option String)
deriving DecidableEq

namespace ResolvedOperationResponse

def fromResolved (operation : ResolvedOperation) : ResolvedOperationResponse where
  operationIndex := operation.operationIndex
  kind := match operation.kind with
    | .move => "move"
    | .copy => "copy"
  sourcePath := operation.sourcePath.value
  sourceStart := operation.sourceRange.start
  sourceEnd := operation.sourceRange.stop
  destinationPath := operation.destinationPath.value
  destinationOffset := operation.destinationOffset
  effect := match operation.effect with
    | .changed => "changed"
    | .noOp => "no_op"
  selectedPayloadSha256 := operation.selectedDigest.toPrefixedHex
  insertedPayloadSha256 := none

def fromCommitted (operation : ResolvedOperation) : ResolvedOperationResponse :=
  { fromResolved operation with
    insertedPayloadSha256 := some (match operation.effect with
      | .changed => some operation.selectedDigest.toPrefixedHex
      | .noOp => none) }

end ResolvedOperationResponse

structure OutputResponse where
  path : String
  changeKind : String
  beforeLength : Option ℕ
  beforeSha256 : Option String
  afterLength : ℕ
  afterSha256 : String
deriving DecidableEq

def OutputResponse.create (path : String) (change : OutputChange) (beforeLength : Option ℕ)
    (beforeDigest : Option Sha256Digest) (afterLength : ℕ) (afterDigest : Sha256Digest) : OutputResponse where
  path
  changeKind := match change with
    | .unchanged => "unchanged"
    | .modifiedExisting => "modified_existing"
    | .createdNew => "created_new"
    | .emptiedExisting => "emptied_existing"
  beforeLength
  beforeSha256 := beforeDigest.map Sha256Digest.toPrefixedHex
  afterLength
  afterSha256 := afterDigest.toPrefixedHex

/-! ## The review summary -/

structure ReviewOperationResponse where
  operationIndex : ℕ
  selectedByteLength : ℕ
  selectedLogicalLineCount : ℕ
deriving DecidableEq

structure InsertionGroupResponse where
  destinationOffset : ℕ
  operationIndices : List ℕ
deriving DecidableEq

structure ReviewOutputResponse where
  outputIndex : ℕ
  beforeLogicalLineCount : Option ℕ
  afterLogicalLineCount : ℕ
  insertionGroupsInOutputOrder : List InsertionGroupResponse
deriving DecidableEq

structure ReviewSummaryResponse where
  version : ℕ := 1
  planHashVersion : ℕ := Core.planHashVersion
  planSha256 : String
  operations : List ReviewOperationResponse
  outputs : List ReviewOutputResponse
deriving DecidableEq

def ReviewSummaryResponse.v1 (planSha256 : Sha256Digest) (operations : List ReviewOperationResponse)
    (outputs : List ReviewOutputResponse) : ReviewSummaryResponse where
  planSha256 := planSha256.toPrefixedHex
  operations
  outputs

/-! ## Responses -/

/-- The diff of a response; a summary is a value. -/
structure DiffResponse where
  kind : String
  text : Option String
  summary : Option Content

namespace DiffResponse

def ofText (text : Option String) (summary : Option Content) : DiffResponse := ⟨"text", text, summary⟩

def binary (summary : Content) : DiffResponse := ⟨"binary", none, some summary⟩

def omitted : DiffResponse := ⟨"omitted", none, none⟩

def omittedWithSummary (summary : Content) : DiffResponse := ⟨"omitted", none, some summary⟩

end DiffResponse

structure PreviewResponse where
  protocolVersion : ℕ := Core.protocolVersion
  planHashVersion : ℕ := Core.planHashVersion
  planSha256 : String
  workspaceIdentityHash : String
  resolvedOperations : List ResolvedOperationResponse
  outputs : List OutputResponse
  diff : DiffResponse
  warnings : List WarningDto

def PreviewResponse.create (planSha256 workspaceIdentityHash : Sha256Digest)
    (resolvedOperations : List ResolvedOperationResponse) (outputs : List OutputResponse) (diff : DiffResponse)
    (warnings : List WarningDto) : PreviewResponse where
  planSha256 := planSha256.toPrefixedHex
  workspaceIdentityHash := workspaceIdentityHash.toPrefixedHex
  resolvedOperations
  outputs
  diff
  warnings

structure CommitResponse where
  protocolVersion : ℕ := Core.protocolVersion
  planHashVersion : ℕ := Core.planHashVersion
  planSha256 : String
  workspaceIdentityHash : String
  resolvedOperations : List ResolvedOperationResponse
  outputs : List OutputResponse
  diff : DiffResponse
  warnings : List WarningDto
  transactionId : Option String
  transactionState : String
  filesChanged : List String
  preservedPermissionModes : List (String × ℕ)
  recoverabilityStatus : String
  visibility : String

def CommitResponse.create (planSha256 workspaceIdentityHash : Sha256Digest)
    (resolvedOperations : List ResolvedOperationResponse) (outputs : List OutputResponse) (warnings : List WarningDto)
    (transactionId : Option String) (filesChanged : List String) (preservedPermissionModes : List (String × ℕ)) :
    CommitResponse where
  planSha256 := planSha256.toPrefixedHex
  workspaceIdentityHash := workspaceIdentityHash.toPrefixedHex
  resolvedOperations
  outputs
  diff := .omitted
  warnings
  transactionId
  transactionState := if transactionId.isSome then "committed" else "no_op"
  filesChanged
  preservedPermissionModes
  recoverabilityStatus := "complete"
  visibility := "recoverable_not_atomic"

/-! ## Content -/

def naturalOption (value : Option ℕ) : Content := value.elim .null naturalContent

def ResolvedOperationResponse.content (operation : ResolvedOperationResponse) : Content :=
  .map ([("operation_index", naturalContent operation.operationIndex), ("kind", .string operation.kind),
    ("source_path", .string operation.sourcePath), ("source_start", naturalContent operation.sourceStart),
    ("source_end", naturalContent operation.sourceEnd), ("destination_path", .string operation.destinationPath),
    ("destination_offset", naturalContent operation.destinationOffset), ("effect", .string operation.effect),
    ("selected_payload_sha256", .string operation.selectedPayloadSha256)] ++
    (operation.insertedPayloadSha256.map fun inserted => ("inserted_payload_sha256", optionContent inserted)).toList)

def OutputResponse.content (output : OutputResponse) : Content :=
  .map [("path", .string output.path), ("change_kind", .string output.changeKind),
    ("before_length", naturalOption output.beforeLength), ("before_sha256", optionContent output.beforeSha256),
    ("after_length", naturalContent output.afterLength), ("after_sha256", .string output.afterSha256)]

def ReviewOperationResponse.toValue (operation : ReviewOperationResponse) : Content :=
  .map [("operation_index", naturalContent operation.operationIndex),
    ("selected_byte_length", naturalContent operation.selectedByteLength),
    ("selected_logical_line_count", naturalContent operation.selectedLogicalLineCount)]

def InsertionGroupResponse.toValue (group : InsertionGroupResponse) : Content :=
  .map [("destination_offset", naturalContent group.destinationOffset),
    ("operation_indices", .seq (group.operationIndices.map naturalContent))]

def ReviewOutputResponse.toValue (output : ReviewOutputResponse) : Content :=
  .map [("after_logical_line_count", naturalContent output.afterLogicalLineCount),
    ("before_logical_line_count", naturalOption output.beforeLogicalLineCount),
    ("insertion_groups_in_output_order", .seq (output.insertionGroupsInOutputOrder.map InsertionGroupResponse.toValue)),
    ("output_index", naturalContent output.outputIndex)]

/-- `serde_json::to_value` of a summary. -/
def ReviewSummaryResponse.toValue (review : ReviewSummaryResponse) : Content :=
  .map [("operations", .seq (review.operations.map ReviewOperationResponse.toValue)),
    ("outputs", .seq (review.outputs.map ReviewOutputResponse.toValue)),
    ("plan_hash_version", naturalContent review.planHashVersion), ("plan_sha256", .string review.planSha256),
    ("version", naturalContent review.version)]

def DiffResponse.content (diff : DiffResponse) : Content :=
  .map [("kind", .string diff.kind), ("text", optionContent diff.text), ("summary", diff.summary.getD .null)]

def PreviewResponse.content (response : PreviewResponse) : Content :=
  .map [("protocol_version", naturalContent response.protocolVersion),
    ("plan_hash_version", naturalContent response.planHashVersion), ("plan_sha256", .string response.planSha256),
    ("workspace_identity_hash", .string response.workspaceIdentityHash),
    ("resolved_operations", .seq (response.resolvedOperations.map ResolvedOperationResponse.content)),
    ("outputs", .seq (response.outputs.map OutputResponse.content)), ("diff", response.diff.content),
    ("warnings", .seq (response.warnings.map WarningDto.content))]

def CommitResponse.content (response : CommitResponse) : Content :=
  .map [("protocol_version", naturalContent response.protocolVersion),
    ("plan_hash_version", naturalContent response.planHashVersion), ("plan_sha256", .string response.planSha256),
    ("workspace_identity_hash", .string response.workspaceIdentityHash),
    ("resolved_operations", .seq (response.resolvedOperations.map ResolvedOperationResponse.content)),
    ("outputs", .seq (response.outputs.map OutputResponse.content)), ("diff", response.diff.content),
    ("warnings", .seq (response.warnings.map WarningDto.content)),
    ("transaction_id", optionContent response.transactionId), ("transaction_state", .string response.transactionState),
    ("files_changed", .seq (response.filesChanged.map .string)),
    ("preserved_permission_modes", .map (response.preservedPermissionModes.map fun entry => (entry.1, naturalContent entry.2))),
    ("recoverability_status", .string response.recoverabilityStatus), ("visibility", .string response.visibility)]

/-! ## Lines -/

/-- The line of a serialized response. -/
def toJsonLine (toVec : Content → Bytes) (value : Content) : Bytes := toVec value ++ [10]

inductive BoundedJsonLineFailure where
  | responseLimit (attempted : ℕ)
deriving DecidableEq

/-- Take one more piece of a serialized value, unless the payload would grow beyond its maximum. -/
def writeBounded (maximumPayloadBytes : ℕ) (written buffer : Bytes) : Except BoundedJsonLineFailure Bytes :=
  if written.length + buffer.length > maximumPayloadBytes then
    .error (.responseLimit (written.length + buffer.length + 1))
  else .ok (written ++ buffer)

/-- The line of a value, which the serializer writes piece by piece. -/
def writeBoundedJsonLine (pieces : List Bytes) (maximumResponseBytes : ℕ) : Except BoundedJsonLineFailure Bytes := do
  let payload ← pieces.foldlM (writeBounded (maximumResponseBytes - 1)) []
  return payload ++ [10]

end Srcmv.Protocol
