import Srcmv.Model.Core.PlanHash

/-! # Resolving a batch against one immutable snapshot

`plan` performs no filesystem access. Each operation is resolved in request order, contributes its
deletion and insertion to the edits of the paths it touches, and each touched path is swept once
over its event points into a list of segments. Ordered maps stand for `BTreeMap` and for the
lookup-only `HashMap`; the incremental hasher is the digest of the concatenated slices. The sizes
of the retained record types depend on the compiler's layout and are parameters.
-/

namespace Srcmv.Core

inductive SnapshotState where
  | existing (file : FileSnapshot)
  | absent (missing : AbsentPathSnapshot)
deriving DecidableEq

abbrev StatesByPath := Std.TreeMap String SnapshotState

abbrev FilesById := Std.TreeMap SnapshotFileId FileSnapshot

structure Insertion where
  operationIndex : ℕ
  snapshotFileId : SnapshotFileId
  range : ByteRange
  payloadDigest : Sha256Digest
deriving DecidableEq

structure OutputEdits where
  path : WorkspaceRelativePath
  existingFileId : Option SnapshotFileId
  originalLength : ℕ
  originalDigest : Option Sha256Digest
  deletions : List (ℕ × ByteRange)
  insertions : List (ℕ × Insertion)
deriving DecidableEq

structure PointEvents where
  deletionEnd : Bool := false
  insertions : List Insertion := []
  deletionStart : Bool := false
deriving DecidableEq

abbrev Edits := Std.TreeMap WorkspaceRelativePath OutputEdits

/-- `size_of` of the record types charged by the planner. -/
structure TypeSizes where
  resolvedOperation : ℕ
  plannedOutput : ℕ
  outputSegment : ℕ
deriving DecidableEq

def conflict (reason : String) (operationIndex : ℕ) : CoreError :=
  .editConflict reason (some operationIndex)

/-- Existing and absent states by path, and files by identifier, rejecting any repetition. -/
def indexSnapshot (snapshot : WorkspaceSnapshot) : Except CoreError (StatesByPath × FilesById) := do
  let (states, filesById) ← snapshot.files.foldlM
    (fun (indexed : StatesByPath × FilesById) file =>
      if indexed.1[file.path.value]?.isSome then
        .error (.invalidDomainValue "duplicate_snapshot_path")
      else if indexed.2[file.id]?.isSome then
        .error (.invalidDomainValue "duplicate_snapshot_file_id")
      else .ok (indexed.1.insert file.path.value (.existing file), indexed.2.insert file.id file))
    (∅, ∅)
  let states ← snapshot.absentPaths.foldlM
    (fun (states : StatesByPath) missing =>
      if states[missing.path.value]?.isSome then
        .error (.editConflict "path_used_as_absent_and_existing" none)
      else .ok (states.insert missing.path.value (.absent missing)))
    states
  return (states, filesById)

def operationParts : Operation → OperationKind × OperationSpecification
  | .move specification => (.move, specification)
  | .copy specification => (.copy, specification)

/-- One path of one operation: the latest precondition replaces the previous one, which must agree. -/
def insertPrecondition (operationIndex : ℕ) (byPath : Std.TreeMap String Precondition)
    (entry : WorkspaceRelativePath × Precondition) :
    Except CoreError (Std.TreeMap String Precondition) :=
  match byPath[entry.1.value]? with
  | some previous =>
      if previous ≠ entry.2 then .error (conflict "incompatible_preconditions" operationIndex)
      else .ok (byPath.insert entry.1.value entry.2)
  | none => .ok (byPath.insert entry.1.value entry.2)

def validatePreconditionConsistency (batch : BatchSpecification) : Except CoreError Unit := do
  let _ ← batch.operations.zipIdx.foldlM
    (fun byPath entry =>
      let specification := (operationParts entry.1).2
      [(specification.source.path, specification.source.precondition),
        (specification.destination.path, specification.destination.precondition)].foldlM
        (insertPrecondition entry.2) byPath)
    (∅ : Std.TreeMap String Precondition)

def existingSource (states : StatesByPath) (specification : OperationSpecification)
    (operationIndex : ℕ) : Except CoreError FileSnapshot :=
  match specification.source.precondition with
  | .mustNotExist => .error (conflict "source_must_exist" operationIndex)
  | .sha256 expected =>
      match states[specification.source.path.value]? with
      | some (.existing file) =>
          if file.digest ≠ expected then .error (conflict "source_precondition_failed" operationIndex)
          else .ok file
      | _ => .error (conflict "source_not_in_snapshot" operationIndex)

def destinationState (states : StatesByPath) (specification : OperationSpecification)
    (operationIndex : ℕ) : Except CoreError SnapshotState :=
  match states[specification.destination.path.value]? with
  | none => .error (conflict "destination_not_in_snapshot" operationIndex)
  | some state =>
      match specification.destination.precondition, state with
      | .sha256 expected, .existing file =>
          if expected = file.digest then .ok state
          else .error (conflict "destination_precondition_failed" operationIndex)
      | .mustNotExist, .absent _ => .ok state
      | .sha256 _, .absent _ => .error (conflict "destination_state_mismatch" operationIndex)
      | .mustNotExist, .existing _ => .error (conflict "destination_state_mismatch" operationIndex)

def resolveSelector (source : FileSnapshot) (selector : Selector) (operationIndex : ℕ) :
    Except CoreError ByteRange :=
  match selector with
  | .lines first last =>
      if first = 0 ∨ first > last then .error (conflict "line_selector_out_of_range" operationIndex)
      else
        match source.lineIndex.lineStart first, source.lineIndex.lineEnd last with
        | some start, some stop => .ok ⟨start, stop⟩
        | _, _ => .error (conflict "line_selector_out_of_range" operationIndex)
  | .bytes start stop =>
      if start < stop ∧ stop ≤ source.bytes.length then .ok ⟨start, stop⟩
      else .error (conflict "byte_selector_out_of_range" operationIndex)

def resolveAnchor (destination : SnapshotState) (anchor : Anchor) (operationIndex : ℕ) :
    Except CoreError ℕ :=
  match destination with
  | .existing file =>
      match anchor with
      | .fileStart => .ok 0
      | .fileEnd => .ok file.bytes.length
      | .beforeLine line =>
          match file.lineIndex.lineStart line with
          | some offset => .ok offset
          | none => .error (conflict "line_anchor_out_of_range" operationIndex)
      | .afterLine line =>
          match file.lineIndex.lineEnd line with
          | some offset => .ok offset
          | none => .error (conflict "line_anchor_out_of_range" operationIndex)
      | .byteOffset offset =>
          if offset ≤ file.bytes.length then .ok offset
          else .error (conflict "byte_anchor_out_of_range" operationIndex)
  | .absent _ =>
      match anchor with
      | .fileStart => .ok 0
      | .fileEnd => .ok 0
      | .byteOffset 0 => .ok 0
      | _ => .error (conflict "new_file_anchor_out_of_range" operationIndex)

def SnapshotState.fileId : SnapshotState → Option SnapshotFileId
  | .existing file => some file.id
  | .absent _ => none

def SnapshotState.length : SnapshotState → ℕ
  | .existing file => file.bytes.length
  | .absent _ => 0

def SnapshotState.digest : SnapshotState → Option Sha256Digest
  | .existing file => some file.digest
  | .absent _ => none

/-- The edits of an output before any event. -/
def SnapshotState.noEdits (path : WorkspaceRelativePath) (state : SnapshotState) : OutputEdits :=
  ⟨path, state.fileId, state.length, state.digest, [], []⟩

/-- Create or reuse the edits of an output and apply `update` to them. -/
def outputEdits (edits : Edits) (path : WorkspaceRelativePath) (state : SnapshotState)
    (update : OutputEdits → OutputEdits) : Except CoreError Edits :=
  let output := (edits[path]?).getD (state.noEdits path)
  if output.existingFileId ≠ state.fileId then
    .error (.editConflict "path_used_as_absent_and_existing" none)
  else .ok (edits.insert path (update output))

/-- A same-file move anchored at its own start or end changes nothing. -/
def operationEffect (kind : OperationKind) (specification : OperationSpecification)
    (sourceRange : ByteRange) (destinationOffset : ℕ) : OperationEffect :=
  if kind = .move ∧ specification.source.path = specification.destination.path ∧
      (destinationOffset = sourceRange.start ∨ destinationOffset = sourceRange.stop) then .noOp
  else .changed

/-- A resolved operation beside the source file and destination state it was resolved against. -/
structure Resolution where
  operation : ResolvedOperation
  source : FileSnapshot
  destination : SnapshotState
deriving DecidableEq

def resolveOperation (sha256 : Bytes → Sha256Digest) (states : StatesByPath) (operation : Operation)
    (operationIndex : ℕ) : Except CoreError Resolution := do
  let (kind, specification) := operationParts operation
  let source ← existingSource states specification operationIndex
  let sourceRange ← resolveSelector source specification.source.selector operationIndex
  let selected ← sliceRange source.bytes sourceRange
  let destination ← destinationState states specification operationIndex
  let destinationOffset ← resolveAnchor destination specification.destination.anchor operationIndex
  return {
    operation := {
      operationIndex
      kind
      sourcePath := specification.source.path
      selector := specification.source.selector
      sourcePrecondition := specification.source.precondition
      sourceRange
      selectedDigest := sha256 selected
      destinationPath := specification.destination.path
      anchor := specification.destination.anchor
      destinationPrecondition := specification.destination.precondition
      destinationOffset
      effect := operationEffect kind specification sourceRange destinationOffset }
    source
    destination }

def Resolution.insertion (resolution : Resolution) : Insertion :=
  ⟨resolution.operation.operationIndex, resolution.source.id, resolution.operation.sourceRange,
    resolution.operation.selectedDigest⟩

/-- Add the deletion of a move and the insertion of either kind to the outputs they touch. -/
def applyResolution (edits : Edits) (resolution : Resolution) : Except CoreError Edits := do
  let operation := resolution.operation
  if operation.effect = .noOp then return edits
  let edits ←
    if operation.kind = .move then
      outputEdits edits operation.sourcePath (.existing resolution.source) fun output =>
        { output with deletions := output.deletions ++ [(operation.operationIndex, operation.sourceRange)] }
    else .ok edits
  outputEdits edits operation.destinationPath resolution.destination fun output =>
    { output with insertions := output.insertions ++ [(operation.destinationOffset, resolution.insertion)] }

/-- One iteration of the planning loop. -/
def planOperation (sha256 : Bytes → Sha256Digest) (states : StatesByPath)
    (progress : List ResolvedOperation × Edits) (entry : Operation × ℕ) :
    Except CoreError (List ResolvedOperation × Edits) := do
  let resolution ← resolveOperation sha256 states entry.1 entry.2
  return (progress.1 ++ [resolution.operation], ← applyResolution progress.2 resolution)

/-- Adjacent sorted deletions must not overlap. -/
def checkDeletionWindows : List (ℕ × ByteRange) → Except CoreError Unit
  | (_, previous) :: (operationIndex, current) :: rest =>
      if current.start < previous.stop then .error (conflict "overlapping_move_deletions" operationIndex)
      else checkDeletionWindows ((operationIndex, current) :: rest)
  | _ => .ok ()

/-- The sort key `(start, end, operation_index)` of a deletion. -/
def deletionLe (left right : ℕ × ByteRange) : Prop :=
  left.2.start < right.2.start ∨ left.2.start = right.2.start ∧
    (left.2.stop < right.2.stop ∨ left.2.stop = right.2.stop ∧ left.1 ≤ right.1)

instance : DecidableRel deletionLe := fun left right =>
  inferInstanceAs (Decidable (left.2.start < right.2.start ∨ left.2.start = right.2.start ∧
    (left.2.stop < right.2.stop ∨ left.2.stop = right.2.stop ∧ left.1 ≤ right.1)))

def validateEditConflicts (edits : OutputEdits) : Except CoreError Unit := do
  let deletions := edits.deletions.insertionSort deletionLe
  checkDeletionWindows deletions
  edits.insertions.forM fun entry =>
    if deletions.any (fun deletion => deletion.2.start < entry.1 && entry.1 < deletion.2.stop) then
      .error (conflict "insertion_inside_move_deletion" entry.2.operationIndex)
    else .ok ()

/-- `entry(offset).or_default()` followed by an update. -/
def updatePoint (points : Std.TreeMap ℕ PointEvents) (offset : ℕ) (update : PointEvents → PointEvents) :
    Std.TreeMap ℕ PointEvents :=
  points.insert offset (update ((points[offset]?).getD {}))

def addDeletion (points : Std.TreeMap ℕ PointEvents) (deletion : ℕ × ByteRange) :
    Std.TreeMap ℕ PointEvents :=
  updatePoint (updatePoint points deletion.2.start fun point => { point with deletionStart := true })
    deletion.2.stop fun point => { point with deletionEnd := true }

def addInsertion (points : Std.TreeMap ℕ PointEvents) (entry : ℕ × Insertion) :
    Std.TreeMap ℕ PointEvents :=
  updatePoint points entry.1 fun point => { point with insertions := point.insertions ++ [entry.2] }

/-- The events of an output by offset, insertions in request order. -/
def eventPoints (edits : OutputEdits) : Std.TreeMap ℕ PointEvents :=
  (edits.insertions.foldl addInsertion (edits.deletions.foldl addDeletion ∅)).map fun _ point =>
    { point with insertions := point.insertions.insertionSort fun left right =>
        left.operationIndex ≤ right.operationIndex }

/-- The sweep's segments so far, the last event offset and whether it is inside a deletion. -/
structure Sweep where
  segments : List OutputSegment := []
  cursor : ℕ := 0
  deleting : Bool := false
deriving DecidableEq

/-- Emit the surviving original bytes between the cursor and `offset`. -/
def Sweep.survive (sweep : Sweep) (edits : OutputEdits) (offset : ℕ) :
    Except CoreError (List OutputSegment) :=
  if sweep.cursor < offset ∧ sweep.deleting = false then
    match edits.existingFileId with
    | some fileId => .ok (sweep.segments ++ [.originalSlice fileId ⟨sweep.cursor, offset⟩])
    | none => .error (.invalidDomainValue "absent_output_original_slice")
  else .ok sweep.segments

def Insertion.segment (insertion : Insertion) : OutputSegment :=
  .payloadSlice insertion.operationIndex insertion.snapshotFileId insertion.range insertion.payloadDigest

/-- At one offset deletions end first, insertions follow, and deletions then begin. -/
def Sweep.visit (edits : OutputEdits) (sweep : Sweep) (event : ℕ × PointEvents) :
    Except CoreError Sweep := do
  if event.1 > edits.originalLength then
    throw (.invalidDomainValue "event_offset")
  let segments ← sweep.survive edits event.1
  let ended := if event.2.deletionEnd then false else sweep.deleting
  return {
    segments := segments ++ event.2.insertions.map Insertion.segment
    cursor := event.1
    deleting := if event.2.deletionStart then true else ended }

def buildSegments (edits : OutputEdits) : Except CoreError (List OutputSegment) := do
  let sweep ← (eventPoints edits).toList.foldlM (Sweep.visit edits) {}
  sweep.survive edits edits.originalLength

/-- What `stream_output` carries from segment to segment. -/
structure Stream where
  hashed : Bytes := []
  resultingLength : ℕ := 0
  comparisonOffset : ℕ := 0
  equalsOriginal : Bool
deriving DecidableEq

/-- A retained file, or an error naming the field that referred to it. -/
def fileOf (filesById : FilesById) (id : SnapshotFileId) (field : String) : Except CoreError FileSnapshot :=
  match filesById[id]? with
  | some file => .ok file
  | none => .error (.invalidDomainValue field)

def Stream.push (filesById : FilesById) (original : Option Bytes) (stream : Stream)
    (segment : OutputSegment) : Except CoreError Stream := do
  let file ← fileOf filesById segment.fileId "segment_snapshot_file_id"
  let bytes ← sliceRange file.bytes segment.range
  let resultingLength ← checkedAdd stream.resultingLength bytes.length "planned_output_bytes"
  let hashed := stream.hashed ++ bytes
  match original with
  | none => return { stream with hashed, resultingLength }
  | some original =>
      let comparisonEnd := stream.comparisonOffset + bytes.length
      let same := slice? original ⟨stream.comparisonOffset, comparisonEnd⟩ = some bytes
      return {
        hashed
        resultingLength
        comparisonOffset := comparisonEnd
        equalsOriginal := if comparisonEnd > original.length ∨ ¬same then false else stream.equalsOriginal }

/-- The original bytes an output is compared with. -/
def comparedBytes (filesById : FilesById) (originalFileId : Option SnapshotFileId) :
    Except CoreError (Option Bytes) :=
  match originalFileId with
  | none => .ok none
  | some fileId => do return some (← fileOf filesById fileId "output_snapshot_file_id").bytes

/-- Length, digest and equality with the original of the concatenated segments. -/
def streamOutput (sha256 : Bytes → Sha256Digest) (segments : List OutputSegment) (filesById : FilesById)
    (originalFileId : Option SnapshotFileId) : Except CoreError (ℕ × Sha256Digest × Bool) := do
  let original ← comparedBytes filesById originalFileId
  let stream ← segments.foldlM (Stream.push filesById original) { equalsOriginal := original.isSome }
  let complete := match original with
    | some bytes => stream.comparisonOffset = bytes.length
    | none => true
  return (stream.resultingLength, sha256 stream.hashed, stream.equalsOriginal && complete)

def classifyOutput (existing : Bool) (resultingLength : ℕ) (equalsOriginal : Bool) : OutputChange :=
  if !existing then .createdNew
  else if equalsOriginal then .unchanged
  else if resultingLength = 0 then .emptiedExisting
  else .modifiedExisting

/-- A changed existing output must have a single link. -/
def requireSingleLink (filesById : FilesById) (edits : OutputEdits) (change : OutputChange) :
    Except CoreError Unit :=
  if change = .unchanged then .ok ()
  else
    match edits.existingFileId with
    | none => .ok ()
    | some fileId => do
        let file ← fileOf filesById fileId "output_snapshot_file_id"
        if file.linkCount ≠ 1 then .error (.hardLinkNotSupported edits.path file.linkCount) else .ok ()

/-- One iteration of the output loop. -/
def planOutput (sha256 : Bytes → Sha256Digest) (filesById : FilesById) (edits : OutputEdits) :
    Except CoreError PlannedOutput := do
  validateEditConflicts edits
  let segments ← buildSegments edits
  let (resultingLength, resultingDigest, equalsOriginal) ←
    streamOutput sha256 segments filesById edits.existingFileId
  let change := classifyOutput edits.existingFileId.isSome resultingLength equalsOriginal
  requireSingleLink filesById edits change
  return {
    path := edits.path
    originalDigest := edits.originalDigest
    change
    resultingLength
    resultingDigest
    segments }

def pathLength (path : WorkspaceRelativePath) : ℕ := (utf8Bytes path.value).length

def chargeOperation (usage : PlanningUsage) (operation : ResolvedOperation) :
    Except CoreError PlanningUsage := do
  let pathBytes ← checkedAdd (pathLength operation.sourcePath) (pathLength operation.destinationPath)
    "projected_response_bytes"
  let projectedResponseBytes ← checkedAdd usage.projectedResponseBytes
    (← checkedAdd 1024 pathBytes "projected_response_bytes") "projected_response_bytes"
  let planningMemoryBytes ← checkedAdd usage.planningMemoryBytes pathBytes "planning_memory_bytes"
  return { usage with projectedResponseBytes, planningMemoryBytes }

def chargeOutput (sizes : TypeSizes) (usage : PlanningUsage) (output : PlannedOutput) :
    Except CoreError PlanningUsage := do
  let segmentCount := output.segments.length
  let totalOutputBytes ← checkedAdd usage.totalOutputBytes output.resultingLength "planned_output_bytes"
  let totalSegments ← checkedAdd usage.totalSegments segmentCount "segments"
  let changedTargets ←
    if output.change ≠ .unchanged then checkedAdd usage.changedTargets 1 "changed_targets"
    else .ok usage.changedTargets
  let pathBytes := pathLength output.path
  let segmentProjection ← checkedMul segmentCount 512 "projected_response_bytes"
  let projectedResponseBytes ← checkedAdd usage.projectedResponseBytes
    (← checkedAdd (← checkedAdd 512 pathBytes "projected_response_bytes") segmentProjection
      "projected_response_bytes") "projected_response_bytes"
  let planningMemoryBytes ← checkedAdd usage.planningMemoryBytes
    (← checkedAdd pathBytes (← checkedMul segmentCount sizes.outputSegment "planning_memory_bytes")
      "planning_memory_bytes") "planning_memory_bytes"
  return {
    maximumOutputBytes := max usage.maximumOutputBytes output.resultingLength
    totalOutputBytes
    maximumOutputSegments := max usage.maximumOutputSegments segmentCount
    totalSegments
    changedTargets
    projectedResponseBytes
    planningMemoryBytes }

def calculateUsage (sizes : TypeSizes) (operations : List ResolvedOperation)
    (outputs : List PlannedOutput) : Except CoreError PlanningUsage := do
  let planningMemoryBytes ← checkedMul operations.length sizes.resolvedOperation "planning_memory_bytes"
  let usage ← operations.foldlM chargeOperation { planningMemoryBytes, projectedResponseBytes := 1024 }
  let planningMemoryBytes ← checkedAdd usage.planningMemoryBytes
    (← checkedMul outputs.length sizes.plannedOutput "planning_memory_bytes") "planning_memory_bytes"
  outputs.foldlM (chargeOutput sizes) { usage with planningMemoryBytes }

def enforceUsage (usage : PlanningUsage) (budget : ResourceBudget) : Except CoreError Unit := do
  enforceLimit "resulting_bytes_per_output" usage.maximumOutputBytes budget.resultingBytesPerOutput
  enforceLimit "planned_output_bytes" usage.totalOutputBytes budget.plannedOutputBytes
  enforceLimit "segments_per_output" usage.maximumOutputSegments budget.segmentsPerOutput
  enforceLimit "segments" usage.totalSegments budget.segments
  enforceLimit "changed_targets" usage.changedTargets budget.changedTargets
  enforceLimit "projected_response_bytes" usage.projectedResponseBytes budget.projectedResponseBytes
  enforceLimit "planning_memory_bytes" usage.planningMemoryBytes budget.planningMemoryBytes

def zeroDigest : Sha256Digest := ⟨List.replicate 32 0, rfl⟩

/-- Resolve a batch against a snapshot and return segment recipes. -/
def plan (sha256 : Bytes → Sha256Digest) (sizes : TypeSizes) (snapshot : WorkspaceSnapshot)
    (batch : BatchSpecification) (budget : ResourceBudget) : Except CoreError EditPlan := do
  let (states, filesById) ← indexSnapshot snapshot
  validatePreconditionConsistency batch
  let (resolved, edits) ← batch.operations.zipIdx.foldlM (planOperation sha256 states) ([], ∅)
  let outputs ← (edits.toList.map Prod.snd).mapM (planOutput sha256 filesById)
  let usage ← calculateUsage sizes resolved outputs
  enforceUsage usage budget
  let undigested : EditPlan := { operations := resolved, outputs, usage, digest := zeroDigest }
  return { undigested with digest := ← planDigest sha256 snapshot undigested }

end Srcmv.Core
