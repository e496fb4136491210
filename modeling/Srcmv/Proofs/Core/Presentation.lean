import Srcmv.Model.Core.Reference
import Srcmv.ToMathlib.Except
import Srcmv.ToMathlib.OrderedMap

/-! # Planning under another presentation of a snapshot

A presentation lists the files and the absent paths in another order and renames the file
identifiers. Every step of the planner commutes with the renaming, so a file identifier reaches the
result only as a name, and no list order of the snapshot reaches it at all.
-/

namespace Srcmv.Core

/-! ## Renaming -/

section Renaming

variable (rename : SnapshotFileId → SnapshotFileId)

def FileSnapshot.renamed (file : FileSnapshot) : FileSnapshot := { file with id := rename file.id }

def SnapshotState.renamed : SnapshotState → SnapshotState
  | .existing file => .existing (file.renamed rename)
  | .absent missing => .absent missing

def Resolution.renamed (resolution : Resolution) : Resolution :=
  { resolution with
    source := resolution.source.renamed rename
    destination := resolution.destination.renamed rename }

def Insertion.renamed (insertion : Insertion) : Insertion :=
  { insertion with snapshotFileId := rename insertion.snapshotFileId }

def OutputEdits.renamed (edits : OutputEdits) : OutputEdits :=
  { edits with
    existingFileId := edits.existingFileId.map rename
    insertions := edits.insertions.map fun entry => (entry.1, entry.2.renamed rename) }

def PointEvents.renamed (point : PointEvents) : PointEvents :=
  { point with insertions := point.insertions.map (Insertion.renamed rename) }

def OutputSegment.renamed : OutputSegment → OutputSegment
  | .originalSlice fileId range => .originalSlice (rename fileId) range
  | .payloadSlice operationIndex fileId range payloadDigest =>
      .payloadSlice operationIndex (rename fileId) range payloadDigest

def Sweep.renamed (sweep : Sweep) : Sweep :=
  { sweep with segments := sweep.segments.map (OutputSegment.renamed rename) }

def PlannedOutput.renamed (output : PlannedOutput) : PlannedOutput :=
  { output with segments := output.segments.map (OutputSegment.renamed rename) }

def EditPlan.renamed (plan : EditPlan) : EditPlan :=
  { plan with outputs := plan.outputs.map (PlannedOutput.renamed rename) }

def InputRecord.renamed : InputRecord → InputRecord
  | .existing file => .existing (file.renamed rename)
  | .absent missing => .absent missing

/-- The planner's lookups under renamed identifiers. -/
structure LookupsRenamed (states states' : StatesByPath) (files files' : FilesById) : Prop where
  byPath : ∀ path : String, states'[path]? = states[path]?.map (SnapshotState.renamed rename)
  byId : ∀ id : ℕ, files'[rename id]? = files[id]?.map (FileSnapshot.renamed rename)

/-- The edits of every path under renamed identifiers. -/
def EditsRenamed (edits edits' : Edits) : Prop :=
  ∀ path : WorkspaceRelativePath, edits'[path]? = edits[path]?.map (OutputEdits.renamed rename)

end Renaming

variable {rename : SnapshotFileId → SnapshotFileId} {states states' : StatesByPath} {files files' : FilesById}

@[simp] theorem FileSnapshot.renamed_bytes (file : FileSnapshot) : (file.renamed rename).bytes = file.bytes := rfl

@[simp] theorem FileSnapshot.renamed_digest (file : FileSnapshot) : (file.renamed rename).digest = file.digest := rfl

@[simp] theorem FileSnapshot.renamed_path (file : FileSnapshot) : (file.renamed rename).path = file.path := rfl

@[simp] theorem FileSnapshot.renamed_linkCount (file : FileSnapshot) :
    (file.renamed rename).linkCount = file.linkCount := rfl

@[simp] theorem InputRecord.renamed_path (input : InputRecord) : (input.renamed rename).path = input.path := by
  cases input <;> rfl

@[simp] theorem OutputSegment.renamed_fileId (segment : OutputSegment) :
    (segment.renamed rename).fileId = rename segment.fileId := by
  cases segment <;> rfl

@[simp] theorem OutputSegment.renamed_range (segment : OutputSegment) :
    (segment.renamed rename).range = segment.range := by
  cases segment <;> rfl

@[simp] theorem Sweep.renamed_cursor (sweep : Sweep) : (sweep.renamed rename).cursor = sweep.cursor := rfl

@[simp] theorem Sweep.renamed_deleting (sweep : Sweep) : (sweep.renamed rename).deleting = sweep.deleting := rfl

@[simp] theorem Sweep.renamed_segments (sweep : Sweep) :
    (sweep.renamed rename).segments = sweep.segments.map (OutputSegment.renamed rename) := rfl

@[simp] theorem OutputEdits.renamed_existingFileId (edits : OutputEdits) :
    (edits.renamed rename).existingFileId = edits.existingFileId.map rename := rfl

@[simp] theorem OutputEdits.renamed_originalLength (edits : OutputEdits) :
    (edits.renamed rename).originalLength = edits.originalLength := rfl

@[simp] theorem OutputEdits.renamed_path (edits : OutputEdits) : (edits.renamed rename).path = edits.path := rfl

@[simp] theorem OutputEdits.renamed_originalDigest (edits : OutputEdits) :
    (edits.renamed rename).originalDigest = edits.originalDigest := rfl

@[simp] theorem Insertion.renamed_segment (insertion : Insertion) :
    (insertion.renamed rename).segment = insertion.segment.renamed rename := rfl

@[simp] theorem Resolution.renamed_insertion (resolution : Resolution) :
    (resolution.renamed rename).insertion = resolution.insertion.renamed rename := rfl

@[simp] theorem SnapshotState.renamed_fileId (state : SnapshotState) :
    (state.renamed rename).fileId = state.fileId.map rename := by
  cases state <;> rfl

@[simp] theorem SnapshotState.renamed_noEdits (path : WorkspaceRelativePath) (state : SnapshotState) :
    (state.renamed rename).noEdits path = (state.noEdits path).renamed rename := by
  cases state <;> rfl

/-! ## Resolution -/

theorem existingSource_renamed (lookups : LookupsRenamed rename states states' files files')
    (specification : OperationSpecification) (operationIndex : ℕ) :
    existingSource states' specification operationIndex =
      (existingSource states specification operationIndex).map (FileSnapshot.renamed rename) := by
  rw [existingSource, existingSource, lookups.byPath]
  cases specification.source.precondition with
  | mustNotExist => rfl
  | sha256 expected =>
    cases states[specification.source.path.value]? with
    | none => rfl
    | some state =>
      cases state with
      | absent missing => rfl
      | existing file =>
        dsimp only [Option.map_some, SnapshotState.renamed, FileSnapshot.renamed_digest]
        rw [apply_ite (Except.map (FileSnapshot.renamed rename))]
        rfl

theorem destinationState_renamed (lookups : LookupsRenamed rename states states' files files')
    (specification : OperationSpecification) (operationIndex : ℕ) :
    destinationState states' specification operationIndex =
      (destinationState states specification operationIndex).map (SnapshotState.renamed rename) := by
  rw [destinationState, destinationState, lookups.byPath]
  cases states[specification.destination.path.value]? with
  | none => rfl
  | some state =>
    cases specification.destination.precondition with
    | mustNotExist => cases state <;> rfl
    | sha256 expected =>
      cases state with
      | absent missing => rfl
      | existing file =>
        dsimp only [Option.map_some, SnapshotState.renamed, FileSnapshot.renamed_digest]
        rw [apply_ite (Except.map (SnapshotState.renamed rename))]
        rfl

theorem resolveSelector_renamed (source : FileSnapshot) (selector : Selector) (operationIndex : ℕ) :
    resolveSelector (source.renamed rename) selector operationIndex =
      resolveSelector source selector operationIndex := rfl

theorem resolveAnchor_renamed (destination : SnapshotState) (anchor : Anchor) (operationIndex : ℕ) :
    resolveAnchor (destination.renamed rename) anchor operationIndex =
      resolveAnchor destination anchor operationIndex := by
  cases destination <;> rfl

/-- An operation resolves to the same operation against renamed files. -/
theorem resolveOperation_renamed (sha256 : Bytes → Sha256Digest)
    (lookups : LookupsRenamed rename states states' files files') (operation : Operation) (operationIndex : ℕ) :
    resolveOperation sha256 states' operation operationIndex =
      (resolveOperation sha256 states operation operationIndex).map (Resolution.renamed rename) := by
  rw [resolveOperation, resolveOperation]
  obtain ⟨kind, specification⟩ := operationParts operation
  dsimp only
  rw [existingSource_renamed lookups, Except.bind_map, Except.map_bind]
  apply Except.bind_congr_right
  intro source
  rw [resolveSelector_renamed, Except.map_bind]
  apply Except.bind_congr_right
  intro range
  rw [FileSnapshot.renamed_bytes, Except.map_bind]
  apply Except.bind_congr_right
  intro selected
  rw [destinationState_renamed lookups, Except.bind_map, Except.map_bind]
  apply Except.bind_congr_right
  intro destination
  rw [resolveAnchor_renamed, Except.map_bind]
  exact Except.bind_congr_right _ fun offset => rfl

/-! ## Edits -/

/-- An injective renaming keeps the comparison of the recorded file with the present one. -/
theorem outputEdits_renamed (injective : Function.Injective rename) {edits edits' : Edits}
    (renamed : EditsRenamed rename edits edits') (path : WorkspaceRelativePath) (state : SnapshotState)
    {update update' : OutputEdits → OutputEdits}
    (updates : ∀ output, update' (output.renamed rename) = (update output).renamed rename) :
    Except.Agree (EditsRenamed rename) (outputEdits edits path state update)
      (outputEdits edits' path (state.renamed rename) update') := by
  have output : (edits'[path]?).getD ((state.renamed rename).noEdits path) =
      ((edits[path]?).getD (state.noEdits path)).renamed rename := by
    rw [renamed, SnapshotState.renamed_noEdits, Option.getD_map]
  rw [outputEdits, outputEdits, output]
  have same : (((edits[path]?).getD (state.noEdits path)).renamed rename).existingFileId ≠
        (state.renamed rename).fileId ↔
      ((edits[path]?).getD (state.noEdits path)).existingFileId ≠ state.fileId := by
    rw [SnapshotState.renamed_fileId]
    exact not_congr (Option.map_injective injective).eq_iff
  by_cases different : ((edits[path]?).getD (state.noEdits path)).existingFileId ≠ state.fileId
  · rw [if_pos different, if_pos (same.mpr different)]
    exact .error _ _
  · rw [if_neg different, if_neg (mt same.mp different), updates]
    apply Except.Agree.ok
    intro other
    rw [Std.TreeMap.getElem?_insert, Std.TreeMap.getElem?_insert]
    split
    · rfl
    · exact renamed other

theorem applyResolution_renamed (injective : Function.Injective rename) {edits edits' : Edits}
    (renamed : EditsRenamed rename edits edits') (resolution : Resolution) :
    Except.Agree (EditsRenamed rename) (applyResolution edits resolution)
      (applyResolution edits' (resolution.renamed rename)) := by
  rw [applyResolution, applyResolution]
  by_cases noOp : resolution.operation.effect = .noOp
  · rw [if_pos noOp, if_pos (show (resolution.renamed rename).operation.effect = .noOp from noOp)]
    exact .ok renamed
  · rw [if_neg noOp, if_neg (show ¬(resolution.renamed rename).operation.effect = .noOp from noOp)]
    have inserted : ∀ next next' : Edits, EditsRenamed rename next next' →
        Except.Agree (EditsRenamed rename)
          (outputEdits next resolution.operation.destinationPath resolution.destination fun output =>
            { output with insertions :=
                output.insertions ++ [(resolution.operation.destinationOffset, resolution.insertion)] })
          (outputEdits next' resolution.operation.destinationPath (resolution.destination.renamed rename) fun output =>
            { output with insertions :=
                output.insertions ++ [(resolution.operation.destinationOffset, resolution.insertion.renamed rename)] }) := by
      intro next next' again
      apply outputEdits_renamed injective again
      intro output
      rw [OutputEdits.renamed, OutputEdits.renamed, List.map_append]
      rfl
    by_cases moves : resolution.operation.kind = .move
    · rw [if_pos moves, if_pos (show (resolution.renamed rename).operation.kind = .move from moves)]
      let delete (output : OutputEdits) : OutputEdits := { output with
        deletions := output.deletions ++ [(resolution.operation.operationIndex, resolution.operation.sourceRange)] }
      have deletes (output : OutputEdits) : delete (output.renamed rename) = (delete output).renamed rename := rfl
      have deleted := outputEdits_renamed injective renamed resolution.operation.sourcePath
        (.existing resolution.source) deletes
      exact deleted.bind inserted
    · rw [if_neg moves, if_neg (show ¬(resolution.renamed rename).operation.kind = .move from moves)]
      exact inserted _ _ renamed

/-- The operations so far are the same and the edits so far are renamed. -/
def ProgressRenamed (rename : SnapshotFileId → SnapshotFileId) (progress progress' : List ResolvedOperation × Edits) :
    Prop :=
  progress'.1 = progress.1 ∧ EditsRenamed rename progress.2 progress'.2

theorem planOperation_renamed (sha256 : Bytes → Sha256Digest) (injective : Function.Injective rename)
    (lookups : LookupsRenamed rename states states' files files') {progress progress' : List ResolvedOperation × Edits}
    (renamed : ProgressRenamed rename progress progress') (entry : Operation × ℕ) :
    Except.Agree (ProgressRenamed rename) (planOperation sha256 states progress entry)
      (planOperation sha256 states' progress' entry) := by
  rw [planOperation, planOperation, resolveOperation_renamed sha256 lookups, Except.bind_map]
  apply Except.Agree.bind (Except.Agree.refl _)
  rintro resolution _ rfl
  apply Except.Agree.bind (applyResolution_renamed injective renamed.2 resolution)
  intro next next' again
  exact .ok ⟨by rw [renamed.1]; rfl, again⟩

/-! ## Outputs -/

theorem validateEditConflicts_renamed (edits : OutputEdits) :
    validateEditConflicts (edits.renamed rename) = validateEditConflicts edits := by
  rw [validateEditConflicts, validateEditConflicts]
  apply Except.bind_congr_right
  intro _
  exact List.forM_map

/-- The events of every offset under renamed identifiers. -/
def PointsRenamed (rename : SnapshotFileId → SnapshotFileId) (points points' : Std.TreeMap ℕ PointEvents) : Prop :=
  ∀ offset : ℕ, points'[offset]? = points[offset]?.map (PointEvents.renamed rename)

theorem updatePoint_renamed {points points' : Std.TreeMap ℕ PointEvents} (renamed : PointsRenamed rename points points')
    (offset : ℕ) {update update' : PointEvents → PointEvents}
    (updates : ∀ point, update' (point.renamed rename) = (update point).renamed rename) :
    PointsRenamed rename (updatePoint points offset update) (updatePoint points' offset update') := by
  intro other
  have present : (points'[offset]?).getD {} = ((points[offset]?).getD {}).renamed rename := by
    rw [renamed, ← Option.getD_map (PointEvents.renamed rename)]
    rfl
  rw [updatePoint, updatePoint, Std.TreeMap.getElem?_insert, Std.TreeMap.getElem?_insert, present, updates]
  split
  · rfl
  · exact renamed other

theorem addDeletion_renamed {points points' : Std.TreeMap ℕ PointEvents} (renamed : PointsRenamed rename points points')
    (deletion : ℕ × ByteRange) :
    PointsRenamed rename (addDeletion points deletion) (addDeletion points' deletion) := by
  apply updatePoint_renamed
  · exact updatePoint_renamed renamed _ fun point => rfl
  · exact fun point => rfl

theorem addInsertion_renamed {points points' : Std.TreeMap ℕ PointEvents}
    (renamed : PointsRenamed rename points points') (entry : ℕ × Insertion) :
    PointsRenamed rename (addInsertion points entry) (addInsertion points' (entry.1, entry.2.renamed rename)) := by
  apply updatePoint_renamed renamed
  intro point
  rw [PointEvents.renamed, PointEvents.renamed, List.map_append]
  rfl

theorem eventPoints_renamed (edits : OutputEdits) :
    PointsRenamed rename (eventPoints edits) (eventPoints (edits.renamed rename)) := by
  have deleted : ∀ (deletions : List (ℕ × ByteRange)) {points points' : Std.TreeMap ℕ PointEvents},
      PointsRenamed rename points points' →
        PointsRenamed rename (deletions.foldl addDeletion points) (deletions.foldl addDeletion points') := by
    intro deletions
    induction deletions with
    | nil => exact fun renamed => renamed
    | cons deletion rest ih => exact fun renamed => ih (addDeletion_renamed renamed deletion)
  have inserted : ∀ (insertions : List (ℕ × Insertion)) {points points' : Std.TreeMap ℕ PointEvents},
      PointsRenamed rename points points' →
        PointsRenamed rename (insertions.foldl addInsertion points)
          ((insertions.map fun entry => (entry.1, entry.2.renamed rename)).foldl addInsertion points') := by
    intro insertions
    induction insertions with
    | nil => exact fun renamed => renamed
    | cons entry rest ih => exact fun renamed => ih (addInsertion_renamed renamed entry)
  intro offset
  have sorted (point : PointEvents) :
      (point.renamed rename).insertions.insertionSort (fun left right => left.operationIndex ≤ right.operationIndex) =
        (point.insertions.insertionSort fun left right => left.operationIndex ≤ right.operationIndex).map
          (Insertion.renamed rename) :=
    (List.map_insertionSort _ _ (Insertion.renamed rename) point.insertions fun left _ right _ => Iff.rfl).symm
  have unsorted : ((edits.renamed rename).insertions.foldl addInsertion
        ((edits.renamed rename).deletions.foldl addDeletion ∅))[offset]? =
      ((edits.insertions.foldl addInsertion (edits.deletions.foldl addDeletion ∅))[offset]?).map
        (PointEvents.renamed rename) :=
    inserted edits.insertions (deleted edits.deletions fun _ => by simp) offset
  rw [eventPoints, eventPoints, Std.TreeMap.getElem?_map, Std.TreeMap.getElem?_map, unsorted, Option.map_map,
    Option.map_map]
  apply congrArg (Option.map · _)
  funext point
  rw [Function.comp_apply, Function.comp_apply, sorted]
  rfl

theorem survive_renamed (sweep : Sweep) (edits : OutputEdits) (offset : ℕ) :
    (sweep.renamed rename).survive (edits.renamed rename) offset =
      (sweep.survive edits offset).map (List.map (OutputSegment.renamed rename)) := by
  rw [Sweep.survive, Sweep.survive, Sweep.renamed_cursor, Sweep.renamed_deleting]
  by_cases survives : sweep.cursor < offset ∧ sweep.deleting = false
  · rw [if_pos survives, if_pos survives, OutputEdits.renamed_existingFileId]
    cases edits.existingFileId with
    | none => rfl
    | some fileId =>
      dsimp only [Option.map_some, Except.map]
      rw [List.map_append]
      rfl
  · rw [if_neg survives, if_neg survives]
    rfl

theorem visit_renamed (edits : OutputEdits) (sweep : Sweep) (event : ℕ × PointEvents) :
    Sweep.visit (edits.renamed rename) (sweep.renamed rename) (event.1, event.2.renamed rename) =
      (Sweep.visit edits sweep event).map (Sweep.renamed rename) := by
  rw [Sweep.visit, Sweep.visit]
  by_cases outside : event.1 > edits.originalLength
  · rw [if_pos outside, if_pos (show event.1 > (edits.renamed rename).originalLength from outside)]
    rfl
  · rw [if_neg outside, if_neg (show ¬event.1 > (edits.renamed rename).originalLength from outside)]
    dsimp only
    rw [survive_renamed]
    cases sweep.survive edits event.1 with
    | error failure => rfl
    | ok segments =>
      have emitted : segments.map (OutputSegment.renamed rename) ++
            (event.2.renamed rename).insertions.map Insertion.segment =
          (segments ++ event.2.insertions.map Insertion.segment).map (OutputSegment.renamed rename) := by
        rw [List.map_append, List.map_map, PointEvents.renamed, List.map_map]
        rfl
      dsimp only [Except.map, Except.ok_bind]
      rw [emitted]
      rfl

theorem buildSegments_renamed (edits : OutputEdits) :
    buildSegments (edits.renamed rename) = (buildSegments edits).map (List.map (OutputSegment.renamed rename)) := by
  rw [buildSegments, buildSegments, OrderedMap.tree_toList_map (eventPoints_renamed edits)]
  have visits : ((eventPoints edits).toList.map fun event => (event.1, event.2.renamed rename)).foldlM
      (Sweep.visit (edits.renamed rename)) {} =
      ((eventPoints edits).toList.foldlM (Sweep.visit edits) {}).map (Sweep.renamed rename) :=
    List.foldlM_map_commutes (fun event _ sweep => visit_renamed edits sweep event) {}
  rw [visits, Except.bind_map, Except.map_bind]
  exact Except.bind_congr_right _ fun sweep => survive_renamed sweep edits _

theorem fileOf_renamed (lookups : LookupsRenamed rename states states' files files') (id : SnapshotFileId)
    (field : String) :
    fileOf files' (rename id) field = (fileOf files id field).map (FileSnapshot.renamed rename) := by
  rw [fileOf, fileOf, lookups.byId]
  cases files[id]? <;> rfl

theorem push_renamed (lookups : LookupsRenamed rename states states' files files') (original : Option Bytes)
    (stream : Stream) (segment : OutputSegment) :
    Stream.push files' original stream (segment.renamed rename) = Stream.push files original stream segment := by
  rw [Stream.push, Stream.push, OutputSegment.renamed_fileId, OutputSegment.renamed_range, fileOf_renamed lookups,
    Except.bind_map]
  rfl

theorem comparedBytes_renamed (lookups : LookupsRenamed rename states states' files files')
    (originalFileId : Option SnapshotFileId) :
    comparedBytes files' (originalFileId.map rename) = comparedBytes files originalFileId := by
  cases originalFileId with
  | none => rfl
  | some id =>
    rw [Option.map_some, comparedBytes, comparedBytes, fileOf_renamed lookups, Except.bind_map]
    rfl

theorem streamOutput_renamed (sha256 : Bytes → Sha256Digest)
    (lookups : LookupsRenamed rename states states' files files') (segments : List OutputSegment)
    (originalFileId : Option SnapshotFileId) :
    streamOutput sha256 (segments.map (OutputSegment.renamed rename)) files' (originalFileId.map rename) =
      streamOutput sha256 segments files originalFileId := by
  rw [streamOutput, streamOutput, comparedBytes_renamed lookups]
  apply Except.bind_congr_right
  intro original
  rw [List.foldlM_map]
  simp only [push_renamed lookups]

theorem requireSingleLink_renamed (lookups : LookupsRenamed rename states states' files files')
    (edits : OutputEdits) (change : OutputChange) :
    requireSingleLink files' (edits.renamed rename) change = requireSingleLink files edits change := by
  rw [requireSingleLink, requireSingleLink, OutputEdits.renamed_existingFileId]
  cases edits.existingFileId with
  | none => rfl
  | some id =>
    dsimp only [Option.map_some]
    rw [fileOf_renamed lookups, Except.bind_map]
    rfl

/-- An output is planned alike from renamed edits. -/
theorem planOutput_renamed (sha256 : Bytes → Sha256Digest)
    (lookups : LookupsRenamed rename states states' files files') (edits : OutputEdits) :
    planOutput sha256 files' (edits.renamed rename) =
      (planOutput sha256 files edits).map (PlannedOutput.renamed rename) := by
  rw [planOutput, planOutput, validateEditConflicts_renamed, buildSegments_renamed, Except.map_bind]
  apply Except.bind_congr_right
  intro _
  rw [Except.bind_map, Except.map_bind]
  apply Except.bind_congr_right
  intro segments
  rw [OutputEdits.renamed_existingFileId, streamOutput_renamed sha256 lookups, Except.map_bind]
  apply Except.bind_congr_right
  rintro ⟨resultingLength, resultingDigest, equalsOriginal⟩
  dsimp only
  rw [requireSingleLink_renamed lookups, Option.isSome_map, Except.map_bind]
  exact Except.bind_congr_right _ fun _ => rfl

/-! ## Usage and record -/

theorem calculateUsage_renamed (sizes : TypeSizes) (operations : List ResolvedOperation)
    (outputs : List PlannedOutput) :
    calculateUsage sizes operations (outputs.map (PlannedOutput.renamed rename)) =
      calculateUsage sizes operations outputs := by
  have charges (usage : PlanningUsage) (output : PlannedOutput) :
      chargeOutput sizes usage (output.renamed rename) = chargeOutput sizes usage output := by
    rw [chargeOutput, chargeOutput, PlannedOutput.renamed, List.length_map]
  simp only [calculateUsage, List.length_map, List.foldlM_map, charges]

theorem encodeInput_renamed (input : InputRecord) : encodeInput (input.renamed rename) = encodeInput input := by
  cases input <;> rfl

theorem encodeInputs_renamed (inputs : List InputRecord) :
    encodeInputs (inputs.map (InputRecord.renamed rename)) = encodeInputs inputs := by
  simp only [encodeInputs, List.length_map, List.flatMap_map, encodeInput_renamed]

/-- The positions of renamed files. -/
def PositionsRenamed (rename : SnapshotFileId → SnapshotFileId) (indexes indexes' : Std.TreeMap SnapshotFileId ℕ) :
    Prop :=
  ∀ id : ℕ, indexes'[rename id]? = indexes[id]?

theorem inputIndexes_renamed (injective : Function.Injective rename) (inputs : List InputRecord) :
    Except.Agree (PositionsRenamed rename) (inputIndexes inputs)
      (inputIndexes (inputs.map (InputRecord.renamed rename))) := by
  rw [inputIndexes, inputIndexes, List.zipIdx_map]
  apply List.foldlM_agree
  · rintro ⟨input, index⟩ - indexes indexes' renamed
    cases input with
    | absent missing => exact .ok renamed
    | existing file =>
      dsimp only [Prod.map_apply, InputRecord.renamed, FileSnapshot.renamed, id]
      rw [renamed]
      split
      · exact .error _ _
      · apply Except.Agree.ok
        intro other
        rw [Std.TreeMap.getElem?_insert, Std.TreeMap.getElem?_insert, renamed]
        simp only [Std.LawfulEqCmp.compare_eq_iff_eq, injective.eq_iff]
  · exact fun other => by simp

variable {indexes indexes' : Std.TreeMap SnapshotFileId ℕ}

theorem encodeSegment_renamed (positions : PositionsRenamed rename indexes indexes') (segment : OutputSegment) :
    encodeSegment indexes' (segment.renamed rename) = encodeSegment indexes segment := by
  have index (id : SnapshotFileId) : inputIndex indexes' (rename id) = inputIndex indexes id := by
    rw [inputIndex, inputIndex, positions]
  cases segment <;> simp only [encodeSegment, OutputSegment.renamed, index]

theorem encodeOutput_renamed (positions : PositionsRenamed rename indexes indexes') (output : PlannedOutput) :
    encodeOutput indexes' (output.renamed rename) = encodeOutput indexes output := by
  have segments : (output.segments.map (OutputSegment.renamed rename)).mapM (encodeSegment indexes') =
      output.segments.mapM (encodeSegment indexes) := by
    rw [List.mapM_map]
    exact congrArg (List.mapM · _) (funext (encodeSegment_renamed positions))
  simp only [encodeOutput, PlannedOutput.renamed, segments, List.length_map]

theorem encodeOutputs_renamed (positions : PositionsRenamed rename indexes indexes') (outputs : List PlannedOutput) :
    encodeOutputs indexes' (outputs.map (PlannedOutput.renamed rename)) = encodeOutputs indexes outputs := by
  have sorted : (outputs.map (PlannedOutput.renamed rename)).insertionSort
        (fun left right => left.path.value ≤ right.path.value) =
      (outputs.insertionSort fun left right => left.path.value ≤ right.path.value).map
        (PlannedOutput.renamed rename) :=
    (List.map_insertionSort _ _ (PlannedOutput.renamed rename) outputs fun left _ right _ => Iff.rfl).symm
  rw [encodeOutputs, encodeOutputs, sorted, List.length_map, List.mapM_map]
  simp only [Function.comp_def, encodeOutput_renamed positions]

end Srcmv.Core
