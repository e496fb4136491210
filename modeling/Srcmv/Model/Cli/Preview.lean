import Srcmv.Model.Core.LineMetrics
import Srcmv.Model.Core.Planner
import Srcmv.Model.Fs.Records
import Srcmv.ToMathlib.Utf8

/-! # Lines of a preview

The diff splitter cuts UTF-8 bytes into lines, keeping the content of each apart from the name of
its terminator. The review summary counts the lines of an output from the line indexes of the files
that its segments name, and groups the insertions by their destination offset.
-/

namespace Srcmv.Cli

open Srcmv.Core Srcmv.Fs

/-! ## The diff splitter -/

/-- One line of a text; `content` holds the bytes of the `str`. -/
structure TextLine where
  full : Bytes
  content : Bytes
  terminator : String
deriving DecidableEq

/-- The line over `start..stop` whose content ends at `contentEnd`. -/
def textLine (bytes : Bytes) (start stop contentEnd : ℕ) (terminator : String) : TextLine where
  full := (bytes.drop start).take (stop - start)
  content := (bytes.drop start).take (contentEnd - start)
  terminator := terminator

/-- The loop of `text_lines` over the bytes from `offset`, in a line that began at `start`. -/
def textLinesFrom (bytes : Bytes) : Bytes → ℕ → ℕ → List TextLine
  | [], start, _ =>
      if start < bytes.length then [⟨bytes.drop start, bytes.drop start, "NONE"⟩] else []
  | 10 :: rest, start, offset =>
      textLine bytes start (offset + 1) offset "LF" :: textLinesFrom bytes rest (offset + 1) (offset + 1)
  | 13 :: 10 :: rest, start, offset =>
      textLine bytes start (offset + 2) offset "CRLF" :: textLinesFrom bytes rest (offset + 2) (offset + 2)
  | 13 :: rest, start, offset =>
      textLine bytes start (offset + 1) offset "CR" :: textLinesFrom bytes rest (offset + 1) (offset + 1)
  | _ :: rest, start, offset => textLinesFrom bytes rest start (offset + 1)

def textLines (bytes : Bytes) : Except FsError (List TextLine) :=
  if (Utf8.decode bytes).isNone then .error (.internalInvariant "text_diff_received_binary_bytes")
  else .ok (textLinesFrom bytes bytes 0 0)

/-! ## The review summary -/

structure InsertionGroup where
  destinationOffset : ℕ
  operationIndices : List ℕ
deriving DecidableEq

structure ReviewOutput where
  outputIndex : ℕ
  beforeLogicalLineCount : Option ℕ
  afterLogicalLineCount : ℕ
  insertionGroupsInOutputOrder : List InsertionGroup
deriving DecidableEq

def ofCore {α : Type} : Except CoreError α → Except FsError α
  | .ok value => .ok value
  | .error failure => .error (.core failure)

/-- Extend the last group when its offset is this one, and open a new group otherwise. -/
def pushInsertion (groups : List InsertionGroup) (offset operationIndex : ℕ) : List InsertionGroup :=
  match groups.getLast? with
  | some group =>
      if group.destinationOffset = offset then
        groups.dropLast ++ [{ group with operationIndices := group.operationIndices ++ [operationIndex] }]
      else groups ++ [⟨offset, [operationIndex]⟩]
  | none => [⟨offset, [operationIndex]⟩]

/-- The group of a payload segment; an original segment belongs to none. -/
def groupSegment (plan : EditPlan) (output : PlannedOutput) (groups : List InsertionGroup) :
    OutputSegment → Except FsError (List InsertionGroup)
  | .originalSlice _ _ => .ok groups
  | .payloadSlice operationIndex _ _ _ =>
      match plan.operations[operationIndex]? with
      | none => .error (.internalInvariant "review_segment_operation_index")
      | some operation =>
          if operation.operationIndex ≠ operationIndex ∨ operation.effect ≠ .changed ∨
              operation.destinationPath ≠ output.path then
            .error (.internalInvariant "review_effectful_insertion")
          else .ok (pushInsertion groups operation.destinationOffset operationIndex)

/-- One segment of an output: its lines are counted and its insertion is grouped. -/
def reviewSegment (files : SnapshotFileId → Option FileSnapshot) (plan : EditPlan) (output : PlannedOutput)
    (progress : LineMetrics × List InsertionGroup) (segment : OutputSegment) :
    Except FsError (LineMetrics × List InsertionGroup) :=
  match files segment.fileId with
  | none => .error (.internalInvariant "review_segment_snapshot_file")
  | some file => do
      let metrics ← ofCore (file.lineIndex.metricsForRange file.bytes segment.range)
      let after ← ofCore (progress.1.tryAppend metrics)
      return (after, ← groupSegment plan output progress.2 segment)

/-- The map from identifiers to files, in which a later file replaces an earlier one. -/
def filesById (snapshot : WorkspaceSnapshot) (fileId : SnapshotFileId) : Option FileSnapshot :=
  snapshot.files.reverse.find? fun file => file.id = fileId

def buildReviewOutput (outputIndex : ℕ) (output : PlannedOutput) (snapshot : WorkspaceSnapshot) (plan : EditPlan)
    (files : SnapshotFileId → Option FileSnapshot) : Except FsError ReviewOutput := do
  let before := (snapshot.files.find? fun file => file.path.value = output.path.value).map fun file =>
    file.lineIndex.lineCount
  let (after, groups) ← output.segments.foldlM (reviewSegment files plan output) ({}, [])
  if after.byteCount ≠ output.resultingLength then
    .error (.internalInvariant "review_output_recipe_length")
  else
    return {
      outputIndex
      beforeLogicalLineCount := before
      afterLogicalLineCount := after.lineCount
      insertionGroupsInOutputOrder := groups }

end Srcmv.Cli
