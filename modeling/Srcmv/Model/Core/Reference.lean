import Srcmv.Model.Core.Planner
import Srcmv.ToMathlib.Emission

/-! # What a batch means

The reference semantics of a batch, written from the documented composition rule and from nothing
in the planner: each request is read against the initial snapshot on its own, and each output is
produced byte by byte. At every offset up to the end of the original, the payloads inserted there
come in request order, followed by the original byte unless an effectful move takes it away.
-/

namespace Srcmv.Core

namespace WorkspaceSnapshot

def fileAt? (snapshot : WorkspaceSnapshot) (path : WorkspaceRelativePath) : Option FileSnapshot :=
  snapshot.files.find? fun file => file.path = path

def fileById? (snapshot : WorkspaceSnapshot) (id : SnapshotFileId) : Option FileSnapshot :=
  snapshot.files.find? fun file => file.id = id

/-- An absent path has no bytes. -/
def originalBytes (snapshot : WorkspaceSnapshot) (path : WorkspaceRelativePath) : Bytes :=
  ((snapshot.fileAt? path).map FileSnapshot.bytes).getD []

end WorkspaceSnapshot

def selectedRange? (source : FileSnapshot) : Selector → Option ByteRange
  | .lines first last => do return ⟨← source.lineIndex.lineStart first, ← source.lineIndex.lineEnd last⟩
  | .bytes start stop => some ⟨start, stop⟩

def anchorOffset? (destination : Option FileSnapshot) : Anchor → Option ℕ
  | .fileStart => some 0
  | .fileEnd => some ((destination.map fun file => file.bytes.length).getD 0)
  | .beforeLine line => do (← destination).lineIndex.lineStart line
  | .afterLine line => do (← destination).lineIndex.lineEnd line
  | .byteOffset offset => some offset

/-- One request read against the snapshot: what it takes, and where it puts which payload. -/
structure ReferenceEdit where
  removes : Bool
  source : WorkspaceRelativePath
  range : ByteRange
  destination : WorkspaceRelativePath
  offset : ℕ
  payload : Bytes
deriving DecidableEq

namespace ReferenceEdit

/-- Moving a range to its own start or end in its own file changes nothing. -/
def effectful (edit : ReferenceEdit) : Bool :=
  ¬(edit.removes ∧ edit.source = edit.destination ∧
    (edit.offset = edit.range.start ∨ edit.offset = edit.range.stop))

/-- The edit takes the byte at `position` away from `path`. -/
def takes (edit : ReferenceEdit) (path : WorkspaceRelativePath) (position : ℕ) : Bool :=
  edit.removes ∧ edit.source = path ∧ edit.range.start ≤ position ∧ position < edit.range.stop

/-- The edit inserts its payload at `position` of `path`. -/
def puts (edit : ReferenceEdit) (path : WorkspaceRelativePath) (position : ℕ) : Bool :=
  edit.destination = path ∧ edit.offset = position

end ReferenceEdit

def referenceEdit (snapshot : WorkspaceSnapshot) (operation : Operation) : Option ReferenceEdit := do
  let (kind, specification) := operationParts operation
  let source ← snapshot.fileAt? specification.source.path
  let range ← selectedRange? source specification.source.selector
  let offset ← anchorOffset? (snapshot.fileAt? specification.destination.path)
    specification.destination.anchor
  return {
    removes := kind = .move
    source := specification.source.path
    range
    destination := specification.destination.path
    offset
    payload := (source.bytes.drop range.start).take (range.stop - range.start) }

/-- The effectful requests of a batch in request order. -/
def referenceEdits (snapshot : WorkspaceSnapshot) (batch : BatchSpecification) : List ReferenceEdit :=
  (batch.operations.filterMap (referenceEdit snapshot)).filter ReferenceEdit.effectful

/-- The bytes a batch leaves at a path, offset by offset of the original. -/
def referenceOutput (snapshot : WorkspaceSnapshot) (batch : BatchSpecification)
    (path : WorkspaceRelativePath) : Bytes :=
  let original := snapshot.originalBytes path
  let edits := referenceEdits snapshot batch
  (List.range (original.length + 1)).flatMap fun position =>
    (edits.filter fun edit => edit.puts path position).flatMap ReferenceEdit.payload ++
      if edits.any fun edit => edit.takes path position then [] else original[position]?.toList

/-- The slice one segment names in the snapshot. -/
def segmentBytes? (snapshot : WorkspaceSnapshot) (segment : OutputSegment) : Option Bytes := do
  slice? (← snapshot.fileById? segment.fileId).bytes segment.range

/-- The concatenated slices of a segment recipe. -/
def PlannedOutput.bytes? (snapshot : WorkspaceSnapshot) (output : PlannedOutput) : Option Bytes :=
  (output.segments.mapM (segmentBytes? snapshot)).map List.flatten

end Srcmv.Core
