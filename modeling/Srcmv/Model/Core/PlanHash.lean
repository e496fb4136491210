import Srcmv.Model.Core.Snapshot

/-! # Deterministic CBOR plan record

Only definite arrays, unsigned integers, byte and text strings and `null` are emitted, each
integer argument in its shortest form. Inputs and outputs are encoded in path order and segments
name inputs by their position among the sorted inputs.
-/

namespace Srcmv.Core

namespace Cbor

/-- A major type with its argument in the shortest of the five encodings. -/
def majorValue (major value : ℕ) : Bytes :=
  let lead := major * 32
  if value ≤ 23 then [UInt8.ofNat (lead + value)]
  else if value ≤ 0xff then UInt8.ofNat (lead + 24) :: bigEndian 1 value
  else if value ≤ 0xffff then UInt8.ofNat (lead + 25) :: bigEndian 2 value
  else if value ≤ 0xffffffff then UInt8.ofNat (lead + 26) :: bigEndian 4 value
  else UInt8.ofNat (lead + 27) :: bigEndian 8 value

def unsigned (value : ℕ) : Bytes := majorValue 0 value

def array (length : ℕ) : Bytes := majorValue 4 length

def byteString (value : Bytes) : Bytes := majorValue 2 value.length ++ value

def text (value : String) : Bytes := majorValue 3 (utf8Bytes value).length ++ utf8Bytes value

def null : Bytes := [0xf6]

end Cbor

def planHashVersion : ℕ := 1

def protocolVersion : ℕ := 1

/-- ASCII `SRCMV-PLAN-V1` and a NUL. -/
def domainPrefix : Bytes := utf8Bytes "SRCMV-PLAN-V1" ++ [0]

inductive InputRecord where
  | existing (file : FileSnapshot)
  | absent (missing : AbsentPathSnapshot)
deriving DecidableEq

def InputRecord.path : InputRecord → String
  | .existing file => file.path.value
  | .absent missing => missing.path.value

/-- All snapshot inputs in path order. -/
def sortedInputs (snapshot : WorkspaceSnapshot) : List InputRecord :=
  (snapshot.files.map InputRecord.existing ++ snapshot.absentPaths.map InputRecord.absent).insertionSort
    fun left right => left.path ≤ right.path

/-- Position of every existing file among the sorted inputs, rejecting a repeated identifier. -/
def inputIndexes (inputs : List InputRecord) : Except CoreError (Std.TreeMap SnapshotFileId ℕ) :=
  inputs.zipIdx.foldlM (fun indexes entry =>
    match entry with
    | (.existing file, index) =>
        if indexes[file.id]?.isSome then .error (.invalidDomainValue "duplicate_snapshot_file_id")
        else .ok (indexes.insert file.id index)
    | (.absent _, _) => .ok indexes) ∅

def encodeWorkspaceIdentity (snapshot : WorkspaceSnapshot) : Bytes :=
  Cbor.array 2 ++ Cbor.unsigned snapshot.workspaceIdentity.device.toNat ++
    Cbor.unsigned snapshot.workspaceIdentity.inode.toNat

def encodeInput (input : InputRecord) : Bytes :=
  Cbor.array 2 ++ Cbor.text input.path ++
    match input with
    | .absent missing =>
        Cbor.array 3 ++ Cbor.unsigned 0 ++ Cbor.unsigned missing.parentIdentity.device.toNat ++
          Cbor.unsigned missing.parentIdentity.inode.toNat
    | .existing file =>
        Cbor.array 7 ++ Cbor.unsigned 1 ++ Cbor.unsigned file.parentIdentity.device.toNat ++
          Cbor.unsigned file.parentIdentity.inode.toNat ++ Cbor.unsigned file.identity.device.toNat ++
          Cbor.unsigned file.identity.inode.toNat ++ Cbor.unsigned file.bytes.length ++
          Cbor.byteString file.digest.bytes

def encodeInputs (inputs : List InputRecord) : Bytes :=
  Cbor.array inputs.length ++ inputs.flatMap encodeInput

def encodeSelector : Selector → Bytes
  | .lines start stop => Cbor.array 3 ++ Cbor.unsigned 1 ++ Cbor.unsigned start ++ Cbor.unsigned stop
  | .bytes start stop => Cbor.array 3 ++ Cbor.unsigned 2 ++ Cbor.unsigned start ++ Cbor.unsigned stop

def encodeAnchor : Anchor → Bytes
  | .fileStart => Cbor.array 1 ++ Cbor.unsigned 1
  | .fileEnd => Cbor.array 1 ++ Cbor.unsigned 2
  | .beforeLine line => Cbor.array 2 ++ Cbor.unsigned 3 ++ Cbor.unsigned line
  | .afterLine line => Cbor.array 2 ++ Cbor.unsigned 4 ++ Cbor.unsigned line
  | .byteOffset offset => Cbor.array 2 ++ Cbor.unsigned 5 ++ Cbor.unsigned offset

def encodePrecondition : Precondition → Bytes
  | .sha256 digest => Cbor.array 2 ++ Cbor.unsigned 1 ++ Cbor.byteString digest.bytes
  | .mustNotExist => Cbor.array 1 ++ Cbor.unsigned 2

def encodeOperation (operation : ResolvedOperation) : Bytes :=
  Cbor.array 13 ++ Cbor.unsigned operation.operationIndex ++
    Cbor.unsigned (match operation.kind with | .move => 1 | .copy => 2) ++
    Cbor.text operation.sourcePath.value ++ encodeSelector operation.selector ++
    encodePrecondition operation.sourcePrecondition ++ Cbor.unsigned operation.sourceRange.start ++
    Cbor.unsigned operation.sourceRange.stop ++ Cbor.byteString operation.selectedDigest.bytes ++
    Cbor.text operation.destinationPath.value ++ encodeAnchor operation.anchor ++
    encodePrecondition operation.destinationPrecondition ++ Cbor.unsigned operation.destinationOffset ++
    Cbor.unsigned (match operation.effect with | .changed => 1 | .noOp => 2)

def encodeOperations (operations : List ResolvedOperation) : Bytes :=
  Cbor.array operations.length ++ operations.flatMap encodeOperation

def inputIndex (indexes : Std.TreeMap SnapshotFileId ℕ) (fileId : SnapshotFileId) : Except CoreError ℕ :=
  match indexes[fileId]? with
  | some index => .ok index
  | none => .error (.invalidDomainValue "segment_snapshot_input_index")

def encodeSegment (indexes : Std.TreeMap SnapshotFileId ℕ) : OutputSegment → Except CoreError Bytes
  | .originalSlice fileId range => do
      return Cbor.array 4 ++ Cbor.unsigned 1 ++ Cbor.unsigned (← inputIndex indexes fileId) ++
        Cbor.unsigned range.start ++ Cbor.unsigned range.stop
  | .payloadSlice operationIndex fileId range payloadDigest => do
      return Cbor.array 6 ++ Cbor.unsigned 2 ++ Cbor.unsigned operationIndex ++
        Cbor.unsigned (← inputIndex indexes fileId) ++ Cbor.unsigned range.start ++
        Cbor.unsigned range.stop ++ Cbor.byteString payloadDigest.bytes

def encodeOutput (indexes : Std.TreeMap SnapshotFileId ℕ) (output : PlannedOutput) :
    Except CoreError Bytes := do
  let segments ← output.segments.mapM (encodeSegment indexes)
  return Cbor.array 6 ++ Cbor.text output.path.value ++
    (match output.originalDigest with | some digest => Cbor.byteString digest.bytes | none => Cbor.null) ++
    Cbor.byteString output.resultingDigest.bytes ++ Cbor.unsigned output.resultingLength ++
    Cbor.unsigned (match output.change with
      | .unchanged => 1 | .modifiedExisting => 2 | .createdNew => 3 | .emptiedExisting => 4) ++
    Cbor.array output.segments.length ++ segments.flatten

def encodeOutputs (indexes : Std.TreeMap SnapshotFileId ℕ) (outputs : List PlannedOutput) :
    Except CoreError Bytes := do
  let sorted := outputs.insertionSort fun left right => left.path.value ≤ right.path.value
  return Cbor.array sorted.length ++ (← sorted.mapM (encodeOutput indexes)).flatten

/-- The positional plan-hash version 1 record. -/
def encodePlanRecord (snapshot : WorkspaceSnapshot) (plan : EditPlan) : Except CoreError Bytes := do
  let inputs := sortedInputs snapshot
  let indexes ← inputIndexes inputs
  let outputs ← encodeOutputs indexes plan.outputs
  return Cbor.array 6 ++ Cbor.unsigned planHashVersion ++ Cbor.unsigned protocolVersion ++
    encodeWorkspaceIdentity snapshot ++ encodeInputs inputs ++ encodeOperations plan.operations ++ outputs

/-- Domain-separated digest of the plan record. -/
def planDigest (sha256 : Bytes → Sha256Digest) (snapshot : WorkspaceSnapshot) (plan : EditPlan) :
    Except CoreError Sha256Digest := do
  return sha256 (domainPrefix ++ (← encodePlanRecord snapshot plan))

end Srcmv.Core
