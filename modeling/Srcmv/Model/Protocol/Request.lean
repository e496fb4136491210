import Srcmv.Model.Core.Snapshot
import Srcmv.ToMathlib.Serde

/-! # Requests of protocol version 1

The wire structures of a request, as their derived deserializers read them, and the conversion into
a batch. How a text is read into content is a parameter.
-/

namespace Srcmv.Protocol

open Srcmv.Core

structure RequestLimits where
  requestBytes : ℕ := 4 * 1024 * 1024
  jsonDepth : ℕ := 64
  operations : ℕ := 1000
  operationPaths : ℕ := 1000
  pathBytes : ℕ := 4096

/-- Failures of a request. The reason that the deserializer reports stays out, and with it whether
the text is no JSON or no request. -/
inductive ProtocolError where
  | resourceLimitExceeded (resource : String) (actual limit : ℕ)
  | undeserializable
  | unsupportedProtocolVersion (received : ℕ)
  | invalidRequest (reason : String) (operationIndex : Option ℕ)
  | invalidDigest (field : String)
deriving DecidableEq

def enforceLimit (resource : String) (actual limit : ℕ) : Except ProtocolError Unit :=
  if actual ≤ limit then .ok () else .error (.resourceLimitExceeded resource actual limit)

/-! ## The text -/

def enforceRequestSize (input : Bytes) (limit : ℕ) : Except ProtocolError Unit :=
  enforceLimit "request_bytes" input.length limit

/-- The state of the scan for nested arrays and objects. -/
structure DepthScan where
  depth : ℕ := 0
  inString : Bool := false
  escaped : Bool := false

def DepthScan.visit (limit : ℕ) (scan : DepthScan) (byte : UInt8) : Except ProtocolError DepthScan :=
  if scan.inString then
    if scan.escaped then .ok { scan with escaped := false }
    else if byte = 92 then .ok { scan with escaped := true }
    else if byte = 34 then .ok { scan with inString := false }
    else .ok scan
  else if byte = 34 then .ok { scan with inString := true }
  else if byte = 123 ∨ byte = 91 then do
    let depth := min (scan.depth + 1) u64Max
    enforceLimit "json_depth" depth limit
    return { scan with depth := depth }
  else if byte = 125 ∨ byte = 93 then .ok { scan with depth := scan.depth - 1 }
  else .ok scan

def enforceJsonDepth (input : Bytes) (limit : ℕ) : Except ProtocolError Unit := do
  let _ ← input.foldlM (DepthScan.visit limit) {}

/-! ## Wire structures -/

inductive SelectorDto where
  | lines (start stop : UInt64)
  | bytes (start stop : UInt64)

inductive AnchorDto where
  | fileStart
  | fileEnd
  | beforeLine (line : UInt64)
  | afterLine (line : UInt64)
  | byteOffset (offset : UInt64)

inductive PreconditionDto where
  | sha256 (value : String)
  | mustNotExist

structure SourceDto where
  path : String
  selector : SelectorDto
  precondition : PreconditionDto

structure DestinationDto where
  path : String
  anchor : AnchorDto
  precondition : PreconditionDto

inductive OperationDto where
  | move (source : SourceDto) (destination : DestinationDto)
  | copy (source : SourceDto) (destination : DestinationDto)

structure RequestDto where
  protocolVersion : UInt64
  operations : List OperationDto

def SelectorDto.readVariant : String → Content → Option SelectorDto
  | "lines", rest => (rest.struct2 "start" "end" Content.natural? Content.natural?).map fun range => .lines range.1 range.2
  | "bytes", rest => (rest.struct2 "start" "end" Content.natural? Content.natural?).map fun range => .bytes range.1 range.2
  | _, _ => none

def SelectorDto.deserialize (content : Content) : Option SelectorDto :=
  content.internallyTagged true "kind" ["lines", "bytes"] SelectorDto.readVariant

def AnchorDto.readVariant : String → Content → Option AnchorDto
  | "file_start", rest => if rest.unit then some .fileStart else none
  | "file_end", rest => if rest.unit then some .fileEnd else none
  | "before_line", rest => (rest.struct1 "line" Content.natural?).map .beforeLine
  | "after_line", rest => (rest.struct1 "line" Content.natural?).map .afterLine
  | "byte_offset", rest => (rest.struct1 "offset" Content.natural?).map .byteOffset
  | _, _ => none

def AnchorDto.deserialize (content : Content) : Option AnchorDto :=
  content.internallyTagged true "kind" ["file_start", "file_end", "before_line", "after_line", "byte_offset"]
    AnchorDto.readVariant

def PreconditionDto.readVariant : String → Content → Option PreconditionDto
  | "sha256", rest => (rest.struct1 "value" Content.string?).map .sha256
  | "must_not_exist", rest => if rest.unit then some .mustNotExist else none
  | _, _ => none

def PreconditionDto.deserialize (content : Content) : Option PreconditionDto :=
  content.internallyTagged true "kind" ["sha256", "must_not_exist"] PreconditionDto.readVariant

def SourceDto.deserialize (content : Content) : Option SourceDto :=
  (content.struct3 "path" "selector" "precondition" Content.string? SelectorDto.deserialize PreconditionDto.deserialize).map
    fun source => ⟨source.1, source.2.1, source.2.2⟩

def DestinationDto.deserialize (content : Content) : Option DestinationDto :=
  (content.struct3 "path" "anchor" "precondition" Content.string? AnchorDto.deserialize PreconditionDto.deserialize).map
    fun destination => ⟨destination.1, destination.2.1, destination.2.2⟩

def OperationDto.readVariant : String → Content → Option OperationDto
  | "move", rest => (rest.struct2 "source" "destination" SourceDto.deserialize DestinationDto.deserialize).map
      fun ends => .move ends.1 ends.2
  | "copy", rest => (rest.struct2 "source" "destination" SourceDto.deserialize DestinationDto.deserialize).map
      fun ends => .copy ends.1 ends.2
  | _, _ => none

/-- Operations are read from the text itself, where a tag is a string. -/
def OperationDto.deserialize (content : Content) : Option OperationDto :=
  content.internallyTagged false "kind" ["move", "copy"] OperationDto.readVariant

def RequestDto.readOperations (content : Content) : Option (List OperationDto) := do
  (← content.seq?).mapM OperationDto.deserialize

def RequestDto.deserialize (content : Content) : Option RequestDto :=
  (content.struct2 "protocol_version" "operations" Content.natural? RequestDto.readOperations).map
    fun request => ⟨request.1, request.2⟩

/-! ## Conversion -/

def isLowerHex (char : Char) : Bool := char.isDigit || ('a' ≤ char && char ≤ 'f')

def hexNibble (char : Char) : ℕ :=
  if char.isDigit then char.toNat - '0'.toNat
  else if 'a' ≤ char && char ≤ 'f' then char.toNat - 'a'.toNat + 10
  else 0

/-- The bytes of pairs of digits. -/
def hexBytes : List Char → Bytes
  | high :: low :: rest => UInt8.ofNat (hexNibble high * 16 + hexNibble low) :: hexBytes rest
  | _ => []

theorem length_hexBytes (hex : List Char) : (hexBytes hex).length = hex.length / 2 := by
  induction hex using hexBytes.induct with
  | case1 high low rest ih =>
    rw [hexBytes, List.length_cons, ih, List.length_cons, List.length_cons]
    omega
  | case2 hex other =>
    rcases hex with _ | ⟨high, _ | ⟨low, rest⟩⟩
    · rfl
    · rw [hexBytes, List.length_singleton, List.length_nil]
      exact other
    · exact absurd rfl (other high low rest)

/-- Digits are ASCII, hence the characters are as many as the bytes that the source counts. -/
def parseSha256 (value field : String) : Except ProtocolError Sha256Digest :=
  let hex := value.toList.drop 7
  if exact_ : "sha256:".toList.isPrefixOf value.toList ∧ hex.length = 64 ∧ hex.all isLowerHex then
    .ok ⟨hexBytes hex, by rw [length_hexBytes, exact_.2.1]⟩
  else .error (.invalidDigest field)

def convertSelector (selector : SelectorDto) (index : ℕ) : Except ProtocolError Selector :=
  match selector with
  | .lines start stop =>
      if 0 < start ∧ start ≤ stop then .ok (.lines start.toNat stop.toNat)
      else .error (.invalidRequest "invalid_line_selector" (some index))
  | .bytes start stop =>
      if start < stop then .ok (.bytes start.toNat stop.toNat)
      else .error (.invalidRequest "empty_byte_selector" (some index))

def convertAnchor (anchor : AnchorDto) (index : ℕ) : Except ProtocolError Anchor :=
  match anchor with
  | .fileStart => .ok .fileStart
  | .fileEnd => .ok .fileEnd
  | .beforeLine line =>
      if 0 < line then .ok (.beforeLine line.toNat) else .error (.invalidRequest "invalid_line_anchor" (some index))
  | .afterLine line =>
      if 0 < line then .ok (.afterLine line.toNat) else .error (.invalidRequest "invalid_line_anchor" (some index))
  | .byteOffset offset => .ok (.byteOffset offset.toNat)

def convertSource (source : SourceDto) (index : ℕ) : Except ProtocolError SourceSelection := do
  match source.precondition with
  | .sha256 value => do
      let digest ← parseSha256 value "operations[].source.precondition.value"
      return ⟨⟨source.path⟩, ← convertSelector source.selector index, .sha256 digest⟩
  | .mustNotExist => .error (.invalidRequest "source_must_exist" (some index))

def destinationPrecondition : PreconditionDto → Except ProtocolError Precondition
  | .sha256 value => do
      let digest ← parseSha256 value "operations[].destination.precondition.value"
      return .sha256 digest
  | .mustNotExist => .ok .mustNotExist

def convertDestination (destination : DestinationDto) (index : ℕ) : Except ProtocolError Destination := do
  let precondition ← destinationPrecondition destination.precondition
  return ⟨⟨destination.path⟩, ← convertAnchor destination.anchor index, precondition⟩

def OperationDto.endpoints : OperationDto → SourceDto × DestinationDto
  | .move source destination => (source, destination)
  | .copy source destination => (source, destination)

def convertOperation (operation : OperationDto) (index : ℕ) : Except ProtocolError Operation := do
  let source ← convertSource operation.endpoints.1 index
  let destination ← convertDestination operation.endpoints.2 index
  match operation with
  | .move .. => return .move ⟨source, destination⟩
  | .copy .. => return .copy ⟨source, destination⟩

def enforcePath (path : String) (limit : ℕ) : Except ProtocolError Unit := do
  enforceLimit "path_bytes" (utf8Bytes path).length limit
  if path = "" then .error (.invalidRequest "path_empty" none)
  else if path.toList.contains '\x00' then .error (.invalidRequest "path_contains_nul" none)
  else .ok ()

/-- The paths of an operation, which are checked before any value is converted. -/
def enforcePaths (limits : RequestLimits) (operation : OperationDto) : Except ProtocolError Unit := do
  enforcePath operation.endpoints.1.path limits.pathBytes
  enforcePath operation.endpoints.2.path limits.pathBytes

def operationPaths (operations : List OperationDto) : List String :=
  operations.flatMap fun operation => [operation.endpoints.1.path, operation.endpoints.2.path]

def convertRequest (request : RequestDto) (limits : RequestLimits) : Except ProtocolError BatchSpecification :=
  if request.protocolVersion ≠ 1 then .error (.unsupportedProtocolVersion request.protocolVersion.toNat)
  else if request.operations = [] then .error (.invalidRequest "operations_empty" none)
  else do
    enforceLimit "operations" request.operations.length limits.operations
    request.operations.forM (enforcePaths limits)
    enforceLimit "operation_paths" (operationPaths request.operations).dedup.length limits.operationPaths
    let operations ← request.operations.zipIdx.mapM fun entry => convertOperation entry.1 entry.2
    return ⟨operations⟩

/-- `read` is how a text is read into content, to its end. -/
def parseRequestWithLimits (read : Bytes → Option Content) (input : Bytes) (limits : RequestLimits) :
    Except ProtocolError BatchSpecification := do
  enforceRequestSize input limits.requestBytes
  enforceJsonDepth input limits.jsonDepth
  match (read input).bind RequestDto.deserialize with
  | none => .error .undeserializable
  | some request => convertRequest request limits

def parseRequest (read : Bytes → Option Content) (input : Bytes) : Except ProtocolError BatchSpecification :=
  parseRequestWithLimits read input {}

end Srcmv.Protocol
