import Srcmv.Model.Fs.Workspace
import Srcmv.Model.Protocol.Selection

/-! # Semantic selection

The command from its arguments to its response. The source is read once, the query is validated
against it before a server is asked, and the symbols of the server are resolved against the same
bytes. The session with the server and the serializer of responses are parameters.
-/

namespace Srcmv.Cli

open Srcmv.Core Srcmv.Fs Srcmv.Lsp Srcmv.Protocol

/-- The arguments, without those that choose a server and the form of the output. -/
structure SelectArgs where
  path : String
  name : Option String := none
  atByte : Option UInt64 := none
  atLine : Option UInt64 := none
  atColumn : Option UInt64 := none
  kind : Option String := none
  allMatches : Bool := false
  extent : SelectionExtent := .declarationLines

inductive QueryValue where
  | name (name : String)
  | byte (byteOffset : ℕ)
deriving DecidableEq

structure ValidatedQuery where
  kind : Option KnownSymbolKind
  value : QueryValue
deriving DecidableEq

/-- What a session learned: the server, its encoding, and its response to the symbol request. -/
structure SessionOutput where
  configurationId : Option String
  reportedName : Option String
  reportedVersion : Option String
  positionEncoding : SupportedPositionEncoding
  symbols : Content

/-- What both read-only commands meet. `warnings` is the outcome of opening the workspace and scanning
it, and `session` that of resolving a server and of running it. -/
structure Surroundings where
  warnings : Except FsError (List WarningDto)
  view : WorkspaceView
  sha256 : Bytes → Sha256Digest
  workspaceIdentityHash : Sha256Digest
  session : FileSnapshot → Except SelectionErrorDto SessionOutput
  fromValue : List Content → Option (List DocumentSymbol)
  toVec : Content → Bytes

def maximumSourceBytes : ℕ := 8 * 1024 * 1024
def maximumServerIdentityBytes : ℕ := 1024
def maximumQueryNameBytes : ℕ := 4096
def maxResponseBytes : ℕ := 16 * 1024 * 1024

def selectionSnapshotLimits : SnapshotLimits where
  identities := 1
  fileBytes := maximumSourceBytes
  totalBytes := maximumSourceBytes

/-! ## Reports -/

namespace Select

def report (code : SelectionErrorCode) (message : String) : SelectionErrorDto := ⟨code, message, []⟩

def internalError (message : String) : SelectionErrorDto := report .selectionInternalError message

def resourceError (resource : String) (limit : ℕ) : SelectionErrorDto where
  code := .lspResourceLimitExceeded
  message := "semantic selection exceeded a configured resource limit"
  context := [("limit", naturalContent limit), ("resource", .string resource)]

def responseSizeError : SelectionErrorDto := resourceError "serialized selection response" maxResponseBytes

def ambiguityError (total : ℕ) (candidates : List AmbiguityCandidate) : SelectionErrorDto where
  code := .selectionAmbiguous
  message := "the selection query matched more than one document symbol"
  context := [("candidate_count", naturalContent total), ("candidates", .seq (candidates.map fun candidate =>
    .map [("name", .string candidate.name), ("symbol_kind", .string candidate.kind.asStr),
      ("symbol_path", .seq (candidate.symbolPath.map .string)),
      ("selector", (SelectionByteSelectorDto.mk candidate.byteRange.start candidate.byteRange.stop).content)]))]

def mapFilesystemError : FsError → SelectionErrorDto
  | .resourceLimitExceeded resource _ limit => resourceError resource limit
  | .invalidPath .. => report .invalidSelectionQuery "the selected source path is not a readable workspace file"
  | .symlinkNotAllowed _ => report .invalidSelectionQuery "the selected source path is not a readable workspace file"
  | .unsupportedFileType _ => report .invalidSelectionQuery "the selected source path is not a readable workspace file"
  | _ => internalError "the workspace could not be inspected safely"

/-- The report for a path without a file. -/
def pathNotFound : SelectionErrorDto :=
  report .invalidSelectionQuery "the selected source path is not a readable workspace file"

def mapSymbolError : SymbolError → SelectionErrorDto
  | .flatSymbolsUnsupported =>
      report .lspFlatSymbolsUnsupported "the language server returned unsupported flat document symbols"
  | .resourceLimitExceeded resource maximum => resourceError resource maximum.toNat
  | .notFound => report .selectionNotFound "no document symbol matched the selection query"
  | .ambiguous total candidates => ambiguityError total candidates
  | .queryPositionOutOfBounds => report .invalidSelectionQuery "the selection position is outside the source snapshot"
  | .malformedDocumentSymbols => report .lspProtocolError "the language server returned invalid document-symbol ranges"
  | .position _ => report .lspProtocolError "the language server returned invalid document-symbol ranges"
  | .selectionRangeNotContained => report .lspProtocolError "the language server returned invalid document-symbol ranges"
  | .invalidExtent => report .lspProtocolError "the language server returned invalid document-symbol ranges"

def mapUserPositionError (_ : PositionError) : SelectionErrorDto :=
  report .invalidSelectionQuery "the selection position is outside the source snapshot"

def mapPositionProtocolError (_ : PositionError) : SelectionErrorDto :=
  report .lspProtocolError "the immutable source position index is invalid"

/-! ## The query -/

def parseKind (value : Option String) : Except SelectionErrorDto (Option KnownSymbolKind) :=
  match value with
  | none => .ok none
  | some value =>
      match KnownSymbolKind.fromStr value with
      | none => .error (report .invalidSelectionQuery "the symbol kind is not recognized")
      | some kind => .ok (some kind)

def validateName (name : Option String) : Except SelectionErrorDto Unit :=
  if name = some "" then .error (report .invalidSelectionQuery "a symbol name must not be empty")
  else if (name.map textBytes).any (maximumQueryNameBytes < ·) then
    .error (resourceError "selection query name bytes" maximumQueryNameBytes)
  else .ok ()

def queryValue (arguments : SelectArgs) (converter : PositionConverter) : Except SelectionErrorDto QueryValue :=
  match arguments.name, arguments.atByte, arguments.atLine with
  | some name, _, _ => .ok (.name name)
  | none, some byteOffset, _ =>
      ((converter.validateUserByte byteOffset.toNat).mapError mapUserPositionError).map .byte
  | none, none, some line =>
      (((converter.userLineScalarToByte line.toNat ((arguments.atColumn.map UInt64.toNat).getD 1)).run 0).1.mapError
        mapUserPositionError).map .byte
  | none, none, none => .error (report .invalidSelectionQuery "exactly one semantic-selection query is required")

/-- Queries are validated with a converter of their own. -/
def validateQuery (arguments : SelectArgs) (kind : Option KnownSymbolKind) (source : List Char) (snapshot : FileSnapshot) :
    Except SelectionErrorDto ValidatedQuery := do
  let converter ← (PositionConverter.create source snapshot.lineIndex .utf8 {}).mapError mapUserPositionError
  return ⟨kind, ← queryValue arguments converter⟩

def validateServerIdentity (value : Option String) (resource : String) : Except SelectionErrorDto Unit :=
  if value = some "" then .error (report .lspProtocolError "the language server reported an empty identity field")
  else if (value.map textBytes).any (maximumServerIdentityBytes < ·) then .error (resourceError resource maximumServerIdentityBytes)
  else .ok ()

/-! ## The response -/

def protocolSymbolKind : NormalizedSymbolKind → SelectionSymbolKindDto
  | .known kind => .known kind
  | .unknown _ => .unknown

def buildMatch (sha256 : Bytes → Sha256Digest) (snapshot : FileSnapshot) (selected : SymbolMatch) :
    Except SelectionErrorDto SelectionMatchDto :=
  match slice? snapshot.bytes selected.selectedRange with
  | none => .error (internalError "selected range is outside the immutable snapshot")
  | some payload => .ok (SelectionMatchDto.create selected.name (protocolSymbolKind selected.kind) selected.symbolPath selected.detail
      selected.lspRange selected.lspSelectionRange selected.extent
      ⟨selected.selectedRange.start, selected.selectedRange.stop⟩ (sha256 payload) snapshot.path.value snapshot.digest)

/-- The matches so far, and the size of a response with them. -/
structure Measured where
  bytes : ℕ
  matches_ : List SelectionMatchDto := []

/-- An overflow of a size is the same failure as an excess. -/
def enforceResponseSize (bytes : ℕ) : Except SelectionErrorDto Unit :=
  if bytes > maxResponseBytes then .error responseSizeError else .ok ()

def addMatch (surroundings : Surroundings) (snapshot : FileSnapshot) (measured : Measured) (selected : SymbolMatch) :
    Except SelectionErrorDto Measured := do
  let responseMatch ← buildMatch surroundings.sha256 snapshot selected
  let bytes := measured.bytes + (surroundings.toVec responseMatch.content).length + (if measured.matches_ = [] then 0 else 1)
  enforceResponseSize bytes
  return ⟨bytes, measured.matches_ ++ [responseMatch]⟩

def queryDto (query : ValidatedQuery) : SelectionQueryDto :=
  match query.value with
  | .name name => .name name query.kind
  | .byte offset => .position offset query.kind

def buildResponse (surroundings : Surroundings) (snapshot : FileSnapshot) (query : ValidatedQuery) (output : SessionOutput)
    (found : List SymbolMatch) (warnings : List WarningDto) : Except SelectionErrorDto SelectionResponse := do
  let response : SelectionResponse := {
    workspaceIdentityHash := surroundings.workspaceIdentityHash.toPrefixedHex
    source := ⟨snapshot.path.value, snapshot.digest.toPrefixedHex, snapshot.bytes.length⟩
    query := queryDto query
    server := ⟨output.configurationId, output.reportedName, output.reportedVersion, output.positionEncoding⟩
    matches_ := []
    warnings }
  let emptyBytes := (surroundings.toVec response.content).length + 1
  enforceResponseSize emptyBytes
  let measured ← found.foldlM (addMatch surroundings snapshot) ⟨emptyBytes, []⟩
  return { response with matches_ := measured.matches_ }

/-! ## The command -/

def acquireSource (surroundings : Surroundings) (path : String) : Except SelectionErrorDto FileSnapshot := do
  match ← (surroundings.view.acquireExistingFile surroundings.sha256 ⟨path⟩ selectionSnapshotLimits).mapError mapFilesystemError with
  | some snapshot => .ok snapshot
  | none => .error pathNotFound

def decodeSource (snapshot : FileSnapshot) : Except SelectionErrorDto (List Char) :=
  match Utf8.decode snapshot.bytes with
  | some source => .ok source
  | none => .error (report .unsupportedTextEncoding "the source snapshot is not valid UTF-8")

def resolveQuery (query : ValidatedQuery) (symbols : List NormalizedSymbol) (source : List Char) (extent : SelectionExtent)
    (mode : MatchMode) : Except SymbolError (List SymbolMatch) :=
  match query.value with
  | .name name => resolveName symbols source name query.kind extent mode {}
  | .byte byteOffset => resolvePosition symbols source byteOffset query.kind extent mode {}

/-- The matches in the symbols of a server. -/
def resolveSymbols (surroundings : Surroundings) (arguments : SelectArgs) (snapshot : FileSnapshot) (source : List Char)
    (query : ValidatedQuery) (output : SessionOutput) : Except SelectionErrorDto (List SymbolMatch) := do
  let converter ← (PositionConverter.create source snapshot.lineIndex output.positionEncoding {}).mapError mapPositionProtocolError
  let symbols ← ((normalizeDocumentSymbols surroundings.fromValue output.symbols converter {}).run 0).1.mapError mapSymbolError
  (resolveQuery query symbols source arguments.extent (if arguments.allMatches then .all else .unique)).mapError mapSymbolError

def executeInner (surroundings : Surroundings) (arguments : SelectArgs) : Except SelectionErrorDto SelectionResponse := do
  let kind ← parseKind arguments.kind
  validateName arguments.name
  let warnings ← surroundings.warnings.mapError mapFilesystemError
  let snapshot ← acquireSource surroundings arguments.path
  let source ← decodeSource snapshot
  let query ← validateQuery arguments kind source snapshot
  let output ← surroundings.session snapshot
  validateServerIdentity output.reportedName "reported server name"
  validateServerIdentity output.reportedVersion "reported server version"
  let found ← resolveSymbols surroundings arguments snapshot source query output
  buildResponse surroundings snapshot query output found warnings

end Select

end Srcmv.Cli
