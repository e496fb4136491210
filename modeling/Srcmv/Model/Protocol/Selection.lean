import Srcmv.Model.Core.Snapshot
import Srcmv.Model.Lsp.Symbols

/-! # Selection and outline records

What a selection or an outline answers, and the content that its derived serializers write. Known
kinds, extents and server positions of the wire are those of the language server, spelled alike.
How content is written as a text is a parameter.
-/

namespace Srcmv.Protocol

open Srcmv.Core Srcmv.Lsp

/-- A half-open byte selector. -/
structure SelectionByteSelectorDto where
  start : ℕ
  stop : ℕ
deriving DecidableEq

inductive SelectionSymbolKindDto where
  | known (kind : KnownSymbolKind)
  | unknown
deriving DecidableEq

def SelectionSymbolKindDto.asStr : SelectionSymbolKindDto → String
  | known kind => kind.asStr
  | unknown => "unknown"

/-- The query that is recorded in a response. -/
inductive SelectionQueryDto where
  | name (name : String) (symbolKind : Option KnownSymbolKind)
  | position (byteOffset : ℕ) (symbolKind : Option KnownSymbolKind)
deriving DecidableEq

structure SelectionSourceDto where
  path : String
  sha256 : String
  byteLength : ℕ
deriving DecidableEq

structure SelectionServerDto where
  configurationId : Option String
  reportedName : Option String
  reportedVersion : Option String
  positionEncoding : SupportedPositionEncoding
deriving DecidableEq

/-- A source for a request; its precondition is a digest. -/
structure SelectionRequestSourceDto where
  path : String
  selector : SelectionByteSelectorDto
  precondition : String
deriving DecidableEq

structure SelectionMatchDto where
  name : String
  symbolKind : SelectionSymbolKindDto
  symbolPath : List String
  detail : Option String
  lspRange : Range
  lspSelectionRange : Range
  extent : SelectionExtent
  selector : SelectionByteSelectorDto
  selectedPayloadSha256 : String
  selectedByteLength : ℕ
  requestSource : SelectionRequestSourceDto
deriving DecidableEq

structure WarningDto where
  code : String
  message : String
  context : List (String × Content)

structure SelectionResponse where
  workspaceIdentityHash : String
  source : SelectionSourceDto
  query : SelectionQueryDto
  server : SelectionServerDto
  matches_ : List SelectionMatchDto
  warnings : List WarningDto

structure OutlineSymbolDto where
  name : String
  symbolKind : SelectionSymbolKindDto
  symbolPath : List String
  depth : ℕ
  detail : Option String
  startLine : ℕ
  startColumn : Option ℕ
  endLine : ℕ
  endColumn : Option ℕ
  lspRange : Range
  lspSelectionRange : Range
  selector : SelectionByteSelectorDto
deriving DecidableEq

/-- The length and the source of a match follow from its selector. -/
def SelectionMatchDto.create (name : String) (symbolKind : SelectionSymbolKindDto) (symbolPath : List String) (detail : Option String)
    (lspRange lspSelectionRange : Range) (extent : SelectionExtent) (selector : SelectionByteSelectorDto)
    (selectedPayloadSha256 : Sha256Digest) (sourcePath : String) (sourceSha256 : Sha256Digest) : SelectionMatchDto where
  name
  symbolKind
  symbolPath
  detail
  lspRange
  lspSelectionRange
  extent
  selector
  selectedPayloadSha256 := selectedPayloadSha256.toPrefixedHex
  selectedByteLength := selector.stop - selector.start
  requestSource := ⟨sourcePath, selector, sourceSha256.toPrefixedHex⟩

/-! ## Content -/

def naturalContent (value : ℕ) : Content := .natural (UInt64.ofNat value)

def optionContent (value : Option String) : Content := value.elim .null .string

def rangeContent (range : Range) : Content :=
  let position (position : Position) : Content :=
    .map [("line", .natural position.line.toUInt64), ("character", .natural position.character.toUInt64)]
  .map [("start", position range.start), ("end", position range.stop)]

def extentAsStr : SelectionExtent → String
  | .symbol => "symbol"
  | .declarationLines => "declaration_lines"

def encodingAsStr : SupportedPositionEncoding → String
  | .utf8 => "utf-8"
  | .utf16 => "utf-16"
  | .utf32 => "utf-32"

def SelectionByteSelectorDto.content (selector : SelectionByteSelectorDto) : Content :=
  .map [("kind", .string "bytes"), ("start", naturalContent selector.start), ("end", naturalContent selector.stop)]

def SelectionRequestSourceDto.content (source : SelectionRequestSourceDto) : Content :=
  .map [("path", .string source.path), ("selector", source.selector.content),
    ("precondition", .map [("kind", .string "sha256"), ("value", .string source.precondition)])]

def SelectionQueryDto.content : SelectionQueryDto → Content
  | name value symbolKind =>
      .map [("kind", .string "name"), ("name", .string value), ("symbol_kind", optionContent (symbolKind.map KnownSymbolKind.asStr))]
  | position byteOffset symbolKind =>
      .map [("kind", .string "position"), ("byte_offset", naturalContent byteOffset),
        ("symbol_kind", optionContent (symbolKind.map KnownSymbolKind.asStr))]

def SelectionMatchDto.content (selected : SelectionMatchDto) : Content :=
  .map [("name", .string selected.name), ("symbol_kind", .string selected.symbolKind.asStr),
    ("symbol_path", .seq (selected.symbolPath.map .string)), ("detail", optionContent selected.detail),
    ("lsp_range", rangeContent selected.lspRange), ("lsp_selection_range", rangeContent selected.lspSelectionRange),
    ("extent", .string (extentAsStr selected.extent)), ("selector", selected.selector.content),
    ("selected_payload_sha256", .string selected.selectedPayloadSha256),
    ("selected_byte_length", naturalContent selected.selectedByteLength), ("request_source", selected.requestSource.content)]

def SelectionSourceDto.content (source : SelectionSourceDto) : Content :=
  .map [("path", .string source.path), ("sha256", .string source.sha256), ("byte_length", naturalContent source.byteLength)]

def SelectionServerDto.content (server : SelectionServerDto) : Content :=
  .map [("configuration_id", optionContent server.configurationId), ("reported_name", optionContent server.reportedName),
    ("reported_version", optionContent server.reportedVersion), ("position_encoding", .string (encodingAsStr server.positionEncoding))]

def WarningDto.content (warning : WarningDto) : Content :=
  .map [("code", .string warning.code), ("message", .string warning.message), ("context", .map warning.context)]

def SelectionResponse.content (response : SelectionResponse) : Content :=
  .map [("selection_protocol_version", .natural 1), ("workspace_identity_hash", .string response.workspaceIdentityHash),
    ("source", response.source.content), ("query", response.query.content), ("server", response.server.content),
    ("matches", .seq (response.matches_.map SelectionMatchDto.content)), ("warnings", .seq (response.warnings.map WarningDto.content))]

/-! ## Errors -/

inductive SelectionErrorCode where
  | invalidSelectionQuery
  | lspServerNotConfigured
  | selectionNotFound
  | selectionAmbiguous
  | unsupportedTextEncoding
  | lspCapabilityUnavailable
  | lspFlatSymbolsUnsupported
  | lspDocumentSyncUnavailable
  | lspResourceLimitExceeded
  | lspTimeout
  | lspStartFailed
  | lspExited
  | lspProtocolError
  | lspRequestFailed
  | selectionInternalError
deriving DecidableEq

/-- An error without its category and whether it may be retried, which follow from the code. -/
structure SelectionErrorDto where
  code : SelectionErrorCode
  message : String
  context : List (String × Content)

inductive OutlineErrorCode where
  | invalidOutlineQuery
  | lspServerNotConfigured
  | unsupportedTextEncoding
  | lspCapabilityUnavailable
  | lspFlatSymbolsUnsupported
  | lspDocumentSyncUnavailable
  | lspResourceLimitExceeded
  | lspTimeout
  | lspStartFailed
  | lspExited
  | lspProtocolError
  | lspRequestFailed
  | outlineInternalError
deriving DecidableEq

structure OutlineErrorDto where
  code : OutlineErrorCode
  message : String
  context : List (String × Content)

end Srcmv.Protocol
