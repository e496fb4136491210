import Srcmv.Model.Cli.Select

/-! # Outlines of files

An outline lists all symbols of a file in candidate order. It shares the session and the reports of
a selection, which are retargeted, and converts the ends of every symbol back to lines and columns
with the converter that normalized them.
-/

namespace Srcmv.Cli.Outline

open Srcmv.Core Srcmv.Fs Srcmv.Lsp Srcmv.Protocol

/-- The arguments, without those that choose a server and the form of the output. -/
structure OutlineArgs where
  path : String
  kinds : List String := []

def maximumOutlineSymbols : ℕ := 10000

/-- Records are built with the conversions that remain. -/
abbrev Outlining := ExceptT OutlineErrorDto (StateM ℕ)

namespace Outlining

def run {α : Type} (outlining : Outlining α) (scanned : ℕ) : Except OutlineErrorDto α × ℕ :=
  StateT.run (ExceptT.run outlining) scanned

/-- `map_err` on a conversion, whatever its failure. -/
def ofConversion {α : Type} (conversion : Conversion α) (failure : OutlineErrorDto) : Outlining α :=
  ExceptT.mk fun scanned => ((conversion.run scanned).1.mapError fun _ => failure, (conversion.run scanned).2)

end Outlining

/-! ## Reports -/

def outlineInternalError (message : String) : OutlineErrorDto := ⟨.outlineInternalError, message, []⟩

def outlineProtocolError : OutlineErrorDto := ⟨.lspProtocolError, "the immutable source position index is invalid", []⟩

def resourceLimitError (resource : String) (limit : ℕ) : OutlineErrorDto where
  code := .lspResourceLimitExceeded
  message := "the read-only outline exceeded a configured resource limit"
  context := [("limit", naturalContent limit), ("resource", .string resource)]

def outlineCode : SelectionErrorCode → OutlineErrorCode
  | .invalidSelectionQuery => .invalidOutlineQuery
  | .lspServerNotConfigured => .lspServerNotConfigured
  | .unsupportedTextEncoding => .unsupportedTextEncoding
  | .lspCapabilityUnavailable => .lspCapabilityUnavailable
  | .lspFlatSymbolsUnsupported => .lspFlatSymbolsUnsupported
  | .lspDocumentSyncUnavailable => .lspDocumentSyncUnavailable
  | .lspResourceLimitExceeded => .lspResourceLimitExceeded
  | .lspTimeout => .lspTimeout
  | .lspStartFailed => .lspStartFailed
  | .lspExited => .lspExited
  | .lspProtocolError => .lspProtocolError
  | .lspRequestFailed => .lspRequestFailed
  | .selectionNotFound => .outlineInternalError
  | .selectionAmbiguous => .outlineInternalError
  | .selectionInternalError => .outlineInternalError

def outlineMessage (original : String) : String :=
  if original = "semantic selection exceeded a configured resource limit" then
    "the read-only outline exceeded a configured resource limit"
  else if original = "the language server did not respond before the selection deadline" then
    "the language server did not respond before the outline deadline"
  else if original = "the language server exited before selection completed" then
    "the language server exited before the outline completed"
  else original

/-- A report of a selection as one of an outline. -/
def retargetReport (report : SelectionErrorDto) : OutlineErrorDto where
  code := outlineCode report.code
  message := outlineMessage report.message
  context := report.context

def outlineSymbolError (error : SymbolError) : OutlineErrorDto := retargetReport (Select.mapSymbolError error)

/-! ## Records -/

def parseKinds (values : List String) : Except OutlineErrorDto (List KnownSymbolKind) :=
  values.mapM fun value =>
    match KnownSymbolKind.fromStr value with
    | none => .error ⟨.invalidOutlineQuery, "the symbol kind is not recognized", []⟩
    | some kind => .ok kind

def filterKinds (candidates : List NormalizedSymbol) (requested : List KnownSymbolKind) : List NormalizedSymbol :=
  candidates.filter fun candidate => requested.isEmpty || requested.any fun kind => candidate.kind = .known kind

def enforceOutlineLimit (count : ℕ) : Except OutlineErrorDto Unit :=
  if count > maximumOutlineSymbols then .error (resourceLimitError "outline_symbols" maximumOutlineSymbols) else .ok ()

def outlineSymbol (converter : PositionConverter) (candidate : NormalizedSymbol) : Outlining OutlineSymbolDto := do
  let (startLine, startColumn) ← Outlining.ofConversion (converter.byteToUserLineScalar candidate.byteRange.start)
    (outlineInternalError "the symbol start offset has no physical line")
  match startColumn with
  | none => throw (outlineInternalError "the symbol start offset has no scalar column")
  | some startColumn => do
      let (endLine, endColumn) ← Outlining.ofConversion (converter.byteToUserLineScalar candidate.byteRange.stop)
        (outlineInternalError "the symbol end offset has no physical line")
      return {
        name := candidate.name
        symbolKind := Select.protocolSymbolKind candidate.kind
        symbolPath := candidate.symbolPath
        depth := candidate.symbolPath.length - 1
        detail := candidate.detail
        startLine
        startColumn := some startColumn
        endLine
        endColumn
        lspRange := candidate.lspRange
        lspSelectionRange := candidate.lspSelectionRange
        selector := ⟨candidate.byteRange.start, candidate.byteRange.stop⟩ }

/-- The records of the symbols of a server. -/
def outlineSymbols (surroundings : Surroundings) (requested : List KnownSymbolKind) (snapshot : FileSnapshot) (source : List Char)
    (output : SessionOutput) : Except OutlineErrorDto (List OutlineSymbolDto) := do
  let converter ← (PositionConverter.create source snapshot.lineIndex output.positionEncoding {}).mapError fun _ => outlineProtocolError
  let normalized := (normalizeDocumentSymbols surroundings.fromValue output.symbols converter {}).run 0
  let symbols ← normalized.1.mapError outlineSymbolError
  let filtered := filterKinds (orderUniqueCandidates symbols) requested
  enforceOutlineLimit filtered.length
  ((filtered.mapM (outlineSymbol converter)).run normalized.2).1

def executeInner (surroundings : Surroundings) (arguments : OutlineArgs) : Except OutlineErrorDto (List OutlineSymbolDto) := do
  let requested ← parseKinds arguments.kinds
  let _ ← surroundings.warnings.mapError (retargetReport ∘ Select.mapFilesystemError)
  let snapshot ← (Select.acquireSource surroundings arguments.path).mapError retargetReport
  let source ← (Select.decodeSource snapshot).mapError retargetReport
  let output ← (surroundings.session snapshot).mapError retargetReport
  (Select.validateServerIdentity output.reportedName "reported server name").mapError retargetReport
  (Select.validateServerIdentity output.reportedVersion "reported server version").mapError retargetReport
  outlineSymbols surroundings requested snapshot source output

end Srcmv.Cli.Outline
