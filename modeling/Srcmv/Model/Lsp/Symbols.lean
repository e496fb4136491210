import Mathlib.Data.List.Destutter
import Mathlib.Data.List.DropRight
import Mathlib.Data.List.Sort
import Srcmv.Model.Lsp.Position
import Srcmv.ToMathlib.Serde

/-! # Document symbols

A response is decoded into a forest of symbols, which an explicit stack flattens while the ranges of
every symbol are converted against one budget. Queries resolve against the flattened symbols in
candidate order, and the extent of a match may be widened to whole lines. The derived deserializer
of the forest is a parameter.
-/

namespace Srcmv.Lsp

open Srcmv.Core

structure SymbolLimits where
  maximumRawSymbols : UInt64 := 100000
  maximumFlattenedSymbols : UInt64 := 100000
  maximumDepth : UInt64 := 256
  maximumNameBytes : UInt64 := 4 * 1024
  maximumDetailBytes : UInt64 := 16 * 1024
  maximumPathBytes : UInt64 := 64 * 1024
  maximumCandidateStorageBytes : UInt64 := 64 * 1024 * 1024
  maximumMatches : UInt64 := 1000
  maximumAmbiguityCandidates : UInt64 := 50
deriving DecidableEq

/-- The kinds that a query may name. -/
inductive KnownSymbolKind where
  | file | module_ | namespace_ | package | class_ | method | property | field | constructor | enum
  | interface | function | variable_ | constant | string | number | boolean | array | object | key
  | null | enumMember | struct | event | operator | typeParameter
deriving DecidableEq

namespace KnownSymbolKind

def all : List KnownSymbolKind :=
  [file, module_, namespace_, package, class_, method, property, field, constructor, enum, interface, function,
    variable_, constant, string, number, boolean, array, object, key, null, enumMember, struct, event, operator,
    typeParameter]

def asStr : KnownSymbolKind → String
  | file => "file"
  | module_ => "module"
  | namespace_ => "namespace"
  | package => "package"
  | class_ => "class"
  | method => "method"
  | property => "property"
  | field => "field"
  | constructor => "constructor"
  | enum => "enum"
  | interface => "interface"
  | function => "function"
  | variable_ => "variable"
  | constant => "constant"
  | string => "string"
  | number => "number"
  | boolean => "boolean"
  | array => "array"
  | object => "object"
  | key => "key"
  | null => "null"
  | enumMember => "enum_member"
  | struct => "struct"
  | event => "event"
  | operator => "operator"
  | typeParameter => "type_parameter"

/-- Kinds are numbered in order from one. -/
def knownKindNumber (kind : KnownSymbolKind) : ℕ := all.idxOf kind + 1

/-- The kind of a spelling. -/
def fromStr (value : String) : Option KnownSymbolKind := all.find? fun kind => kind.asStr = value

end KnownSymbolKind

/-- A kind, with the number of one that is not standardized. -/
inductive NormalizedSymbolKind where
  | known (kind : KnownSymbolKind)
  | unknown (value : UInt32)
deriving DecidableEq

namespace NormalizedSymbolKind

def asStr : NormalizedSymbolKind → String
  | known kind => kind.asStr
  | unknown _ => "unknown"

def numeric : NormalizedSymbolKind → ℕ
  | known kind => kind.knownKindNumber
  | unknown value => value.toNat

end NormalizedSymbolKind

/-- A decoded symbol; its kind is already normalized. -/
structure DocumentSymbol where
  name : String
  detail : Option String
  kind : NormalizedSymbolKind
  range : Range
  selectionRange : Range
  children : Option (List DocumentSymbol)

structure NormalizedSymbol where
  name : String
  detail : Option String
  kind : NormalizedSymbolKind
  symbolPath : List String
  lspRange : Range
  lspSelectionRange : Range
  byteRange : ByteRange
  selectionByteRange : ByteRange
deriving DecidableEq

inductive SelectionExtent where
  | symbol
  | declarationLines
deriving DecidableEq

inductive MatchMode where
  | unique
  | all
deriving DecidableEq

structure SymbolMatch where
  name : String
  detail : Option String
  kind : NormalizedSymbolKind
  symbolPath : List String
  lspRange : Range
  lspSelectionRange : Range
  symbolRange : ByteRange
  selectedRange : ByteRange
  extent : SelectionExtent
deriving DecidableEq

structure AmbiguityCandidate where
  name : String
  kind : NormalizedSymbolKind
  symbolPath : List String
  byteRange : ByteRange
deriving DecidableEq

inductive SymbolError where
  | flatSymbolsUnsupported
  | malformedDocumentSymbols
  | resourceLimitExceeded (resource : String) (maximum : UInt64)
  | position (error : PositionError)
  | selectionRangeNotContained
  | queryPositionOutOfBounds
  | notFound
  | ambiguous (total : ℕ) (candidates : List AmbiguityCandidate)
  | invalidExtent
deriving DecidableEq

/-! ## The response -/

/-- `Value::get` of a member. -/
def hasMember (name : String) : Content → Bool
  | .map members => members.any fun member => member.1 = name
  | _ => false

/-- `fromValue` is the derived deserializer of the generated types. -/
def decodeHierarchicalResponse (fromValue : List Content → Option (List DocumentSymbol)) :
    Content → Except SymbolError (List DocumentSymbol)
  | .null => .ok []
  | .seq [] => .ok []
  | .seq items =>
      if items.all (hasMember "location") then .error .flatSymbolsUnsupported
      else if !items.all fun item => hasMember "range" item && hasMember "selectionRange" item then
        .error .malformedDocumentSymbols
      else
        match fromValue items with
        | none => .error .malformedDocumentSymbols
        | some roots => .ok roots
  | _ => .error .malformedDocumentSymbols

/-! ## Flattening -/

/-- Conversions of ranges, with the failures of symbols. -/
abbrev Normalizing := ExceptT SymbolError (StateM ℕ)

namespace Normalizing

def run {α : Type} (normalizing : Normalizing α) (scanned : ℕ) : Except SymbolError α × ℕ :=
  StateT.run (ExceptT.run normalizing) scanned

def ofExcept {α : Type} (result : Except SymbolError α) : Normalizing α := ExceptT.mk (pure result)

/-- `?` on a conversion. -/
def ofConversion {α : Type} (conversion : Conversion α) : Normalizing α :=
  ExceptT.mk fun scanned => ((conversion.run scanned).1.mapError .position, (conversion.run scanned).2)

end Normalizing

def resourceError (resource : String) (maximum : UInt64) : SymbolError := .resourceLimitExceeded resource maximum

/-- A checked sum within its limit; an overflow is the same failure. -/
def enforceLimit (actual : ℕ) (maximum : UInt64) (resource : String) : Except SymbolError Unit :=
  if actual > maximum.toNat then .error (resourceError resource maximum) else .ok ()

def rejectSymbol (rejected : Prop) [Decidable rejected] (failure : SymbolError) : Except SymbolError Unit :=
  if rejected then .error failure else .ok ()

def maximumLspUinteger : ℕ := 2147483647

def wireRangeIsValid (range : Range) : Bool :=
  [range.start, range.stop].all fun position =>
    position.line.toNat ≤ maximumLspUinteger && position.character.toNat ≤ maximumLspUinteger

def rangeContains (outer inner : ByteRange) : Bool := outer.start ≤ inner.start && inner.stop ≤ outer.stop

/-- Bytes of a name, of a detail or of a part of a path. -/
def textBytes (text : String) : ℕ := Utf8.size text.toList

/-- A symbol to visit below its parents, of which the nearest is first. -/
structure PendingSymbol where
  symbol : DocumentSymbol
  parentPath : List String
  parentPathBytes : ℕ
  depth : ℕ

namespace PendingSymbol

def pathNode (pending : PendingSymbol) : List String := pending.symbol.name :: pending.parentPath

def pathBytes (pending : PendingSymbol) : ℕ := pending.parentPathBytes + textBytes pending.symbol.name

/-- The strings that a candidate owns, its path counted by its bytes. -/
def ownedBytes (pending : PendingSymbol) : ℕ :=
  textBytes pending.symbol.name + textBytes pending.symbol.name + (pending.symbol.detail.map textBytes).getD 0 + pending.pathBytes

def childrenPending (pending : PendingSymbol) : List PendingSymbol :=
  (pending.symbol.children.getD []).map fun child => ⟨child, pending.pathNode, pending.pathBytes, pending.depth + 1⟩

end PendingSymbol

/-- Running totals, and the symbols so far. -/
structure Flattening where
  rawCount : ℕ := 0
  flattenedCount : ℕ := 0
  candidateStorageBytes : ℕ := 0
  normalized : List NormalizedSymbol := []

/-- The checks of a symbol before its ranges are converted. -/
def checkPending (limits : SymbolLimits) (rawCount : ℕ) (pending : PendingSymbol) : Except SymbolError Unit := do
  enforceLimit rawCount limits.maximumRawSymbols "raw_document_symbols"
  enforceLimit pending.depth limits.maximumDepth "symbol_nesting_depth"
  rejectSymbol (pending.symbol.name = "" ∨ !wireRangeIsValid pending.symbol.range ∨ !wireRangeIsValid pending.symbol.selectionRange)
    .malformedDocumentSymbols
  enforceLimit (textBytes pending.symbol.name) limits.maximumNameBytes "symbol_name_bytes"
  pending.symbol.detail.forM fun detail => enforceLimit (textBytes detail) limits.maximumDetailBytes "symbol_detail_bytes"
  enforceLimit pending.pathBytes limits.maximumPathBytes "symbol_path_bytes"

/-- The checks of the children before they are pushed on a stack of the given height. -/
def checkChildren (limits : SymbolLimits) (height rawCount : ℕ) (pending : PendingSymbol) : Except SymbolError Unit :=
  match pending.symbol.children with
  | none => .ok ()
  | some children => do
      enforceLimit (height + rawCount + children.length) limits.maximumRawSymbols "raw_document_symbols"
      rejectSymbol (pending.depth + 1 > u64Max) (resourceError "symbol_nesting_depth" limits.maximumDepth)

/-- One iteration of the loop, above a stack of the given height. -/
def visitSymbol (converter : PositionConverter) (limits : SymbolLimits) (height : ℕ) (flattening : Flattening)
    (pending : PendingSymbol) : Normalizing Flattening := do
  Normalizing.ofExcept (checkPending limits (flattening.rawCount + 1) pending)
  let byteRange ← Normalizing.ofConversion (converter.lspRangeToByteRange pending.symbol.range)
  let selectionByteRange ← Normalizing.ofConversion (converter.lspRangeToByteRange pending.symbol.selectionRange)
  Normalizing.ofExcept (rejectSymbol (!rangeContains byteRange selectionByteRange) .selectionRangeNotContained)
  let candidateStorageBytes := flattening.candidateStorageBytes + pending.ownedBytes
  Normalizing.ofExcept (enforceLimit candidateStorageBytes limits.maximumCandidateStorageBytes "symbol_candidate_storage_bytes")
  Normalizing.ofExcept (checkChildren limits height (flattening.rawCount + 1) pending)
  Normalizing.ofExcept (enforceLimit (flattening.flattenedCount + 1) limits.maximumFlattenedSymbols "flattened_document_symbols")
  return {
    rawCount := flattening.rawCount + 1
    flattenedCount := flattening.flattenedCount + 1
    candidateStorageBytes
    normalized := flattening.normalized ++ [{
      name := pending.symbol.name
      detail := pending.symbol.detail
      kind := pending.symbol.kind
      symbolPath := pending.pathNode.reverse
      lspRange := pending.symbol.range
      lspSelectionRange := pending.symbol.selectionRange
      byteRange
      selectionByteRange }] }

mutual

/-- The symbols of a tree. -/
def DocumentSymbol.nodes : DocumentSymbol → ℕ
  | ⟨_, _, _, _, _, children⟩ => 1 + childNodes children

def childNodes : Option (List DocumentSymbol) → ℕ
  | none => 0
  | some children => forestNodes children

def forestNodes : List DocumentSymbol → ℕ
  | [] => 0
  | root :: rest => root.nodes + forestNodes rest

end

/-- The symbols below a stack. -/
def stackNodes (stack : List PendingSymbol) : ℕ := (stack.map fun pending => pending.symbol.nodes).sum

theorem forestNodes_eq (forest : List DocumentSymbol) : forestNodes forest = (forest.map DocumentSymbol.nodes).sum := by
  induction forest with
  | nil => rfl
  | cons root rest ih => rw [forestNodes, ih, List.map_cons, List.sum_cons]

theorem stackNodes_children (pending : PendingSymbol) : 1 + stackNodes pending.childrenPending = pending.symbol.nodes := by
  obtain ⟨⟨name, detail, kind, range, selectionRange, children⟩, parentPath, parentPathBytes, depth⟩ := pending
  rw [DocumentSymbol.nodes, stackNodes, PendingSymbol.childrenPending, List.map_map]
  cases children with
  | none => rfl
  | some children => rw [childNodes, forestNodes_eq]; rfl

/-- The loop; the symbol to visit next is first on the stack. -/
def flattenFrom (converter : PositionConverter) (limits : SymbolLimits) (stack : List PendingSymbol) (flattening : Flattening) :
    Normalizing (List NormalizedSymbol) :=
  match stack with
  | [] => return flattening.normalized
  | pending :: rest => do
      let next ← visitSymbol converter limits rest.length flattening pending
      flattenFrom converter limits (pending.childrenPending ++ rest) next
termination_by stackNodes stack
decreasing_by
  simp only [stackNodes, List.map_append, List.sum_append, List.map_cons, List.sum_cons]
  have children := stackNodes_children pending
  rw [stackNodes] at children
  omega

def normalizeHierarchicalSymbols (roots : List DocumentSymbol) (converter : PositionConverter) (limits : SymbolLimits) :
    Normalizing (List NormalizedSymbol) := do
  Normalizing.ofExcept (enforceLimit roots.length limits.maximumRawSymbols "raw_document_symbols")
  flattenFrom converter limits (roots.map fun root => ⟨root, [], 0, 1⟩) {}

def normalizeDocumentSymbols (fromValue : List Content → Option (List DocumentSymbol)) (response : Content)
    (converter : PositionConverter) (limits : SymbolLimits) : Normalizing (List NormalizedSymbol) := do
  let roots ← Normalizing.ofExcept (decodeHierarchicalResponse fromValue response)
  normalizeHierarchicalSymbols roots converter limits

/-! ## Candidates -/

def compareRanges (left right : ByteRange) : Ordering :=
  (compare left.start right.start).then (compare left.stop right.stop)

/-- Strings compare by scalars, which is the order of their bytes. -/
def compareKinds (left right : NormalizedSymbolKind) : Ordering :=
  (compare left.asStr right.asStr).then (compare left.numeric right.numeric)

def compareCandidates (left right : NormalizedSymbol) : Ordering :=
  (compareRanges left.byteRange right.byteRange).then
    ((compareKinds left.kind right.kind).then
      ((compare left.symbolPath right.symbolPath).then (compare left.name right.name)))

/-- The key of the stable sort. -/
def compareSorted (left right : NormalizedSymbol) : Ordering :=
  (compareCandidates left right).then
    ((compareRanges left.selectionByteRange right.selectionByteRange).then (compare left.detail right.detail))

def duplicateKeyEqual (left right : NormalizedSymbol) : Bool :=
  left.lspRange = right.lspRange && left.kind = right.kind && left.symbolPath = right.symbolPath && left.name = right.name

/-- Adjacent duplicates are removed from the sorted symbols. -/
def prepareCandidates (symbols : List NormalizedSymbol) : List NormalizedSymbol :=
  (symbols.insertionSort fun left right => (compareSorted left right).isLE).destutter
    fun kept next => duplicateKeyEqual next kept = false

def orderUniqueCandidates (symbols : List NormalizedSymbol) : List NormalizedSymbol := prepareCandidates symbols

/-! ## Extents -/

/-- Where the line of an offset begins. -/
def physicalLineStart (bytes : Bytes) (start : ℕ) : ℕ :=
  ((bytes.take start).rdropWhile fun byte => !isTerminatorByte byte).length

/-- The loop of `declaration_line_end` over the bytes from the cursor on. -/
def declarationLineEndFrom (stop cursor : ℕ) : Bytes → ℕ
  | [] => cursor
  | byte :: rest =>
      if byte = 32 ∨ byte = 9 then declarationLineEndFrom stop (cursor + 1) rest
      else if byte = 13 then if rest.head? = some 10 then cursor + 2 else cursor + 1
      else if byte = 10 then cursor + 1
      else stop

def declarationLineEnd (bytes : Bytes) (stop : ℕ) : ℕ := declarationLineEndFrom stop stop (bytes.drop stop)

def expandedStart (bytes : Bytes) (start : ℕ) : ℕ :=
  if ((bytes.take start).drop (physicalLineStart bytes start)).all fun byte => byte = 32 || byte = 9 then
    physicalLineStart bytes start
  else start

def expandedEnd (bytes : Bytes) (stop : ℕ) : ℕ :=
  if stop > 0 ∧ (bytes[stop - 1]?.any isTerminatorByte) then stop else declarationLineEnd bytes stop

def applyExtent (snapshot : List Char) (range : ByteRange) (extent : SelectionExtent) : Except SymbolError ByteRange :=
  if range.start ≥ range.stop ∨ range.stop > Utf8.size snapshot then .error .invalidExtent
  else if !Utf8.isCharBoundary snapshot range.start ∨ !Utf8.isCharBoundary snapshot range.stop then .error .invalidExtent
  else
    match extent with
    | .symbol => .ok range
    | .declarationLines =>
        let start := expandedStart (Utf8.encode snapshot) range.start
        let stop := expandedEnd (Utf8.encode snapshot) range.stop
        if start ≥ stop ∨ stop > Utf8.size snapshot then .error .invalidExtent else .ok ⟨start, stop⟩

/-! ## Resolution -/

def kindMatches (actual : NormalizedSymbolKind) (requested : Option KnownSymbolKind) : Bool :=
  requested.all fun kind => actual = .known kind

/-- The end of the file is within the symbols that end there. -/
def containsPosition (range : ByteRange) (position fileLength : ℕ) : Bool :=
  (range.start ≤ position && position < range.stop) ||
    (position = fileLength && range.stop = fileLength && range.start < range.stop)

def rangeLength (range : ByteRange) : ℕ := range.stop - range.start

def NormalizedSymbol.select (symbol : NormalizedSymbol) (snapshot : List Char) (extent : SelectionExtent) :
    Except SymbolError SymbolMatch := do
  let selectedRange ← applyExtent snapshot symbol.byteRange extent
  return {
    name := symbol.name
    detail := symbol.detail
    kind := symbol.kind
    symbolPath := symbol.symbolPath
    lspRange := symbol.lspRange
    lspSelectionRange := symbol.lspSelectionRange
    symbolRange := symbol.byteRange
    selectedRange
    extent }

def finishResolution (candidates : List NormalizedSymbol) (snapshot : List Char) (extent : SelectionExtent) (mode : MatchMode)
    (limits : SymbolLimits) : Except SymbolError (List SymbolMatch) :=
  if mode = .all ∧ candidates.length > limits.maximumMatches.toNat then
    .error (resourceError "selection_matches" limits.maximumMatches)
  else if mode = .unique ∧ candidates = [] then .error .notFound
  else if mode = .unique ∧ candidates.length > 1 then
    .error (.ambiguous candidates.length ((candidates.take limits.maximumAmbiguityCandidates.toNat).map fun symbol =>
      ⟨symbol.name, symbol.kind, symbol.symbolPath, symbol.byteRange⟩))
  else candidates.mapM fun symbol => symbol.select snapshot extent

def resolveName (symbols : List NormalizedSymbol) (snapshot : List Char) (name : String) (kind : Option KnownSymbolKind)
    (extent : SelectionExtent) (mode : MatchMode) (limits : SymbolLimits) : Except SymbolError (List SymbolMatch) :=
  finishResolution (prepareCandidates (symbols.filter fun symbol => symbol.name = name && kindMatches symbol.kind kind))
    snapshot extent mode limits

/-- The shortest candidates; those of one length are together once they are sorted. -/
def shortestCandidates (candidates : List NormalizedSymbol) : List NormalizedSymbol :=
  let sorted := candidates.insertionSort fun left right =>
    ((compare (rangeLength left.byteRange) (rangeLength right.byteRange)).then (compareCandidates left right)).isLE
  match sorted with
  | [] => []
  | first :: _ => sorted.takeWhile fun candidate => rangeLength candidate.byteRange = rangeLength first.byteRange

def resolvePosition (symbols : List NormalizedSymbol) (snapshot : List Char) (byteOffset : ℕ) (kind : Option KnownSymbolKind)
    (extent : SelectionExtent) (mode : MatchMode) (limits : SymbolLimits) : Except SymbolError (List SymbolMatch) :=
  if byteOffset > Utf8.size snapshot ∨ !Utf8.isCharBoundary snapshot byteOffset then .error .queryPositionOutOfBounds
  else
    let candidates := prepareCandidates (symbols.filter fun symbol =>
      kindMatches symbol.kind kind && containsPosition symbol.byteRange byteOffset (Utf8.size snapshot))
    finishResolution (if mode = .unique then shortestCandidates candidates else candidates) snapshot extent mode limits

end Srcmv.Lsp
