import Srcmv.Model.Core.LineMetrics
import Srcmv.Model.Core.Snapshot
import Srcmv.ToMathlib.Utf8

/-! # Positions of a language server

Server positions count encoded units from the start of a line, user positions count scalars, and
both name bytes of one immutable snapshot. Lines are found by binary search over the line index.
Scans are charged against one budget per converter, and a failed conversion keeps its charges.
-/

namespace Srcmv.Lsp

open Srcmv.Core

inductive SupportedPositionEncoding where
  | utf8
  | utf16
  | utf32
deriving DecidableEq

inductive PositionError where
  | invalidSnapshotIndex
  | nonexistentLine
  | characterSplitsCodeUnit
  | invalidRange
  | invalidUserPosition
  | byteNotRepresentable
  | workLimitExceeded
deriving DecidableEq

/-- A zero-based line and an offset in encoded units. -/
structure Position where
  line : UInt32
  character : UInt32
deriving DecidableEq

structure Range where
  start : Position
  stop : Position
deriving DecidableEq

structure PositionLimits where
  maximumCodePointsScanned : ℕ := 16 * 1024 * 1024
deriving DecidableEq

/-- Scalars examined so far are threaded through conversions. -/
abbrev Conversion := ExceptT PositionError (StateM ℕ)

namespace Conversion

/-- The result and the scalars examined by then. -/
def run {α : Type} (conversion : Conversion α) (scanned : ℕ) : Except PositionError α × ℕ :=
  StateT.run (ExceptT.run conversion) scanned

def ofExcept {α : Type} (result : Except PositionError α) : Conversion α := ExceptT.mk (pure result)

end Conversion

/-- `u32::try_from`. -/
def toU32 (value : ℕ) (failure : PositionError) : Except PositionError UInt32 :=
  if value < 2 ^ 32 then .ok (UInt32.ofNat value) else .error failure

/-- `u64::checked_add` of offsets or counts, given their sum. -/
def checkedSum (sum : ℕ) (failure : PositionError) : Except PositionError ℕ :=
  if sum ≤ u64Max then .ok sum else .error failure

/-- `char::len_utf16`. -/
def lenUtf16 (scalar : Char) : ℕ := if scalar.toNat < 2 ^ 16 then 1 else 2

/-- A converter without its count of scanned scalars. -/
structure PositionConverter where
  text : List Char
  lineIndex : LineIndex
  encoding : SupportedPositionEncoding
  limits : PositionLimits

structure LineBounds where
  line : UInt32
  start : ℕ
  contentEnd : ℕ
deriving DecidableEq

namespace PositionConverter

/-- `new`: the index must describe bytes of this length. -/
def create (text : List Char) (lineIndex : LineIndex) (encoding : SupportedPositionEncoding) (limits : PositionLimits) :
    Except PositionError PositionConverter :=
  if Utf8.size text > u64Max then .error .invalidSnapshotIndex
  else
    match lineIndex.metricsForRange (Utf8.encode text) ⟨0, Utf8.size text⟩ with
    | .error _ => .error .invalidSnapshotIndex
    | .ok _ => .ok ⟨text, lineIndex, encoding, limits⟩

variable (converter : PositionConverter)

def chargeCodePoint : Conversion Unit := do
  let scanned ← get
  if scanned + 1 > u64Max ∨ scanned + 1 > converter.limits.maximumCodePointsScanned then throw .workLimitExceeded
  else set (scanned + 1)

/-! ## Lines -/

def terminatorLength (bytes : Bytes) : ℕ :=
  if [13, 10].isSuffixOf bytes then 2
  else if [13].isSuffixOf bytes || [10].isSuffixOf bytes then 1
  else 0

def contentEnd (start physicalEnd : ℕ) : Except PositionError ℕ :=
  match slice? (Utf8.encode converter.text) ⟨start, physicalEnd⟩ with
  | none => .error .invalidSnapshotIndex
  | some bytes =>
      if terminatorLength bytes ≤ physicalEnd then .ok (physicalEnd - terminatorLength bytes)
      else .error .invalidSnapshotIndex

def lineBounds (zeroBasedLine : UInt32) : Except PositionError LineBounds :=
  match converter.lineIndex.lineStart (zeroBasedLine.toNat + 1) with
  | none => .error .nonexistentLine
  | some start =>
      match converter.lineIndex.lineEnd (zeroBasedLine.toNat + 1) with
      | none => .error .invalidSnapshotIndex
      | some physicalEnd => do return ⟨zeroBasedLine, start, ← converter.contentEnd start physicalEnd⟩

def lineContent (bounds : LineBounds) : Except PositionError (List Char) :=
  match Utf8.get converter.text bounds.start bounds.contentEnd with
  | none => .error .invalidSnapshotIndex
  | some content => .ok content

/-- Exact zero-based byte offsets of a user; the end of the text is valid. -/
def validateUserByte (byteOffset : ℕ) : Except PositionError ℕ :=
  if byteOffset > Utf8.size converter.text ∨ !Utf8.isCharBoundary converter.text byteOffset then
    .error .invalidUserPosition
  else .ok byteOffset

/-- The first of the lines `low..=high` whose end is not `before`, or else `high`. -/
def searchLine (before : ℕ → Bool) (low high : ℕ) : Except PositionError ℕ :=
  if low < high then
    match converter.lineIndex.lineEnd (low + (high - low) / 2) with
    | none => .error .invalidSnapshotIndex
    | some stop =>
        if before stop then searchLine before (low + (high - low) / 2 + 1) high
        else searchLine before low (low + (high - low) / 2)
  else .ok low
termination_by high - low

/-- The line found and its end. -/
def candidateLine (before : ℕ → Bool) : Except PositionError (ℕ × ℕ) := do
  let low ← converter.searchLine before 1 converter.lineIndex.lineCount
  match converter.lineIndex.lineEnd low with
  | none => .error .invalidSnapshotIndex
  | some candidateEnd => return (low, candidateEnd)

/-- Both searches begin with a boundary between scalars of a text that has a line. -/
def validateSearched (byteOffset : ℕ) : Except PositionError Unit :=
  match converter.validateUserByte byteOffset with
  | .error _ => .error .byteNotRepresentable
  | .ok _ => if converter.lineIndex.lineCount = 0 then .error .byteNotRepresentable else .ok ()

def lineForByte (byteOffset : ℕ) : Except PositionError LineBounds := do
  converter.validateSearched byteOffset
  let (low, candidateEnd) ← converter.candidateLine fun stop => stop < byteOffset
  let selectedLine := if candidateEnd = byteOffset ∧ low < converter.lineIndex.lineCount then low + 1 else low
  let bounds ← converter.lineBounds (← toU32 (selectedLine - 1) .byteNotRepresentable)
  if byteOffset < bounds.start ∨ byteOffset > bounds.contentEnd then .error .byteNotRepresentable
  else return bounds

/-! ## Units of a line -/

/-- The loop of `encoded_units_to_byte` from a scalar on. -/
def encodedUnitsFrom (width : Char → ℕ) (content : List Char) (target : ℕ) : List Char → ℕ → ℕ → Conversion ℕ
  | [], _, _ => return Utf8.size content
  | scalar :: rest, byte, units =>
      if units = target then return byte
      else do
        converter.chargeCodePoint
        let next ← Conversion.ofExcept (checkedSum (units + width scalar) .invalidSnapshotIndex)
        if target < next then throw .characterSplitsCodeUnit
        else encodedUnitsFrom width content target rest (byte + scalar.utf8Size) next

def encodedUnitsToByte (content : List Char) (character : UInt32) (width : Char → ℕ) : Conversion ℕ :=
  converter.encodedUnitsFrom width content character.toNat content 0 0

def utf8UnitsToByte (content : List Char) (character : UInt32) : Except PositionError ℕ :=
  if character.toNat ≥ Utf8.size content then .ok (Utf8.size content)
  else if !Utf8.isCharBoundary content character.toNat then .error .characterSplitsCodeUnit
  else .ok character.toNat

/-- The loop of `byte_to_encoded_units` from a scalar on. -/
def unitsBefore (width : Char → ℕ) (byteOffset : ℕ) : List Char → ℕ → ℕ → Conversion ℕ
  | [], _, units => return units
  | scalar :: rest, byte, units =>
      if byte = byteOffset then return units
      else do
        converter.chargeCodePoint
        let next ← Conversion.ofExcept (checkedSum (units + width scalar) .invalidSnapshotIndex)
        unitsBefore width byteOffset rest (byte + scalar.utf8Size) next

def byteToEncodedUnits (content : List Char) (byteOffset : ℕ) (width : Char → ℕ) : Conversion UInt32 := do
  Conversion.ofExcept (toU32 (← converter.unitsBefore width byteOffset content 0 0) .byteNotRepresentable)

/-- The loop of `scalar_units_to_byte_exact` from a scalar on. -/
def scalarUnitsFrom (content : List Char) (target : ℕ) : List Char → ℕ → ℕ → Conversion ℕ
  | [], _, scalars => if scalars = target then return Utf8.size content else throw .invalidUserPosition
  | scalar :: rest, byte, scalars =>
      if scalars = target then return byte
      else do
        converter.chargeCodePoint
        let next ← Conversion.ofExcept (checkedSum (scalars + 1) .invalidSnapshotIndex)
        scalarUnitsFrom content target rest (byte + scalar.utf8Size) next

def scalarUnitsToByteExact (content : List Char) (target : ℕ) : Conversion ℕ :=
  converter.scalarUnitsFrom content target content 0 0

/-- The loop of `scalar_column_before`. -/
def countScalars : List Char → ℕ → Conversion ℕ
  | [], scalars => return scalars
  | _ :: rest, scalars => do
      converter.chargeCodePoint
      countScalars rest (← Conversion.ofExcept (checkedSum (scalars + 1) .workLimitExceeded))

def scalarColumnBefore (bounds : LineBounds) (byteOffset : ℕ) : Conversion ℕ :=
  if byteOffset < bounds.start then throw .invalidSnapshotIndex
  else
    match Utf8.get converter.text bounds.start byteOffset with
    | none => throw .invalidSnapshotIndex
    | some before => do
        let scalars ← converter.countScalars before 0
        Conversion.ofExcept (checkedSum (scalars + 1) .workLimitExceeded)

/-! ## Conversions -/

/-- The byte of a line's content that a character names in the encoding. -/
def characterToByte (content : List Char) (character : UInt32) : Conversion ℕ :=
  match converter.encoding with
  | .utf8 => Conversion.ofExcept (utf8UnitsToByte content character)
  | .utf16 => converter.encodedUnitsToByte content character lenUtf16
  | .utf32 => converter.encodedUnitsToByte content character fun _ => 1

def byteToCharacter (content : List Char) (relative : ℕ) : Conversion UInt32 :=
  match converter.encoding with
  | .utf8 => Conversion.ofExcept (toU32 relative .byteNotRepresentable)
  | .utf16 => converter.byteToEncodedUnits content relative lenUtf16
  | .utf32 => converter.byteToEncodedUnits content relative fun _ => 1

/-- Convert a server position; an oversized character is lowered to the content end. -/
def lspPositionToByte (position : Position) : Conversion ℕ := do
  let bounds ← Conversion.ofExcept (converter.lineBounds position.line)
  let content ← Conversion.ofExcept (converter.lineContent bounds)
  let relative ← converter.characterToByte content position.character
  Conversion.ofExcept (checkedSum (bounds.start + relative) .invalidSnapshotIndex)

def lspRangeToByteRange (range : Range) : Conversion ByteRange := do
  let start ← converter.lspPositionToByte range.start
  let stop ← converter.lspPositionToByte range.stop
  if start ≥ stop ∨ stop > Utf8.size converter.text then throw .invalidRange
  else return ⟨start, stop⟩

def byteToLspPosition (byteOffset : ℕ) : Conversion Position := do
  let bounds ← Conversion.ofExcept (converter.lineForByte byteOffset)
  let content ← Conversion.ofExcept (converter.lineContent bounds)
  if byteOffset < bounds.start then throw .invalidSnapshotIndex
  else if byteOffset - bounds.start > Utf8.size content ∨ !Utf8.isCharBoundary content (byteOffset - bounds.start) then
    throw .byteNotRepresentable
  else do
    let character ← converter.byteToCharacter content (byteOffset - bounds.start)
    return ⟨bounds.line, character⟩

def userByteToLspPosition (byteOffset : ℕ) : Conversion Position := do
  let valid ← Conversion.ofExcept (converter.validateUserByte byteOffset)
  converter.byteToLspPosition valid

def userLineScalarToByte (line scalarColumn : ℕ) : Conversion ℕ :=
  if line = 0 ∨ scalarColumn = 0 then throw .invalidUserPosition
  else do
    let zeroBasedLine ← Conversion.ofExcept (toU32 (line - 1) .invalidUserPosition)
    let bounds ← Conversion.ofExcept ((converter.lineBounds zeroBasedLine).mapError fun _ => .invalidUserPosition)
    let content ← Conversion.ofExcept (converter.lineContent bounds)
    let relative ← converter.scalarUnitsToByteExact content (scalarColumn - 1)
    Conversion.ofExcept (checkedSum (bounds.start + relative) .invalidSnapshotIndex)

def userLineScalarToLspPosition (line scalarColumn : ℕ) : Conversion Position := do
  let byteOffset ← converter.userLineScalarToByte line scalarColumn
  converter.byteToLspPosition byteOffset

/-- The bounds of the line that a user sees at an offset. -/
def userLineForByte (byteOffset : ℕ) : Except PositionError LineBounds := do
  converter.validateSearched byteOffset
  let (low, candidateEnd) ← converter.candidateLine fun stop => stop ≤ byteOffset
  let selectedLine := if candidateEnd ≤ byteOffset then converter.lineIndex.lineCount else low
  let zeroBased ← toU32 (selectedLine - 1) .byteNotRepresentable
  let bounds ← converter.lineBounds zeroBased
  match converter.lineIndex.lineEnd selectedLine with
  | none => .error .invalidSnapshotIndex
  | some physicalEnd =>
      if byteOffset < bounds.start ∨ byteOffset > physicalEnd then .error .byteNotRepresentable
      else return bounds

/-- The one-based line and, at an offset within its content, the one-based column. -/
def byteToUserLineScalar (byteOffset : ℕ) : Conversion (ℕ × Option ℕ) := do
  let bounds ← Conversion.ofExcept (converter.userLineForByte byteOffset)
  if byteOffset > bounds.contentEnd then return (bounds.line.toNat + 1, none)
  else do
    let column ← converter.scalarColumnBefore bounds byteOffset
    return (bounds.line.toNat + 1, some column)

end PositionConverter

end Srcmv.Lsp
