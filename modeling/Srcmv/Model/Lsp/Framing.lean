import Srcmv.Model.Core.PlanHash
import Srcmv.ToMathlib.Utf8
import Mathlib.Data.List.DropRight

/-! # Frames of a language server

A frame is an ASCII header, which ends in an empty line and states the length of the body, and the
body. The incremental decoder takes arbitrary chunks and never waits; the blocking reader asks for
the bytes that it needs next.
-/

namespace Srcmv.Lsp

open Srcmv.Core

def usizeMax : ℕ := 2 ^ 64 - 1

structure FramingLimits where
  maxHeaderBytes : ℕ := 16 * 1024
  maxInboundBodyBytes : ℕ := 16 * 1024 * 1024
  maxOutboundBodyBytes : ℕ := 64 * 1024 * 1024
deriving DecidableEq

inductive FrameSection where
  | header
  | body
deriving DecidableEq

/-- Framing failures; those of envelopes and of the stream itself are left out. -/
inductive JsonRpcError where
  | unexpectedEof (section_ : FrameSection)
  | headerTooLarge (limit : ℕ)
  | nonAsciiHeader
  | malformedHeader
  | missingContentLength
  | duplicateContentLength
  | invalidContentLength
  | contentLengthOverflow
  | duplicateContentType
  | unsupportedContentType
  | inboundBodyTooLarge (length limit : ℕ)
  | outboundBodyTooLarge (length limit : ℕ)
deriving DecidableEq

def rejectFrame (rejected : Prop) [Decidable rejected] (failure : JsonRpcError) : Except JsonRpcError Unit :=
  if rejected then .error failure else .ok ()

/-! ## The header -/

def terminator : Bytes := [13, 10, 13, 10]

def isAsciiDigit (byte : UInt8) : Bool := 48 ≤ byte && byte ≤ 57

def isAsciiAlphanumeric (byte : UInt8) : Bool :=
  isAsciiDigit byte || (65 ≤ byte && byte ≤ 90) || (97 ≤ byte && byte ≤ 122)

def toAsciiLowercase (byte : UInt8) : UInt8 := if 65 ≤ byte && byte ≤ 90 then byte + 32 else byte

def eqIgnoreAsciiCase (left right : Bytes) : Bool := left.map toAsciiLowercase = right.map toAsciiLowercase

def isHeaderNameByte (byte : UInt8) : Bool := isAsciiAlphanumeric byte || (utf8Bytes "!#$%&'*+-.^_\x60|~").contains byte

def isBlank (byte : UInt8) : Bool := byte = 32 || byte = 9

def trimAsciiWhitespace (bytes : Bytes) : Bytes := (bytes.dropWhile isBlank).rdropWhile isBlank

/-- `split("\r\n")`. -/
def splitLines : Bytes → List Bytes
  | [] => [[]]
  | 13 :: 10 :: rest => [] :: splitLines rest
  | byte :: rest => (splitLines rest).modifyHead (byte :: ·)

def parseContentLength (value : Bytes) : Except JsonRpcError ℕ := do
  rejectFrame (value = [] ∨ !value.all isAsciiDigit) .invalidContentLength
  value.foldlM (fun length digit =>
    if length * 10 + (digit - 48).toNat ≤ usizeMax then .ok (length * 10 + (digit - 48).toNat)
    else .error .contentLengthOverflow) 0

/-- One parameter of a content type; only one charset is allowed. -/
def validateParameter (sawCharset : Bool) (component : Bytes) : Except JsonRpcError Bool :=
  match (trimAsciiWhitespace component).idxOf? 61 with
  | none => .error .unsupportedContentType
  | some equals =>
      let name := trimAsciiWhitespace ((trimAsciiWhitespace component).take equals)
      let value := trimAsciiWhitespace ((trimAsciiWhitespace component).drop (equals + 1))
      if !eqIgnoreAsciiCase name (utf8Bytes "charset") ∨ sawCharset then .error .unsupportedContentType
      else if !eqIgnoreAsciiCase value (utf8Bytes "utf-8") ∧ !eqIgnoreAsciiCase value (utf8Bytes "utf8") then
        .error .unsupportedContentType
      else .ok true

def validateContentType (value : Bytes) : Except JsonRpcError Unit := do
  let components := value.splitOn 59
  rejectFrame (!eqIgnoreAsciiCase (trimAsciiWhitespace (components.head?.getD []))
    (utf8Bytes "application/vscode-jsonrpc")) .unsupportedContentType
  let _ ← components.tail.foldlM validateParameter false

/-- The headers read so far. -/
structure HeaderFields where
  contentLength : Option ℕ := none
  sawContentType : Bool := false

def recordField (fields : HeaderFields) (name value : Bytes) : Except JsonRpcError HeaderFields :=
  if eqIgnoreAsciiCase name (utf8Bytes "Content-Length") then do
    rejectFrame (fields.contentLength.isSome) .duplicateContentLength
    let contentLength ← parseContentLength value
    return { fields with contentLength := some contentLength }
  else if eqIgnoreAsciiCase name (utf8Bytes "Content-Type") then do
    rejectFrame fields.sawContentType .duplicateContentType
    validateContentType value
    return { fields with sawContentType := true }
  else .ok fields

def parseLine (fields : HeaderFields) (line : Bytes) : Except JsonRpcError HeaderFields := do
  rejectFrame (line.any fun byte => byte = 13 || byte = 10) .malformedHeader
  match line.idxOf? 58 with
  | none => .error .malformedHeader
  | some colon =>
      let name := line.take colon
      let value := trimAsciiWhitespace (line.drop (colon + 1))
      rejectFrame (name = [] ∨ !name.all isHeaderNameByte ∨ !value.all fun byte => byte = 9 || (32 ≤ byte && byte ≤ 126))
        .malformedHeader
      recordField fields name value

def parseHeader (header : Bytes) : Except JsonRpcError ℕ :=
  if !terminator.isSuffixOf header then .error .malformedHeader
  else do
    let payload := header.take (header.length - terminator.length)
    rejectFrame (Utf8.decode payload).isNone .nonAsciiHeader
    let fields ← (splitLines payload).foldlM parseLine {}
    match fields.contentLength with
    | none => .error .missingContentLength
    | some contentLength => .ok contentLength

/-- The stated length, when it is within the bound. -/
def acceptLength (limits : FramingLimits) (header : Bytes) : Except JsonRpcError ℕ := do
  let contentLength ← parseHeader header
  rejectFrame (contentLength > limits.maxInboundBodyBytes) (.inboundBodyTooLarge contentLength limits.maxInboundBodyBytes)
  return contentLength

/-! ## The incremental decoder -/

/-- A header or a body that is not complete. -/
inductive DecoderState where
  | header (bytes : Bytes)
  | body (bytes : Bytes) (expected : ℕ) (incomplete : bytes.length < expected)

namespace FrameDecoder

def fresh : DecoderState := .header []

def isMidFrame : DecoderState → Bool
  | .header bytes => !bytes.isEmpty
  | .body .. => true

/-- One byte of a header, which may complete the frame of an empty body. -/
def pushHeaderByte (limits : FramingLimits) (header : Bytes) (byte : UInt8) :
    Except JsonRpcError (DecoderState × Option Bytes) :=
  if header.length = limits.maxHeaderBytes then .error (.headerTooLarge limits.maxHeaderBytes)
  else if byte ≥ 128 then .error .nonAsciiHeader
  else if terminator.isSuffixOf (header ++ [byte]) then do
    let contentLength ← acceptLength limits (header ++ [byte])
    if started : 0 < contentLength then return (.body [] contentLength started, none)
    else return (.header [], some [])
  else if (header ++ [byte]).length = limits.maxHeaderBytes then .error (.headerTooLarge limits.maxHeaderBytes)
  else return (.header (header ++ [byte]), none)

/-- Consume a chunk; the completed bodies are lost when it fails. -/
def push (limits : FramingLimits) : DecoderState → Bytes → Except JsonRpcError (DecoderState × List Bytes)
  | state, [] => .ok (state, [])
  | .header header, byte :: chunk => do
      let (next, body) ← pushHeaderByte limits header byte
      let (last, bodies) ← push limits next chunk
      return (last, body.toList ++ bodies)
  | .body bytes expected incomplete, byte :: chunk =>
      let take := min (expected - bytes.length) (byte :: chunk).length
      let extended := bytes ++ (byte :: chunk).take take
      if complete : extended.length = expected then do
        let (last, bodies) ← push limits (.header []) ((byte :: chunk).drop take)
        return (last, extended :: bodies)
      else
        push limits (.body extended expected (by
          rw [List.length_append, List.length_take] at complete ⊢
          omega)) ((byte :: chunk).drop take)
termination_by _ chunk => chunk.length
decreasing_by
  all_goals simp only [List.length_cons, List.length_drop]
  all_goals omega

def finish : DecoderState → Except JsonRpcError Unit
  | .header [] => .ok ()
  | .header _ => .error (.unexpectedEof .header)
  | .body .. => .error (.unexpectedEof .body)

end FrameDecoder

/-! ## The blocking reader -/

/-- The bytes that successive reads find available. Nothing stands for an interrupted read, which
is repeated. -/
abbrev Reader := List Bytes

namespace Reader

/-- A read of at most `size` bytes; no byte is the end of the stream. -/
def read (size : ℕ) : Reader → Bytes × Reader
  | [] => ([], [])
  | [] :: rest => read size rest
  | available :: rest => (available.take size, available.drop size :: rest)

theorem read_flatten (size : ℕ) (reader : Reader) :
    (read size reader).1 ++ (read size reader).2.flatten = reader.flatten := by
  induction reader using read.induct with
  | case1 => rfl
  | case2 rest ih => exact ih
  | case3 available rest nonempty =>
    rw [read, List.flatten_cons, ← List.append_assoc, List.take_append_drop, List.flatten_cons]
    exact nonempty

theorem read_length (size : ℕ) (reader : Reader) : (read size reader).1.length ≤ size := by
  induction reader using read.induct with
  | case1 => exact Nat.zero_le _
  | case2 rest ih => exact ih
  | case3 available rest nonempty =>
    rw [read]
    · exact List.length_take_le _ _
    · exact nonempty

end Reader

/-- The loop of `read_header`, which reads one byte at a time. -/
def readHeader (limit : ℕ) (header : Bytes) (reader : Reader) : Except JsonRpcError (Option Bytes × Reader) :=
  match _received : reader.read 1 with
  | ([], rest) => if header = [] then .ok (none, rest) else .error (.unexpectedEof .header)
  | (byte :: _, rest) =>
      if header.length = limit then .error (.headerTooLarge limit)
      else if byte ≥ 128 then .error .nonAsciiHeader
      else if terminator.isSuffixOf (header ++ [byte]) then .ok (some (header ++ [byte]), rest)
      else if (header ++ [byte]).length = limit then .error (.headerTooLarge limit)
      else readHeader limit (header ++ [byte]) rest
termination_by reader.flatten.length
decreasing_by
  have whole := congrArg List.length (Reader.read_flatten 1 reader)
  rw [_received, List.length_append] at whole
  rw [← whole]
  exact Nat.lt_add_of_pos_left (Nat.succ_pos _)

/-- The loop of `read_exact_section`, which fills a buffer by reads of any length. -/
def readExactSection (size : ℕ) (section_ : FrameSection) (reader : Reader) : Except JsonRpcError (Bytes × Reader) :=
  if size = 0 then .ok ([], reader)
  else
    match reader.read size with
    | ([], _) => .error (.unexpectedEof section_)
    | (byte :: part, rest) => do
        let (bytes, last) ← readExactSection (size - (byte :: part).length) section_ rest
        return (byte :: part ++ bytes, last)
termination_by size
decreasing_by
  rw [List.length_cons]
  omega

def readBody (limits : FramingLimits) (reader : Reader) : Except JsonRpcError (Option Bytes × Reader) := do
  let (header, rest) ← readHeader limits.maxHeaderBytes [] reader
  match header with
  | none => return (none, rest)
  | some header => do
      let contentLength ← acceptLength limits header
      let (body, last) ← readExactSection contentLength .body rest
      return (some body, last)

/-! ## Outbound frames -/

/-- The digits that `{}` prints. -/
def decimal (number : ℕ) : Bytes := (Nat.toDigits 10 number).map fun digit => digit.val.toUInt8

def frameHeader (length : ℕ) : Bytes := utf8Bytes "Content-Length: " ++ decimal length ++ terminator

/-- Frame a value, given how values are serialized. -/
def encodeMessage {Value : Type} (serialize : Value → Bytes) (value : Value) (limits : FramingLimits) :
    Except JsonRpcError Bytes := do
  let body := serialize value
  rejectFrame (body.length > limits.maxOutboundBodyBytes) (.outboundBodyTooLarge body.length limits.maxOutboundBodyBytes)
  let header := frameHeader body.length
  rejectFrame (header.length + body.length > usizeMax) (.outboundBodyTooLarge body.length limits.maxOutboundBodyBytes)
  return header ++ body

end Srcmv.Lsp
