import Srcmv.Model.Lsp.Correlation
import Srcmv.Model.Lsp.Framing
import Srcmv.ToMathlib.JsonText

/-! # Bodies of a language server

A framed body is scanned for its nesting before it is parsed, because the parser is recursive. The
parsed value is classified as a request, a notification or a response.
-/

namespace Srcmv.Lsp

open Srcmv.Core

structure EnvelopeLimits where
  maxJsonDepth : ℕ := 64
  maxIdBytes : ℕ := 256
  maxMethodBytes : ℕ := 256
  maxParamsBytes : ℕ := 1024 * 1024

inductive EnvelopeViolation where
  | invalidShape
  | invalidVersion
  | requestContainsResponseMembers
  | responseContainsRequestMembers
  | invalidResponsePayload
  | invalidParams
  | invalidErrorObject

/-- The failures of bodies; framing and correlation have their own. -/
inductive BodyError where
  | malformedJson
  | jsonNestingTooDeep (depth limit : ℕ)
  | batchUnsupported
  | invalidEnvelope (violation : EnvelopeViolation)
  | invalidId
  | idTooLarge (length limit : ℕ)
  | methodTooLong (length limit : ℕ)
  | paramsTooLarge (length limit : ℕ)

def rejectBody (rejected : Prop) [Decidable rejected] (failure : BodyError) : Except BodyError Unit :=
  if rejected then .error failure else .ok ()

/-! ## Values -/

inductive Number where
  | posInt (value : UInt64)
  | negInt (value : Int64)
  | float (bits : UInt64)

namespace Number

def asU64 : Number → Option UInt64
  | posInt value => some value
  | _ => none

def asI64 : Number → Option ℤ
  | posInt value => if value.toNat < 2 ^ 63 then some value.toNat else none
  | negInt value => some value.toInt
  | float _ => none

end Number

/-- A parsed value; the members of an object have different names. -/
inductive Value where
  | null
  | bool (value : Bool)
  | number (number : Number)
  | string (value : String)
  | array (items : List Value)
  | object (members : List (String × Value))

/-- The parser and the serializer of values. -/
structure ValueCrate where
  fromSlice : Bytes → Option Value
  toVec : Value → Bytes

abbrev Members := List (String × Value)

namespace Members

def containsKey (object : Members) (name : String) : Bool := (object.lookup name).isSome

def remove (object : Members) (name : String) : Option Value × Members :=
  (object.lookup name, object.filter fun member => member.1 ≠ name)

end Members

/-! ## Messages -/

inductive ServerRequestId where
  | integer (value : ℤ)
  | unsigned (value : UInt64)
  | string (value : String)

structure ResponseError where
  code : ℤ
  message : String
  data : Option Value

inductive ResponsePayload where
  | result (value : Value)
  | error (failure : ResponseError)

inductive IncomingMessage where
  | request (id : ServerRequestId) (method : String) (params : Option Value)
  | notification (method : String) (params : Option Value)
  | response (id : ClientRequestId) (payload : ResponsePayload)

/-- One more level, unless it is one too many. -/
def nestBody (limit depth : ℕ) : Except BodyError ℕ :=
  let deeper := min (depth + 1) usizeMax
  if deeper > limit then .error (.jsonNestingTooDeep deeper limit) else .ok deeper

def validateRawJsonDepth (body : Bytes) (limit : ℕ) : Except BodyError Unit := do
  let _ ← body.foldlM (JsonText.Scan.visit (nestBody limit)) {}

section Classification

variable (crate : ValueCrate) (limits : EnvelopeLimits)

def validateParams : Option Value → Except BodyError Unit
  | none => .ok ()
  | some params => do
      match params with
      | .null | .array _ | .object _ => .ok ()
      | _ => .error (.invalidEnvelope .invalidParams)
      let length := (crate.toVec params).length
      rejectBody (length > limits.maxParamsBytes) (.paramsTooLarge length limits.maxParamsBytes)

def parseServerRequestId (value : Value) : Except BodyError ServerRequestId := do
  let length := (crate.toVec value).length
  rejectBody (length > limits.maxIdBytes) (.idTooLarge length limits.maxIdBytes)
  match value with
  | .number number =>
      match number.asI64, number.asU64 with
      | some integer, _ => .ok (.integer integer)
      | none, some unsigned => .ok (.unsigned unsigned)
      | none, none => .error .invalidId
  | .string value => .ok (.string value)
  | _ => .error .invalidId

def parseResponseError : Value → Except BodyError ResponseError
  | .object object =>
      match object.lookup "code", object.lookup "message" with
      | some (.number number), message => do
          match number.asI64, message with
          | some code, some (.string message) => .ok ⟨code, message, object.lookup "data"⟩
          | _, _ => .error (.invalidEnvelope .invalidErrorObject)
      | _, _ => .error (.invalidEnvelope .invalidErrorObject)
  | _ => .error (.invalidEnvelope .invalidErrorObject)

def classifyRequestOrNotification (object : Members) : Except BodyError IncomingMessage := do
  rejectBody (object.containsKey "result" || object.containsKey "error") (.invalidEnvelope .requestContainsResponseMembers)
  match object.lookup "method" with
  | some (.string method) => do
      rejectBody (method.utf8ByteSize > limits.maxMethodBytes) (.methodTooLong method.utf8ByteSize limits.maxMethodBytes)
      let params := object.lookup "params"
      validateParams crate limits params
      match object.lookup "id" with
      | some id => do
          let id ← parseServerRequestId crate limits id
          return .request id method params
      | none => .ok (.notification method params)
  | _ => .error (.invalidEnvelope .invalidShape)

def classifyResponse (object : Members) : Except BodyError IncomingMessage := do
  rejectBody (object.containsKey "params") (.invalidEnvelope .responseContainsRequestMembers)
  let id ← match object.lookup "id" with
    | some (.number number) =>
        match number.asU64 with
        | some id => .ok id.toNat
        | none => .error .invalidId
    | _ => .error .invalidId
  match object.lookup "result", object.lookup "error" with
  | some result, none => .ok (.response id (.result result))
  | none, some failure => do
      let failure ← parseResponseError failure
      return .response id (.error failure)
  | _, _ => .error (.invalidEnvelope .invalidResponsePayload)

def classifyMessage : Value → Except BodyError IncomingMessage
  | .array _ => .error .batchUnsupported
  | .object object =>
      match Members.remove object "jsonrpc" with
      | (some (.string "2.0"), object) =>
          if Members.containsKey object "method" then classifyRequestOrNotification crate limits object else classifyResponse object
      | _ => .error (.invalidEnvelope .invalidVersion)
  | _ => .error (.invalidEnvelope .invalidShape)

def decodeBody (body : Bytes) : Except BodyError IncomingMessage := do
  validateRawJsonDepth body limits.maxJsonDepth
  match crate.fromSlice body with
  | none => .error .malformedJson
  | some value => classifyMessage crate limits value

end Classification

end Srcmv.Lsp
