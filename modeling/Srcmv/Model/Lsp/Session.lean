import Srcmv.Model.Lsp.Bodies

/-! # Requests of a server

While a session waits for a response, the server may ask for the workspace folders and for
configuration. A configuration reply is measured item by item as it is collected. Keys of the values
that the client builds are in the order of their names.
-/

namespace Srcmv.Lsp

structure SessionLimits where
  configurationItems : ℕ := 256
  configurationResponseBytes : ℕ := 1024 * 1024

/-- What answers to a server depend on; the workspace folder is a value. -/
structure SessionInput where
  workspace : Value
  settings : Option Value
  limits : SessionLimits := {}

inductive SessionError where
  | resourceLimit (resource : String) (limit : ℕ)
  | invalidLspPayload (payload : String)
deriving DecidableEq

structure ServerRequest where
  id : ServerRequestId
  method : String
  params : Option Value

namespace Value

def get (value : Value) (key : String) : Option Value :=
  match value with
  | object members => members.lookup key
  | _ => none

def asArray : Value → Option (List Value)
  | array items => some items
  | _ => none

/-- `Number::from` of an `i64`. -/
def ofInteger (value : ℤ) : Value :=
  .number (if 0 ≤ value then .posInt (UInt64.ofNat value.toNat) else .negInt (Int64.ofInt value))

end Value

def ServerRequestId.toJson : ServerRequestId → Value
  | integer value => .ofInteger value
  | unsigned value => .number (.posInt value)
  | string value => .string value

def ensureWithinLimit (actual limit : ℕ) (resource : String) : Except SessionError Unit :=
  if actual > limit then .error (.resourceLimit resource limit) else .ok ()

/-- The value at a dotted section of the settings; all of them without a section. -/
def configuredSection (settings : Option Value) (item : Value) : Except SessionError (Option Value) :=
  match item with
  | .object members =>
      match members.lookup "section" with
      | none => .ok settings
      | some (.string name) =>
          .ok (settings.bind fun settings =>
            (name.toList.splitOn '.').foldlM (fun value key => value.get (String.ofList key)) settings)
      | some _ => .error (.invalidLspPayload "configuration section")
  | _ => .error (.invalidLspPayload "configuration item")

section Dispatch

variable (crate : ValueCrate) (input : SessionInput)

def serializedLen (value : Value) : ℕ := (crate.toVec value).length

/-- Measure and collect the value of one item; an overflow of the size is an excess too. -/
def configureItem (progress : ℕ × List Value) (entry : Value × ℕ) : Except SessionError (ℕ × List Value) := do
  let configured ← configuredSection input.settings entry.1
  let itemBytes := configured.elim 4 (serializedLen crate)
  let encodedBytes := progress.1 + (if entry.2 ≠ 0 then 1 else 0) + itemBytes
  ensureWithinLimit encodedBytes input.limits.configurationResponseBytes "configuration response bytes"
  return (encodedBytes, progress.2 ++ [configured.getD .null])

/-- The values of the items, with the size of their array. -/
def configureItems (items : List Value) : Except SessionError (ℕ × List Value) := do
  ensureWithinLimit items.length input.limits.configurationItems "configuration items"
  ensureWithinLimit 2 input.limits.configurationResponseBytes "configuration response bytes"
  items.zipIdx.foldlM (configureItem crate input) (2, [])

def resultReply (id result : Value) : Value := .object [("id", id), ("jsonrpc", .string "2.0"), ("result", result)]

def dispatchServerRequest (request : ServerRequest) : Except SessionError Value :=
  let id := request.id.toJson
  match request.method with
  | "workspace/workspaceFolders" => .ok (resultReply id (.array [input.workspace]))
  | "workspace/configuration" =>
      match (request.params.bind (·.get "items")).bind Value.asArray with
      | none => .error (.invalidLspPayload "configuration request")
      | some items => do
          let (_, result) ← configureItems crate input items
          return resultReply id (.array result)
  | "window/showMessageRequest" => .ok (resultReply id .null)
  | "workspace/applyEdit" =>
      .ok (resultReply id (.object [("applied", .bool false), ("failureReason", .string "srcmv selection is read-only")]))
  | _ =>
      .ok (.object [("error", .object [("code", .ofInteger (-32601)), ("message", .string "Method not found")]), ("id", id),
        ("jsonrpc", .string "2.0")])

end Dispatch

end Srcmv.Lsp
