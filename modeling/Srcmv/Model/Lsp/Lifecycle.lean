import Srcmv.Machine.Program
import Srcmv.Model.Lsp.Position
import Srcmv.Model.Lsp.Session
import Srcmv.Proofs.Lsp.Receiving

/-! # One session with a server

A session initializes the server, opens the document, asks for its symbols, closes it and shuts the
server down. While it waits for a response, it counts the notifications of the server and answers its
requests. A session that fails aborts the process. What was said and heard is remembered, oldest first.
-/

/-! ## Capabilities of a server

What a server must offer before a document is opened: document symbols, synchronization of opened and
closed documents, and a position encoding that can be converted. Without a position encoding, positions
count UTF-16 units.
-/

namespace Srcmv.Lsp

inductive DocumentSymbolProvider where
  | bool (provided : Bool)
  | documentSymbolOptions
deriving DecidableEq

inductive TextDocumentSyncKind where
  | none
  | full
  | incremental
deriving DecidableEq

structure TextDocumentSyncOptions where
  openClose : Option Bool
  change : Option TextDocumentSyncKind
deriving DecidableEq

inductive TextDocumentSync where
  | kind (kind : TextDocumentSyncKind)
  | options (options : TextDocumentSyncOptions)
deriving DecidableEq

inductive PositionEncodingKind where
  | utf8
  | utf16
  | utf32
  | custom (name : String)
deriving DecidableEq

structure ServerInfo where
  name : String
  version : Option String
deriving DecidableEq

/-- What is read of an initialize result. -/
structure InitializeResult where
  documentSymbolProvider : Option DocumentSymbolProvider
  textDocumentSync : Option TextDocumentSync
  positionEncoding : Option PositionEncodingKind
  serverInfo : Option ServerInfo
deriving DecidableEq

structure ServerIdentity where
  name : Option String := none
  version : Option String := none
deriving DecidableEq

structure NegotiatedCapabilities where
  server : ServerIdentity
  positionEncoding : SupportedPositionEncoding
deriving DecidableEq

inductive CapabilityError where
  | documentSymbolsUnavailable
  | documentSyncUnavailable
  | unsupportedPositionEncoding
deriving DecidableEq

def TextDocumentSyncKind.usable : TextDocumentSyncKind → Bool
  | none => false
  | full => true
  | incremental => true

def TextDocumentSync.usable : TextDocumentSync → Bool
  | kind sync => sync.usable
  | options sync => sync.openClose == some true && sync.change.any TextDocumentSyncKind.usable

def PositionEncodingKind.supported : Option PositionEncodingKind → Except CapabilityError SupportedPositionEncoding
  | Option.none => .ok .utf16
  | some utf16 => .ok .utf16
  | some utf8 => .ok .utf8
  | some utf32 => .ok .utf32
  | some (custom _) => .error .unsupportedPositionEncoding

def validateInitializeResult (result : InitializeResult) : Except CapabilityError NegotiatedCapabilities := do
  match result.documentSymbolProvider with
  | some (.bool true) => .ok ()
  | some .documentSymbolOptions => .ok ()
  | some (.bool false) => .error .documentSymbolsUnavailable
  | none => .error .documentSymbolsUnavailable
  if result.textDocumentSync.any TextDocumentSync.usable then .ok () else .error .documentSyncUnavailable
  let positionEncoding ← PositionEncodingKind.supported result.positionEncoding
  return ⟨result.serverInfo.elim {} fun info => ⟨some info.name, info.version⟩, positionEncoding⟩

end Srcmv.Lsp

/-! ## The parts of a session -/

namespace Srcmv.Lsp

open Srcmv.Core Machine

structure ImmutableDocument where
  uri : String
  languageId : String
  text : String

/-- The limits of a session beyond those of its replies. -/
structure LifecycleLimits where
  serverRequests : ℕ := 64
  notifications : ℕ := 1024
  sourceBytes : ℕ := 8 * 1024 * 1024
  initializationOptionsBytes : ℕ := 1024 * 1024
  settingsBytes : ℕ := 1024 * 1024

/-- The input of a session; what its replies depend on is kept apart. -/
structure LifecycleInput where
  session : SessionInput
  document : ImmutableDocument
  initializationOptions : Option Value
  limits : LifecycleLimits := {}

/-- The types of the protocol: the parameters of an initialize request for a workspace folder, as they
are serialized, and how an initialize result is read. -/
structure LspCrate where
  initializeParams : Value → Option Members
  readInitialize : Value → Option InitializeResult

inductive SessionPhase where
  | initialization
  | documentSymbols
  | shutdown
deriving DecidableEq

inductive SessionFailure where
  | transport (failure : TransportError)
  /-- The process could not be set up or cleaned up. -/
  | process
  | capability (failure : CapabilityError)
  | invalidLspPayload (payload : String)
  | requestFailed (method : String) (code : ℤ)
  | unexpectedResponse
  | timeout (phase : SessionPhase)
  | resourceLimit (resource : String) (limit : ℕ)
  /-- The subtraction of buffered bytes underflowed. -/
  | underflow

def SessionFailure.ofReply : SessionError → SessionFailure
  | .resourceLimit resource limit => .resourceLimit resource limit
  | .invalidLspPayload payload => .invalidLspPayload payload

/-- What a session does and what it hears. -/
inductive SessionEvent where
  | spawned
  | sent (value : Value)
  | received (message : IncomingMessage)
  | finished
  | aborted

structure MessageCounters where
  requests : ℕ := 0
  notifications : ℕ := 0

/-- A session in the middle of its run. The process answers every frame that is queued for it, and a
frame for which no answer is left is queued. -/
structure SessionWorld where
  transport : Transport
  schedule : Schedule
  queueing : List (Except TransportError Unit)
  finishes : Bool
  counters : MessageCounters := {}
  trace : List SessionEvent := []

structure SessionOutput where
  capabilities : NegotiatedCapabilities
  symbols : Value

/-- `saturating_add` of one. -/
def countOne (count : ℕ) : ℕ := min (count + 1) usizeMax

def SessionWorld.note (world : SessionWorld) (event : SessionEvent) : SessionWorld := { world with trace := world.trace ++ [event] }

/-- A part of a session. -/
abbrev SessionProgram := Program SessionWorld SessionFailure

/-! ## Messages of the client -/

def ClientRequestId.toJson (id : ClientRequestId) : Value := .number (.posInt (UInt64.ofNat id))

def requestMessage (id : ClientRequestId) (method : String) (params : Value) : Value :=
  .object [("id", ClientRequestId.toJson id), ("jsonrpc", .string "2.0"), ("method", .string method), ("params", params)]

def notificationMessage (method : String) (params : Value) : Value :=
  .object [("jsonrpc", .string "2.0"), ("method", .string method), ("params", params)]

def didOpenMessage (document : ImmutableDocument) : Value :=
  notificationMessage "textDocument/didOpen" (.object [("textDocument", .object [("languageId", .string document.languageId),
    ("text", .string document.text), ("uri", .string document.uri), ("version", .ofInteger 1)])])

def textDocumentParams (document : ImmutableDocument) : Value :=
  .object [("textDocument", .object [("uri", .string document.uri)])]

/-- The value of a name in an object whose names are in order. -/
def Members.insert (name : String) (value : Value) : Members → Members
  | [] => [(name, value)]
  | member :: members =>
      if member.1 = name then (name, value) :: members
      else if name < member.1 then (name, value) :: member :: members
      else member :: Members.insert name value members

def mapTransport (phase : SessionPhase) : TransportError → SessionFailure
  | .deadlineExceeded => .timeout phase
  | failure => .transport failure

section Exchange

variable (crate : ValueCrate)

def sendValue (phase : SessionPhase) (value : Value) : SessionProgram Unit := fun world =>
  match encodeMessage crate.toVec value world.transport.framingLimits with
  | .error failure => (.error (.transport (.protocol (.framing failure))), world)
  | .ok _ =>
      match world.queueing with
      | [] => (.ok (), world.note (.sent value))
      | answer :: queueing => (answer.mapError (mapTransport phase), { world.note (.sent value) with queueing })

def sendRequest (phase : SessionPhase) (method : String) (params : Value) : SessionProgram ClientRequestId := fun world =>
  match world.transport.correlator.beginRequest with
  | (.error failure, _) => (.error (.transport (.protocol (.correlation failure))), world)
  | (.ok id, correlator) =>
      (do
        sendValue crate phase (requestMessage id method params)
        return id : SessionProgram ClientRequestId) { world with transport := { world.transport with correlator } }

def sendNotification (phase : SessionPhase) (method : String) (params : Value) : SessionProgram Unit :=
  sendValue crate phase (notificationMessage method params)

def nextMessage (phase : SessionPhase) : SessionProgram IncomingMessage := fun world =>
  match world.transport.nextIncoming crate world.schedule with
  | .error _ => (.error .underflow, world)
  | .ok received =>
      let later := { world with transport := received.transport, schedule := received.schedule }
      match received.result with
      | .error failure => (.error (mapTransport phase failure), later)
      | .ok message => (.ok message, later.note (.received message))

/-- A message that is received leaves fewer polls, or as many and a shorter queue. -/
theorem nextMessage_progresses {phase : SessionPhase} {world later : SessionWorld} {message : IncomingMessage}
    (heard : nextMessage crate phase world = (.ok message, later)) :
    Prod.Lex (· < ·) (· < ·) (later.schedule.polls.length, later.transport.incoming.length)
      (world.schedule.polls.length, world.transport.incoming.length) := by
  rw [nextMessage] at heard
  cases ran : world.transport.nextIncoming crate world.schedule with
  | error underflow => rw [ran] at heard; cases heard
  | ok received =>
    rw [ran] at heard
    dsimp only at heard
    cases result : received.result with
    | error failure => rw [result] at heard; cases heard
    | ok other =>
      rw [result] at heard
      cases heard
      rcases (Transport.nextIncoming_receipt ran).2 message result with fewer | ⟨same, shorter⟩
      · exact .left _ _ fewer
      · rw [← same]
        exact .right _ shorter

end Exchange

section Session

variable (crate : ValueCrate) (input : LifecycleInput)

def countNotification : SessionProgram Unit := do
  Program.update fun world => { world with counters.notifications := countOne world.counters.notifications }
  Program.check fun world =>
    if world.counters.notifications > input.limits.notifications then
      .error (.resourceLimit "notification" input.limits.notifications)
    else .ok ()

def countRequest : SessionProgram Unit := do
  Program.update fun world => { world with counters.requests := countOne world.counters.requests }
  Program.check fun world =>
    if world.counters.requests > input.limits.serverRequests then
      .error (.resourceLimit "server request" input.limits.serverRequests)
    else .ok ()

def answerRequest (phase : SessionPhase) (request : ServerRequest) : SessionProgram Unit := do
  countRequest input
  let response ← Program.ofExcept ((dispatchServerRequest crate input.session request).mapError SessionFailure.ofReply)
  sendValue crate phase response

/-- What a message means to a session that waits for a response: the result, or to wait on. -/
def handleMessage (expected : ClientRequestId) (method : String) (phase : SessionPhase) : IncomingMessage → SessionProgram (Option Value)
  | .response id payload =>
      if id = expected then
        match payload with
        | .result value => return some value
        | .error failure => Program.stop (.requestFailed method failure.code)
      else Program.stop .unexpectedResponse
  | .notification _ _ => do
      countNotification input
      return none
  | .request id name params => do
      answerRequest crate input phase ⟨id, name, params⟩
      return none

/-- What is received next is not changed. -/
def SessionWorld.SameReceipts (world later : SessionWorld) : Prop :=
  later.transport = world.transport ∧ later.schedule = world.schedule

theorem sendValue_sameReceipts {world : SessionWorld} {phase : SessionPhase} {value : Value} :
    Program.Ensures world.SameReceipts (sendValue crate phase value) (fun _ => world.SameReceipts) fun _ => world.SameReceipts := by
  intro later same
  have kept : world.SameReceipts (sendValue crate phase value later).2 := by
    rw [sendValue]
    cases encodeMessage crate.toVec value later.transport.framingLimits with
    | error failure => exact same
    | ok frame => cases later.queueing <;> exact same
  exact ⟨fun _ last ran => by rw [ran] at kept; exact kept, fun _ last ran => by rw [ran] at kept; exact kept⟩

theorem handleMessage_sameReceipts {world : SessionWorld} {expected : ClientRequestId} {method : String} {phase : SessionPhase}
    {message : IncomingMessage} : Program.Ensures world.SameReceipts (handleMessage crate input expected method phase message)
      (fun _ => world.SameReceipts) fun _ => world.SameReceipts := by
  have counts (update : MessageCounters → MessageCounters) (result : SessionWorld → Except SessionFailure Unit) :
      Program.Ensures world.SameReceipts (do
        Program.update fun later => { later with counters := update later.counters }
        Program.check result) (fun _ => world.SameReceipts) fun _ => world.SameReceipts := by
    refine Program.Ensures.bind ?_ fun _ => Program.Ensures.check (fun _ _ _ same => same) fun _ _ _ same => same
    exact Program.Ensures.update fun _ same => same
  cases message with
  | response id payload =>
    rw [handleMessage.eq_def]
    dsimp only
    split_ifs
    · cases payload with
      | result value => exact Program.Ensures.pure fun _ same => same
      | error failure => exact Program.Ensures.stop fun _ same => same
    · exact Program.Ensures.stop fun _ same => same
  | notification name params =>
    rw [handleMessage, countNotification]
    exact (counts (fun counters => { counters with notifications := countOne counters.notifications }) _).bind fun _ =>
      Program.Ensures.pure fun _ same => same
  | request id name params =>
    rw [handleMessage, answerRequest, countRequest]
    refine Program.Ensures.bind ?_ fun _ => Program.Ensures.pure fun _ same => same
    refine (counts (fun counters => { counters with requests := countOne counters.requests }) _).bind fun _ => ?_
    refine Program.Ensures.bind ?_ fun response => sendValue_sameReceipts crate
    exact Program.Ensures.ofExcept (fun _ _ _ same => same) fun _ _ _ same => same

/-- Wait until the response to a request is received. -/
def awaitResponse (expected : ClientRequestId) (method : String) (phase : SessionPhase) (world : SessionWorld) :
    Except SessionFailure Value × SessionWorld :=
  match _heard : nextMessage crate phase world with
  | (.error failure, later) => (.error failure, later)
  | (.ok message, later) =>
      match _handled : handleMessage crate input expected method phase message later with
      | (.error failure, last) => (.error failure, last)
      | (.ok (some value), last) => (.ok value, last)
      | (.ok none, last) => awaitResponse expected method phase last
termination_by (world.schedule.polls.length, world.transport.incoming.length)
decreasing_by
  have same : later.SameReceipts last := (handleMessage_sameReceipts crate input later ⟨rfl, rfl⟩).1 none last _handled
  rw [same.1, same.2]
  exact nextMessage_progresses crate _heard

/-! ## The phases of a session -/

variable (lsp : LspCrate)

def initializeSession : SessionProgram NegotiatedCapabilities := do
  let params ← Program.ofExcept ((lsp.initializeParams input.session.workspace).elim
    (.error (.invalidLspPayload "initialize parameters")) .ok)
  let params := input.initializationOptions.elim params fun options => Members.insert "initializationOptions" options params
  let initializeId ← sendRequest crate .initialization "initialize" (.object params)
  let value ← awaitResponse crate input initializeId "initialize" .initialization
  let result ← Program.ofExcept ((lsp.readInitialize value).elim (.error (.invalidLspPayload "initialize result")) .ok)
  let capabilities ← Program.ofExcept ((validateInitializeResult result).mapError .capability)
  sendNotification crate .initialization "initialized" (.object [])
  match input.session.settings with
  | some settings => sendNotification crate .initialization "workspace/didChangeConfiguration" (.object [("settings", settings)])
  | none => pure ()
  return capabilities

def querySymbols : SessionProgram Value := do
  sendValue crate .documentSymbols (didOpenMessage input.document)
  let symbolId ← sendRequest crate .documentSymbols "textDocument/documentSymbol" (textDocumentParams input.document)
  let symbols ← awaitResponse crate input symbolId "textDocument/documentSymbol" .documentSymbols
  sendNotification crate .documentSymbols "textDocument/didClose" (textDocumentParams input.document)
  return symbols

/-- The process is finished once it was told to exit. -/
def finishProcess : SessionProgram Unit := fun world =>
  if world.finishes then (.ok (), world.note .finished) else (.error .process, world)

def Value.isNull : Value → Bool
  | null => true
  | _ => false

def shutDown : SessionProgram Unit := do
  let shutdownId ← sendRequest crate .shutdown "shutdown" .null
  let result ← awaitResponse crate input shutdownId "shutdown" .shutdown
  Program.ofExcept (if result.isNull then .ok () else .error (.invalidLspPayload "shutdown result"))
  sendNotification crate .shutdown "exit" .null
  finishProcess

def runActiveSession : SessionProgram SessionOutput := do
  let capabilities ← initializeSession crate input lsp
  let symbols ← querySymbols crate input
  shutDown crate input
  return ⟨capabilities, symbols⟩

/-! ## Sessions -/

def LifecycleInput.validate : Except SessionFailure Unit := do
  let limited (actual limit : ℕ) (resource : String) : Except SessionFailure Unit :=
    (ensureWithinLimit actual limit resource).mapError .ofReply
  limited input.document.text.utf8ByteSize input.limits.sourceBytes "source bytes"
  input.initializationOptions.elim (.ok ()) fun options =>
    limited (serializedLen crate options) input.limits.initializationOptionsBytes "initialization-options bytes"
  input.session.settings.elim (.ok ()) fun settings =>
    limited (serializedLen crate settings) input.limits.settingsBytes "settings bytes"

def preflightDidOpen (limits : TransportLimits) : Except SessionFailure Unit :=
  match encodeMessage crate.toVec (didOpenMessage input.document) limits.framing with
  | .error failure => .error (.transport (.protocol (.framing failure)))
  | .ok _ => .ok ()

/-- How the operating system and the server behave. -/
structure Surroundings where
  spawns : Bool
  schedule : Schedule
  queueing : List (Except TransportError Unit)
  finishes : Bool

/-- The session with a process that was spawned. -/
def Surroundings.world (surroundings : Surroundings) (transport : Transport) : SessionWorld where
  transport := transport
  schedule := surroundings.schedule
  queueing := surroundings.queueing
  finishes := surroundings.finishes
  trace := [.spawned]

/-- What is checked before a process is spawned, and the transport of the process. -/
def startSession (limits : TransportLimits) (surroundings : Surroundings) : Except SessionFailure Transport := do
  input.validate crate
  preflightDidOpen crate input limits
  let transport ← (Transport.spawn limits).mapError .transport
  if surroundings.spawns then .ok transport else .error .process

/-- The result of a session, and all that was done and heard. -/
def runSession (limits : TransportLimits) (surroundings : Surroundings) : Except SessionFailure SessionOutput × List SessionEvent :=
  match startSession crate input limits surroundings with
  | .error failure => (.error failure, [])
  | .ok transport =>
      match runActiveSession crate input lsp (surroundings.world transport) with
      | (.ok output, later) => (.ok output, later.trace)
      | (.error failure, later) => (.error failure, (later.note .aborted).trace)

end Session

end Srcmv.Lsp
