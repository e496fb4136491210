import Srcmv.Model.Lsp.Lifecycle

/-! # Conversations with a server

What a client that selects symbols may say, and when. It speaks in a fixed order, each request once and
with the next id, and goes on after a request only when the response to it was heard. Between, it answers
the requests of the server one by one, before it hears anything else, and only within its limits. It
may give up after any message, and then says nothing more.
-/

namespace Srcmv.Lsp

inductive Stage where
  | absent
  | spawned
  | initializing
  | negotiated
  | initialized
  | configured
  | opened
  | querying
  | answered
  | closed
  | stopping
  | stopped
  | exited
  | finished
  | broken
  | aborted
deriving DecidableEq

/-- The stages in which a response is waited for. -/
def Stage.Waits (stage : Stage) : Prop := stage = .initializing ∨ stage = .querying ∨ stage = .stopping

/-- Where a conversation stands: what it has come to, the reply that is owed to the server, the requests
and notifications that were heard, and what was agreed and found. -/
structure Conversation where
  stage : Stage := .absent
  owed : Option Value := none
  requests : ℕ := 0
  notifications : ℕ := 0
  capabilities : Option NegotiatedCapabilities := none
  symbols : Option Value := none

/-- Some limits are too large to be reached by a count of this machine. -/
def WithinLimit (count limit : ℕ) : Prop := count ≤ limit ∨ usizeMax ≤ limit

section Grammar

variable (crate : ValueCrate) (lsp : LspCrate) (input : LifecycleInput)

/-- What the client says next, replies aside. -/
inductive Says : Stage → Value → Stage → Prop where
  | initialization {params : Members} (serialized : lsp.initializeParams input.session.workspace = some params) :
      Says .spawned (requestMessage 1 "initialize" (.object (input.initializationOptions.elim params fun options =>
        Members.insert "initializationOptions" options params))) .initializing
  | initialized : Says .negotiated (notificationMessage "initialized" (.object [])) .initialized
  | configure {settings : Value} (configured : input.session.settings = some settings) : Says .initialized
      (notificationMessage "workspace/didChangeConfiguration" (.object [("settings", settings)])) .configured
  | didOpen : Says (if input.session.settings.isSome then .configured else .initialized) (didOpenMessage input.document) .opened
  | documentSymbol : Says .opened (requestMessage 2 "textDocument/documentSymbol" (textDocumentParams input.document)) .querying
  | didClose : Says .answered (notificationMessage "textDocument/didClose" (textDocumentParams input.document)) .closed
  | shutdown : Says .closed (requestMessage 3 "shutdown" .null) .stopping
  | exit : Says .stopped (notificationMessage "exit" .null) .exited

/-- A result that the client goes on with. -/
inductive Accepts : Conversation → ClientRequestId → Value → Conversation → Prop where
  | negotiated {conversation : Conversation} {value : Value} {result : InitializeResult} {capabilities : NegotiatedCapabilities}
      (waits : conversation.stage = .initializing) (read : lsp.readInitialize value = some result)
      (validated : validateInitializeResult result = .ok capabilities) :
      Accepts conversation 1 value { conversation with stage := .negotiated, capabilities := some capabilities }
  | answered {conversation : Conversation} {value : Value} (waits : conversation.stage = .querying) :
      Accepts conversation 2 value { conversation with stage := .answered, symbols := some value }
  | stopped {conversation : Conversation} (waits : conversation.stage = .stopping) :
      Accepts conversation 3 .null { conversation with stage := .stopped }

/-- One thing done or heard. Whatever is said or heard next, no reply may be owed but one that is said. -/
inductive Conversation.Step : Conversation → SessionEvent → Conversation → Prop where
  | spawn : Step {} .spawned { stage := .spawned }
  | say {conversation : Conversation} {value : Value} {next : Stage} (quiet : conversation.owed = none)
      (spoken : Says lsp input conversation.stage value next) : Step conversation (.sent value) { conversation with stage := next }
  | accept {conversation next : Conversation} {id : ClientRequestId} {value : Value} (quiet : conversation.owed = none)
      (accepts : Accepts lsp conversation id value next) : Step conversation (.received (.response id (.result value))) next
  | notified {conversation : Conversation} {method : String} {params : Option Value} (quiet : conversation.owed = none)
      (waits : conversation.stage.Waits) (within : WithinLimit (conversation.notifications + 1) input.limits.notifications) :
      Step conversation (.received (.notification method params)) { conversation with notifications := conversation.notifications + 1 }
  | asked {conversation : Conversation} {id : ServerRequestId} {method : String} {params : Option Value} {reply : Value}
      (quiet : conversation.owed = none) (waits : conversation.stage.Waits)
      (within : WithinLimit (conversation.requests + 1) input.limits.serverRequests)
      (answers : dispatchServerRequest crate input.session ⟨id, method, params⟩ = .ok reply) :
      Step conversation (.received (.request id method params))
        { conversation with owed := some reply, requests := conversation.requests + 1 }
  | reply {conversation : Conversation} {reply : Value} (owes : conversation.owed = some reply) :
      Step conversation (.sent reply) { conversation with owed := none }
  | giveUp {conversation : Conversation} {message : IncomingMessage} (quiet : conversation.owed = none)
      (waits : conversation.stage.Waits) : Step conversation (.received message) { conversation with stage := .broken }
  | finish {conversation : Conversation} (exited : conversation.stage = .exited) :
      Step conversation .finished { conversation with stage := .finished }
  | abort {conversation : Conversation} (spawned : conversation.stage ≠ .absent) (unfinished : conversation.stage ≠ .finished)
      (unaborted : conversation.stage ≠ .aborted) : Step conversation .aborted { conversation with stage := .aborted }

/-- A conversation from its beginning. -/
inductive Conversation.Reaches : List SessionEvent → Conversation → Prop where
  | start : Reaches [] {}
  | step {trace : List SessionEvent} {conversation next : Conversation} {event : SessionEvent} (reaches : Reaches trace conversation)
      (step : Conversation.Step crate lsp input conversation event next) : Reaches (trace ++ [event]) next

end Grammar

end Srcmv.Lsp
