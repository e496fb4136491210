import Srcmv.Proofs.Lsp.Conversing

/-! # Sessions are conversations

Whatever the server and the process do, what a session says and hears is a conversation. It is complete
when the session succeeds, and otherwise the process was never spawned or was aborted. Responses are
never mistaken for one another, and what a session says and hears is bounded by its limits.
-/

namespace Srcmv.Lsp

open Srcmv.Core Machine Program

variable {crate : ValueCrate} {lsp : LspCrate} {input : LifecycleInput} {limits : TransportLimits} {output : Bytes}
  {capabilities : NegotiatedCapabilities} {symbols : Value}

section Phases

/-- The stage in which the document is opened. -/
private abbrev readyStage (input : LifecycleInput) : Stage := if input.session.settings.isSome then .configured else .initialized

private theorem ready_alive : (readyStage input).Alive := by
  rw [readyStage]
  split_ifs <;> decide

private theorem expected_payload (payload : String) : (SessionFailure.invalidLspPayload payload).Expected := by
  constructor <;>
  · intro same
    cases same

/-- What is missing fails the session. -/
private theorem reads_ensures {α : Type} {found : Option α} {payload : String} {before : SessionWorld → Prop}
    (fails : ∀ world, before world → Fails crate lsp input limits output (.invalidLspPayload payload) world) :
    Ensures before (Program.ofExcept (found.elim (.error (.invalidLspPayload payload)) .ok))
      (fun value world => found = some value ∧ before world) (Fails crate lsp input limits output) := by
  cases found with
  | none =>
    refine Ensures.ofExcept (fun _ _ impossible => ?_) fun _ world stopped begins => ?_
    · cases impossible
    · cases stopped
      exact fails world begins
  | some value =>
    refine Ensures.ofExcept (fun _ _ same begins => ?_) fun _ _ impossible => ?_
    · cases same
      exact ⟨rfl, begins⟩
    · cases impossible

private theorem initializeSession_ensures :
    Ensures (Stands crate lsp input limits output .spawned none none 0 1) (initializeSession crate input lsp)
      (fun capabilities => Stands crate lsp input limits output (readyStage input) (some capabilities) none 0 2)
      (Fails crate lsp input limits output) := by
  rw [initializeSession]
  refine Ensures.bind (reads_ensures fun world stands => ?_) fun params => Ensures.fact fun serialized => ?_
  · obtain ⟨requests, notifications, along⟩ := stands
    exact along.fails (show Stage.Alive .spawned by decide) (expected_payload _)
  refine (request_ensures (by decide) (by decide) (.initialization serialized)).bind fun id => Ensures.fact fun same => ?_
  subst same
  refine (await_ensures (.inl rfl)).bind fun value => ?_
  refine Ensures.bind (reads_ensures fun world heard => heard.fails (.inl rfl) (expected_payload _)) fun result =>
    Ensures.fact fun read => ?_
  have negotiates : Ensures
      (HasHeard crate lsp input limits output ⟨.initializing, none, 0, 0, none, none⟩ 1 value 2)
      (Program.ofExcept ((validateInitializeResult result).mapError SessionFailure.capability))
      (fun capabilities => Stands crate lsp input limits output .negotiated (some capabilities) none 0 2)
      (Fails crate lsp input limits output) := by
    cases validated : validateInitializeResult result with
    | ok capabilities =>
      refine Ensures.ofExcept (fun _ _ same heard => ?_) fun _ _ impossible => ?_
      · cases same
        exact heard.accepted fun _ _ => .negotiated rfl read validated
      · cases impossible
    | error failure =>
      refine Ensures.ofExcept (fun _ _ impossible => ?_) fun _ _ stopped heard => ?_
      · cases impossible
      · cases stopped
        refine heard.fails (.inl rfl) ⟨fun same => ?_, fun same => ?_⟩ <;> cases same
  refine negotiates.bind fun capabilities => (says_ensures (by decide) (by decide) .initialized).bind fun _ => ?_
  cases configured : input.session.settings with
  | none =>
    have idle : Ensures (Stands crate lsp input limits output .initialized (some capabilities) none 0 2) (pure () : SessionProgram Unit)
        (fun _ => Stands crate lsp input limits output .initialized (some capabilities) none 0 2)
        (Fails crate lsp input limits output) := Ensures.pure fun _ stands => stands
    refine idle.bind fun _ => Ensures.pure fun _ stands => ?_
    rw [readyStage, configured]
    exact stands
  | some settings =>
    refine (says_ensures (by decide) (by decide) (.configure configured)).bind fun _ => Ensures.pure fun _ stands => ?_
    rw [readyStage, configured]
    exact stands

private theorem querySymbols_ensures :
    Ensures (Stands crate lsp input limits output (readyStage input) (some capabilities) none 0 2) (querySymbols crate input)
      (fun symbols => Stands crate lsp input limits output .closed (some capabilities) (some symbols) 0 3)
      (Fails crate lsp input limits output) := by
  rw [querySymbols]
  refine (says_ensures ready_alive (by decide) .didOpen).bind fun _ => ?_
  refine (request_ensures (by decide) (by decide) .documentSymbol).bind fun id => Ensures.fact fun same => ?_
  subst same
  refine (await_ensures (.inr (.inl rfl))).bind fun symbols => ?_
  have closes : Ensures (Stands crate lsp input limits output .answered (some capabilities) (some symbols) 0 3) (do
        sendNotification crate .documentSymbols "textDocument/didClose" (textDocumentParams input.document)
        return symbols : SessionProgram Value)
      (fun symbols => Stands crate lsp input limits output .closed (some capabilities) (some symbols) 0 3)
      (Fails crate lsp input limits output) :=
    (says_ensures (by decide) (by decide) .didClose).bind fun _ => Ensures.pure fun _ stands => stands
  exact closes.mono (fun _ heard => heard.accepted fun _ _ => .answered rfl) (fun _ _ done => done) fun _ _ failed => failed

private theorem finishProcess_ensures :
    Ensures (Stands crate lsp input limits output .exited (some capabilities) (some symbols) 0 4) finishProcess
      (fun _ => Stands crate lsp input limits output .finished (some capabilities) (some symbols) 0 4)
      (Fails crate lsp input limits output) := by
  intro world stands
  obtain ⟨requests, notifications, along⟩ := stands
  rw [finishProcess]
  split_ifs
  · refine ⟨fun _ _ finished => ?_, fun _ _ impossible => ?_⟩
    · cases finished
      refine ⟨requests, notifications, along.reaches.step (.finish rfl), ⟨along.counts.requests, along.counts.notifications⟩, ?_⟩
      exact along.tuned.congr rfl rfl (heard_finished _)
    · cases impossible
  · refine ⟨fun _ _ impossible => ?_, fun _ _ stopped => ?_⟩
    · cases impossible
    · cases stopped
      refine along.fails (show Stage.Alive .exited by decide) ⟨fun same => ?_, fun same => ?_⟩ <;> cases same

private theorem shutDown_ensures :
    Ensures (Stands crate lsp input limits output .closed (some capabilities) (some symbols) 0 3) (shutDown crate input)
      (fun _ => Stands crate lsp input limits output .finished (some capabilities) (some symbols) 0 4)
      (Fails crate lsp input limits output) := by
  rw [shutDown]
  refine (request_ensures (by decide) (by decide) .shutdown).bind fun id => Ensures.fact fun same => ?_
  subst same
  refine (await_ensures (.inr (.inr rfl))).bind fun result => ?_
  have stops : Ensures
      (HasHeard crate lsp input limits output ⟨.stopping, none, 0, 0, some capabilities, some symbols⟩ 3 result 4)
      (Program.ofExcept (if result.isNull then .ok () else .error (.invalidLspPayload "shutdown result")))
      (fun _ => Stands crate lsp input limits output .stopped (some capabilities) (some symbols) 0 4)
      (Fails crate lsp input limits output) := by
    split_ifs with null
    · refine Ensures.ofExcept (fun _ _ _ heard => ?_) fun _ _ impossible => ?_
      · cases result <;> cases null
        exact heard.accepted fun _ _ => .stopped rfl
      · cases impossible
    · refine Ensures.ofExcept (fun _ _ impossible => ?_) fun _ _ stopped heard => ?_
      · cases impossible
      · cases stopped
        exact heard.fails (.inr (.inr rfl)) (expected_payload _)
  refine stops.bind fun _ => (says_ensures (by decide) (by decide) .exit).bind fun _ => finishProcess_ensures

private theorem runActiveSession_ensures :
    Ensures (Stands crate lsp input limits output .spawned none none 0 1) (runActiveSession crate input lsp)
      (fun result => Stands crate lsp input limits output .finished (some result.capabilities) (some result.symbols) 0 4)
      (Fails crate lsp input limits output) := by
  rw [runActiveSession]
  exact initializeSession_ensures.bind fun capabilities => querySymbols_ensures.bind fun symbols =>
    shutDown_ensures.bind fun _ => Ensures.pure fun _ stands => stands

end Phases

/-- How the result of a session and its conversation agree. -/
inductive SessionEnds : Except SessionFailure SessionOutput → Conversation → Prop where
  | unspawned {failure : SessionFailure} : SessionEnds (.error failure) {}
  | finished {result : SessionOutput} {conversation : Conversation} (finished : conversation.stage = .finished)
      (quiet : conversation.owed = none) (capabilities : conversation.capabilities = some result.capabilities)
      (symbols : conversation.symbols = some result.symbols) : SessionEnds (.ok result) conversation
  | aborted {failure : SessionFailure} {conversation : Conversation} (aborted : conversation.stage = .aborted) :
      SessionEnds (.error failure) conversation

/-- Everything that is known of a session. -/
private structure Whole (crate : ValueCrate) (lsp : LspCrate) (input : LifecycleInput) (limits : TransportLimits) (output : Bytes)
    (result : Except SessionFailure SessionOutput) (trace : List SessionEvent) : Prop where
  converses : ∃ conversation, Conversation.Reaches crate lsp input trace conversation ∧ SessionEnds result conversation
  expected : ∀ failure, result = .error failure → failure.Expected
  heardFrom : HeardFrom crate limits output trace

/-- A check fails as expected. -/
private def Expects {α : Type} (check : Except SessionFailure α) : Prop := ∀ failure, check = .error failure → failure.Expected

private theorem Expects.bind {α β : Type} {check : Except SessionFailure α} {next : α → Except SessionFailure β} (first : Expects check)
    (second : ∀ value, Expects (next value)) : Expects (check >>= next) := by
  intro failure refused
  cases check with
  | error earlier =>
    rw [Except.error_bind] at refused
    cases refused
    exact first failure rfl
  | ok value => exact second value failure refused

private theorem expects_limit (actual limit : ℕ) (resource : String) :
    Expects ((ensureWithinLimit actual limit resource).mapError SessionFailure.ofReply) := by
  intro failure refused
  rw [ensureWithinLimit] at refused
  split_ifs at refused <;> cases refused
  refine ⟨fun same => ?_, fun same => ?_⟩ <;> cases same

private theorem startSession_expected (surroundings : Surroundings) : Expects (startSession crate input limits surroundings) := by
  have passes : Expects (.ok () : Except SessionFailure Unit) := fun _ impossible => by cases impossible
  rw [startSession, LifecycleInput.validate]
  refine Expects.bind ?_ fun _ => Expects.bind ?_ fun _ => Expects.bind ?_ fun transport => ?_
  · refine (expects_limit _ _ _).bind fun _ => Expects.bind ?_ fun _ => ?_
    · cases input.initializationOptions with
      | none => exact passes
      | some options => exact expects_limit _ _ _
    · cases input.session.settings with
      | none => exact passes
      | some settings => exact expects_limit _ _ _
  · rw [preflightDidOpen]
    cases encodeMessage crate.toVec (didOpenMessage input.document) limits.framing with
    | ok frame => exact passes
    | error failure =>
      rintro _ ⟨⟩
      refine ⟨fun same => ?_, fun same => ?_⟩ <;> cases same
  · intro failure refused
    cases spawned : Transport.spawn limits with
    | ok transport => rw [spawned] at refused; cases refused
    | error reason =>
      rw [spawned] at refused
      cases refused
      refine ⟨fun same => ?_, fun same => ?_⟩ <;> cases same
  · intro failure refused
    split_ifs at refused
    cases refused
    refine ⟨fun same => ?_, fun same => ?_⟩ <;> cases same

private theorem startSession_ok {surroundings : Surroundings} {transport : Transport}
    (started : startSession crate input limits surroundings = .ok transport) : Transport.spawn limits = .ok transport := by
  rw [startSession] at started
  obtain ⟨_, -, started⟩ := Except.bind_eq_ok.mp started
  obtain ⟨_, -, started⟩ := Except.bind_eq_ok.mp started
  obtain ⟨other, spawned, started⟩ := Except.bind_eq_ok.mp started
  split_ifs at started
  obtain rfl := Except.ok.inj started
  exact Except.mapError_eq_ok.mp spawned

private theorem runSession_whole (surroundings : Surroundings) :
    Whole crate lsp input limits (stdoutBytes surroundings.schedule.polls) (runSession crate input lsp limits surroundings).1
      (runSession crate input lsp limits surroundings).2 := by
  rw [runSession]
  cases started : startSession crate input limits surroundings with
  | error failure =>
    refine ⟨⟨_, .start, .unspawned⟩, fun other same => ?_, ⟨[], List.nil_prefix, rfl⟩⟩
    cases same
    exact startSession_expected surroundings _ started
  | ok transport =>
    have spawned := startSession_ok started
    have begins : Stands crate lsp input limits (stdoutBytes surroundings.schedule.polls) .spawned none none 0 1
        (surroundings.world transport) := by
      have fresh : transport.correlator = .new limits.maxPendingRequests ∧ transport.incoming = [] := by
        rw [Transport.spawn] at spawned
        split_ifs at spawned
        cases spawned
        exact ⟨rfl, rfl⟩
      refine ⟨0, 0, (Conversation.Reaches.start).step .spawn, ⟨rfl, rfl⟩, .of_spawn spawned, .of_spawn spawned _, ?_, ?_⟩
      · show transport.outstanding ≤ 0
        rw [Transport.outstanding, Transport.answered, fresh.1, fresh.2]
        rfl
      · show transport.correlator.nextId = 1
        rw [fresh.1]
        rfl
    obtain ⟨returned, stopped⟩ := runActiveSession_ensures _ begins
    dsimp only
    rcases ran : runActiveSession crate input lsp (surroundings.world transport) with ⟨failure | result, later⟩
    · obtain ⟨expected, ⟨conversation, reaches, alive⟩, heardFrom⟩ := stopped failure later ran
      refine ⟨⟨_, reaches.step (.abort alive.spawned alive.unfinished alive.unaborted), .aborted rfl⟩, fun other same => ?_, ?_⟩
      · cases same
        exact expected
      · obtain ⟨bodies, framed, decoded⟩ := heardFrom
        refine ⟨bodies, framed, ?_⟩
        rw [decoded, show heard (later.note .aborted).trace = heard later.trace from heard_aborted later.trace]
    · obtain ⟨requests, notifications, along⟩ := returned result later ran
      refine ⟨⟨_, along.reaches, .finished rfl rfl rfl rfl⟩, fun other impossible => ?_, along.tuned.synchronized.heardFrom⟩
      cases impossible

/-- Whatever the server and the process do: what a session does and hears is a conversation, complete with
its result if the session succeeds; a session that fails has aborted the process, or never spawned it. -/
theorem session_converses (crate : ValueCrate) (lsp : LspCrate) (input : LifecycleInput) (limits : TransportLimits)
    (surroundings : Surroundings) : ∃ conversation,
      Conversation.Reaches crate lsp input (runSession crate input lsp limits surroundings).2 conversation ∧
        SessionEnds (runSession crate input lsp limits surroundings).1 conversation :=
  (runSession_whole surroundings).converses

/-- No response is mistaken for that of another request and no buffered byte is miscounted, whatever the
server writes; and the messages that are heard are the first ones that the server has framed, in order. -/
theorem session_hears (crate : ValueCrate) (lsp : LspCrate) (input : LifecycleInput) (limits : TransportLimits)
    (surroundings : Surroundings) :
    (runSession crate input lsp limits surroundings).1 ≠ .error .unexpectedResponse ∧
    (runSession crate input lsp limits surroundings).1 ≠ .error .underflow ∧
    HeardFrom crate limits (stdoutBytes surroundings.schedule.polls) (runSession crate input lsp limits surroundings).2 := by
  have whole : Whole crate lsp input limits (stdoutBytes surroundings.schedule.polls) _ _ := runSession_whole surroundings
  exact ⟨fun same => (whole.expected _ same).correlated rfl, fun same => (whole.expected _ same).accounted rfl, whole.heardFrom⟩

/-! ## Bounds -/

/-- The messages that were said. -/
def said (trace : List SessionEvent) : List Value :=
  trace.filterMap fun event =>
    match event with
    | .sent value => some value
    | _ => none

/-- The most messages that the client may have said of itself. -/
private def Stage.ownMessages : Stage → ℕ
  | .absent | .spawned => 0
  | .initializing | .negotiated => 1
  | .initialized => 2
  | .configured => 3
  | .opened => 4
  | .querying | .answered => 5
  | .closed => 6
  | .stopping | .stopped => 7
  | .exited | .finished | .broken | .aborted => 8

/-- The most messages that were heard beyond requests and notifications. -/
private def Stage.results : Stage → ℕ
  | .absent | .spawned | .initializing => 0
  | .negotiated | .initialized | .configured | .opened | .querying => 1
  | .answered | .closed | .stopping => 2
  | .stopped | .exited | .finished => 3
  | .broken | .aborted => 4

/-- Nothing more is said than the client's own messages and a reply to every request, and nothing more is
heard than results, requests and notifications. -/
private structure Bounded (input : LifecycleInput) (trace : List SessionEvent) (conversation : Conversation) : Prop where
  spoken : (said trace).length + conversation.owed.toList.length ≤ conversation.stage.ownMessages + conversation.requests
  listened : (heard trace).length ≤ conversation.stage.results + conversation.requests + conversation.notifications
  requests : WithinLimit conversation.requests input.limits.serverRequests
  notifications : WithinLimit conversation.notifications input.limits.notifications

private theorem Stage.ownMessages_le (stage : Stage) : stage.ownMessages ≤ 8 := by cases stage <;> decide

private theorem Stage.results_le (stage : Stage) : stage.results ≤ 4 := by cases stage <;> decide

private theorem says_ownMessages {stage next : Stage} {value : Value} (spoken : Says lsp input stage value next) :
    stage.ownMessages + 1 ≤ next.ownMessages ∧ stage.results ≤ next.results := by
  cases spoken
  case didOpen => split_ifs <;> decide
  all_goals decide

private theorem accepts_results {conversation next : Conversation} {id : ClientRequestId} {value : Value}
    (accepts : Accepts lsp conversation id value next) : conversation.stage.results + 1 ≤ next.stage.results ∧
      conversation.stage.ownMessages ≤ next.stage.ownMessages ∧ next.owed = conversation.owed ∧
      next.requests = conversation.requests ∧ next.notifications = conversation.notifications := by
  cases accepts with
  | negotiated waits read validated => rw [waits]; exact ⟨Nat.le_refl 1, Nat.le_refl 1, rfl, rfl, rfl⟩
  | answered waits => rw [waits]; exact ⟨Nat.le_refl 2, Nat.le_refl 5, rfl, rfl, rfl⟩
  | stopped waits => rw [waits]; exact ⟨Nat.le_refl 3, Nat.le_refl 7, rfl, rfl, rfl⟩

private theorem Stage.Waits.results_lt {stage : Stage} (waits : stage.Waits) : stage.results + 1 ≤ 4 := by
  rcases waits with rfl | rfl | rfl <;> decide

private theorem said_length (trace : List SessionEvent) (event : SessionEvent) :
    (said (trace ++ [event])).length = (said trace).length + (said [event]).length := by
  rw [said, List.filterMap_append, List.length_append]
  rfl

private theorem heard_length (trace : List SessionEvent) (event : SessionEvent) :
    (heard (trace ++ [event])).length = (heard trace).length + (heard [event]).length := by
  rw [heard, List.filterMap_append, List.length_append]
  rfl

private theorem Bounded.step {trace : List SessionEvent} {conversation next : Conversation} {event : SessionEvent}
    (bounded : Bounded input trace conversation) (step : Conversation.Step crate lsp input conversation event next) :
    Bounded input (trace ++ [event]) next := by
  obtain ⟨spoken, listened, requests, notifications⟩ := bounded
  have speaks := said_length trace event
  have listens := heard_length trace event
  have own := conversation.stage.ownMessages_le
  have results := conversation.stage.results_le
  cases step with
  | spawn => exact ⟨speaks.trans_le spoken, listens.trans_le listened, requests, notifications⟩
  | say quiet speaking =>
    obtain ⟨more, same⟩ := says_ownMessages speaking
    change _ = _ + 1 at speaks
    change _ = _ + 0 at listens
    exact ⟨by dsimp only; omega, by dsimp only; omega, requests, notifications⟩
  | accept quiet accepts =>
    obtain ⟨more, same, owed, asked, notified⟩ := accepts_results accepts
    change _ = _ + 0 at speaks
    change _ = _ + 1 at listens
    rw [← owed, ← asked] at spoken
    rw [← asked, ← notified] at listened
    exact ⟨by omega, by omega, asked ▸ requests, notified ▸ notifications⟩
  | notified quiet waits within =>
    change _ = _ + 0 at speaks
    change _ = _ + 1 at listens
    exact ⟨by dsimp only; omega, by dsimp only; omega, requests, within⟩
  | asked quiet waits within answers =>
    change _ = _ + 0 at speaks
    change _ = _ + 1 at listens
    rw [quiet] at spoken
    change _ + 0 ≤ _ at spoken
    refine ⟨?_, by dsimp only; omega, within, notifications⟩
    show _ + 1 ≤ _
    dsimp only
    omega
  | reply owes =>
    change _ = _ + 1 at speaks
    change _ = _ + 0 at listens
    rw [owes] at spoken
    change _ + 1 ≤ _ at spoken
    refine ⟨?_, by dsimp only; omega, requests, notifications⟩
    show _ + 0 ≤ _
    dsimp only
    omega
  | giveUp quiet waits =>
    change _ = _ + 0 at speaks
    change _ = _ + 1 at listens
    have fewer := waits.results_lt
    refine ⟨?_, ?_, requests, notifications⟩
    · show _ ≤ 8 + _
      dsimp only
      omega
    · show _ ≤ 4 + _ + _
      dsimp only
      omega
  | finish exited =>
    change _ = _ + 0 at speaks
    change _ = _ + 0 at listens
    rw [exited] at spoken listened
    refine ⟨?_, listens.trans_le listened, requests, notifications⟩
    rw [speaks]
    exact spoken
  | abort spawned unfinished unaborted =>
    change _ = _ + 0 at speaks
    change _ = _ + 0 at listens
    refine ⟨?_, ?_, requests, notifications⟩
    · show _ ≤ 8 + _
      dsimp only
      omega
    · show _ ≤ 4 + _ + _
      dsimp only
      omega

private theorem bounded_of_reaches {trace : List SessionEvent} {conversation : Conversation}
    (reaches : Conversation.Reaches crate lsp input trace conversation) : Bounded input trace conversation := by
  induction reaches with
  | start => exact ⟨le_rfl, le_rfl, .inl (Nat.zero_le _), .inl (Nat.zero_le _)⟩
  | step _ step ih => exact ih.step step

/-- However many messages the server writes, a session says at most eight messages of its own and one reply
for every request it allows, and hears no more than the requests and notifications it allows and four
further messages. Only a limit of `usize::MAX` bounds nothing: its saturating counter never exceeds it. -/
theorem session_bounded (crate : ValueCrate) (lsp : LspCrate) (input : LifecycleInput) (limits : TransportLimits)
    (surroundings : Surroundings) :
    ((said (runSession crate input lsp limits surroundings).2).length ≤ 8 + input.limits.serverRequests ∨
      usizeMax ≤ input.limits.serverRequests) ∧
    ((heard (runSession crate input lsp limits surroundings).2).length ≤
        4 + input.limits.serverRequests + input.limits.notifications ∨
      usizeMax ≤ input.limits.serverRequests ∨ usizeMax ≤ input.limits.notifications) := by
  have whole : Whole crate lsp input limits (stdoutBytes surroundings.schedule.polls) _ _ := runSession_whole surroundings
  obtain ⟨conversation, reaches, -⟩ := whole.converses
  obtain ⟨spoken, listened, requests, notifications⟩ := bounded_of_reaches reaches
  have own := conversation.stage.ownMessages_le
  have results := conversation.stage.results_le
  simp only [WithinLimit] at *
  omega

end Srcmv.Lsp
