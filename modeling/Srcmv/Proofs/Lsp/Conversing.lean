import Srcmv.Model.Lsp.Conversation
import Srcmv.Proofs.Lsp.Receiving
import Srcmv.Soundness.Buffering

/-! # Parts of a conversation

Each part of a session takes a conversation from one stage to another, whatever the server and the
process do, or it fails while the process is still to be aborted. A response that is heard is always the
one that is waited for.
-/

namespace Srcmv.Lsp

open Srcmv.Core Machine Program

/-- The messages that were heard. -/
def heard (trace : List SessionEvent) : List IncomingMessage :=
  trace.filterMap fun event =>
    match event with
    | .received message => some message
    | _ => none

@[simp] theorem heard_nil : heard [] = [] := rfl

@[simp] theorem heard_received (trace : List SessionEvent) (message : IncomingMessage) :
    heard (trace ++ [.received message]) = heard trace ++ [message] := by
  rw [heard, List.filterMap_append]
  rfl

@[simp] theorem heard_sent (trace : List SessionEvent) (value : Value) : heard (trace ++ [.sent value]) = heard trace := by
  rw [heard, List.filterMap_append]
  exact List.append_nil _

@[simp] theorem heard_finished (trace : List SessionEvent) : heard (trace ++ [.finished]) = heard trace := by
  rw [heard, List.filterMap_append]
  exact List.append_nil _

@[simp] theorem heard_aborted (trace : List SessionEvent) : heard (trace ++ [.aborted]) = heard trace := by
  rw [heard, List.filterMap_append]
  exact List.append_nil _

/-- A process is running that was not told that all is over. -/
structure Stage.Alive (stage : Stage) : Prop where
  spawned : stage ≠ .absent
  unfinished : stage ≠ .finished
  unaborted : stage ≠ .aborted

instance (stage : Stage) : Decidable stage.Alive :=
  decidable_of_iff (stage ≠ .absent ∧ stage ≠ .finished ∧ stage ≠ .aborted)
    ⟨fun alive => ⟨alive.1, alive.2.1, alive.2.2⟩, fun alive => ⟨alive.spawned, alive.unfinished, alive.unaborted⟩⟩

theorem Stage.Waits.alive {stage : Stage} (waits : stage.Waits) : stage.Alive := by
  rcases waits with rfl | rfl | rfl <;> decide

/-- The failures that may happen. -/
structure SessionFailure.Expected (failure : SessionFailure) : Prop where
  correlated : failure ≠ .unexpectedResponse
  accounted : failure ≠ .underflow

section Invariants

variable (crate : ValueCrate) (lsp : LspCrate) (input : LifecycleInput) (limits : TransportLimits) (output : Bytes)

/-- The messages that were heard are the first ones that the server has framed. -/
def HeardFrom (trace : List SessionEvent) : Prop :=
  ∃ bodies, bodies <+: (decode limits.framing FrameDecoder.fresh output).1 ∧
    bodies.map (decodeBody crate limits.envelope) = (heard trace).map .ok

/-- What holds of the transport between two messages, with these requests outstanding. -/
structure Tuned (pending : Multiset ClientRequestId) (nextId : ClientRequestId) (world : SessionWorld) : Prop where
  accounted : Accounted limits world.transport
  synchronized : Synchronized crate limits output (heard world.trace) world.transport world.schedule.polls
  outstanding : world.transport.outstanding ≤ pending
  nextId : world.transport.correlator.nextId = nextId

/-- The counters of a session count what its conversation does. -/
structure Tallies (conversation : Conversation) (world : SessionWorld) : Prop where
  requests : world.counters.requests = min conversation.requests usizeMax
  notifications : world.counters.notifications = min conversation.notifications usizeMax

/-- A session whose conversation stands here. -/
structure Along (conversation : Conversation) (pending : Multiset ClientRequestId) (nextId : ClientRequestId) (world : SessionWorld) :
    Prop where
  reaches : Conversation.Reaches crate lsp input world.trace conversation
  counts : Tallies conversation world
  tuned : Tuned crate limits output pending nextId world

/-- A session that has just heard a message. -/
structure Hearing (conversation : Conversation) (message : IncomingMessage) (pending : Multiset ClientRequestId)
    (nextId : ClientRequestId) (world : SessionWorld) : Prop where
  reaches : ∃ trace, world.trace = trace ++ [.received message] ∧ Conversation.Reaches crate lsp input trace conversation
  tuned : Tuned crate limits output pending nextId world

/-- What is left by a session that fails. -/
structure Fails (failure : SessionFailure) (world : SessionWorld) : Prop where
  expected : failure.Expected
  reaches : ∃ conversation, Conversation.Reaches crate lsp input world.trace conversation ∧ conversation.stage.Alive
  heardFrom : HeardFrom crate limits output world.trace

end Invariants

variable {crate : ValueCrate} {lsp : LspCrate} {input : LifecycleInput} {limits : TransportLimits} {output : Bytes}
  {conversation : Conversation} {pending : Multiset ClientRequestId} {nextId : ClientRequestId} {world : SessionWorld} {phase : SessionPhase}

theorem Synchronized.heardFrom {trace : List SessionEvent} {transport : Transport} {polls : List Poll}
    (synchronized : Synchronized crate limits output (heard trace) transport polls) : HeardFrom crate limits output trace := by
  obtain ⟨read, state, bodies, whole, -, traced, decoded⟩ := synchronized.decodes
  refine ⟨bodies.take (heard trace).length, (List.take_prefix _ _).trans ?_, ?_⟩
  · rw [whole, decode, Incremental.trace_append_ok (by rw [traced]), traced]
    exact List.prefix_append _ _
  · rw [List.map_take, decoded, List.map_append, List.take_left' (by rw [List.length_map])]

theorem Tuned.congr {later : SessionWorld} (tuned : Tuned crate limits output pending nextId world)
    (transport : later.transport = world.transport) (schedule : later.schedule = world.schedule)
    (same : heard later.trace = heard world.trace) : Tuned crate limits output pending nextId later := by
  obtain ⟨accounted, synchronized, outstanding, next⟩ := tuned
  rw [← transport] at accounted synchronized outstanding next
  rw [← same, ← schedule] at synchronized
  exact ⟨accounted, synchronized, outstanding, next⟩

theorem Along.fails {failure : SessionFailure} (along : Along crate lsp input limits output conversation pending nextId world)
    (alive : conversation.stage.Alive) (expected : failure.Expected) :
    Fails crate lsp input limits output failure world :=
  ⟨expected, ⟨_, along.reaches, alive⟩, along.tuned.synchronized.heardFrom⟩

/-- After a message a session may give up. -/
theorem Hearing.fails {message : IncomingMessage} {failure : SessionFailure}
    (hearing : Hearing crate lsp input limits output conversation message pending nextId world) (quiet : conversation.owed = none)
    (waits : conversation.stage.Waits) (expected : failure.Expected) :
    Fails crate lsp input limits output failure world := by
  obtain ⟨trace, same, reaches⟩ := hearing.reaches
  refine ⟨expected, ⟨{ conversation with stage := .broken }, ?_, ?_⟩, hearing.tuned.synchronized.heardFrom⟩
  · rw [same]
    exact reaches.step (.giveUp quiet waits)
  · constructor <;>
    · intro same
      cases same

/-- A message is heard that the conversation goes on with. -/
theorem Hearing.along {message : IncomingMessage} {next : Conversation}
    (hearing : Hearing crate lsp input limits output conversation message pending nextId world)
    (step : Conversation.Step crate lsp input conversation (.received message) next) (counts : Tallies next world) :
    Along crate lsp input limits output next pending nextId world := by
  obtain ⟨trace, same, reaches⟩ := hearing.reaches
  refine ⟨?_, counts, hearing.tuned⟩
  rw [same]
  exact reaches.step step

/-! ## What is said -/

theorem mapTransport_expected (phase : SessionPhase) (failure : TransportError) : (mapTransport phase failure).Expected := by
  constructor <;>
  · intro same
    cases failure <;> cases same

/-- A message is said that the conversation goes on with. -/
theorem sendValue_ensures {next : Conversation} {value : Value} (alive : conversation.stage.Alive) (alive' : next.stage.Alive)
    (step : Conversation.Step crate lsp input conversation (.sent value) next) (requests : next.requests = conversation.requests)
    (notifications : next.notifications = conversation.notifications) :
    Ensures (Along crate lsp input limits output conversation pending nextId) (sendValue crate phase value)
      (fun _ => Along crate lsp input limits output next pending nextId) (Fails crate lsp input limits output) := by
  intro world along
  have speaks (queueing : List (Except TransportError Unit)) :
      Along crate lsp input limits output next pending nextId { world.note (.sent value) with queueing } := by
    refine ⟨along.reaches.step step, ⟨?_, ?_⟩, along.tuned.congr rfl rfl (heard_sent _ _)⟩
    · rw [requests]
      exact along.counts.requests
    · rw [notifications]
      exact along.counts.notifications
  rw [sendValue]
  cases encodeMessage crate.toVec value world.transport.framingLimits with
  | error failure =>
    refine ⟨fun _ _ impossible => ?_, fun _ _ stopped => ?_⟩
    · cases impossible
    · cases stopped
      refine along.fails alive ⟨fun same => ?_, fun same => ?_⟩ <;> cases same
  | ok frame =>
    cases world.queueing with
    | nil =>
      refine ⟨fun _ _ said => ?_, fun _ _ impossible => ?_⟩
      · cases said
        exact speaks world.queueing
      · cases impossible
    | cons answer queueing =>
      dsimp only
      cases answer with
      | ok _ =>
        refine ⟨fun _ _ said => ?_, fun _ _ impossible => ?_⟩
        · cases said
          exact speaks queueing
        · cases impossible
      | error failure =>
        refine ⟨fun _ _ impossible => ?_, fun _ _ stopped => ?_⟩
        · cases impossible
        · cases stopped
          exact (speaks queueing).fails alive' (mapTransport_expected phase failure)

/-! ## What is heard -/

theorem nextMessage_ensures (alive : conversation.stage.Alive) :
    Ensures (Along crate lsp input limits output conversation pending nextId) (nextMessage crate phase)
      (fun message world => ∃ left, (↑message.responseId?.toList : Multiset ClientRequestId) + left ≤ pending ∧
        Hearing crate lsp input limits output conversation message left nextId world ∧ Tallies conversation world)
      (Fails crate lsp input limits output) := by
  intro world along
  have delivers : Delivers crate limits output (heard world.trace) _ _ := nextIncoming_delivers along.tuned.accounted world.schedule
  obtain ⟨received, ran, accounted, delivered⟩ := delivers.returns
  have answers := Transport.nextIncoming_answers ran
  rw [nextMessage, ran]
  dsimp only
  cases result : received.result with
  | error failure =>
    refine ⟨fun _ _ impossible => ?_, fun _ _ stopped => ?_⟩
    · cases impossible
    · cases stopped
      exact ⟨mapTransport_expected phase failure, ⟨_, along.reaches, alive⟩, along.tuned.synchronized.heardFrom⟩
  | ok message =>
    refine ⟨fun _ _ said => ?_, fun _ _ impossible => ?_⟩
    · cases said
      have synchronized := delivered along.tuned.synchronized message result
      refine ⟨received.transport.outstanding, (answers.message message result).trans along.tuned.outstanding,
        ⟨⟨_, rfl, along.reaches⟩, accounted, ?_, le_rfl, ?_⟩, along.counts.requests, along.counts.notifications⟩
      · rw [← heard_received] at synchronized
        exact synchronized
      · exact answers.nextId.trans along.tuned.nextId
    · cases impossible

theorem countOne_min (count : ℕ) : countOne (min count usizeMax) = min (count + 1) usizeMax := by
  rw [countOne]
  omega

theorem withinLimit_of_not {count limit : ℕ} (within : ¬min count usizeMax > limit) : WithinLimit count limit := by
  rw [WithinLimit]
  omega

section Handling

variable {left : Multiset ClientRequestId} (quiet : conversation.owed = none) (waits : conversation.stage.Waits)

/-- A counter goes up by one, within its limit. -/
private theorem limited {count : ℕ} {limit : ℕ} {resource : String} {before : SessionWorld → Prop} {counter : SessionWorld → ℕ}
    {failed : SessionFailure → SessionWorld → Prop} (counted : ∀ world, before world → counter world = min count usizeMax)
    (stops : ∀ world, before world → failed (.resourceLimit resource limit) world) :
    Ensures before (Program.check fun world => if counter world > limit then .error (.resourceLimit resource limit) else .ok ())
      (fun _ world => WithinLimit count limit ∧ before world) failed := by
  refine Ensures.check (fun _ world passed begins => ?_) fun _ world refused begins => ?_
  · refine ⟨?_, begins⟩
    rw [counted world begins] at passed
    split_ifs at passed with exceeds
    exact withinLimit_of_not exceeds
  · split_ifs at refused
    cases refused
    exact stops world begins

include quiet waits in
theorem countNotification_ensures {method : String} {params : Option Value} :
    Ensures (fun world => Hearing crate lsp input limits output conversation (.notification method params) left nextId world ∧
        Tallies conversation world) (countNotification input)
      (fun _ => Along crate lsp input limits output { conversation with notifications := conversation.notifications + 1 } left nextId)
      (Fails crate lsp input limits output) := by
  have counted : Ensures (fun world => Hearing crate lsp input limits output conversation (.notification method params) left nextId world ∧
        Tallies conversation world)
      (Program.update fun world => { world with counters.notifications := countOne world.counters.notifications })
      (fun _ world => Hearing crate lsp input limits output conversation (.notification method params) left nextId world ∧
        Tallies { conversation with notifications := conversation.notifications + 1 } world)
      (Fails crate lsp input limits output) := by
    refine Ensures.update fun world hearing => ⟨⟨hearing.1.reaches, hearing.1.tuned.congr rfl rfl rfl⟩, hearing.2.requests, ?_⟩
    rw [← countOne_min, ← hearing.2.notifications]
  refine counted.bind fun _ => (limited (fun _ hearing => hearing.2.notifications) fun world hearing => ?_).mono
    (fun _ holds => holds) (fun _ world passed => ?_) fun _ _ failed => failed
  · refine hearing.1.fails quiet waits ⟨fun same => ?_, fun same => ?_⟩ <;> cases same
  · obtain ⟨within, hearing, counts⟩ := passed
    exact hearing.along (.notified quiet waits within) counts

include quiet waits in
theorem countRequest_ensures {id : ServerRequestId} {method : String} {params : Option Value} :
    Ensures (fun world => Hearing crate lsp input limits output conversation (.request id method params) left nextId world ∧
        Tallies conversation world) (countRequest input)
      (fun _ world => WithinLimit (conversation.requests + 1) input.limits.serverRequests ∧
        Hearing crate lsp input limits output conversation (.request id method params) left nextId world ∧
        Tallies { conversation with requests := conversation.requests + 1 } world)
      (Fails crate lsp input limits output) := by
  have counted : Ensures (fun world => Hearing crate lsp input limits output conversation (.request id method params) left nextId world ∧
        Tallies conversation world)
      (Program.update fun world => { world with counters.requests := countOne world.counters.requests })
      (fun _ world => Hearing crate lsp input limits output conversation (.request id method params) left nextId world ∧
        Tallies { conversation with requests := conversation.requests + 1 } world)
      (Fails crate lsp input limits output) := by
    refine Ensures.update fun world hearing => ⟨⟨hearing.1.reaches, hearing.1.tuned.congr rfl rfl rfl⟩, ?_, hearing.2.notifications⟩
    rw [← countOne_min, ← hearing.2.requests]
  refine counted.bind fun _ => limited (fun _ hearing => hearing.2.requests) fun world hearing => ?_
  refine hearing.1.fails quiet waits ⟨fun same => ?_, fun same => ?_⟩ <;> cases same

include quiet waits in
/-- A request of the server is answered before anything else is heard. -/
theorem answerRequest_ensures {id : ServerRequestId} {method : String} {params : Option Value} :
    Ensures (fun world => Hearing crate lsp input limits output conversation (.request id method params) left nextId world ∧
        Tallies conversation world) (answerRequest crate input phase ⟨id, method, params⟩)
      (fun _ => Along crate lsp input limits output { conversation with requests := conversation.requests + 1 } left nextId)
      (Fails crate lsp input limits output) := by
  rw [answerRequest]
  refine (countRequest_ensures quiet waits).bind fun _ => Ensures.fact fun within => ?_
  have owes : Ensures (fun world => Hearing crate lsp input limits output conversation (.request id method params) left nextId world ∧
        Tallies { conversation with requests := conversation.requests + 1 } world)
      (Program.ofExcept ((dispatchServerRequest crate input.session ⟨id, method, params⟩).mapError SessionFailure.ofReply))
      (fun reply => Along crate lsp input limits output
        { conversation with owed := some reply, requests := conversation.requests + 1 } left nextId)
      (Fails crate lsp input limits output) := by
    refine Ensures.ofExcept (fun reply world answers hearing => ?_) fun failure world refused hearing => ?_
    · cases dispatched : dispatchServerRequest crate input.session ⟨id, method, params⟩ with
      | error failure => rw [dispatched] at answers; cases answers
      | ok other =>
        rw [dispatched] at answers
        cases answers
        exact hearing.1.along (.asked quiet waits within dispatched) ⟨hearing.2.requests, hearing.2.notifications⟩
    · refine hearing.1.fails quiet waits ?_
      cases dispatched : dispatchServerRequest crate input.session ⟨id, method, params⟩ with
      | ok other => rw [dispatched] at refused; cases refused
      | error reason =>
        rw [dispatched] at refused
        cases refused
        constructor <;>
        · intro same
          cases reason <;> cases same
  refine owes.bind fun reply => ?_
  have replies : Conversation.Step crate lsp input { conversation with owed := some reply, requests := conversation.requests + 1 }
      (.sent reply) { conversation with requests := conversation.requests + 1 } := by
    have step := @Conversation.Step.reply crate lsp input
      { conversation with owed := some reply, requests := conversation.requests + 1 } reply rfl
    rw [← quiet] at step
    exact step
  exact sendValue_ensures waits.alive waits.alive replies rfl rfl

end Handling

/-! ## Waiting -/

section Waiting

variable (crate lsp input limits output)

/-- The session waits on: more may have been heard and answered, but the conversation stands where it stood. -/
def WaitsOn (conversation : Conversation) (pending : Multiset ClientRequestId) (nextId : ClientRequestId) (world : SessionWorld) : Prop :=
  ∃ requests notifications, Along crate lsp input limits output { conversation with requests, notifications } pending nextId world

/-- The result of a request has just been heard, and no request is outstanding. -/
def HasHeard (conversation : Conversation) (id : ClientRequestId) (value : Value) (nextId : ClientRequestId) (world : SessionWorld) : Prop :=
  ∃ requests notifications,
    Hearing crate lsp input limits output { conversation with requests, notifications } (.response id (.result value)) 0 nextId world ∧
      Tallies { conversation with requests, notifications } world

end Waiting

variable {expected : ClientRequestId} {method : String}

/-- No request but the one that is waited for can be answered. -/
private theorem answers_expected {id : ClientRequestId} {left : Multiset ClientRequestId}
    (outstanding : (↑[id] : Multiset ClientRequestId) + left ≤ {expected}) : id = expected ∧ left = 0 := by
  have small := Multiset.card_le_card outstanding
  rw [Multiset.card_add, Multiset.coe_card, List.length_singleton, Multiset.card_singleton] at small
  have empty : left = 0 := Multiset.card_eq_zero.mp (by omega)
  refine ⟨?_, empty⟩
  have member : id ∈ ({expected} : Multiset ClientRequestId) :=
    Multiset.mem_of_le outstanding (Multiset.mem_add.mpr (.inl (Multiset.mem_coe.mpr List.mem_cons_self)))
  exact Multiset.mem_singleton.mp member

theorem handleMessage_ensures (quiet : conversation.owed = none) (waits : conversation.stage.Waits) {message : IncomingMessage}
    {left : Multiset ClientRequestId} (outstanding : (↑message.responseId?.toList : Multiset ClientRequestId) + left ≤ {expected}) :
    Ensures (fun world => Hearing crate lsp input limits output conversation message left nextId world ∧ Tallies conversation world)
      (handleMessage crate input expected method phase message)
      (fun result world => (∀ value, result = some value → HasHeard crate lsp input limits output conversation expected value nextId world) ∧
        (result = none → WaitsOn crate lsp input limits output conversation {expected} nextId world))
      (Fails crate lsp input limits output) := by
  have fewer {next : Conversation} {world : SessionWorld} (small : left ≤ {expected})
      (along : Along crate lsp input limits output next left nextId world) :
      Along crate lsp input limits output next {expected} nextId world :=
    ⟨along.reaches, along.counts, along.tuned.accounted, along.tuned.synchronized, along.tuned.outstanding.trans small, along.tuned.nextId⟩
  cases message with
  | response id payload =>
    obtain ⟨rfl, rfl⟩ := answers_expected outstanding
    rw [handleMessage.eq_def]
    dsimp only
    rw [if_pos rfl]
    cases payload with
    | result value =>
      refine Ensures.pure fun world hearing => ⟨fun other same => ?_, fun impossible => ?_⟩
      · cases same
        exact ⟨_, _, hearing⟩
      · cases impossible
    | error failure =>
      refine Ensures.stop fun world hearing => hearing.1.fails quiet waits ⟨fun same => ?_, fun same => ?_⟩ <;> cases same
  | notification name params =>
    rw [handleMessage]
    refine (countNotification_ensures quiet waits).bind fun _ => Ensures.pure fun world along => ⟨fun _ impossible => ?_, fun _ => ?_⟩
    · cases impossible
    · exact ⟨_, _, fewer ((zero_add left).symm.trans_le outstanding) along⟩
  | request id name params =>
    rw [handleMessage]
    refine (answerRequest_ensures quiet waits).bind fun _ => Ensures.pure fun world along => ⟨fun _ impossible => ?_, fun _ => ?_⟩
    · cases impossible
    · exact ⟨_, _, fewer ((zero_add left).symm.trans_le outstanding) along⟩

/-- One turn of waiting. -/
theorem awaitResponse_eq (world : SessionWorld) : awaitResponse crate input expected method phase world =
    match nextMessage crate phase world with
    | (.error failure, later) => (.error failure, later)
    | (.ok message, later) =>
        match handleMessage crate input expected method phase message later with
        | (.error failure, last) => (.error failure, last)
        | (.ok (some value), last) => (.ok value, last)
        | (.ok none, last) => awaitResponse crate input expected method phase last := by
  rw [awaitResponse.eq_def]
  rcases heard : nextMessage crate phase world with ⟨_ | message, later⟩
  · rfl
  · dsimp only
    rcases handled : handleMessage crate input expected method phase message later with ⟨_ | _ | _, last⟩ <;> rfl

/-- One turn of a session that waits: it fails, it has heard the result, or it waits on. -/
private theorem turn_ensures (method : String) (phase : SessionPhase) (quiet : conversation.owed = none)
    (waits : conversation.stage.Waits) (waiting : WaitsOn crate lsp input limits output conversation {expected} nextId world) :
    (∀ failure later, nextMessage crate phase world = (.error failure, later) → Fails crate lsp input limits output failure later) ∧
    ∀ message later, nextMessage crate phase world = (.ok message, later) →
      (∀ value last, handleMessage crate input expected method phase message later = (.ok (some value), last) →
        HasHeard crate lsp input limits output conversation expected value nextId last) ∧
      (∀ last, handleMessage crate input expected method phase message later = (.ok none, last) →
        WaitsOn crate lsp input limits output conversation {expected} nextId last) ∧
      ∀ failure last, handleMessage crate input expected method phase message later = (.error failure, last) →
        Fails crate lsp input limits output failure last := by
  obtain ⟨requests, notifications, along⟩ := waiting
  have alive : ({ conversation with requests, notifications } : Conversation).stage.Alive := waits.alive
  have waits' : ({ conversation with requests, notifications } : Conversation).stage.Waits := waits
  have quiet' : ({ conversation with requests, notifications } : Conversation).owed = none := quiet
  obtain ⟨hears, fails⟩ := nextMessage_ensures alive world along
  refine ⟨fails, fun message later heard => ?_⟩
  obtain ⟨left, outstanding, hearing⟩ := hears message later heard
  obtain ⟨handles, fails⟩ := handleMessage_ensures quiet' waits' outstanding later hearing
  exact ⟨fun value last handled => (handles _ _ handled).1 value rfl, fun last handled => (handles _ _ handled).2 rfl, fails⟩

/-- Whatever is heard before, a session that waits hears the result of its request or fails. -/
theorem awaitResponse_ensures (quiet : conversation.owed = none) (waits : conversation.stage.Waits) :
    Ensures (WaitsOn crate lsp input limits output conversation {expected} nextId) (awaitResponse crate input expected method phase)
      (fun value => HasHeard crate lsp input limits output conversation expected value nextId) (Fails crate lsp input limits output) := by
  intro world waiting
  induction world using awaitResponse.induct crate input expected method phase with
  | case1 world failure later heard =>
    obtain ⟨fails, -⟩ := turn_ensures method phase quiet waits waiting
    rw [awaitResponse_eq, heard]
    refine ⟨fun _ _ impossible => ?_, fun _ _ stopped => ?_⟩
    · cases impossible
    · cases stopped
      exact fails _ _ heard
  | case2 world message later heard failure last handled =>
    obtain ⟨-, turns⟩ := turn_ensures method phase quiet waits waiting
    rw [awaitResponse_eq, heard]
    dsimp only
    rw [handled]
    refine ⟨fun _ _ impossible => ?_, fun _ _ stopped => ?_⟩
    · cases impossible
    · cases stopped
      exact (turns _ _ heard).2.2 _ _ handled
  | case3 world message later heard value last handled =>
    obtain ⟨-, turns⟩ := turn_ensures method phase quiet waits waiting
    rw [awaitResponse_eq, heard]
    dsimp only
    rw [handled]
    refine ⟨fun _ _ answered => ?_, fun _ _ impossible => ?_⟩
    · cases answered
      exact (turns _ _ heard).1 _ _ handled
    · cases impossible
  | case4 world message later heard last handled ih =>
    obtain ⟨-, turns⟩ := turn_ensures method phase quiet waits waiting
    rw [awaitResponse_eq, heard]
    dsimp only
    rw [handled]
    exact ih ((turns _ _ heard).2.1 _ handled)

/-! ## Phases -/

section Phases

variable {stage next : Stage} {capabilities : Option NegotiatedCapabilities} {symbols : Option Value} {value params : Value}

section Standing

variable (crate lsp input limits output)

/-- The conversation has come to a stage, and no reply is owed. -/
def Stands (stage : Stage) (capabilities : Option NegotiatedCapabilities) (symbols : Option Value) (pending : Multiset ClientRequestId)
    (nextId : ClientRequestId) (world : SessionWorld) : Prop :=
  ∃ requests notifications,
    Along crate lsp input limits output ⟨stage, none, requests, notifications, capabilities, symbols⟩ pending nextId world

end Standing

/-- What is said next is said once. -/
theorem says_ensures (alive : stage.Alive) (alive' : next.Alive) (spoken : Says lsp input stage value next) :
    Ensures (Stands crate lsp input limits output stage capabilities symbols pending nextId) (sendValue crate phase value)
      (fun _ => Stands crate lsp input limits output next capabilities symbols pending nextId) (Fails crate lsp input limits output) := by
  intro world stands
  obtain ⟨requests, notifications, along⟩ := stands
  have step : Conversation.Step crate lsp input ⟨stage, none, requests, notifications, capabilities, symbols⟩ (.sent value)
      ⟨next, none, requests, notifications, capabilities, symbols⟩ :=
    @Conversation.Step.say crate lsp input ⟨stage, none, requests, notifications, capabilities, symbols⟩ value next rfl spoken
  have sends : Ensures (Along crate lsp input limits output ⟨stage, none, requests, notifications, capabilities, symbols⟩ pending nextId)
      (sendValue crate phase value) (fun _ => Stands crate lsp input limits output next capabilities symbols pending nextId)
      (Fails crate lsp input limits output) :=
    (sendValue_ensures alive alive' step rfl rfl).mono (fun _ holds => holds) (fun _ _ along => ⟨_, _, along⟩) fun _ _ failed => failed
  exact sends world along

theorem Tuned.begin {correlator : ResponseCorrelator} {id : ClientRequestId} (tuned : Tuned crate limits output 0 nextId world)
    (begun : world.transport.correlator.beginRequest = (.ok id, correlator)) :
    id = nextId ∧ Tuned crate limits output {nextId} (nextId + 1) { world with transport := { world.transport with correlator } } := by
  obtain ⟨accounted, synchronized, outstanding, rfl⟩ := tuned
  have none : world.transport.outstanding = 0 := Multiset.le_zero.mp outstanding
  obtain ⟨idle, empty⟩ := add_eq_zero.mp none
  rw [ResponseCorrelator.beginRequest] at begun
  split_ifs at begun <;> cases begun
  refine ⟨rfl, accounted.withCorrelator _, ?_, ?_, rfl⟩
  · obtain ⟨read, state, bodies, rest⟩ := synchronized.decodes
    exact ⟨read, state, bodies, rest⟩
  · have pending : world.transport.correlator.pending = ∅ := Finset.val_eq_zero.mp idle
    show (insert world.transport.correlator.nextId world.transport.correlator.pending).val + (↑world.transport.answered : Multiset _) ≤ _
    rw [pending, empty, add_zero]
    rfl

/-- A request is said once, with the next id. -/
theorem request_ensures {method : String} (alive : stage.Alive) (alive' : next.Alive)
    (spoken : Says lsp input stage (requestMessage nextId method params) next) :
    Ensures (Stands crate lsp input limits output stage capabilities symbols 0 nextId) (sendRequest crate phase method params)
      (fun id world => id = nextId ∧ Stands crate lsp input limits output next capabilities symbols {nextId} (nextId + 1) world)
      (Fails crate lsp input limits output) := by
  intro world stands
  obtain ⟨requests, notifications, along⟩ := stands
  rw [sendRequest]
  rcases begun : world.transport.correlator.beginRequest with ⟨failure | id, correlator⟩
  · refine ⟨fun _ _ impossible => ?_, fun _ _ stopped => ?_⟩
    · cases impossible
    · cases stopped
      refine along.fails alive ⟨fun same => ?_, fun same => ?_⟩ <;> cases same
  · obtain ⟨rfl, tuned⟩ := along.tuned.begin begun
    have sends : Ensures (Stands crate lsp input limits output stage capabilities symbols {id} (id + 1))
        (do
          sendValue crate phase (requestMessage id method params)
          return id : SessionProgram ClientRequestId)
        (fun other world => other = id ∧ Stands crate lsp input limits output next capabilities symbols {id} (id + 1) world)
        (Fails crate lsp input limits output) :=
      (says_ensures alive alive' spoken).bind fun _ => Ensures.pure fun _ stands => ⟨rfl, stands⟩
    exact sends _ ⟨requests, notifications, along.reaches, ⟨along.counts.requests, along.counts.notifications⟩, tuned⟩

/-- The result of a request is waited for. -/
theorem await_ensures {method : String} (waits : stage.Waits) :
    Ensures (Stands crate lsp input limits output stage capabilities symbols {expected} nextId)
      (awaitResponse crate input expected method phase)
      (fun value => HasHeard crate lsp input limits output ⟨stage, none, 0, 0, capabilities, symbols⟩ expected value nextId)
      (Fails crate lsp input limits output) := by
  have ensures : Ensures (WaitsOn crate lsp input limits output ⟨stage, none, 0, 0, capabilities, symbols⟩ {expected} nextId)
      (awaitResponse crate input expected method phase)
      (fun value => HasHeard crate lsp input limits output ⟨stage, none, 0, 0, capabilities, symbols⟩ expected value nextId)
      (Fails crate lsp input limits output) := awaitResponse_ensures rfl waits
  exact ensures

/-- A result that cannot be gone on with. -/
theorem HasHeard.fails {failure : SessionFailure} (waits : stage.Waits) (expects : failure.Expected)
    (heard : HasHeard crate lsp input limits output ⟨stage, none, 0, 0, capabilities, symbols⟩ expected value nextId world) :
    Fails crate lsp input limits output failure world := by
  obtain ⟨requests, notifications, hearing, -⟩ := heard
  exact hearing.fails rfl waits expects

/-- A result that is gone on with. -/
theorem HasHeard.accepted {capabilities' : Option NegotiatedCapabilities} {symbols' : Option Value}
    (heard : HasHeard crate lsp input limits output ⟨stage, none, 0, 0, capabilities, symbols⟩ expected value nextId world)
    (accepts : ∀ requests notifications, Accepts lsp ⟨stage, none, requests, notifications, capabilities, symbols⟩ expected value
      ⟨next, none, requests, notifications, capabilities', symbols'⟩) :
    Stands crate lsp input limits output next capabilities' symbols' 0 nextId world := by
  obtain ⟨requests, notifications, hearing, counts⟩ := heard
  exact ⟨requests, notifications, hearing.along (.accept rfl (accepts requests notifications)) ⟨counts.requests, counts.notifications⟩⟩

end Phases

end Srcmv.Lsp
