import Srcmv.Model.Lsp.Transport
import Srcmv.Proofs.Lsp.Frames

/-! # Buffered messages

The bytes that a transport accounts for are those of the messages in its queue, which stays within
both of its bounds. Until a call fails, the messages that were delivered and those in the queue are
what is framed in the bytes that were read, in order and each once.
-/

namespace Srcmv.Lsp

open Srcmv.Core

/-! ## Accounts -/

/-- The queue of a transport within the limits that it was spawned with. -/
structure Accounted (limits : TransportLimits) (transport : Transport) : Prop where
  framing : transport.framingLimits = limits.framing
  envelope : transport.envelopeLimits = limits.envelope
  messages : transport.maxBufferedMessages = limits.maxBufferedMessages
  messageBytes : transport.maxBufferedMessageBytes = limits.maxBufferedMessageBytes
  sum : transport.bufferedMessageBytes = (transport.incoming.map BufferedIncoming.bodyBytes).sum
  bounded : transport.bufferedMessageBytes ≤ limits.maxBufferedMessageBytes
  queued : transport.incoming.length ≤ limits.maxBufferedMessages

/-- The bytes of standard output among the answers of polls. -/
def stdoutBytes (polls : List Poll) : Bytes :=
  polls.flatMap fun poll =>
    match poll with
    | .event (.stdout bytes) => bytes
    | _ => []

variable {crate : ValueCrate} {limits : TransportLimits} {transport : Transport} {ready : ReadyBatch}

namespace Accounted

theorem of_spawn (spawned : Transport.spawn limits = .ok transport) : Accounted limits transport := by
  rw [Transport.spawn] at spawned
  split_ifs at spawned
  obtain rfl := Except.ok.inj spawned
  exact ⟨rfl, rfl, rfl, rfl, rfl, Nat.zero_le _, Nat.zero_le _⟩

theorem clear (accounted : Accounted limits transport) : Accounted limits transport.clearIncoming :=
  ⟨accounted.framing, accounted.envelope, accounted.messages, accounted.messageBytes, rfl, Nat.zero_le _, Nat.zero_le _⟩

theorem withDecoder (accounted : Accounted limits transport) (decoder : Option DecoderState) :
    Accounted limits { transport with decoder := decoder } :=
  ⟨accounted.framing, accounted.envelope, accounted.messages, accounted.messageBytes, accounted.sum, accounted.bounded, accounted.queued⟩

theorem withCorrelator (accounted : Accounted limits transport) (correlator : ResponseCorrelator) :
    Accounted limits { transport with correlator := correlator } :=
  ⟨accounted.framing, accounted.envelope, accounted.messages, accounted.messageBytes, accounted.sum, accounted.bounded, accounted.queued⟩

theorem correlate (accounted : Accounted limits transport) (message : IncomingMessage) :
    Accounted limits (transport.correlate message).2 := by
  cases message with
  | response id payload => exact accounted.withCorrelator _
  | request => exact accounted
  | notification => exact accounted

end Accounted

/-! ### One body of a chunk -/

/-- A message at the end of the queue. -/
def Transport.enqueue (transport : Transport) (message : IncomingMessage) (body : Bytes) : Transport :=
  { transport with
    bufferedMessageBytes := transport.bufferedMessageBytes + body.length
    incoming := transport.incoming ++ [⟨message, body.length⟩] }

/-- A batch that holds a failure. -/
abbrev ReadyBatch.Fails (ready : ReadyBatch) : Prop := ready.isEmpty = false

theorem ReadyBatch.fails_of_resource {resource : String × ℕ} :
    ReadyBatch.Fails { ready with integrationResource := some resource } := by
  simp [Fails, isEmpty]

theorem ReadyBatch.fails_of_protocol {failure : ProtocolError} : ReadyBatch.Fails { ready with protocolError := some failure } := by
  simp [Fails, isEmpty]

/-- A body fails the batch or is put in the queue, which then is within its bounds. -/
theorem bufferBodies_cons (accounted : Accounted limits transport) (ready : ReadyBatch) (body : Bytes) (bodies : List Bytes) :
    (∃ next failed, transport.bufferBodies crate ready (body :: bodies) = (next, failed) ∧ Accounted limits next ∧ failed.Fails) ∨
    ∃ message, decodeBody crate transport.envelopeLimits body = .ok message ∧
      transport.bufferBodies crate ready (body :: bodies) =
        ((transport.correlate message).2.enqueue message body).bufferBodies crate ready bodies ∧
      Accounted limits ((transport.correlate message).2.enqueue message body) := by
  rw [Transport.bufferBodies]
  cases decodeBody crate transport.envelopeLimits body with
  | error failure => exact .inl ⟨_, _, rfl, accounted, ReadyBatch.fails_of_protocol⟩
  | ok message =>
    have correlated := accounted.correlate message
    dsimp only
    rcases found : transport.correlate message with ⟨outcome, next⟩
    rw [found] at correlated
    cases outcome with
    | error failure => exact .inl ⟨_, _, rfl, correlated, ReadyBatch.fails_of_protocol⟩
    | ok _ =>
      dsimp only at correlated ⊢
      split_ifs with large long
      · exact .inl ⟨_, _, rfl, correlated.clear, ReadyBatch.fails_of_resource⟩
      · refine .inl ⟨_, _, rfl, ?_, ReadyBatch.fails_of_resource⟩
        exact ⟨correlated.framing, correlated.envelope, correlated.messages, correlated.messageBytes, rfl, Nat.zero_le _, Nat.zero_le _⟩
      · refine .inr ⟨message, rfl, by rw [found]; rfl, ?_⟩
        rw [found]
        refine ⟨correlated.framing, correlated.envelope, correlated.messages, correlated.messageBytes, ?_, ?_, ?_⟩
        · simp [Transport.enqueue, correlated.sum]
        · have within := not_or.mp large
          rw [correlated.messageBytes] at within
          exact not_lt.mp within.2
        · rw [correlated.messages] at long
          exact not_lt.mp long

theorem Accounted.bufferBodies (accounted : Accounted limits transport) (ready : ReadyBatch) (bodies : List Bytes) :
    Accounted limits (transport.bufferBodies crate ready bodies).1 := by
  induction bodies generalizing transport with
  | nil => exact accounted
  | cons body bodies ih =>
    rcases bufferBodies_cons accounted ready body bodies with ⟨next, failed, result, kept, -⟩ | ⟨message, -, result, kept⟩
    · rw [result]
      exact kept
    · rw [result]
      exact ih kept

/-- A chunk that does not fail the batch puts all of its messages in the queue. -/
theorem bufferBodies_passes (accounted : Accounted limits transport) {bodies : List Bytes}
    (passed : ¬(transport.bufferBodies crate ready bodies).2.Fails) :
    (transport.bufferBodies crate ready bodies).2 = ready ∧
      (transport.bufferBodies crate ready bodies).1.decoder = transport.decoder ∧
      ∃ messages, bodies.map (decodeBody crate limits.envelope) = messages.map .ok ∧
        (transport.bufferBodies crate ready bodies).1.incoming.map BufferedIncoming.message =
          transport.incoming.map BufferedIncoming.message ++ messages := by
  induction bodies generalizing transport with
  | nil => exact ⟨rfl, rfl, [], rfl, (List.append_nil _).symm⟩
  | cons body bodies ih =>
    rcases bufferBodies_cons accounted ready body bodies with ⟨next, failed, result, -, fails⟩ | ⟨message, decoded, result, kept⟩
    · rw [result] at passed
      exact absurd fails passed
    · rw [result] at passed ⊢
      obtain ⟨same, decoder, messages, later, queue⟩ := ih kept passed
      have correlated : (transport.correlate message).2.decoder = transport.decoder ∧
          (transport.correlate message).2.incoming = transport.incoming := by cases message <;> exact ⟨rfl, rfl⟩
      rw [accounted.envelope] at decoded
      refine ⟨same, decoder.trans correlated.1, message :: messages, ?_, ?_⟩
      · rw [List.map_cons, List.map_cons, decoded, later]
      · rw [queue, Transport.enqueue, correlated.2, List.map_append, List.append_assoc]
        rfl

/-! ### Events -/

namespace Accounted

theorem decodeChunk (accounted : Accounted limits transport) (bytes : Bytes) (ready : ReadyBatch) :
    Accounted limits (transport.decodeChunk crate bytes ready).1 := by
  rw [Transport.decodeChunk]
  split_ifs
  · exact accounted
  · cases transport.decoder with
    | none => exact accounted
    | some state =>
      dsimp only
      cases FrameDecoder.push transport.framingLimits state bytes with
      | error failure => exact accounted.withDecoder _
      | ok result => exact (accounted.withDecoder _).bufferBodies ready result.2

theorem observe (accounted : Accounted limits transport) (event : ProcessEvent) (ready : ReadyBatch) :
    Accounted limits (transport.observe crate event ready).1 := by
  cases event with
  | exited status => exact accounted
  | fault fault =>
    rw [Transport.observe]
    split_ifs
    · exact accounted
    · exact accounted
  | stdout bytes => exact accounted.decodeChunk bytes ready
  | stdoutClosed =>
    rw [Transport.observe, Transport.observeStdoutClosed]
    split_ifs
    · exact accounted.withDecoder _
    · cases transport.decoder.elim (.ok ()) FrameDecoder.finish <;> exact accounted.withDecoder _
  | stdinClosed => exact accounted

end Accounted

/-! ## Deliveries -/

/-- What was received and what is in the queue is framed in the part of the output before the polls
that are left. -/
structure Synchronized (crate : ValueCrate) (limits : TransportLimits) (output : Bytes) (received : List IncomingMessage)
    (transport : Transport) (polls : List Poll) : Prop where
  decodes : ∃ read state bodies, output = read ++ stdoutBytes polls ∧ transport.decoder = some state ∧
    Incremental.trace (FrameDecoder.step limits.framing) FrameDecoder.fresh read = (bodies, .ok state) ∧
    bodies.map (decodeBody crate limits.envelope) = (received ++ transport.incoming.map BufferedIncoming.message).map .ok

variable {output : Bytes} {received : List IncomingMessage} {polls : List Poll}

theorem ReadyBatch.of_not_fails (passes : ¬ready.Fails) : ready = {} := by
  rw [Fails, Bool.not_eq_false] at passes
  rcases ready with ⟨protocol, resource, violation, exit, terminal, io⟩
  simp only [isEmpty, Bool.and_eq_true, Option.isNone_iff_eq_none] at passes
  obtain ⟨⟨⟨⟨⟨rfl, rfl⟩, rfl⟩, rfl⟩, rfl⟩, rfl⟩ := passes
  rfl

theorem ReadyBatch.fails_of_terminal {condition : Option TerminalCondition} {other : TerminalCondition} :
    ReadyBatch.Fails { ready with terminalCondition := condition.or (some other) } := by
  simp [Fails, isEmpty]

/-- An event that does not fail the batch is a chunk, and nothing failed before it. -/
theorem observe_passes (accounted : Accounted limits transport) {event : ProcessEvent}
    (passed : ¬(transport.observe crate event ready).2.Fails) : ¬ready.Fails ∧ ∃ bytes, event = .stdout bytes := by
  cases event with
  | exited status => exact absurd (by simp [Transport.observe, ReadyBatch.Fails, ReadyBatch.isEmpty]) passed
  | fault fault =>
    refine absurd ?_ passed
    rw [Transport.observe]
    split_ifs <;> simp [ReadyBatch.Fails, ReadyBatch.isEmpty]
  | stdinClosed => exact absurd ReadyBatch.fails_of_terminal passed
  | stdoutClosed =>
    refine absurd ?_ passed
    rw [Transport.observe, Transport.observeStdoutClosed]
    split_ifs with failed
    · simp [ReadyBatch.Fails, ReadyBatch.isEmpty, Option.isSome_iff_ne_none.mp failed]
    · cases transport.decoder.elim (.ok ()) FrameDecoder.finish with
      | error failure => exact ReadyBatch.fails_of_protocol
      | ok _ => exact ReadyBatch.fails_of_terminal
  | stdout bytes =>
    refine ⟨?_, bytes, rfl⟩
    rw [Transport.observe, Transport.decodeChunk] at passed
    split_ifs at passed
    · exact passed
    cases decoder : transport.decoder with
    | none =>
      rw [decoder] at passed
      exact passed
    | some state =>
      rw [decoder] at passed
      dsimp only at passed
      cases result : FrameDecoder.push transport.framingLimits state bytes with
      | error failure =>
        rw [result] at passed
        exact absurd ReadyBatch.fails_of_protocol passed
      | ok next =>
        rw [result] at passed
        dsimp only at passed
        rwa [(bufferBodies_passes (accounted.withDecoder (some next.1)) passed).1] at passed

/-- The messages of a chunk that does not fail the batch are put in the queue. -/
theorem Synchronized.observe (accounted : Accounted limits transport) {event : ProcessEvent}
    (synchronized : Synchronized crate limits output received transport (.event event :: polls))
    (passed : ¬(transport.observe crate event ready).2.Fails) :
    Synchronized crate limits output received (transport.observe crate event ready).1 polls := by
  obtain ⟨read, state, bodies, whole, decoder, traced, decoded⟩ := synchronized.decodes
  obtain ⟨clean, bytes, rfl⟩ := observe_passes accounted passed
  obtain rfl := ReadyBatch.of_not_fails clean
  rw [Transport.observe, Transport.decodeChunk, if_neg (by exact Bool.false_ne_true)] at passed ⊢
  rw [decoder] at passed ⊢
  dsimp only at passed ⊢
  have pushed := @FrameDecoder.push_eq_feed transport.framingLimits state bytes
  cases result : FrameDecoder.push transport.framingLimits state bytes with
  | error failure =>
    rw [result] at passed
    exact absurd (@ReadyBatch.fails_of_protocol {} (.framing failure)) passed
  | ok next =>
    obtain ⟨next, chunk⟩ := next
    rw [result] at passed
    dsimp only at passed ⊢
    obtain ⟨-, decoder', messages, decoded', queue⟩ := bufferBodies_passes (accounted.withDecoder (some next)) passed
    have fed : Incremental.trace (FrameDecoder.step limits.framing) state bytes = (chunk, .ok next) := by
      rw [result, accounted.framing, Incremental.feed] at pushed
      cases ended : (Incremental.trace (FrameDecoder.step limits.framing) state bytes).2 with
      | error failure =>
        rw [ended] at pushed
        cases pushed
      | ok last =>
        rw [ended] at pushed
        obtain ⟨rfl, rfl⟩ := Prod.mk.inj (Except.ok.inj pushed)
        exact Prod.ext rfl ended
    refine ⟨read ++ bytes, next, bodies ++ chunk, ?_, decoder', ?_, ?_⟩
    · rw [whole, List.append_assoc]
      rfl
    · rw [Incremental.trace_append_ok (by rw [traced]), traced, fed]
    · rw [queue, List.map_append, decoded, decoded', ← List.map_append, List.append_assoc]

/-- A drain keeps accounts, and without a failure it keeps synchronized what was so at its start. -/
structure DrainsSoundly (crate : ValueCrate) (limits : TransportLimits) (output : Bytes) (received : List IncomingMessage)
    (started : Prop) (drained : Drained) : Prop where
  accounted : Accounted limits drained.transport
  synchronized : started → ¬drained.ready.Fails →
    Synchronized crate limits output received drained.transport drained.schedule.polls

private theorem Synchronized.skip {poll : Poll} (synchronized : Synchronized crate limits output received transport (poll :: polls))
    (silent : stdoutBytes [poll] = []) : Synchronized crate limits output received transport polls := by
  obtain ⟨read, state, bodies, whole, rest⟩ := synchronized.decodes
  refine ⟨read, state, bodies, ?_, rest⟩
  have parts : stdoutBytes (poll :: polls) = stdoutBytes [poll] ++ stdoutBytes polls := by simp [stdoutBytes]
  rw [whole, parts, silent, List.nil_append]

theorem fails_recordFailure (ready : ReadyBatch) (failure : ProcessError) : (Transport.recordFailure ready failure).Fails := by
  simp [Transport.recordFailure, ReadyBatch.Fails, ReadyBatch.isEmpty]

private theorem probe_sound (accounted : Accounted limits transport) (ready : ReadyBatch) (polls : List Poll) (expirations : List Bool) :
    DrainsSoundly crate limits output received (¬ready.Fails → Synchronized crate limits output received transport polls)
      (transport.probeReadyEventOverflow ready expirations polls) := by
  rcases polls with _ | ⟨event | _ | failure, polls⟩
  · exact ⟨accounted, fun started passed => started passed⟩
  · exact ⟨accounted, fun _ passed => absurd (by simp [ReadyBatch.Fails, ReadyBatch.isEmpty, Transport.probeReadyEventOverflow]) passed⟩
  · exact ⟨accounted, fun started passed => (started passed).skip rfl⟩
  · exact ⟨accounted, fun _ passed => absurd (fails_recordFailure ready failure) passed⟩

theorem drainLoop_sound (accounted : Accounted limits transport) (ready : ReadyBatch) (observed : ℕ) (polls : List Poll)
    (expirations : List Bool) :
    DrainsSoundly crate limits output received (¬ready.Fails → Synchronized crate limits output received transport polls)
      (transport.drainLoop crate ready observed polls expirations) := by
  induction polls generalizing transport ready observed expirations with
  | nil =>
    rw [Transport.drainLoop.eq_def]
    split_ifs
    · exact probe_sound accounted ready [] expirations
    · exact ⟨accounted, fun started passed => started passed⟩
    · exact ⟨accounted, fun started passed => started passed⟩
  | cons poll polls ih =>
    rw [Transport.drainLoop.eq_def]
    split_ifs
    · exact probe_sound accounted ready (poll :: polls) expirations
    · exact ⟨accounted, fun started passed => started passed⟩
    · cases poll with
      | event event =>
        have observes : Accounted limits (transport.observe crate event ready).1 := accounted.observe event ready
        have later := ih observes (transport.observe crate event ready).2 (observed + 1) expirations.tail
        refine ⟨later.accounted, fun started passed => later.synchronized (fun passes => ?_) passed⟩
        exact (started (observe_passes accounted passes).1).observe accounted passes
      | nothing => exact ⟨accounted, fun started passed => (started passed).skip rfl⟩
      | failed failure => exact ⟨accounted, fun _ passed => absurd (fails_recordFailure ready failure) passed⟩

theorem drainReady_sound (accounted : Accounted limits transport) (schedule : Schedule) :
    DrainsSoundly crate limits output received (Synchronized crate limits output received transport schedule.polls)
      (transport.drainReady crate none schedule) := by
  have drained : DrainsSoundly crate limits output received _ _ :=
    drainLoop_sound accounted {} 0 schedule.polls schedule.expirations
  exact ⟨drained.accounted, fun started => drained.synchronized fun _ => started⟩

/-- A drain that begins with the event of a wait. -/
theorem drainReady_event_sound (accounted : Accounted limits transport) (event : ProcessEvent) (schedule : Schedule) :
    DrainsSoundly crate limits output received (Synchronized crate limits output received transport (.event event :: schedule.polls))
      (transport.drainReady crate (some event) schedule) := by
  have observes : Accounted limits (transport.observe crate event {}).1 := accounted.observe event {}
  have drained : DrainsSoundly crate limits output received _ _ :=
    drainLoop_sound observes (transport.observe crate event {}).2 1 schedule.polls schedule.expirations
  exact ⟨drained.accounted, fun started => drained.synchronized fun passes => started.observe accounted passes⟩

/-! ### Calls -/

/-- A call does not underflow and keeps accounts; a message that it returns is the next one. -/
structure Delivers (crate : ValueCrate) (limits : TransportLimits) (output : Bytes) (received : List IncomingMessage) (started : Prop)
    (outcome : Except Underflow Received) : Prop where
  returns : ∃ result, outcome = .ok result ∧ Accounted limits result.transport ∧ (started → ∀ message, result.result = .ok message →
    Synchronized crate limits output (received ++ [message]) result.transport result.schedule.polls)

theorem Delivers.imp {started other : Prop} {outcome : Except Underflow Received}
    (delivers : Delivers crate limits output received other outcome) (begins : started → other) :
    Delivers crate limits output received started outcome := by
  obtain ⟨result, returned, accounted, delivered⟩ := delivers.returns
  exact ⟨result, returned, accounted, fun begun => delivered (begins begun)⟩

/-- The subtraction of a message's bytes does not underflow, since they are part of the sum. -/
theorem popIncoming_sound (accounted : Accounted limits transport) : ∃ next, transport.popIncoming = .ok next ∧
    Accounted limits next.2 ∧ (next.1 = none → next.2 = transport) ∧ ∀ message polls, next.1 = some message →
      Synchronized crate limits output received transport polls →
      Synchronized crate limits output (received ++ [message]) next.2 polls := by
  rw [Transport.popIncoming]
  cases queue : transport.incoming with
  | nil => exact ⟨_, rfl, accounted, fun _ => rfl, fun message polls found => by cases found⟩
  | cons buffered rest =>
    have sum := accounted.sum
    have queued := accounted.queued
    rw [queue, List.map_cons, List.sum_cons] at sum
    rw [queue, List.length_cons] at queued
    dsimp only
    rw [if_pos (by omega)]
    refine ⟨_, rfl, ?_, (fun none_ => by cases none_), ?_⟩
    · exact ⟨accounted.framing, accounted.envelope, accounted.messages, accounted.messageBytes, by dsimp only; omega,
        le_trans (Nat.sub_le _ _) accounted.bounded, by dsimp only; omega⟩
    · rintro message polls ⟨⟩ ⟨read, state, bodies, whole, decoder, traced, decoded⟩
      refine ⟨read, state, bodies, whole, decoder, traced, ?_⟩
      rw [decoded, queue, List.append_assoc]
      rfl

theorem ReadyBatch.failure?_of_passes (passes : ¬ready.Fails) : ready.failure? = none := by
  rw [ReadyBatch.of_not_fails passes]
  rfl

variable {started : Prop} {drained : Drained}

theorem ReadyBatch.failure?_of_fails (fails : ready.Fails) : ∃ failure, ready.failure? = some failure := by
  rcases ready with ⟨_ | protocol, _ | resource, _ | violation, _ | exit, _ | terminal, _ | io⟩
  · cases fails
  all_goals exact ⟨_, rfl⟩

theorem choose_delivers (sound : DrainsSoundly crate limits output received started drained) :
    Delivers crate limits output received started (Transport.choose drained) := by
  rw [Transport.choose]
  by_cases fails : drained.ready.Fails
  · obtain ⟨failure, found⟩ := ReadyBatch.failure?_of_fails fails
    rw [found]
    exact ⟨_, rfl, sound.accounted.clear, fun _ message impossible => by cases impossible⟩
  · obtain ⟨⟨message, next⟩, popped, accounted, -, delivered⟩ :=
      @popIncoming_sound crate limits drained.transport output received sound.accounted
    rw [ReadyBatch.failure?_of_passes fails]
    dsimp only
    rw [popped, Except.ok_bind]
    refine ⟨_, rfl, accounted, fun begun found same => ?_⟩
    cases message with
    | none => cases same
    | some message =>
      obtain rfl := Except.ok.inj same
      exact delivered _ _ rfl (sound.synchronized begun fails)

theorem chooseOrDeadline_delivers (sound : DrainsSoundly crate limits output received started drained) :
    Delivers crate limits output received started (Transport.chooseOrDeadline drained) := by
  rw [Transport.chooseOrDeadline]
  split_ifs with empty
  · have passes : ¬drained.ready.Fails := by rw [ReadyBatch.Fails, Bool.not_eq_false]; exact empty
    obtain ⟨⟨message, next⟩, popped, accounted, untouched, delivered⟩ :=
      @popIncoming_sound crate limits drained.transport output received sound.accounted
    rw [popped, Except.ok_bind]
    cases message with
    | none =>
      obtain rfl := untouched rfl
      exact choose_delivers sound
    | some message =>
      refine ⟨_, rfl, accounted, fun begun found same => ?_⟩
      obtain rfl := Except.ok.inj same
      exact delivered _ _ rfl (sound.synchronized begun passes)
  · exact choose_delivers sound

theorem afterFailedWait_delivers (accounted : Accounted limits transport) (failure : ProcessError) (schedule : Schedule) :
    Delivers crate limits output received started (transport.afterFailedWait crate failure schedule) := by
  rw [Transport.afterFailedWait]
  have drained : DrainsSoundly crate limits output received _ _ := drainReady_sound accounted schedule
  exact chooseOrDeadline_delivers ⟨drained.accounted, fun _ passes => absurd (fails_recordFailure _ failure) passes⟩

/-- After a drain a failure or a message is returned, or the queue is empty. -/
theorem drained_cases (sound : DrainsSoundly crate limits output received started drained) :
    drained.ready.isEmpty = false ∧ Delivers crate limits output received started (Transport.choose drained) ∨
    drained.ready.isEmpty = true ∧ ((∃ message next, drained.transport.popIncoming = .ok (some message, next) ∧
      Delivers crate limits output received started (.ok ⟨.ok message, next, drained.schedule⟩)) ∨
      drained.transport.popIncoming = .ok (none, drained.transport)) := by
  cases empty : drained.ready.isEmpty with
  | false => exact .inl ⟨rfl, choose_delivers sound⟩
  | true =>
    have passes : ¬drained.ready.Fails := by rw [ReadyBatch.Fails, Bool.not_eq_false]; exact empty
    refine .inr ⟨rfl, ?_⟩
    obtain ⟨⟨message, next⟩, popped, accounted, untouched, delivered⟩ :=
      @popIncoming_sound crate limits drained.transport output received sound.accounted
    cases message with
    | none =>
      obtain rfl := untouched rfl
      exact .inr popped
    | some message =>
      refine .inl ⟨message, next, popped, _, rfl, accounted, fun begun found same => ?_⟩
      obtain rfl := Except.ok.inj same
      exact delivered _ _ rfl (sound.synchronized begun passes)

/-- The polls that a call waits for before it goes on. -/
def observedPolls (observed : Option ProcessEvent) : List Poll := (observed.map Poll.event).toList

theorem drainObserved_sound (accounted : Accounted limits transport) (observed : Option ProcessEvent) (schedule : Schedule) :
    DrainsSoundly crate limits output received
      (Synchronized crate limits output received transport (observedPolls observed ++ schedule.polls))
      (transport.drainReady crate observed schedule) := by
  cases observed with
  | none => exact drainReady_sound accounted schedule
  | some event => exact drainReady_event_sound accounted event schedule

theorem nextIncomingLoop_delivers (accounted : Accounted limits transport) (observed : Option ProcessEvent) (schedule : Schedule) :
    Delivers crate limits output received
      (Synchronized crate limits output received transport (observedPolls observed ++ schedule.polls))
      (transport.nextIncomingLoop crate observed schedule) := by
  induction length : schedule.polls.length using Nat.strong_induction_on generalizing transport observed schedule with
  | _ length ih =>
  have drained : DrainsSoundly crate limits output received _ _ := drainObserved_sound accounted observed schedule
  have shorter := (Transport.drainReady_polls crate transport observed schedule).length_le
  rw [Transport.nextIncomingLoop]
  rcases drained_cases drained with ⟨failed, delivers⟩ | ⟨empty, ⟨message, next, popped, delivers⟩ | popped⟩
  · rw [failed]
    exact delivers
  · rw [empty]
    dsimp only
    rw [if_neg (by decide), popped]
    exact delivers
  · rw [empty]
    dsimp only
    rw [if_neg (by decide), popped, Except.ok_bind]
    dsimp only
    have passes : ¬(transport.drainReady crate observed schedule).ready.Fails := by
      rw [ReadyBatch.Fails, Bool.not_eq_false]
      exact empty
    have synchronized := fun begun => drained.synchronized begun passes
    have kept := drained.accounted
    split_ifs
    · exact (chooseOrDeadline_delivers (drainReady_sound kept ⟨_, _⟩)).imp synchronized
    · exact (chooseOrDeadline_delivers (drainReady_sound kept ⟨_, _⟩)).imp synchronized
    · split
      · next event polls waited =>
        rw [waited] at synchronized shorter
        rw [List.length_cons] at shorter
        exact (ih polls.length (by omega) kept (some event) ⟨polls, _⟩ rfl).imp synchronized
      · next polls waited =>
        rw [waited] at synchronized
        exact (chooseOrDeadline_delivers (drainReady_sound kept ⟨polls, _⟩)).imp fun begun => (synchronized begun).skip rfl
      · next failure polls waited =>
        exact afterFailedWait_delivers kept failure ⟨polls, _⟩
      · next waited =>
        rw [waited] at synchronized
        exact (chooseOrDeadline_delivers (drainReady_sound kept ⟨[], _⟩)).imp synchronized

theorem nextIncoming_delivers (accounted : Accounted limits transport) (schedule : Schedule) :
    Delivers crate limits output received (Synchronized crate limits output received transport schedule.polls)
      (transport.nextIncoming crate schedule) := by
  have drained : DrainsSoundly crate limits output received _ _ := drainReady_sound accounted schedule
  rw [Transport.nextIncoming]
  rcases drained_cases drained with ⟨failed, delivers⟩ | ⟨empty, ⟨message, next, popped, delivers⟩ | popped⟩
  · rw [failed]
    exact delivers
  · rw [empty]
    dsimp only
    rw [if_neg (by decide), popped]
    exact delivers
  · rw [empty]
    dsimp only
    rw [if_neg (by decide), popped, Except.ok_bind]
    dsimp only
    have passes : ¬(transport.drainReady crate none schedule).ready.Fails := by
      rw [ReadyBatch.Fails, Bool.not_eq_false]
      exact empty
    have synchronized := fun begun => drained.synchronized begun passes
    have kept := drained.accounted
    rcases waited : (transport.drainReady crate none schedule).schedule.polls with _ | ⟨event | _ | failure, polls⟩
    · rw [waited] at synchronized
      exact (nextIncomingLoop_delivers kept none ⟨[], _⟩).imp synchronized
    · rw [waited] at synchronized
      exact (nextIncomingLoop_delivers kept (some event) ⟨polls, _⟩).imp synchronized
    · rw [waited] at synchronized
      exact (nextIncomingLoop_delivers kept none ⟨polls, _⟩).imp fun begun => (synchronized begun).skip rfl
    · exact afterFailedWait_delivers kept failure ⟨polls, _⟩

/-! ### Runs -/

theorem run_sound (accounted : Accounted limits transport) (schedule : Schedule) (calls : List TransportCall) :
    ∃ run, transport.run crate schedule calls = .ok run ∧ Accounted limits run.transport ∧
      (Synchronized crate limits output received transport schedule.polls → ∀ messages, run.results = messages.map .ok →
        Synchronized crate limits output (received ++ messages) run.transport run.schedule.polls) := by
  induction calls generalizing transport received schedule with
  | nil =>
    refine ⟨_, rfl, accounted, fun synchronized messages same => ?_⟩
    obtain rfl : messages = [] := List.map_eq_nil_iff.mp same.symm
    rwa [List.append_nil]
  | cons call calls ih =>
    cases call with
    | nextIncoming =>
      have delivers : Delivers crate limits output received _ _ := nextIncoming_delivers accounted schedule
      obtain ⟨⟨outcome, next, rest⟩, returned, kept, delivered⟩ := delivers.returns
      rw [Transport.run, returned, Except.ok_bind]
      cases outcome with
      | error failure =>
        obtain ⟨run, ran, final, -⟩ := @ih next [] kept rest
        refine ⟨{ run with results := .error failure :: run.results }, by rw [ran]; rfl, final, fun _ messages same => ?_⟩
        cases messages <;> cases same
      | ok message =>
        obtain ⟨run, ran, final, later⟩ := @ih next (received ++ [message]) kept rest
        refine ⟨{ run with results := .ok message :: run.results }, by rw [ran]; rfl, final, fun synchronized messages same => ?_⟩
        cases messages with
        | nil => cases same
        | cons first messages =>
          obtain ⟨head, tail⟩ := List.cons.inj same
          obtain rfl := Except.ok.inj head
          have all := later (delivered synchronized message rfl) messages tail
          rwa [List.append_assoc] at all
    | sendRequest =>
      obtain ⟨run, ran, final, later⟩ := @ih { transport with correlator := transport.correlator.beginRequest.2 } received
        (accounted.withCorrelator _) schedule
      refine ⟨{ run with begun := transport.correlator.beginRequest.1 :: run.begun }, by
        rw [Transport.run, ran]
        rfl, final, ?_⟩
      rintro ⟨read, state, bodies, whole, decoder, traced, decoded⟩
      exact later ⟨read, state, bodies, whole, decoder, traced, decoded⟩

theorem Synchronized.of_spawn (spawned : Transport.spawn limits = .ok transport) (polls : List Poll) :
    Synchronized crate limits (stdoutBytes polls) [] transport polls := by
  rw [Transport.spawn] at spawned
  split_ifs at spawned
  obtain rfl := Except.ok.inj spawned
  exact ⟨[], FrameDecoder.fresh, [], rfl, rfl, rfl, rfl⟩

/-- Buffering neither loses nor reorders messages. After any calls the buffered bytes are those of the
queue, also within the drain of another call, and no subtraction underflowed. As long as no call has
failed, the messages that were delivered are those of the first bodies framed in the output. -/
theorem buffering_keeps_messages (spawned : Transport.spawn limits = .ok transport) (schedule : Schedule) (calls : List TransportCall) :
    ∃ run, transport.run crate schedule calls = .ok run ∧
      (Accounted limits run.transport ∧
        ∀ first later, Accounted limits (run.transport.drainReady crate first later).transport) ∧
      ∀ messages : List IncomingMessage, run.results = messages.map .ok →
        ∃ bodies, bodies <+: (decode limits.framing FrameDecoder.fresh (stdoutBytes schedule.polls)).1 ∧
          bodies.map (decodeBody crate limits.envelope) = messages.map .ok := by
  have accounted := Accounted.of_spawn spawned
  obtain ⟨run, ran, kept, synchronized⟩ :=
    @run_sound crate limits transport (stdoutBytes schedule.polls) [] accounted schedule calls
  refine ⟨run, ran, ⟨kept, fun first later => ?_⟩, fun messages delivered => ?_⟩
  · have drained : DrainsSoundly crate limits [] [] _ _ := drainObserved_sound kept first later
    exact drained.accounted
  · obtain ⟨read, state, bodies, whole, -, traced, decoded⟩ := (synchronized (Synchronized.of_spawn spawned _) messages delivered).decodes
    refine ⟨bodies.take messages.length, (List.take_prefix _ _).trans ?_, ?_⟩
    · rw [whole, decode, Incremental.trace_append_ok (by rw [traced]), traced]
      exact List.prefix_append _ _
    · rw [List.map_take, decoded, List.nil_append, List.map_append, List.take_left' (by rw [List.length_map])]

/-! ### Three notifications -/

/-- A message that a call returned, if it is a notification without parameters. -/
def notified? : Except TransportError IncomingMessage → Option String
  | .ok (.notification method none) => some method
  | _ => none

theorem notified?_eq_some {result : Except TransportError IncomingMessage} {method : String} :
    notified? result = some method ↔ result = .ok (.notification method none) := by
  constructor
  · intro found
    rcases result with _ | (_ | ⟨_, _ | _⟩ | _)
    all_goals cases found
    rfl
  · rintro rfl
    rfl

theorem of_map_notified? {results : List (Except TransportError IncomingMessage)} {methods : List String}
    (found : results.map notified? = methods.map some) :
    results = (methods.map fun method => IncomingMessage.notification method none).map .ok := by
  induction methods generalizing results with
  | nil => exact List.map_eq_nil_iff.mp found
  | cons method methods ih =>
    cases results with
    | nil => cases found
    | cons result results =>
      obtain ⟨first, rest⟩ := List.cons.inj found
      rw [notified?_eq_some.mp first, ih rest]
      rfl

def notificationBody (method : String) : Bytes :=
  utf8Bytes "\x7b\"jsonrpc\":\"2.0\",\"method\":\"" ++ utf8Bytes method ++ utf8Bytes "\"\x7d"

/-- A parser of three notifications; no parameters are serialized. -/
def notificationCrate : ValueCrate where
  fromSlice text := (["a", "b", "c"].find? fun method => text = notificationBody method).map fun method =>
    .object [("jsonrpc", .string "2.0"), ("method", .string method)]
  toVec _ := []

def notificationOutput : Bytes :=
  ["a", "b", "c"].flatMap fun method => frameHeader (notificationBody method).length ++ notificationBody method

/-- The third notification is cut, and both of its parts are ready before the deadline. -/
abbrev notificationSchedule : Schedule :=
  ⟨[.event (.stdout (notificationOutput.take 120)), .event (.stdout (notificationOutput.drop 120))], [false, false, false]⟩

/-- What is seen of a run: the messages that were delivered, those in the queue and its bytes. -/
def TransportRun.seen (run : TransportRun) : List (Option String) × List (Option String) × ℕ :=
  (run.results.map notified?, ((run.transport.incoming.map BufferedIncoming.message).map .ok).map notified?,
    run.transport.bufferedMessageBytes)

/-- The first two of three notifications are delivered, and the third one stays in the queue. -/
theorem buffering_keeps_messages_notifications : ∃ transport run bodies messages, Transport.spawn {} = .ok transport ∧
    transport.run notificationCrate notificationSchedule [.nextIncoming, .sendRequest, .nextIncoming] = .ok run ∧
    Accounted {} run.transport ∧ run.transport.bufferedMessageBytes = 30 ∧
    run.transport.incoming.map BufferedIncoming.message = [.notification "c" none] ∧
    messages = [.notification "a" none, .notification "b" none] ∧ run.results = messages.map .ok ∧
    bodies = [notificationBody "a", notificationBody "b"] ∧
    bodies <+: (decode {} FrameDecoder.fresh (stdoutBytes notificationSchedule.polls)).1 ∧
    bodies.map (decodeBody notificationCrate {}) = messages.map .ok := by
  have spawned : ∃ transport, Transport.spawn {} = .ok transport := ⟨_, if_neg (by decide)⟩
  obtain ⟨transport, spawned⟩ := spawned
  obtain ⟨run, ran, accounted, delivered⟩ := @buffering_keeps_messages notificationCrate {} transport spawned
    notificationSchedule [.nextIncoming, .sendRequest, .nextIncoming]
  have seen : ((Transport.spawn {}).toOption.bind fun transport => (transport.run notificationCrate notificationSchedule
      [.nextIncoming, .sendRequest, .nextIncoming]).toOption).map TransportRun.seen =
      some ([some "a", some "b"], [some "c"], 30) := by decide +kernel
  rw [spawned, Except.toOption, Option.bind_some, ran, Except.toOption, Option.map_some, Option.some.injEq] at seen
  obtain ⟨results, queue, bytes⟩ := And.imp_right Prod.mk.inj (Prod.mk.inj seen)
  have results : run.results = [IncomingMessage.notification "a" none, .notification "b" none].map .ok :=
    @of_map_notified? run.results ["a", "b"] results
  obtain ⟨bodies, framed, decoded⟩ := delivered _ results
  have length : bodies.length = 2 := by simpa using congrArg List.length decoded
  have two : (decode {} FrameDecoder.fresh (stdoutBytes notificationSchedule.polls)).1.take 2 =
      [notificationBody "a", notificationBody "b"] := by decide +kernel
  have bodies_eq : bodies = [notificationBody "a", notificationBody "b"] := by
    rw [← two, ← length]
    exact List.prefix_iff_eq_take.mp framed
  refine ⟨transport, run, bodies, _, spawned, ran, accounted.1, bytes, ?_, rfl, results, bodies_eq, framed, decoded⟩
  exact List.map_injective_iff.mpr (fun _ _ same => Except.ok.inj same) (@of_map_notified? _ ["c"] queue)

end Srcmv.Lsp
