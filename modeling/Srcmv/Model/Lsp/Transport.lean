import Srcmv.Model.Lsp.Bodies
import Srcmv.Model.Lsp.Process

/-! # Transport of messages

A transport decodes the chunks of a process ahead of delivery. At every boundary it drains what is
ready, and failures of a batch take precedence over the messages that are buffered. What the process
and the clock answer is given by a schedule.
-/

namespace Srcmv.Lsp

open Srcmv.Core

structure TransportLimits where
  framing : FramingLimits := {}
  envelope : EnvelopeLimits := {}
  maxPendingRequests : ℕ := 8
  maxReadyEvents : ℕ := 4096
  maxBufferedMessages : ℕ := 1024
  maxBufferedMessageBytes : ℕ := 32 * 1024 * 1024

/-- What the source keeps in one type of errors. -/
inductive ProtocolError where
  | framing (failure : JsonRpcError)
  | body (failure : BodyError)
  | correlation (failure : CorrelationError)

inductive TransportError where
  | protocol (failure : ProtocolError)
  | exited (status : ExitStatus)
  | processFault (fault : ProcessFault)
  | stdoutClosed
  | stdinClosed
  | process (failure : ProcessError)
  | deadlineExceeded
  | resourceLimit (resource : String) (limit : ℕ)

inductive IoCondition where
  | fault (fault : ProcessFault)
  | process (failure : ProcessError)

inductive TerminalCondition where
  | stdinClosed
  | stdoutClosed

structure ReadyBatch where
  protocolError : Option ProtocolError := none
  integrationResource : Option (String × ℕ) := none
  resourceViolation : Option ProcessFault := none
  exit : Option ExitStatus := none
  terminalCondition : Option TerminalCondition := none
  ioCondition : Option IoCondition := none

def ReadyBatch.isEmpty (ready : ReadyBatch) : Bool :=
  ready.protocolError.isNone && ready.integrationResource.isNone && ready.resourceViolation.isNone && ready.exit.isNone &&
    ready.terminalCondition.isNone && ready.ioCondition.isNone

structure BufferedIncoming where
  message : IncomingMessage
  bodyBytes : ℕ

structure Transport where
  framingLimits : FramingLimits
  envelopeLimits : EnvelopeLimits
  decoder : Option DecoderState
  correlator : ResponseCorrelator
  incoming : List BufferedIncoming
  bufferedMessageBytes : ℕ
  maxReadyEvents : ℕ
  maxBufferedMessages : ℕ
  maxBufferedMessageBytes : ℕ

/-- The state in which a failing chunk leaves a decoder. -/
def FrameDecoder.leave (limits : FramingLimits) : DecoderState → Bytes → DecoderState
  | state, [] => state
  | .header header, byte :: chunk =>
      match pushHeaderByte limits header byte with
      | .ok (next, _) => leave limits next chunk
      | .error _ => if header.length = limits.maxHeaderBytes ∨ byte ≥ 128 then .header header else .header (header ++ [byte])
  | .body bytes expected incomplete, byte :: chunk =>
      if complete : (bytes ++ [byte]).length = expected then leave limits (.header []) chunk
      else leave limits (.body (bytes ++ [byte]) expected (by rw [List.length_append, List.length_singleton] at *; omega)) chunk

/-- The subtraction of buffered bytes underflowed. -/
inductive Underflow where
  | bufferedMessageBytes

namespace Transport

/-- A transport over a process that was spawned. -/
def spawn (limits : TransportLimits) : Except TransportError Transport :=
  if limits.maxReadyEvents = 0 ∨ limits.maxBufferedMessages = 0 ∨ limits.maxBufferedMessageBytes = 0 then
    .error (.resourceLimit "configured zero capacity" 0)
  else
    .ok
      { framingLimits := limits.framing
        envelopeLimits := limits.envelope
        decoder := some FrameDecoder.fresh
        correlator := .new limits.maxPendingRequests
        incoming := []
        bufferedMessageBytes := 0
        maxReadyEvents := limits.maxReadyEvents
        maxBufferedMessages := limits.maxBufferedMessages
        maxBufferedMessageBytes := limits.maxBufferedMessageBytes }

def clearIncoming (transport : Transport) : Transport := { transport with incoming := [], bufferedMessageBytes := 0 }

def popIncoming (transport : Transport) : Except Underflow (Option IncomingMessage × Transport) :=
  match transport.incoming with
  | [] => .ok (none, transport)
  | buffered :: rest =>
      if buffered.bodyBytes ≤ transport.bufferedMessageBytes then
        .ok (some buffered.message,
          { transport with
            incoming := rest
            bufferedMessageBytes := transport.bufferedMessageBytes - buffered.bodyBytes })
      else .error .bufferedMessageBytes

def failBufferedBytes (transport : Transport) (ready : ReadyBatch) : Transport × ReadyBatch :=
  (transport.clearIncoming,
    { ready with integrationResource := some ("buffered incoming message bytes", transport.maxBufferedMessageBytes) })

/-- A response completes its request. -/
def correlate (transport : Transport) : IncomingMessage → Except CorrelationError Unit × Transport
  | .response id _ => ((transport.correlator.complete id).1, { transport with correlator := (transport.correlator.complete id).2 })
  | _ => (.ok (), transport)

variable (crate : ValueCrate)

/-- The bodies of one chunk, up to the first that fails. -/
def bufferBodies (transport : Transport) (ready : ReadyBatch) : List Bytes → Transport × ReadyBatch
  | [] => (transport, ready)
  | body :: bodies =>
      match decodeBody crate transport.envelopeLimits body with
      | .error failure => (transport, { ready with protocolError := some (.body failure) })
      | .ok message =>
          match transport.correlate message with
          | (.error failure, transport) => (transport, { ready with protocolError := some (.correlation failure) })
          | (.ok (), transport) =>
              let nextBytes := transport.bufferedMessageBytes + body.length
              if nextBytes > usizeMax ∨ nextBytes > transport.maxBufferedMessageBytes then transport.failBufferedBytes ready
              else
                let transport :=
                  { transport with
                    bufferedMessageBytes := nextBytes
                    incoming := transport.incoming ++ [(⟨message, body.length⟩ : BufferedIncoming)] }
                if transport.incoming.length > transport.maxBufferedMessages then
                  (transport.clearIncoming,
                    { ready with integrationResource := some ("buffered incoming messages", transport.maxBufferedMessages) })
                else transport.bufferBodies ready bodies

def decodeChunk (transport : Transport) (bytes : Bytes) (ready : ReadyBatch) : Transport × ReadyBatch :=
  if ready.protocolError.isSome then (transport, ready)
  else
    match transport.decoder with
    | none => (transport, ready)
    | some state =>
        match FrameDecoder.push transport.framingLimits state bytes with
        | .error failure =>
            ({ transport with decoder := some (FrameDecoder.leave transport.framingLimits state bytes) },
              { ready with protocolError := some (.framing failure) })
        | .ok (next, bodies) => { transport with decoder := some next }.bufferBodies crate ready bodies

def observeStdoutClosed (transport : Transport) (ready : ReadyBatch) : Transport × ReadyBatch :=
  let closed := { transport with decoder := none }
  if ready.protocolError.isSome then (closed, ready)
  else
    match transport.decoder.elim (.ok ()) FrameDecoder.finish with
    | .error failure => (closed, { ready with protocolError := some (.framing failure) })
    | .ok () => (closed, { ready with terminalCondition := ready.terminalCondition.or (some .stdoutClosed) })

def observe (transport : Transport) (event : ProcessEvent) (ready : ReadyBatch) : Transport × ReadyBatch :=
  match event with
  | .exited status => (transport, { ready with exit := some status })
  | .fault fault =>
      if fault.isResourceLimit then (transport, { ready with resourceViolation := ready.resourceViolation.or (some fault) })
      else (transport, { ready with ioCondition := ready.ioCondition.or (some (.fault fault)) })
  | .stdout bytes => transport.decodeChunk crate bytes ready
  | .stdoutClosed => transport.observeStdoutClosed ready
  | .stdinClosed => (transport, { ready with terminalCondition := ready.terminalCondition.or (some .stdinClosed) })

end Transport

/-! ## Schedules -/

/-- The answer to a poll: no event stands for an expired deadline where the poll waits. -/
inductive Poll where
  | event (event : ProcessEvent)
  | nothing
  | failed (failure : ProcessError)

/-- What polls answer, and whether the deadline has passed when the clock is read. When nothing more
is scheduled, no event is ready and the deadline has passed. -/
structure Schedule where
  polls : List Poll
  expirations : List Bool

/-- A transport with the batch and the schedule after a drain. -/
structure Drained where
  transport : Transport
  ready : ReadyBatch
  schedule : Schedule

/-- What a call returns, with the transport and the schedule after it. -/
structure Received where
  result : Except TransportError IncomingMessage
  transport : Transport
  schedule : Schedule

def mapProcessError : ProcessError → TransportError
  | .exited status => .exited status
  | .stdinClosed => .stdinClosed
  | failure => .process failure

/-- The failure of highest precedence. -/
def ReadyBatch.failure? (ready : ReadyBatch) : Option TransportError :=
  (ready.protocolError.map .protocol).or <|
  (ready.integrationResource.map fun resource => .resourceLimit resource.1 resource.2).or <|
  (ready.resourceViolation.map .processFault).or <|
  (ready.exit.map .exited).or <|
  (ready.terminalCondition.map fun condition =>
    match condition with
    | .stdinClosed => .stdinClosed
    | .stdoutClosed => .stdoutClosed).or <|
  ready.ioCondition.map fun condition =>
    match condition with
    | .fault fault => .processFault fault
    | .process failure => mapProcessError failure

namespace Transport

variable (crate : ValueCrate)

/-- The first process failure of a batch. -/
def recordFailure (ready : ReadyBatch) (failure : ProcessError) : ReadyBatch :=
  { ready with ioCondition := ready.ioCondition.or (some (.process failure)) }

/-- An event that is ready beyond the maximum is not observed. -/
def probeReadyEventOverflow (transport : Transport) (ready : ReadyBatch) (expirations : List Bool) : List Poll → Drained
  | .event _ :: polls =>
      ⟨transport,
        { ready with
          integrationResource := ready.integrationResource.or (some ("ready process events", transport.maxReadyEvents)) },
        ⟨polls, expirations⟩⟩
  | .nothing :: polls => ⟨transport, ready, ⟨polls, expirations⟩⟩
  | .failed failure :: polls => ⟨transport, recordFailure ready failure, ⟨polls, expirations⟩⟩
  | [] => ⟨transport, ready, ⟨[], expirations⟩⟩

def drainLoop (transport : Transport) (ready : ReadyBatch) (observed : ℕ) (polls : List Poll) (expirations : List Bool) : Drained :=
  if observed = transport.maxReadyEvents then transport.probeReadyEventOverflow ready expirations polls
  else if expirations.headD true ∧ (!ready.isEmpty ∨ !transport.incoming.isEmpty) then
    ⟨transport, ready, ⟨polls, expirations.tail⟩⟩
  else
    match polls with
    | .event event :: polls =>
        let next := transport.observe crate event ready
        next.1.drainLoop next.2 (observed + 1) polls expirations.tail
    | .nothing :: polls => ⟨transport, ready, ⟨polls, expirations.tail⟩⟩
    | .failed failure :: polls => ⟨transport, recordFailure ready failure, ⟨polls, expirations.tail⟩⟩
    | [] => ⟨transport, ready, ⟨[], expirations.tail⟩⟩

def drainReady (transport : Transport) (first : Option ProcessEvent) (schedule : Schedule) : Drained :=
  match first with
  | some event =>
      let next := transport.observe crate event {}
      next.1.drainLoop crate next.2 1 schedule.polls schedule.expirations
  | none => transport.drainLoop crate {} 0 schedule.polls schedule.expirations

theorem probe_polls (transport : Transport) (ready : ReadyBatch) (polls : List Poll) (expirations : List Bool) :
    (transport.probeReadyEventOverflow ready expirations polls).schedule.polls <:+ polls := by
  rcases polls with _ | ⟨_ | _ | _, polls⟩
  · exact List.suffix_rfl
  all_goals exact List.suffix_cons _ _

theorem drainLoop_polls (transport : Transport) (ready : ReadyBatch) (observed : ℕ) (polls : List Poll) (expirations : List Bool) :
    (transport.drainLoop crate ready observed polls expirations).schedule.polls <:+ polls := by
  induction polls generalizing transport ready observed expirations with
  | nil =>
    rw [drainLoop.eq_def]
    split_ifs
    · exact probe_polls ..
    · exact List.suffix_rfl
    · exact List.suffix_rfl
  | cons poll polls ih =>
    rw [drainLoop.eq_def]
    split_ifs
    · exact probe_polls ..
    · exact List.suffix_rfl
    · cases poll with
      | event event => exact (ih _ _ _ _).trans (List.suffix_cons _ _)
      | nothing => exact List.suffix_cons _ _
      | failed failure => exact List.suffix_cons _ _

/-- A drain takes polls off the schedule. -/
theorem drainReady_polls (transport : Transport) (first : Option ProcessEvent) (schedule : Schedule) :
    (transport.drainReady crate first schedule).schedule.polls <:+ schedule.polls := by
  cases first with
  | some event => exact drainLoop_polls ..
  | none => exact drainLoop_polls ..

/-! ## Delivery -/

def choose (drained : Drained) : Except Underflow Received :=
  match drained.ready.failure? with
  | some failure => .ok ⟨.error failure, drained.transport.clearIncoming, drained.schedule⟩
  | none => do
      let (message, transport) ← drained.transport.popIncoming
      return ⟨message.elim (.error .deadlineExceeded) .ok, transport, drained.schedule⟩

def chooseOrDeadline (drained : Drained) : Except Underflow Received :=
  if drained.ready.isEmpty then do
    let (message, transport) ← drained.transport.popIncoming
    match message with
    | some message => return ⟨.ok message, transport, drained.schedule⟩
    | none => choose { drained with transport := transport }
  else choose drained

/-- A failed wait: what is ready nevertheless comes first. -/
def afterFailedWait (transport : Transport) (failure : ProcessError) (schedule : Schedule) : Except Underflow Received :=
  let drained := transport.drainReady crate none schedule
  chooseOrDeadline { drained with ready := recordFailure drained.ready failure }

/-- After a wait, until a message or a failure is found or the deadline passes. -/
def nextIncomingLoop (transport : Transport) (observed : Option ProcessEvent) (schedule : Schedule) : Except Underflow Received := do
  let drained := transport.drainReady crate observed schedule
  if !drained.ready.isEmpty then choose drained
  else
    let (message, transport) ← drained.transport.popIncoming
    match message with
    | some message => return ⟨.ok message, transport, drained.schedule⟩
    | none =>
        let polls := drained.schedule.polls
        let expirations := drained.schedule.expirations
        -- The clock is only read in the middle of a frame.
        if !transport.decoder.any FrameDecoder.isMidFrame then
          chooseOrDeadline (transport.drainReady crate none ⟨polls, expirations⟩)
        else if expirations.headD true then
          chooseOrDeadline (transport.drainReady crate none ⟨polls, expirations.tail⟩)
        else
          match _waited : polls with
          | .event event :: polls => transport.nextIncomingLoop (some event) ⟨polls, expirations.tail⟩
          | .nothing :: polls => chooseOrDeadline (transport.drainReady crate none ⟨polls, expirations.tail⟩)
          | .failed failure :: polls => transport.afterFailedWait crate failure ⟨polls, expirations.tail⟩
          | [] => chooseOrDeadline (transport.drainReady crate none ⟨[], expirations.tail⟩)
termination_by schedule.polls.length
decreasing_by
  have shorter : drained.schedule.polls.length ≤ schedule.polls.length := (drainReady_polls crate _ observed schedule).length_le
  rw [show drained.schedule.polls = _ from _waited, List.length_cons] at shorter
  exact shorter

def nextIncoming (transport : Transport) (schedule : Schedule) : Except Underflow Received := do
  let drained := transport.drainReady crate none schedule
  if !drained.ready.isEmpty then choose drained
  else
    let (message, transport) ← drained.transport.popIncoming
    match message with
    | some message => return ⟨.ok message, transport, drained.schedule⟩
    | none =>
        let expirations := drained.schedule.expirations
        match drained.schedule.polls with
        | .event event :: polls => transport.nextIncomingLoop crate (some event) ⟨polls, expirations⟩
        | .nothing :: polls => transport.nextIncomingLoop crate none ⟨polls, expirations⟩
        | .failed failure :: polls => transport.afterFailedWait crate failure ⟨polls, expirations⟩
        | [] => transport.nextIncomingLoop crate none ⟨[], expirations⟩

end Transport

/-! ## Runs -/

/-- What a client asks of a transport; of a request only its id concerns what is received. -/
inductive TransportCall where
  | nextIncoming
  | sendRequest

/-- What the calls of a run returned in turn, with the transport and the schedule after it. -/
structure TransportRun where
  results : List (Except TransportError IncomingMessage)
  begun : List (Except CorrelationError ClientRequestId)
  transport : Transport
  schedule : Schedule

def Transport.run (crate : ValueCrate) (transport : Transport) (schedule : Schedule) :
    List TransportCall → Except Underflow TransportRun
  | [] => .ok ⟨[], [], transport, schedule⟩
  | .nextIncoming :: calls => do
      let received ← transport.nextIncoming crate schedule
      let later ← received.transport.run crate received.schedule calls
      return { later with results := received.result :: later.results }
  | .sendRequest :: calls => do
      let begun := transport.correlator.beginRequest
      let later ← { transport with correlator := begun.2 }.run crate schedule calls
      return { later with begun := begun.1 :: later.begun }

end Srcmv.Lsp
