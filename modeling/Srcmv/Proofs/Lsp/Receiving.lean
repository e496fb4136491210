import Srcmv.Model.Lsp.Transport

/-! # What a receipt does

To receive a message, a transport observes events and then takes the first message off its queue. A
message that is received takes a poll off the schedule or leaves the queue shorter.
-/

namespace Srcmv.Lsp

open Srcmv.Core Relation

variable {crate : ValueCrate} {transport : Transport} {ready : ReadyBatch} {schedule : Schedule} {received : Received}

namespace Transport

/-- One event is observed. -/
inductive Observes (crate : ValueCrate) : Transport → Transport → Prop where
  | event (transport : Transport) (event : ProcessEvent) (ready : ReadyBatch) :
      Observes crate transport (transport.observe crate event ready).1

/-- A message is taken off the queue, or the receipt fails. -/
structure Takes (transport : Transport) (received : Received) : Prop where
  message : ∀ message, received.result = .ok message → transport.popIncoming = .ok (some message, received.transport)
  failure : ∀ failure, received.result = .error failure →
    received.transport = transport ∨ received.transport = transport.clearIncoming

/-- Events are observed, and then a message is taken off the queue or the receipt fails. -/
def Receives (crate : ValueCrate) (transport : Transport) (received : Received) : Prop :=
  ∃ middle, ReflTransGen (Observes crate) transport middle ∧ middle.Takes received

theorem popIncoming_none {later : Transport} (popped : transport.popIncoming = .ok (none, later)) :
    later = transport ∧ transport.incoming = [] := by
  rw [popIncoming] at popped
  split at popped
  · cases popped
    exact ⟨rfl, ‹_›⟩
  · split_ifs at popped
    cases popped

theorem popIncoming_some {message : IncomingMessage} {later : Transport} (popped : transport.popIncoming = .ok (some message, later)) :
    ∃ bodyBytes, transport.incoming = ⟨message, bodyBytes⟩ :: later.incoming ∧ later.correlator = transport.correlator := by
  rw [popIncoming] at popped
  split at popped
  · cases popped
  · rename_i buffered rest queue
    split_ifs at popped
    cases popped
    exact ⟨buffered.bodyBytes, queue, rfl⟩

/-! ## Drains -/

/-- A drain takes polls off the schedule, or nothing happens. -/
def Rests (transport : Transport) (polls : List Poll) (drained : Drained) : Prop :=
  drained.schedule.polls.length < polls.length ∨ drained.schedule.polls = polls ∧ drained.transport = transport

theorem probe_rests (polls : List Poll) (expirations : List Bool) :
    transport.Rests polls (transport.probeReadyEventOverflow ready expirations polls) := by
  rcases polls with _ | ⟨_ | _ | _, polls⟩
  · exact .inr ⟨rfl, rfl⟩
  all_goals exact .inl (Nat.lt_succ_self _)

theorem drainLoop_rests (observed : ℕ) (polls : List Poll) (expirations : List Bool) :
    transport.Rests polls (transport.drainLoop crate ready observed polls expirations) := by
  rw [drainLoop.eq_def]
  split_ifs
  · exact probe_rests polls expirations
  · exact .inr ⟨rfl, rfl⟩
  · rcases polls with _ | ⟨event | _ | failure, polls⟩
    · exact .inr ⟨rfl, rfl⟩
    · exact .inl (Nat.lt_succ_of_le (drainLoop_polls crate _ _ _ polls _).length_le)
    · exact .inl (Nat.lt_succ_self _)
    · exact .inl (Nat.lt_succ_self _)

theorem probe_transport (polls : List Poll) (expirations : List Bool) :
    (transport.probeReadyEventOverflow ready expirations polls).transport = transport := by
  rcases polls with _ | ⟨_ | _ | _, polls⟩ <;> rfl

theorem drainLoop_observes (observed : ℕ) (polls : List Poll) (expirations : List Bool) :
    ReflTransGen (Observes crate) transport (transport.drainLoop crate ready observed polls expirations).transport := by
  induction polls generalizing transport ready observed expirations with
  | nil =>
    rw [drainLoop.eq_def]
    split_ifs
    · rw [probe_transport]
    · exact .refl
    · exact .refl
  | cons poll polls ih =>
    rw [drainLoop.eq_def]
    split_ifs
    · rw [probe_transport]
    · exact .refl
    · cases poll with
      | event event => exact .head (.event transport event ready) (ih _ _)
      | nothing => exact .refl
      | failed failure => exact .refl

theorem drainReady_observes (first : Option ProcessEvent) (schedule : Schedule) :
    ReflTransGen (Observes crate) transport (transport.drainReady crate first schedule).transport := by
  cases first with
  | some event => exact .head (.event transport event {}) (drainLoop_observes 1 schedule.polls schedule.expirations)
  | none => exact drainLoop_observes 0 schedule.polls schedule.expirations

/-! ## Choices -/

theorem choose_takes {drained : Drained} (chosen : choose drained = .ok received) :
    drained.transport.Takes received ∧ received.schedule = drained.schedule := by
  rw [choose] at chosen
  cases failing : drained.ready.failure? with
  | some failure =>
    rw [failing] at chosen
    cases chosen
    refine ⟨⟨fun _ impossible => ?_, fun _ _ => .inr rfl⟩, rfl⟩
    cases impossible
  | none =>
    rw [failing] at chosen
    obtain ⟨⟨message, later⟩, popped, same⟩ := Except.bind_eq_ok.mp chosen
    obtain rfl := Except.pure_eq_ok.mp same
    refine ⟨⟨fun found taken => ?_, fun failure failed => ?_⟩, rfl⟩
    · cases message with
      | none => cases taken
      | some message =>
        cases taken
        exact popped
    · cases message with
      | none => exact .inl (popIncoming_none popped).1
      | some message => cases failed

theorem chooseOrDeadline_takes {drained : Drained} (chosen : chooseOrDeadline drained = .ok received) :
    drained.transport.Takes received ∧ received.schedule = drained.schedule := by
  rw [chooseOrDeadline] at chosen
  split_ifs at chosen
  · obtain ⟨⟨message, later⟩, popped, chosen⟩ := Except.bind_eq_ok.mp chosen
    cases message with
    | some message =>
      obtain rfl := Except.pure_eq_ok.mp chosen
      refine ⟨⟨fun found taken => ?_, fun _ failed => ?_⟩, rfl⟩
      · cases taken
        exact popped
      · cases failed
    | none =>
      obtain rfl := (popIncoming_none popped).1
      exact choose_takes chosen
  · exact choose_takes chosen

/-- A receipt takes polls off the schedule, or a message off the queue. -/
def Progresses (transport : Transport) (polls : List Poll) (received : Received) : Prop :=
  ∀ message, received.result = .ok message →
    received.schedule.polls.length < polls.length ∨
      received.schedule.polls = polls ∧ received.transport.incoming.length < transport.incoming.length

theorem Takes.progresses {polls : List Poll} {drained : Drained} (rests : transport.Rests polls drained)
    (takes : drained.transport.Takes received) (same : received.schedule = drained.schedule) :
    transport.Progresses polls received := by
  intro message taken
  rw [same]
  rcases rests with shorter | ⟨kept, unchanged⟩
  · exact .inl shorter
  · obtain ⟨bodyBytes, queue, -⟩ := popIncoming_some (takes.message message taken)
    refine .inr ⟨kept, ?_⟩
    rw [← unchanged, queue]
    exact Nat.lt_succ_self _

/-! ## Receipts -/

/-- What is known of a receipt. -/
structure Receipt (crate : ValueCrate) (transport : Transport) (polls : List Poll) (received : Received) : Prop where
  receives : Receives crate transport received
  polls : received.schedule.polls.length ≤ polls.length

theorem drained_receipt {drained : Drained} {polls : List Poll} (observes : ReflTransGen (Observes crate) transport drained.transport)
    (takes : drained.transport.Takes received ∧ received.schedule = drained.schedule) (shorter : drained.schedule.polls.length ≤ polls.length) :
    Receipt crate transport polls received :=
  ⟨⟨_, observes, takes.1⟩, by rw [takes.2]; exact shorter⟩

/-- A last drain. -/
theorem lastDrain_receipt (ran : chooseOrDeadline (transport.drainReady crate none schedule) = .ok received) :
    Receipt crate transport schedule.polls received ∧ transport.Progresses schedule.polls received := by
  have takes := chooseOrDeadline_takes ran
  exact ⟨drained_receipt (drainReady_observes none schedule) takes (drainReady_polls crate transport none schedule).length_le,
    takes.1.progresses (drainLoop_rests 0 schedule.polls schedule.expirations) takes.2⟩

theorem afterFailedWait_receipt {failure : ProcessError} (ran : transport.afterFailedWait crate failure schedule = .ok received) :
    Receipt crate transport schedule.polls received := by
  rw [afterFailedWait] at ran
  have takes := chooseOrDeadline_takes ran
  exact drained_receipt (drainReady_observes none schedule) takes (drainReady_polls crate transport none schedule).length_le

theorem Receipt.after {middle : Transport} {polls polls' : List Poll} (receipt : Receipt crate middle polls received)
    (observes : ReflTransGen (Observes crate) transport middle) (shorter : polls.length ≤ polls'.length) :
    Receipt crate transport polls' received := by
  obtain ⟨⟨last, further, takes⟩, fewer⟩ := receipt
  exact ⟨⟨last, observes.trans further, takes⟩, fewer.trans shorter⟩

/-- With an empty queue, what is received takes a poll. -/
theorem Progresses.of_empty {middle : Transport} {polls polls' : List Poll} (progresses : middle.Progresses polls received)
    (queue : middle.incoming = []) (shorter : polls.length ≤ polls'.length) : transport.Progresses polls' received := by
  intro message taken
  rcases progresses message taken with fewer | ⟨-, impossible⟩
  · exact .inl (fewer.trans_le shorter)
  · rw [queue] at impossible
    cases impossible

/-- A message taken off the queue after a drain. -/
theorem popped_takes {message : IncomingMessage} {later : Transport} {schedule : Schedule}
    (popped : transport.popIncoming = .ok (some message, later)) : transport.Takes ⟨.ok message, later, schedule⟩ := by
  refine ⟨fun found taken => ?_, fun _ failed => ?_⟩
  · cases taken
    exact popped
  · cases failed

/-- After a wait, an event may have been observed first; otherwise a receipt makes progress. -/
theorem nextIncomingLoop_receipt (observed : Option ProcessEvent)
    (ran : transport.nextIncomingLoop crate observed schedule = .ok received) :
    Receipt crate transport schedule.polls received ∧ (observed = none → transport.Progresses schedule.polls received) := by
  induction length : schedule.polls.length using Nat.strong_induction_on generalizing transport observed schedule with
  | _ length ih =>
  subst length
  have observes : ReflTransGen (Observes crate) transport (transport.drainReady crate observed schedule).transport :=
    drainReady_observes observed schedule
  have shorter := (drainReady_polls crate transport observed schedule).length_le
  have rests : observed = none → transport.Rests schedule.polls (transport.drainReady crate observed schedule) := by
    rintro rfl
    exact drainLoop_rests 0 schedule.polls schedule.expirations
  rw [nextIncomingLoop] at ran
  generalize transport.drainReady crate observed schedule = drained at *
  cases empty : drained.ready.isEmpty with
  | false =>
    rw [empty] at ran
    have takes := choose_takes ran
    exact ⟨drained_receipt observes takes shorter, fun none => takes.1.progresses (rests none) takes.2⟩
  | true =>
    rw [empty] at ran
    dsimp only at ran
    rw [if_neg (by decide)] at ran
    obtain ⟨⟨message, later⟩, popped, ran⟩ := Except.bind_eq_ok.mp ran
    cases message with
    | some message =>
      obtain rfl := Except.pure_eq_ok.mp ran
      have takes : drained.transport.Takes ⟨.ok message, later, drained.schedule⟩ := popped_takes popped
      exact ⟨drained_receipt observes ⟨takes, rfl⟩ shorter, fun none => takes.progresses (rests none) rfl⟩
    | none =>
      obtain ⟨rfl, queue⟩ := popIncoming_none popped
      dsimp only at ran
      have last (expirations : List Bool) (ran : chooseOrDeadline (drained.transport.drainReady crate none
          ⟨drained.schedule.polls, expirations⟩) = .ok received) :
          Receipt crate transport schedule.polls received ∧ (observed = none → transport.Progresses schedule.polls received) := by
        obtain ⟨receipt, progresses⟩ := lastDrain_receipt ran
        exact ⟨receipt.after observes shorter, fun _ => progresses.of_empty queue shorter⟩
      have fewer {polls : List Poll} (receipt : Receipt crate drained.transport polls received)
          (less : polls.length < drained.schedule.polls.length) : Receipt crate transport schedule.polls received ∧
            (observed = none → transport.Progresses schedule.polls received) := by
        refine ⟨receipt.after observes (by omega), fun _ message _ => .inl ?_⟩
        have bound := receipt.polls
        omega
      split_ifs at ran
      · exact last _ ran
      · exact last _ ran
      · split at ran
        · next event polls waited =>
          have less : polls.length < drained.schedule.polls.length := by rw [waited, List.length_cons]; omega
          exact fewer (ih polls.length (by omega) (some event) ran rfl).1 less
        · next polls waited =>
          have less : polls.length < drained.schedule.polls.length := by rw [waited, List.length_cons]; omega
          exact fewer (lastDrain_receipt ran).1 less
        · next failure polls waited =>
          have less : polls.length < drained.schedule.polls.length := by rw [waited, List.length_cons]; omega
          exact fewer (afterFailedWait_receipt ran) less
        · next waited =>
          exact last _ (waited ▸ ran)

/-- What a receipt does, and that it makes progress. -/
theorem nextIncoming_receipt (ran : transport.nextIncoming crate schedule = .ok received) :
    Receipt crate transport schedule.polls received ∧ transport.Progresses schedule.polls received := by
  have observes : ReflTransGen (Observes crate) transport (transport.drainReady crate none schedule).transport :=
    drainReady_observes none schedule
  have shorter := (drainReady_polls crate transport none schedule).length_le
  have rests : transport.Rests schedule.polls (transport.drainReady crate none schedule) :=
    drainLoop_rests 0 schedule.polls schedule.expirations
  rw [nextIncoming] at ran
  generalize transport.drainReady crate none schedule = drained at *
  cases empty : drained.ready.isEmpty with
  | false =>
    rw [empty] at ran
    have takes := choose_takes ran
    exact ⟨drained_receipt observes takes shorter, takes.1.progresses rests takes.2⟩
  | true =>
    rw [empty] at ran
    dsimp only at ran
    rw [if_neg (by decide)] at ran
    obtain ⟨⟨message, later⟩, popped, ran⟩ := Except.bind_eq_ok.mp ran
    cases message with
    | some message =>
      obtain rfl := Except.pure_eq_ok.mp ran
      have takes : drained.transport.Takes ⟨.ok message, later, drained.schedule⟩ := popped_takes popped
      exact ⟨drained_receipt observes ⟨takes, rfl⟩ shorter, takes.progresses rests rfl⟩
    | none =>
      obtain ⟨rfl, queue⟩ := popIncoming_none popped
      dsimp only at ran
      have fewer {polls : List Poll} (receipt : Receipt crate drained.transport polls received)
          (less : polls.length < drained.schedule.polls.length) :
          Receipt crate transport schedule.polls received ∧ transport.Progresses schedule.polls received := by
        refine ⟨receipt.after observes (by omega), fun message _ => .inl ?_⟩
        have bound := receipt.polls
        omega
      rcases waited : drained.schedule.polls with _ | ⟨event | _ | failure, polls⟩
      · rw [waited] at ran
        obtain ⟨receipt, progresses⟩ := nextIncomingLoop_receipt none ran
        exact ⟨receipt.after observes (Nat.zero_le _), (progresses rfl).of_empty queue (Nat.zero_le _)⟩
      · rw [waited] at ran
        have less : polls.length < drained.schedule.polls.length := by rw [waited, List.length_cons]; omega
        exact fewer (nextIncomingLoop_receipt (some event) ran).1 less
      · rw [waited] at ran
        have less : polls.length < drained.schedule.polls.length := by rw [waited, List.length_cons]; omega
        exact fewer (nextIncomingLoop_receipt none ran).1 less
      · rw [waited] at ran
        have less : polls.length < drained.schedule.polls.length := by rw [waited, List.length_cons]; omega
        exact fewer (afterFailedWait_receipt ran) less

end Transport

end Srcmv.Lsp

/-! ## Outstanding requests

A request is outstanding until its response is taken off the queue: it is pending, or its response is
in the queue. Receipts never add to these requests, so a response that is received answers one of them,
and each is answered at most once.
-/

namespace Srcmv.Lsp

open Srcmv.Core Relation

variable {crate : ValueCrate} {transport later last : Transport} {ready : ReadyBatch} {schedule : Schedule} {received : Received}

/-- The request that a message answers. -/
def IncomingMessage.responseId? : IncomingMessage → Option ClientRequestId
  | response id _ => some id
  | _ => none

namespace Transport

/-- The requests whose responses are in the queue. -/
def answered (transport : Transport) : List ClientRequestId :=
  transport.incoming.filterMap fun buffered => buffered.message.responseId?

def outstanding (transport : Transport) : Multiset ClientRequestId := transport.correlator.pending.val + transport.answered

/-- No request becomes outstanding. -/
structure Settles (transport later : Transport) : Prop where
  outstanding : later.outstanding ≤ transport.outstanding
  nextId : later.correlator.nextId = transport.correlator.nextId
  maxPending : later.correlator.maxPending = transport.correlator.maxPending

theorem Settles.refl (transport : Transport) : transport.Settles transport := ⟨le_rfl, rfl, rfl⟩

theorem Settles.trans (first : transport.Settles later) (second : later.Settles last) : transport.Settles last :=
  ⟨second.outstanding.trans first.outstanding, second.nextId.trans first.nextId, second.maxPending.trans first.maxPending⟩

theorem settles_clearIncoming (transport : Transport) : transport.Settles transport.clearIncoming :=
  ⟨(Multiset.add_zero transport.correlator.pending.val).trans_le (Multiset.le_add_right _ _), rfl, rfl⟩

theorem settles_congr (correlator : later.correlator = transport.correlator) (queue : later.incoming = transport.incoming) :
    transport.Settles later := by
  rw [show transport = { transport with correlator := later.correlator, incoming := later.incoming } by rw [correlator, queue]]
  exact ⟨le_rfl, rfl, rfl⟩

/-- A completed request is no longer pending. -/
theorem settles_complete (transport : Transport) (id : ClientRequestId) :
    transport.Settles { transport with correlator := (transport.correlator.complete id).2 } := by
  refine ⟨add_le_add_left ?_ _, rfl, rfl⟩
  exact Finset.val_le_iff.mpr (Finset.erase_subset id transport.correlator.pending)

/-- A response moves its request from the pending ones to the queue. -/
theorem settles_enqueue {message : IncomingMessage} {correlated : Transport} (correlates : transport.correlate message = (.ok (), correlated))
    (bufferedMessageBytes bodyBytes : ℕ) :
    transport.Settles { correlated with bufferedMessageBytes, incoming := correlated.incoming ++ [⟨message, bodyBytes⟩] } := by
  cases message with
  | request id method params =>
    cases correlates
    exact ⟨le_of_eq (by simp [outstanding, answered, IncomingMessage.responseId?]), rfl, rfl⟩
  | notification method params =>
    cases correlates
    exact ⟨le_of_eq (by simp [outstanding, answered, IncomingMessage.responseId?]), rfl, rfl⟩
  | response id payload =>
    obtain ⟨completed, rfl⟩ := Prod.mk.inj correlates
    have pending : id ∈ transport.correlator.pending := by
      by_contra absent
      rw [ResponseCorrelator.complete, if_neg absent] at completed
      split_ifs at completed
    refine ⟨le_of_eq ?_, rfl, rfl⟩
    have moved : (transport.correlator.pending.erase id).val + {id} = transport.correlator.pending.val := by
      rw [Finset.erase_val, Multiset.add_comm, Multiset.singleton_add, Multiset.cons_erase pending]
    rw [outstanding, outstanding, ← moved, add_assoc]
    congr 1
    rw [answered, List.filterMap_append, ← Multiset.coe_add, Multiset.add_comm]
    rfl

theorem settles_bufferBodies (bodies : List Bytes) : transport.Settles (transport.bufferBodies crate ready bodies).1 := by
  induction bodies generalizing transport with
  | nil => exact .refl transport
  | cons body bodies ih =>
    rw [bufferBodies]
    cases decodeBody crate transport.envelopeLimits body with
    | error failure => exact .refl transport
    | ok message =>
      dsimp only
      have correlated : transport.Settles (transport.correlate message).2 := by
        cases message with
        | response id payload => exact transport.settles_complete id
        | request => exact .refl transport
        | notification => exact .refl transport
      rcases correlates : transport.correlate message with ⟨outcome, next⟩
      rw [correlates] at correlated
      cases outcome with
      | error failure => exact correlated
      | ok _ =>
        dsimp only at correlated ⊢
        split_ifs
        · exact correlated.trans (settles_clearIncoming next)
        · exact correlated.trans (settles_clearIncoming next)
        · exact (settles_enqueue correlates _ _).trans ih

theorem settles_observe (event : ProcessEvent) : transport.Settles (transport.observe crate event ready).1 := by
  cases event with
  | exited status => exact .refl transport
  | fault fault =>
    rw [observe]
    split_ifs
    · exact .refl transport
    · exact .refl transport
  | stdinClosed => exact .refl transport
  | stdoutClosed =>
    rw [observe, observeStdoutClosed]
    split_ifs
    · exact settles_congr rfl rfl
    · cases transport.decoder.elim (.ok ()) FrameDecoder.finish <;> exact settles_congr rfl rfl
  | stdout bytes =>
    rw [observe, decodeChunk]
    split_ifs
    · exact .refl transport
    · cases transport.decoder with
      | none => exact .refl transport
      | some state =>
        dsimp only
        cases FrameDecoder.push transport.framingLimits state bytes with
        | error failure => exact settles_congr rfl rfl
        | ok next =>
          have restated : transport.Settles { transport with decoder := some next.1 } := settles_congr rfl rfl
          exact restated.trans (settles_bufferBodies next.2)

theorem settles_observes (observes : ReflTransGen (Observes crate) transport later) : transport.Settles later := by
  induction observes with
  | refl => exact .refl transport
  | tail _ step ih =>
    cases step with
    | event event ready => exact ih.trans (settles_observe event)

/-- A response that is taken off the queue answers an outstanding request. -/
theorem settles_popIncoming {message : IncomingMessage} (popped : transport.popIncoming = .ok (some message, later)) :
    (↑message.responseId?.toList : Multiset ClientRequestId) + later.outstanding = transport.outstanding := by
  obtain ⟨bodyBytes, queue, correlator⟩ := popIncoming_some popped
  have answers : transport.answered = message.responseId?.toList ++ later.answered := by
    rw [answered, queue, List.filterMap_cons]
    cases message.responseId? <;> rfl
  rw [outstanding, outstanding, answers, correlator, ← Multiset.coe_add]
  exact add_left_comm _ _ _

/-- What a receipt does to the requests that are outstanding. -/
structure Answers (transport : Transport) (received : Received) : Prop where
  message : ∀ message, received.result = .ok message →
    (↑message.responseId?.toList : Multiset ClientRequestId) + received.transport.outstanding ≤ transport.outstanding
  nextId : received.transport.correlator.nextId = transport.correlator.nextId
  maxPending : received.transport.correlator.maxPending = transport.correlator.maxPending

theorem nextIncoming_answers (ran : transport.nextIncoming crate schedule = .ok received) : transport.Answers received := by
  obtain ⟨middle, observes, takes⟩ := (nextIncoming_receipt ran).1.receives
  have settles := settles_observes observes
  cases result : received.result with
  | ok message =>
    have popped := takes.message message result
    obtain ⟨bodyBytes, queue, correlator⟩ := popIncoming_some popped
    refine ⟨fun other same => ?_, ?_, ?_⟩
    · cases same.symm.trans result
      rw [settles_popIncoming popped]
      exact settles.outstanding
    · rw [correlator, settles.nextId]
    · rw [correlator, settles.maxPending]
  | error failure =>
    have unchanged : received.transport.correlator = middle.correlator := by
      rcases takes.failure failure result with same | same <;> rw [same]
      rfl
    refine ⟨fun other same => ?_, ?_, ?_⟩
    · cases same.symm.trans result
    · rw [unchanged, settles.nextId]
    · rw [unchanged, settles.maxPending]

end Transport

end Srcmv.Lsp
