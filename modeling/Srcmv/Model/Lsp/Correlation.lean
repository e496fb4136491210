import Mathlib.Data.Finset.Basic
import Srcmv.Model.Core.Domain

/-! # Correlation of responses

The ids of client requests are allocated in order, and a response completes a pending one. Completed
ids are not remembered: below the next id they are told from unknown ones by no longer being pending.
-/

namespace Srcmv.Lsp

open Srcmv.Core

abbrev ClientRequestId := ℕ

/-- The failures of envelopes that concern ids. -/
inductive CorrelationError where
  | pendingRequestLimit (limit : ℕ)
  | clientRequestIdsExhausted
  | duplicateResponseId (id : ClientRequestId)
  | unknownResponseId (id : ClientRequestId)
deriving DecidableEq

structure ResponseCorrelator where
  nextId : ClientRequestId
  pending : Finset ClientRequestId
  maxPending : ℕ

namespace ResponseCorrelator

def new (maxPending : ℕ) : ResponseCorrelator := ⟨1, ∅, maxPending⟩

def pendingCount (correlator : ResponseCorrelator) : ℕ := correlator.pending.card

def beginRequest (correlator : ResponseCorrelator) : Except CorrelationError ClientRequestId × ResponseCorrelator :=
  if correlator.pending.card ≥ correlator.maxPending then (.error (.pendingRequestLimit correlator.maxPending), correlator)
  else if correlator.nextId + 1 > u64Max then (.error .clientRequestIdsExhausted, correlator)
  else
    (.ok correlator.nextId,
      { correlator with nextId := correlator.nextId + 1, pending := insert correlator.nextId correlator.pending })

/-- The id is removed in any case, which changes nothing when it is not pending. -/
def complete (correlator : ResponseCorrelator) (id : ClientRequestId) : Except CorrelationError Unit × ResponseCorrelator :=
  (if id ∈ correlator.pending then .ok ()
    else if id > 0 ∧ id < correlator.nextId then .error (.duplicateResponseId id)
    else .error (.unknownResponseId id), { correlator with pending := correlator.pending.erase id })

end ResponseCorrelator

/-- What a client asks of a correlator. -/
inductive CorrelatorCall where
  | beginRequest
  | complete (id : ClientRequestId)

/-- A call and what it returned. -/
inductive Exchange where
  | begun (result : Except CorrelationError ClientRequestId)
  | completed (id : ClientRequestId) (result : Except CorrelationError Unit)

namespace ResponseCorrelator

def call (correlator : ResponseCorrelator) : CorrelatorCall → Exchange × ResponseCorrelator
  | .beginRequest => (.begun correlator.beginRequest.1, correlator.beginRequest.2)
  | .complete id => (.completed id (correlator.complete id).1, (correlator.complete id).2)

/-- The exchanges of a sequence of calls, and the correlator after them. -/
def exchanges (correlator : ResponseCorrelator) : List CorrelatorCall → List Exchange × ResponseCorrelator
  | [] => ([], correlator)
  | first :: rest =>
      ((correlator.call first).1 :: ((correlator.call first).2.exchanges rest).1, ((correlator.call first).2.exchanges rest).2)

end ResponseCorrelator

namespace Exchange

def failed : Exchange → Bool
  | begun (.error _) => true
  | completed _ (.error _) => true
  | _ => false

def issued? : Exchange → Option ClientRequestId
  | begun (.ok id) => some id
  | _ => none

def completed? : Exchange → Option ClientRequestId
  | completed id (.ok ()) => some id
  | _ => none

end Exchange

end Srcmv.Lsp
