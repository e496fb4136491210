import Mathlib.Data.List.Basic
import Mathlib.Tactic

/-! # Incremental decoders

A decoder turns one symbol at a time into a next state and at most one item. Its trace over a
stream is the items before the first failure and how it ended. Feeding chunks hands out the items
of each accepted chunk, so that cuts can only withhold the last items before a failure.
-/

namespace Incremental

variable {State Symbol Item ε : Type*}

/-- The items before the first failure, and the failure or the last state. -/
def trace (step : State → Symbol → Except ε (State × Option Item)) : State → List Symbol → List Item × Except ε State
  | state, [] => ([], .ok state)
  | state, symbol :: rest =>
      match step state symbol with
      | .error failure => ([], .error failure)
      | .ok (next, item) => (item.toList ++ (trace step next rest).1, (trace step next rest).2)

/-- All items of a chunk, or none when it fails. -/
def feed (step : State → Symbol → Except ε (State × Option Item)) (state : State) (chunk : List Symbol) :
    Except ε (State × List Item) :=
  (trace step state chunk).2.map fun last => (last, (trace step state chunk).1)

/-- Chunks are pushed until one fails. -/
def feedChunks {Chunk : Type*} (push : State → Chunk → Except ε (State × List Item)) :
    State → List Chunk → List Item × Except ε State
  | state, [] => ([], .ok state)
  | state, chunk :: rest =>
      match push state chunk with
      | .error failure => ([], .error failure)
      | .ok (next, items) => (items ++ (feedChunks push next rest).1, (feedChunks push next rest).2)

section Trace

variable {step : State → Symbol → Except ε (State × Option Item)} {state next : State} {symbol : Symbol}
  {front back rest : List Symbol} {failure : ε}

theorem trace_cons_error (failed : step state symbol = .error failure) :
    trace step state (symbol :: rest) = ([], .error failure) := by
  rw [trace, failed]

theorem trace_cons_ok {item : Option Item} (accepted : step state symbol = .ok (next, item)) :
    trace step state (symbol :: rest) = (item.toList ++ (trace step next rest).1, (trace step next rest).2) := by
  rw [trace, accepted]

theorem trace_append_error (failed : (trace step state front).2 = .error failure) :
    trace step state (front ++ back) = trace step state front := by
  induction front generalizing state with
  | nil => cases failed
  | cons symbol rest ih =>
    cases stepped : step state symbol with
    | error => rw [List.cons_append, trace_cons_error stepped, trace_cons_error stepped]
    | ok result =>
      obtain ⟨next, item⟩ := result
      rw [trace_cons_ok stepped] at failed
      rw [List.cons_append, trace_cons_ok stepped, trace_cons_ok stepped, ih failed]

theorem trace_append_ok (accepted : (trace step state front).2 = .ok next) :
    trace step state (front ++ back) = ((trace step state front).1 ++ (trace step next back).1, (trace step next back).2) := by
  induction front generalizing state with
  | nil =>
    obtain rfl := Except.ok.inj accepted
    rfl
  | cons symbol rest ih =>
    cases stepped : step state symbol with
    | error =>
      rw [trace_cons_error stepped] at accepted
      cases accepted
    | ok result =>
      obtain ⟨middle, item⟩ := result
      rw [trace_cons_ok stepped] at accepted
      rw [List.cons_append, trace_cons_ok stepped, trace_cons_ok stepped, ih accepted, List.append_assoc]

/-- Chunks end like the stream they make up, and hand out its items in order; all of them, unless it fails. -/
theorem feedChunks_feed (chunks : List (List Symbol)) (state : State) :
    (feedChunks (feed step) state chunks).2 = (trace step state chunks.flatten).2 ∧
      (feedChunks (feed step) state chunks).1 <+: (trace step state chunks.flatten).1 ∧
      ∀ last, (trace step state chunks.flatten).2 = .ok last →
        (feedChunks (feed step) state chunks).1 = (trace step state chunks.flatten).1 := by
  induction chunks generalizing state with
  | nil => exact ⟨rfl, List.prefix_rfl, fun _ _ => rfl⟩
  | cons chunk rest ih =>
    rw [List.flatten_cons, feedChunks, feed]
    cases ended : (trace step state chunk).2 with
    | error failure =>
      rw [trace_append_error ended, ended]
      exact ⟨rfl, List.nil_prefix, fun last impossible => by cases impossible⟩
    | ok middle =>
      obtain ⟨outcome, handed, all⟩ := ih middle
      rw [trace_append_ok ended]
      exact ⟨outcome, (List.prefix_append_right_inj _).mpr handed, fun last same => congrArg (_ ++ ·) (all last same)⟩

end Trace

end Incremental
