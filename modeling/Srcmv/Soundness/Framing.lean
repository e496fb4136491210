import Srcmv.Proofs.Lsp.Headers

/-! # Streams of frames

A stream determines the bodies that repeated `read_body` returns and how it ends, whatever its
reads return. The incremental decoder ends in the same way for every cut into chunks. The bodies
of a failing chunk are lost, hence a decoder that fails may have handed out fewer. Frames that were
encoded are decoded to their bodies.
-/

namespace Srcmv.Lsp

open Srcmv.Core

/-- Repeated `read_body`: the bodies, and the end of the stream or the failure. -/
inductive Drains (limits : FramingLimits) : Reader → List Bytes → Except JsonRpcError Unit → Prop
  | ended {reader rest : Reader} (received : readBody limits reader = .ok (none, rest)) : Drains limits reader [] (.ok ())
  | failed {reader : Reader} {failure : JsonRpcError} (received : readBody limits reader = .error failure) :
      Drains limits reader [] (.error failure)
  | body {reader rest : Reader} {body : Bytes} {bodies : List Bytes} {outcome : Except JsonRpcError Unit}
      (received : readBody limits reader = .ok (some body, rest)) (later : Drains limits rest bodies outcome) :
      Drains limits reader (body :: bodies) outcome

/-- Chunks pushed through a fresh decoder, which is finished when all of them are accepted. -/
def decodeChunks (limits : FramingLimits) (chunks : List Bytes) : List Bytes × Except JsonRpcError Unit :=
  let handed := Incremental.feedChunks (FrameDecoder.push limits) FrameDecoder.fresh chunks
  (handed.1, handed.2 >>= FrameDecoder.finish)

variable {limits : FramingLimits}

/-- A frame takes bytes off the stream. -/
private theorem nextFrame_length {body : Option Bytes} {rest : Bytes} (header stream : Bytes)
    (taken : nextFrame limits header stream = .ok (body, rest)) : rest.length + 1 ≤ stream.length ∨ body = none := by
  induction stream generalizing header with
  | nil =>
    rw [nextFrame] at taken
    split_ifs at taken
    · cases taken
      exact .inr rfl
  | cons byte stream ih =>
    rw [nextFrame] at taken
    split_ifs at taken
    · obtain ⟨length, -, complete⟩ := Except.bind_eq_ok.mp taken
      split_ifs at complete
      · obtain ⟨rfl, rfl⟩ := Prod.mk.inj (Except.ok.inj complete)
        exact .inl (by rw [List.length_drop, List.length_cons]; omega)
    · exact (ih _ taken).imp (fun shorter => by rw [List.length_cons]; omega) id

private theorem Drains.decoded {reader : Reader} {bodies : List Bytes} {outcome : Except JsonRpcError Unit}
    (drained : Drains limits reader bodies outcome) : decode limits FrameDecoder.fresh reader.flatten = (bodies, outcome) := by
  induction drained with
  | @ended reader rest received =>
    have next := @readBody_next limits reader
    rw [received] at next
    rw [FrameDecoder.fresh, decode_header, ← next]
    rfl
  | @failed reader failure received =>
    have next := @readBody_next limits reader
    rw [received] at next
    rw [FrameDecoder.fresh, decode_header, ← next]
    rfl
  | @body reader rest body bodies outcome received later ih =>
    have next := @readBody_next limits reader
    rw [received] at next
    rw [FrameDecoder.fresh, decode_header, ← next]
    change (body :: _, _) = _
    rw [ih]

/-- Repeated `read_body` comes to an end. -/
private theorem Drains.exists (reader : Reader) : ∃ bodies outcome, Drains limits reader bodies outcome := by
  induction length : reader.flatten.length using Nat.strong_induction_on generalizing reader with
  | _ length ih =>
  cases received : readBody limits reader with
  | error failure => exact ⟨[], .error failure, .failed received⟩
  | ok result =>
    obtain ⟨found, rest⟩ := result
    cases found with
    | none => exact ⟨[], .ok (), .ended received⟩
    | some body =>
      have next := @readBody_next limits reader
      rw [received] at next
      rcases nextFrame_length [] _ next.symm with shorter | impossible
      · obtain ⟨bodies, outcome, later⟩ := ih rest.flatten.length (by rw [← length]; exact shorter) rest rfl
        exact ⟨body :: bodies, outcome, .body received later⟩
      · cases impossible

/-! ## Cuts -/

private theorem push_eq_feed (limits : FramingLimits) : FrameDecoder.push limits = Incremental.feed (FrameDecoder.step limits) :=
  funext fun state => funext fun chunk => FrameDecoder.push_eq_feed state chunk

theorem framing_independent_of_cuts (limits : FramingLimits) (stream : Bytes) :
    ∃ (bodies : List Bytes) (outcome : Except JsonRpcError Unit),
      (∀ reader : Reader, reader.flatten = stream → ∀ read result,
        Drains limits reader read result ↔ read = bodies ∧ result = outcome) ∧
      ∀ chunks : List Bytes, chunks.flatten = stream →
        (decodeChunks limits chunks).2 = outcome ∧ (decodeChunks limits chunks).1 <+: bodies ∧
          (outcome = .ok () → (decodeChunks limits chunks).1 = bodies) := by
  refine ⟨(decode limits FrameDecoder.fresh stream).1, (decode limits FrameDecoder.fresh stream).2, ?_, ?_⟩
  · rintro reader rfl read result
    constructor
    · intro drained
      rw [drained.decoded]
      exact ⟨rfl, rfl⟩
    · rintro ⟨rfl, rfl⟩
      obtain ⟨bodies, outcome, drained⟩ := @Drains.exists limits reader
      rw [drained.decoded]
      exact drained
  · rintro chunks rfl
    obtain ⟨ended, handed, all⟩ := @Incremental.feedChunks_feed _ _ _ _ (FrameDecoder.step limits) chunks FrameDecoder.fresh
    rw [decodeChunks, push_eq_feed, decode]
    dsimp only
    refine ⟨by rw [ended], handed, fun succeeded => ?_⟩
    obtain ⟨last, traced, -⟩ := Except.bind_eq_ok.mp succeeded
    exact all last traced

/-! ## Round trips -/

private theorem encodeMessage_ok {Value : Type} {serialize : Value → Bytes} {value : Value} {outbound : FramingLimits}
    {frame : Bytes} (encoded : encodeMessage serialize value outbound = .ok frame) :
    (serialize value).length ≤ usizeMax ∧ frame = frameHeader (serialize value).length ++ serialize value := by
  rw [encodeMessage] at encoded
  obtain ⟨_, _, rest⟩ := Except.bind_eq_ok.mp encoded
  obtain ⟨_, fits, framed⟩ := Except.bind_eq_ok.mp rest
  have bounded : ¬(frameHeader (serialize value).length).length + (serialize value).length > usizeMax := by
    intro large
    rw [rejectFrame, if_pos large] at fits
    cases fits
  exact ⟨by omega, (Except.ok.inj framed).symm⟩

private theorem decode_frames {Value : Type} (serialize : Value → Bytes) {outbound : FramingLimits} (values : List Value)
    (frames : List Bytes) (encoded : values.mapM (fun value => encodeMessage serialize value outbound) = .ok frames)
    (inbound : ∀ value ∈ values, (serialize value).length ≤ limits.maxInboundBodyBytes)
    (room : ∀ value ∈ values, (frameHeader (serialize value).length).length ≤ limits.maxHeaderBytes) :
    decode limits FrameDecoder.fresh frames.flatten = (values.map serialize, .ok ()) := by
  induction values generalizing frames with
  | nil =>
    obtain rfl := Except.ok.inj encoded
    rfl
  | cons value values ih =>
    rw [List.mapM_cons] at encoded
    obtain ⟨frame, first, rest⟩ := Except.bind_eq_ok.mp encoded
    obtain ⟨later, others, built⟩ := Except.bind_eq_ok.mp rest
    obtain rfl := Except.ok.inj built
    obtain ⟨bounded, rfl⟩ := encodeMessage_ok first
    obtain ⟨small, inbound⟩ := List.forall_mem_cons.mp inbound
    obtain ⟨header, room⟩ := List.forall_mem_cons.mp room
    rw [List.flatten_cons, FrameDecoder.fresh, decode_header, nextFrame_generated bounded small header, decodeFrom,
      ih later others inbound room]
    rfl

/-- Encoded frames are decoded to the serialized bodies, however they are cut. -/
theorem frames_round_trip {Value : Type} (serialize : Value → Bytes) (limits outbound : FramingLimits) (values : List Value)
    (frames chunks : List Bytes) (encoded : values.mapM (fun value => encodeMessage serialize value outbound) = .ok frames)
    (inbound : ∀ value ∈ values, (serialize value).length ≤ limits.maxInboundBodyBytes)
    (room : ∀ value ∈ values, (frameHeader (serialize value).length).length ≤ limits.maxHeaderBytes)
    (cut : chunks.flatten = frames.flatten) :
    ∃ last : DecoderState, Incremental.feedChunks (FrameDecoder.push limits) FrameDecoder.fresh chunks =
        (values.map serialize, .ok last) ∧
      FrameDecoder.isMidFrame last = false ∧ FrameDecoder.finish last = .ok () := by
  have decoded := @decode_frames limits _ serialize _ values frames encoded inbound room
  rw [← cut] at decoded
  obtain ⟨bodies, outcome⟩ := Prod.mk.inj decoded
  obtain ⟨last, traced, finished⟩ := Except.bind_eq_ok.mp outcome
  obtain ⟨ended, -, all⟩ := @Incremental.feedChunks_feed _ _ _ _ (FrameDecoder.step limits) chunks FrameDecoder.fresh
  refine ⟨last, ?_, ?_, finished⟩
  · rw [push_eq_feed, ← bodies, ← all last traced, ← traced, ← ended]
  · cases last with
    | header bytes =>
      cases bytes with
      | nil => rfl
      | cons => cases finished
    | body => cases finished

/-- A body that looks like an empty frame, and an empty body, cut within the first header. -/
theorem frames_round_trip_example :
    ∃ last : DecoderState, Incremental.feedChunks (FrameDecoder.push {}) FrameDecoder.fresh
        [(frameHeader 4).take 5, (frameHeader 4).drop 5 ++ terminator, frameHeader 0] = ([terminator, []], .ok last) ∧
      FrameDecoder.isMidFrame last = false ∧ FrameDecoder.finish last = .ok () :=
  frames_round_trip id {} {} [terminator, []] [frameHeader 4 ++ terminator, frameHeader 0]
    [(frameHeader 4).take 5, (frameHeader 4).drop 5 ++ terminator, frameHeader 0] (by decide) (by decide) (by decide) (by decide)

end Srcmv.Lsp
