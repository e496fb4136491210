import Srcmv.Model.Lsp.Framing
import Srcmv.ToMathlib.Except
import Srcmv.ToMathlib.Incremental

/-! # One frame after another

The incremental decoder handles a chunk like its bytes one by one, and the blocking reader asks for
bytes whose cuts do not matter. Both therefore take the next frame off the same stream.
-/

namespace Srcmv.Lsp

open Srcmv.Core

variable {limits : FramingLimits}

/-! ## The incremental decoder -/

namespace FrameDecoder

/-- One byte of the stream. -/
def step (limits : FramingLimits) : DecoderState → UInt8 → Except JsonRpcError (DecoderState × Option Bytes)
  | .header header, byte => pushHeaderByte limits header byte
  | .body bytes expected incomplete, byte =>
      if complete : (bytes ++ [byte]).length = expected then .ok (.header [], some (bytes ++ [byte]))
      else .ok (.body (bytes ++ [byte]) expected (by rw [List.length_append, List.length_singleton] at *; omega), none)

/-- Bytes that leave a body incomplete extend it. -/
theorem trace_body_open {part rest : Bytes} : ∀ {bytes : Bytes} {expected : ℕ} {incomplete : bytes.length < expected}
    (open_ : (bytes ++ part).length < expected),
    Incremental.trace (step limits) (.body bytes expected incomplete) (part ++ rest) =
      Incremental.trace (step limits) (.body (bytes ++ part) expected open_) rest := by
  induction part with
  | nil =>
    intro bytes expected incomplete open_
    simp only [List.append_nil, List.nil_append]
  | cons byte part ih =>
    intro bytes expected incomplete open_
    have shape : bytes ++ byte :: part = (bytes ++ [byte]) ++ part := by simp
    have unfinished : ¬(bytes ++ [byte]).length = expected := by
      rw [shape, List.length_append] at open_
      omega
    have stepped : step limits (.body bytes expected incomplete) byte =
        .ok (.body (bytes ++ [byte]) expected (by rw [shape, List.length_append] at open_; omega), none) := by
      rw [step, dif_neg unfinished]
    rw [List.cons_append, Incremental.trace_cons_ok stepped, ih (by rw [← shape]; exact open_)]
    simp only [Option.toList_none, List.nil_append, shape]

/-- The last byte of a body completes its frame. -/
theorem trace_body_complete {part rest bytes : Bytes} {expected : ℕ} {incomplete : bytes.length < expected}
    (complete : (bytes ++ part).length = expected) :
    Incremental.trace (step limits) (.body bytes expected incomplete) (part ++ rest) =
      ((bytes ++ part) :: (Incremental.trace (step limits) (.header []) rest).1,
        (Incremental.trace (step limits) (.header []) rest).2) := by
  rcases List.eq_nil_or_concat part with rfl | ⟨initial, last, rfl⟩
  · rw [List.append_nil] at complete
    omega
  rw [List.concat_eq_append] at complete ⊢
  have open_ : (bytes ++ initial).length < expected := by
    rw [← List.append_assoc, List.length_append, List.length_singleton] at complete
    omega
  have stepped : step limits (.body (bytes ++ initial) expected open_) last =
      .ok (.header [], some (bytes ++ (initial ++ [last]))) := by
    rw [step, dif_pos (by rw [List.append_assoc]; exact complete), List.append_assoc]
  rw [List.append_assoc, trace_body_open open_, List.singleton_append, Incremental.trace_cons_ok stepped]
  rfl

/-- A chunk is pushed like its bytes one by one. -/
theorem push_eq_feed (state : DecoderState) (chunk : Bytes) :
    push limits state chunk = Incremental.feed (step limits) state chunk := by
  induction state, chunk using push.induct with
  | case1 state =>
    rw [push]
    rfl
  | case2 header byte chunk ih =>
    rw [push, Incremental.feed]
    cases stepped : pushHeaderByte limits header byte with
    | error failure =>
      rw [Except.error_bind, Incremental.trace_cons_error (show step limits (.header header) byte = _ from stepped)]
      rfl
    | ok result =>
      obtain ⟨next, body⟩ := result
      rw [Except.ok_bind, Incremental.trace_cons_ok (show step limits (.header header) byte = _ from stepped)]
      dsimp only
      rw [ih, Incremental.feed]
      cases (Incremental.trace (step limits) next chunk).2 <;> rfl
  | case3 bytes expected incomplete byte chunk take extended complete ih =>
    rw [push, dif_pos complete]
    change (push limits (.header []) ((byte :: chunk).drop take) >>= _) = _
    rw [ih, Incremental.feed, Incremental.feed]
    have whole : Incremental.trace (step limits) (.body bytes expected incomplete) _ = _ :=
      @trace_body_complete limits _ ((byte :: chunk).drop take) _ _ _ complete
    rw [List.take_append_drop] at whole
    rw [whole]
    cases (Incremental.trace (step limits) (.header []) ((byte :: chunk).drop take)).2 <;> rfl
  | case4 bytes expected incomplete byte chunk take extended unfinished ih =>
    rw [push, dif_neg unfinished]
    have part : (bytes ++ (byte :: chunk).take take).length < expected := by
      rw [List.length_append, List.length_take] at unfinished ⊢
      omega
    change push limits (.body (bytes ++ (byte :: chunk).take take) expected part) ((byte :: chunk).drop take) = _
    rw [ih, Incremental.feed, Incremental.feed]
    have whole : Incremental.trace (step limits) (.body bytes expected incomplete) _ = _ :=
      @trace_body_open limits _ ((byte :: chunk).drop take) _ _ _ part
    rw [List.take_append_drop] at whole
    rw [whole]

end FrameDecoder

/-! ## The next frame of a stream -/

/-- Take the next frame off a stream, of which a part of the header has been read. -/
def nextFrame (limits : FramingLimits) (header : Bytes) : Bytes → Except JsonRpcError (Option Bytes × Bytes)
  | [] => if header = [] then .ok (none, []) else .error (.unexpectedEof .header)
  | byte :: rest =>
      if header.length = limits.maxHeaderBytes then .error (.headerTooLarge limits.maxHeaderBytes)
      else if byte ≥ 128 then .error .nonAsciiHeader
      else if terminator.isSuffixOf (header ++ [byte]) then do
        let length ← acceptLength limits (header ++ [byte])
        if rest.length < length then .error (.unexpectedEof .body) else return (some (rest.take length), rest.drop length)
      else if (header ++ [byte]).length = limits.maxHeaderBytes then .error (.headerTooLarge limits.maxHeaderBytes)
      else nextFrame limits (header ++ [byte]) rest

/-- Bodies and outcome of a decoder at the end of the stream. -/
def decode (limits : FramingLimits) (state : DecoderState) (stream : Bytes) : List Bytes × Except JsonRpcError Unit :=
  ((Incremental.trace (FrameDecoder.step limits) state stream).1,
    (Incremental.trace (FrameDecoder.step limits) state stream).2 >>= FrameDecoder.finish)

/-- Bodies and outcome from the next frame on. -/
def decodeFrom (limits : FramingLimits) : Except JsonRpcError (Option Bytes × Bytes) → List Bytes × Except JsonRpcError Unit
  | .error failure => ([], .error failure)
  | .ok (none, _) => ([], .ok ())
  | .ok (some body, rest) => (body :: (decode limits FrameDecoder.fresh rest).1, (decode limits FrameDecoder.fresh rest).2)

theorem decode_cons_error {state : DecoderState} {byte : UInt8} {rest : Bytes} {failure : JsonRpcError}
    (failed : FrameDecoder.step limits state byte = .error failure) :
    decode limits state (byte :: rest) = ([], .error failure) := by
  rw [decode, Incremental.trace_cons_error failed]
  rfl

theorem decode_cons_ok {state next : DecoderState} {body : Option Bytes} {byte : UInt8} {rest : Bytes}
    (accepted : FrameDecoder.step limits state byte = .ok (next, body)) :
    decode limits state (byte :: rest) = (body.toList ++ (decode limits next rest).1, (decode limits next rest).2) := by
  rw [decode, Incremental.trace_cons_ok accepted]
  rfl

/-- A body is complete when the stream holds its length. -/
private theorem decode_body {length : ℕ} (started : ([] : Bytes).length < length) (rest : Bytes) :
    decode limits (.body [] length started) rest = decodeFrom limits
      (if rest.length < length then .error (.unexpectedEof .body) else .ok (some (rest.take length), rest.drop length)) := by
  split_ifs with short
  · have traced := @FrameDecoder.trace_body_open limits rest [] [] length started (by simpa using short)
    rw [List.append_nil] at traced
    rw [decode, traced]
    rfl
  · have traced := @FrameDecoder.trace_body_complete limits (rest.take length) (rest.drop length) [] length started (by
      rw [List.nil_append, List.length_take]
      omega)
    rw [List.take_append_drop] at traced
    rw [decode, traced]
    rfl

/-- The incremental decoder takes the next frame. -/
theorem decode_header (header stream : Bytes) :
    decode limits (.header header) stream = decodeFrom limits (nextFrame limits header stream) := by
  induction stream generalizing header with
  | nil =>
    rw [nextFrame]
    cases header <;> rfl
  | cons byte rest ih =>
    have stepped : FrameDecoder.step limits (.header header) byte = FrameDecoder.pushHeaderByte limits header byte := rfl
    rw [nextFrame]
    rw [FrameDecoder.pushHeaderByte] at stepped
    split_ifs at stepped ⊢ with full nonAscii complete tooLarge
    · exact decode_cons_error stepped
    · exact decode_cons_error stepped
    · cases accepted : acceptLength limits (header ++ [byte]) with
      | error failure =>
        rw [accepted] at stepped
        exact decode_cons_error stepped
      | ok length =>
        rw [accepted, Except.ok_bind] at stepped
        rw [Except.ok_bind]
        by_cases started : 0 < length
        · rw [dif_pos started] at stepped
          rw [decode_cons_ok stepped]
          exact decode_body started rest
        · rw [dif_neg started] at stepped
          obtain rfl : length = 0 := by omega
          rw [decode_cons_ok stepped, if_neg (Nat.not_lt_zero _)]
          rfl
    · exact decode_cons_error stepped
    · rw [decode_cons_ok stepped, ← ih]
      rfl

/-! ## The blocking reader -/

theorem Reader.read_eq_nil {size : ℕ} (positive : 0 < size) {reader : Reader} (ended : (reader.read size).1 = []) :
    reader.flatten = [] := by
  induction reader using Reader.read.induct with
  | case1 => rfl
  | case2 rest ih => exact ih ended
  | case3 available rest nonempty =>
    rw [Reader.read] at ended
    · rcases List.take_eq_nil_iff.mp ended with none | empty
      · omega
      · exact absurd empty nonempty
    · exact nonempty

/-- Reads of any length fill a body when the stream holds its length. -/
private theorem readExactSection_eq (size : ℕ) (reader : Reader) :
    (readExactSection size .body reader).map (fun received => (received.1, received.2.flatten)) =
      if reader.flatten.length < size then .error (.unexpectedEof .body)
      else .ok (reader.flatten.take size, reader.flatten.drop size) := by
  induction size using Nat.strong_induction_on generalizing reader with
  | _ size ih =>
  rw [readExactSection]
  by_cases zero : size = 0
  · subst zero
    rfl
  have whole := Reader.read_flatten size reader
  have bounded := Reader.read_length size reader
  rw [if_neg zero]
  rcases received : reader.read size with ⟨part, rest⟩
  rw [received] at whole bounded
  dsimp only at whole bounded ⊢
  cases part with
  | nil =>
    have ended : reader.flatten = [] := Reader.read_eq_nil (Nat.pos_of_ne_zero zero) (by rw [received])
    rw [ended, if_pos (show ([] : Bytes).length < size from Nat.pos_of_ne_zero zero)]
    rfl
  | cons byte part =>
    have next := ih (size - (byte :: part).length) (by rw [List.length_cons]; omega) rest
    have short : reader.flatten.length < size ↔ rest.flatten.length < size - (byte :: part).length := by
      rw [← whole, List.length_append]
      omega
    dsimp only
    by_cases missing : rest.flatten.length < size - (byte :: part).length
    · rw [if_pos missing] at next
      rw [if_pos (short.mpr missing)]
      cases result : readExactSection (size - (byte :: part).length) .body rest with
      | error failure =>
        rw [result] at next
        exact next
      | ok filled =>
        rw [result] at next
        cases next
    · rw [if_neg missing] at next
      cases result : readExactSection (size - (byte :: part).length) .body rest with
      | error failure =>
        rw [result] at next
        cases next
      | ok filled =>
        rw [result] at next
        obtain ⟨bytes, last⟩ := filled
        obtain ⟨taken, remaining⟩ := Prod.mk.inj (Except.ok.inj next)
        rw [Except.ok_bind, if_neg (fun less => missing (short.mp less)), ← whole, List.take_append, List.drop_append,
          List.take_of_length_le bounded, List.drop_of_length_le bounded, ← taken, ← remaining]
        rfl

private theorem readExactSection_short {size : ℕ} {reader : Reader} (short : reader.flatten.length < size) :
    readExactSection size .body reader = .error (.unexpectedEof .body) := by
  have filled := readExactSection_eq size reader
  rw [if_pos short] at filled
  cases result : readExactSection size .body reader with
  | error failure =>
    rw [result] at filled
    exact congrArg Except.error (Except.error.inj filled)
  | ok body =>
    rw [result] at filled
    cases filled

private theorem readExactSection_filled {size : ℕ} {reader : Reader} (long : ¬reader.flatten.length < size) :
    ∃ last, readExactSection size .body reader = .ok (reader.flatten.take size, last) ∧
      last.flatten = reader.flatten.drop size := by
  have filled := readExactSection_eq size reader
  rw [if_neg long] at filled
  cases result : readExactSection size .body reader with
  | error failure =>
    rw [result] at filled
    cases filled
  | ok body =>
    rw [result] at filled
    obtain ⟨taken, remaining⟩ := Prod.mk.inj (Except.ok.inj filled)
    exact ⟨body.2, by rw [← taken], remaining⟩

private theorem readHeader_ended {limit : ℕ} {header : Bytes} {reader rest : Reader} (received : reader.read 1 = ([], rest)) :
    readHeader limit header reader = if header = [] then .ok (none, rest) else .error (.unexpectedEof .header) := by
  rw [readHeader]
  split
  · next ended => rw [(Prod.mk.inj (ended.symm.trans received)).2]
  · next found =>
    have impossible := (Prod.mk.inj (found.symm.trans received)).1
    cases impossible

private theorem readHeader_byte {limit : ℕ} {header tail : Bytes} {byte : UInt8} {reader rest : Reader}
    (received : reader.read 1 = (byte :: tail, rest)) :
    readHeader limit header reader =
      if header.length = limit then .error (.headerTooLarge limit)
      else if byte ≥ 128 then .error .nonAsciiHeader
      else if terminator.isSuffixOf (header ++ [byte]) then .ok (some (header ++ [byte]), rest)
      else if (header ++ [byte]).length = limit then .error (.headerTooLarge limit)
      else readHeader limit (header ++ [byte]) rest := by
  rw [readHeader]
  split
  · next ended =>
    have impossible := (Prod.mk.inj (ended.symm.trans received)).1
    cases impossible
  · next found =>
    obtain ⟨same, rfl⟩ := Prod.mk.inj (found.symm.trans received)
    obtain ⟨rfl, -⟩ := List.cons.inj same
    rfl

/-- What follows the header of a frame. -/
private def readRest (limits : FramingLimits) (received : Option Bytes × Reader) : Except JsonRpcError (Option Bytes × Reader) :=
  match received.1 with
  | none => .ok (none, received.2)
  | some header => do
      let contentLength ← acceptLength limits header
      let (body, last) ← readExactSection contentLength .body received.2
      return (some body, last)

private theorem readHeader_next (header : Bytes) (reader : Reader) :
    ((readHeader limits.maxHeaderBytes header reader) >>= readRest limits).map
      (fun received => (received.1, received.2.flatten)) = nextFrame limits header reader.flatten := by
  induction length : reader.flatten.length using Nat.strong_induction_on generalizing header reader with
  | _ length ih =>
  have whole := Reader.read_flatten 1 reader
  have bounded := Reader.read_length 1 reader
  rcases received : reader.read 1 with ⟨part, rest⟩
  rw [received] at whole bounded
  cases part with
  | nil =>
    have ended : reader.flatten = [] := Reader.read_eq_nil Nat.one_pos (by rw [received])
    have nothing : rest.flatten = [] := by
      rw [ended] at whole
      exact whole
    rw [readHeader_ended received, ended, nextFrame]
    split_ifs
    · rw [Except.ok_bind, readRest, ← nothing]
      rfl
    · rfl
  | cons byte part =>
    obtain rfl : part = [] := List.length_eq_zero_iff.mp (by simpa using bounded)
    dsimp only at whole
    rw [List.singleton_append] at whole
    rw [readHeader_byte received, ← whole, nextFrame]
    split_ifs with full nonAscii complete tooLarge
    · rfl
    · rfl
    · rw [Except.ok_bind, readRest]
      dsimp only
      cases accepted : acceptLength limits (header ++ [byte]) with
      | error failure => rfl
      | ok size =>
        rw [Except.ok_bind, Except.ok_bind]
        split_ifs with short
        · rw [readExactSection_short short]
          rfl
        · obtain ⟨last, filled, remaining⟩ := readExactSection_filled short
          rw [filled, ← remaining]
          rfl
    · rfl
    · exact ih rest.flatten.length (by rw [← length, ← whole]; exact Nat.lt_succ_self _) _ _ rfl

/-- The blocking reader takes the next frame, whatever its reads return. -/
theorem readBody_next (reader : Reader) :
    (readBody limits reader).map (fun received => (received.1, received.2.flatten)) = nextFrame limits [] reader.flatten :=
  readHeader_next [] reader

end Srcmv.Lsp
