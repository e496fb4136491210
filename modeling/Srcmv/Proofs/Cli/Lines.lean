import Srcmv.Model.Cli.Preview
import Srcmv.Proofs.Core.Terminators

/-! # Cutting a text into lines

The splitter of the preview keeps offsets into the whole text. Its lines are determined by the bytes
of the open line and those that remain, so each property of a line follows by induction over what
remains.
-/

namespace Srcmv.Cli

open Srcmv.Core

/-- The bytes a terminator's name stands for. -/
def terminatorBytes (terminator : String) : Bytes :=
  if terminator = "LF" then [10]
  else if terminator = "CRLF" then [13, 10]
  else if terminator = "CR" then [13]
  else []

/-- The content is the full slice without its terminator, and it is a text of its own. -/
structure TextLine.SplitsOff (line : TextLine) : Prop where
  full : line.full = line.content ++ terminatorBytes line.terminator
  nonempty : line.full ≠ []
  content : ∀ byte ∈ line.content, isTerminatorByte byte = false
  text : (Utf8.decode line.content).isSome

/-- The offsets at which consecutive lines end. -/
def lineEnds (start : ℕ) : List TextLine → List ℕ
  | [] => []
  | line :: rest => (start + line.full.length) :: lineEnds (start + line.full.length) rest

/-- The lines of the bytes that remain after an open line. -/
def cutLines (pending : Bytes) : Bytes → List TextLine
  | [] => if pending = [] then [] else [⟨pending, pending, "NONE"⟩]
  | 10 :: rest => ⟨pending ++ [10], pending, "LF"⟩ :: cutLines [] rest
  | 13 :: 10 :: rest => ⟨pending ++ [13, 10], pending, "CRLF"⟩ :: cutLines [] rest
  | 13 :: rest => ⟨pending ++ [13], pending, "CR"⟩ :: cutLines [] rest
  | byte :: rest => cutLines (pending ++ [byte]) rest

section Places

variable {bytes pending : Bytes} {start : ℕ}

private theorem textLine_eq (closing : Bytes) {rest : Bytes} (terminator : String)
    (place : bytes.drop start = pending ++ (closing ++ rest)) :
    textLine bytes start (start + pending.length + closing.length) (start + pending.length) terminator =
      ⟨pending ++ closing, pending, terminator⟩ := by
  have full : (bytes.drop start).take (start + pending.length + closing.length - start) = pending ++ closing := by
    rw [place, ← List.append_assoc]
    exact List.take_left' (by rw [List.length_append]; omega)
  have content : (bytes.drop start).take (start + pending.length - start) = pending := by
    rw [place]
    exact List.take_left' (by omega)
  rw [textLine, full, content]

/-- Past the terminator, nothing is pending. -/
private theorem drop_line (closing : Bytes) {rest : Bytes} (place : bytes.drop start = pending ++ (closing ++ rest)) :
    bytes.drop (start + pending.length + closing.length) = [] ++ rest := by
  rw [← List.drop_drop, ← List.drop_drop, place, List.drop_left, List.drop_left, List.nil_append]

/-- The splitter cuts what remains, wherever it stands. -/
theorem textLinesFrom_eq {remaining : Bytes} {offset : ℕ} (place : bytes.drop start = pending ++ remaining)
    (reached : offset = start + pending.length) :
    textLinesFrom bytes remaining start offset = cutLines pending remaining := by
  induction remaining, start, offset using textLinesFrom.induct bytes generalizing pending with
  | case1 start offset open_ =>
    have nonempty : pending ≠ [] := by
      rintro rfl
      have length := congrArg List.length place
      simp only [List.length_drop, List.append_nil, List.length_nil] at length
      omega
    rw [textLinesFrom, if_pos open_, cutLines, if_neg nonempty, place, List.append_nil]
  | case2 start offset closed =>
    have empty : pending = [] := by
      rw [List.append_nil] at place
      exact place ▸ List.drop_eq_nil_of_le (by omega)
    rw [textLinesFrom, if_neg closed, cutLines, if_pos empty]
  | case3 rest start offset ih =>
    subst reached
    rw [textLinesFrom, cutLines, ih (drop_line [10] place) rfl]
    exact congrArg (· :: _) (textLine_eq [10] "LF" place)
  | case4 rest start offset ih =>
    subst reached
    rw [textLinesFrom, cutLines, ih (drop_line [13, 10] place) rfl]
    exact congrArg (· :: _) (textLine_eq [13, 10] "CRLF" place)
  | case5 rest start offset shape ih =>
    subst reached
    rw [textLinesFrom.eq_4 _ _ _ _ shape, cutLines.eq_4 _ _ shape, ih (drop_line [13] place) rfl]
    exact congrArg (· :: _) (textLine_eq [13] "CR" place)
  | case6 start offset byte rest notFeed notPair notReturn ih =>
    rw [textLinesFrom.eq_5 _ _ _ _ _ notFeed notPair notReturn, cutLines.eq_5 _ _ _ notFeed notPair notReturn]
    exact ih (by rw [place, List.append_assoc, List.singleton_append]) (by rw [reached, List.length_append]; rfl)

end Places

/-! ## The lines together -/

/-- The full slices make up the bytes. -/
theorem cutLines_flatten (pending remaining : Bytes) :
    ((cutLines pending remaining).map TextLine.full).flatten = pending ++ remaining := by
  induction pending, remaining using cutLines.induct with
  | case1 => rfl
  | case2 pending nonempty => rw [cutLines, if_neg nonempty, List.map_singleton, List.flatten_singleton, List.append_nil]
  | case3 pending rest ih | case4 pending rest ih =>
    rw [cutLines, List.map_cons, List.flatten_cons, ih, List.nil_append, List.append_assoc]
    rfl
  | case5 pending rest shape ih =>
    rw [cutLines.eq_4 _ _ shape, List.map_cons, List.flatten_cons, ih, List.nil_append, List.append_assoc]
    rfl
  | case6 pending byte rest notFeed notPair notReturn ih =>
    rw [cutLines.eq_5 _ _ _ notFeed notPair notReturn, ih, List.append_assoc, List.singleton_append]

/-- The boundary behind the last terminator, when bytes follow it. -/
private def openEnd (start stop : ℕ) (ends : List ℕ) : List ℕ := if ends.getLast?.getD start < stop then [stop] else []

private theorem lineEnds_cons {start : ℕ} {pending rest : Bytes} (closing : Bytes) (terminator : String)
    (scanned : terminatorEnds (closing ++ rest) (start + pending.length) =
      (start + pending.length + closing.length) :: terminatorEnds rest (start + pending.length + closing.length))
    (ih : ∀ start, lineEnds start (cutLines [] rest) =
      terminatorEnds rest start ++ openEnd start (start + rest.length) (terminatorEnds rest start)) :
    lineEnds start (⟨pending ++ closing, pending, terminator⟩ :: cutLines [] rest) =
      terminatorEnds (closing ++ rest) (start + pending.length) ++ openEnd start
        (start + pending.length + (closing ++ rest).length) (terminatorEnds (closing ++ rest) (start + pending.length)) := by
  rw [lineEnds, List.length_append, ← Nat.add_assoc, ih, scanned, List.cons_append, List.length_append, ← Nat.add_assoc,
    openEnd, openEnd, List.getLast?_cons, Option.getD_some]

/-- The lines end where the scan of the index finds terminators, and at the end of the bytes. -/
private theorem lineEnds_scanned (start : ℕ) (pending remaining : Bytes) :
    lineEnds start (cutLines pending remaining) = terminatorEnds remaining (start + pending.length) ++
      openEnd start (start + pending.length + remaining.length) (terminatorEnds remaining (start + pending.length)) := by
  induction pending, remaining using cutLines.induct generalizing start with
  | case1 => simp [cutLines, lineEnds, terminatorEnds, openEnd]
  | case2 pending nonempty =>
    have positive := List.length_pos_iff.mpr nonempty
    simp [cutLines, nonempty, lineEnds, terminatorEnds, openEnd, positive]
  | case3 pending rest ih => exact lineEnds_cons [10] "LF" rfl ih
  | case4 pending rest ih => exact lineEnds_cons [13, 10] "CRLF" rfl ih
  | case5 pending rest shape ih =>
    rw [cutLines.eq_4 _ _ shape]
    have scanned := terminatorEnds.eq_3 (start + pending.length) 13 rest fun _ _ => shape _
    exact lineEnds_cons [13] "CR" scanned ih
  | case6 pending byte rest notFeed notPair notReturn ih =>
    have silent : isTerminatorByte byte = false := by
      simp only [isTerminatorByte, Bool.or_eq_false_iff, decide_eq_false_iff_not]
      exact ⟨notReturn, notFeed⟩
    have later : start + (pending ++ [byte]).length = start + pending.length + 1 := by rw [List.length_append]; rfl
    have stop : start + pending.length + 1 + rest.length = start + pending.length + (byte :: rest).length := by
      rw [List.length_cons]
      omega
    rw [cutLines.eq_5 _ _ _ notFeed notPair notReturn, ih, terminatorEnds.eq_3 _ _ _ (fun _ => notPair _), silent,
      if_neg Bool.false_ne_true, later, stop]

/-- The lines of a text end at the boundaries of its index. -/
theorem lineEnds_eq_boundaries {bytes : Bytes} {maximumLines maximumMemoryBytes : ℕ} {index : LineIndex}
    (built : LineIndex.fromBytesWithLimits bytes maximumLines maximumMemoryBytes = .ok index) :
    lineEnds 0 (cutLines [] bytes) = index.boundaries := by
  have bounded := (terminatorEnds_spec bytes 0).2
  rw [lineEnds_scanned, LineIndex.boundaries_of_fromBytes built, List.length_nil, Nat.add_zero, Nat.zero_add, openEnd]
  congr 1
  refine if_congr ?_ rfl rfl
  rcases List.eq_nil_or_concat (terminatorEnds bytes 0) with none_ | ⟨initial, last, shape⟩
  · rw [none_]
    simp [List.length_pos_iff]
  · rw [shape] at bounded ⊢
    have inside := bounded last (by simp)
    have nonempty : bytes ≠ [] := List.ne_nil_of_length_pos (by omega)
    simp only [List.concat_eq_append, List.getLast?_append, List.getLast?_singleton, Option.some_or, Option.getD_some, ne_eq,
      Option.some.injEq, nonempty, not_false_eq_true, and_true]
    omega

/-! ## Each line -/

private theorem SplitsOff.of_text {pending : List Char} (closing : Bytes) {terminator : String}
    (nonempty : Utf8.encode pending ++ closing ≠ []) (named : terminatorBytes terminator = closing)
    (silent : ∀ byte ∈ Utf8.encode pending, isTerminatorByte byte = false) :
    TextLine.SplitsOff ⟨Utf8.encode pending ++ closing, Utf8.encode pending, terminator⟩ where
  full := by rw [named]
  nonempty := nonempty
  content := silent
  text := by rw [Utf8.decode_encode]; rfl

/-- Every line of a text splits into a content, which is a text, and a terminator. -/
theorem cutLines_splitsOff {text : List Char} {pending remaining : Bytes} (encoded : Utf8.encode text = pending ++ remaining)
    (silent : ∀ byte ∈ pending, isTerminatorByte byte = false) : ∀ line ∈ cutLines pending remaining, line.SplitsOff := by
  induction pending, remaining using cutLines.induct generalizing text with
  | case1 => exact fun line member => by cases member
  | case2 pending nonempty =>
    intro line member
    rw [cutLines, if_neg nonempty, List.mem_singleton] at member
    rw [List.append_nil] at encoded
    subst encoded member
    simpa using SplitsOff.of_text [] (by simpa using nonempty) rfl silent
  | case3 pending rest ih =>
    obtain ⟨before, char, after, -, rfl, -, rfl⟩ := Utf8.encode_split (by decide) encoded
    rw [cutLines, List.forall_mem_cons]
    exact ⟨SplitsOff.of_text [10] (by simp) rfl silent, ih (List.nil_append _).symm (by simp)⟩
  | case4 pending rest ih =>
    obtain ⟨before, char, after, -, rfl, -, following⟩ := Utf8.encode_split (by decide) encoded
    have following : Utf8.encode after = [] ++ 10 :: rest := following
    obtain ⟨-, -, last, -, -, -, rfl⟩ := Utf8.encode_split (by decide) following
    rw [cutLines, List.forall_mem_cons]
    exact ⟨SplitsOff.of_text [13, 10] (by simp) rfl silent, ih (List.nil_append _).symm (by simp)⟩
  | case5 pending rest shape ih =>
    obtain ⟨before, char, after, -, rfl, -, rfl⟩ := Utf8.encode_split (by decide) encoded
    rw [cutLines.eq_4 _ _ shape, List.forall_mem_cons]
    exact ⟨SplitsOff.of_text [13] (by simp) rfl silent, ih (List.nil_append _).symm (by simp)⟩
  | case6 pending byte rest notFeed notPair notReturn ih =>
    rw [cutLines.eq_5 _ _ _ notFeed notPair notReturn]
    refine ih (by rw [encoded, List.append_assoc, List.singleton_append]) fun other member => ?_
    rcases List.mem_append.mp member with before | this
    · exact silent other before
    · obtain rfl := List.mem_singleton.mp this
      simp only [isTerminatorByte, Bool.or_eq_false_iff, decide_eq_false_iff_not]
      exact ⟨notReturn, notFeed⟩

end Srcmv.Cli
