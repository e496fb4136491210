import Srcmv.Model.Lsp.Position
import Srcmv.Proofs.Core.Metrics

/-! # Physical lines of a snapshot

The boundaries of the index cut the text between characters, so that each line is a content and a
terminator. The two binary searches select the same line for an offset: the one that starts at or
before it and ends behind it, or the last.
-/

namespace Srcmv.Lsp

open Srcmv.Core

section Boundaries

variable {text : List Char} {maximumLines maximumMemoryBytes : ℕ} {index : LineIndex}

/-- Every boundary of the index lies between characters. -/
theorem boundary_splits (built : LineIndex.fromBytesWithLimits (Utf8.encode text) maximumLines maximumMemoryBytes = .ok index)
    {boundary : ℕ} (member : boundary ∈ index.boundaries) : ∃ front back, text = front ++ back ∧ Utf8.size front = boundary := by
  rw [LineIndex.boundaries_eq built] at member
  obtain ⟨position, listed, rfl⟩ := List.mem_map.mp member
  obtain ⟨inside, closes⟩ := List.mem_filter.mp listed
  have bound := List.mem_range.mp inside
  rcases Bool.or_eq_true_iff.mp closes with terminator | last
  · obtain ⟨byte, ascii, found⟩ : ∃ byte : UInt8, byte.toNat < 128 ∧ (Utf8.encode text)[position]? = some byte := by
      rw [terminates, Bool.or_eq_true_iff, Bool.and_eq_true, decide_eq_true_eq, decide_eq_true_eq] at terminator
      rcases terminator with feed | ⟨carriage, -⟩
      · exact ⟨10, by decide, feed⟩
      · exact ⟨13, by decide, carriage⟩
    obtain ⟨_, at_⟩ := List.getElem?_eq_some_iff.mp found
    have shape : Utf8.encode text = (Utf8.encode text).take position ++ byte :: (Utf8.encode text).drop (position + 1) := by
      rw [← at_, List.cons_getElem_drop_succ, List.take_append_drop]
    obtain ⟨before, char, after, rfl, front, single, -⟩ := Utf8.encode_split ascii shape
    refine ⟨before ++ [char], after, by simp, ?_⟩
    have sized := congrArg List.length front
    have one := congrArg List.length single
    rw [Utf8.length_encode, List.length_take_of_le bound.le] at sized
    rw [String.length_utf8EncodeChar] at one
    rw [Utf8.size_append, sized, Utf8.size_cons, one]
    rfl
  · have length := of_decide_eq_true last
    rw [Utf8.length_encode] at length
    exact ⟨text, [], (List.append_nil _).symm, length.symm⟩

/-- The last boundary is the size of the text. -/
theorem lineEnd_last (built : LineIndex.fromBytesWithLimits (Utf8.encode text) maximumLines maximumMemoryBytes = .ok index)
    (nonempty : 0 < index.lineCount) : index.lineEnd index.lineCount = some (Utf8.size text) := by
  have length := LineIndex.indexedByteLength_eq built
  rw [LineIndex.indexedByteLength, List.getLast?_eq_getElem?, Utf8.length_encode] at length
  rw [LineIndex.lineCount] at nonempty ⊢
  rw [LineIndex.lineEnd, if_neg (by omega)]
  have inside : index.boundaries.length - 1 < index.boundaries.length := by omega
  rw [List.getElem?_eq_getElem inside, Option.getD_some] at length
  rw [List.getElem?_eq_getElem inside, length]

end Boundaries

/-! ## A line and its terminator -/

namespace PositionConverter

private theorem encode_concat {text : List Char} {front : Bytes} {byte : UInt8} (ascii : byte.toNat < 128)
    (shape : Utf8.encode text = front ++ [byte]) :
    ∃ before char, text = before ++ [char] ∧ Utf8.encode before = front ∧ Utf8.size [char] = 1 := by
  obtain ⟨before, char, after, rfl, front, single, none⟩ := Utf8.encode_split ascii shape
  have empty : after = [] := Utf8.encode_injective (none.trans Utf8.encode_nil.symm)
  have one := congrArg List.length single
  rw [String.length_utf8EncodeChar] at one
  exact ⟨before, char, by rw [empty], front, by rw [Utf8.size_cons, one]; rfl⟩

/-- A line's terminator consists of its last characters. -/
private theorem terminator_splits (line : List Char) :
    ∃ content terminator, line = content ++ terminator ∧ Utf8.size terminator = terminatorLength (Utf8.encode line) := by
  rw [terminatorLength]
  split_ifs with pair single
  · obtain ⟨front, shape⟩ := List.isSuffixOf_iff_suffix.mp pair
    have ended : Utf8.encode line = (front ++ [13]) ++ [10] := by rw [← shape, List.append_assoc]; rfl
    obtain ⟨before, feed, rfl, kept, one⟩ := encode_concat (by decide) ended
    obtain ⟨content, carriage, rfl, -, other⟩ := encode_concat (by decide) kept
    refine ⟨content, [carriage] ++ [feed], by simp, ?_⟩
    rw [Utf8.size_append, one, other]
  · obtain ⟨byte, ascii, front, shape⟩ : ∃ byte : UInt8, byte.toNat < 128 ∧ ∃ front, front ++ [byte] = Utf8.encode line := by
      rcases Bool.or_eq_true_iff.mp single with carriage | feed
      · exact ⟨13, by decide, List.isSuffixOf_iff_suffix.mp carriage⟩
      · exact ⟨10, by decide, List.isSuffixOf_iff_suffix.mp feed⟩
    obtain ⟨content, char, rfl, -, one⟩ := encode_concat ascii shape.symm
    exact ⟨content, [char], rfl, one⟩
  · exact ⟨line, [], (List.append_nil _).symm, rfl⟩

/-- The parts of the text around one line, which only lacks a terminator when nothing follows. -/
structure LineOf (converter : PositionConverter) (line : UInt32) (before content terminator after : List Char) : Prop where
  shape : converter.text = before ++ (content ++ (terminator ++ after))
  start : converter.lineIndex.lineStart (line.toNat + 1) = some (Utf8.size before)
  stop : converter.lineIndex.lineEnd (line.toNat + 1) =
    some (Utf8.size before + Utf8.size content + Utf8.size terminator)
  bounds : converter.lineBounds line = .ok ⟨line, Utf8.size before, Utf8.size before + Utf8.size content⟩
  closed : terminator = [] → after = []

/-- The converter of a text in memory, which spans less than `isize::MAX` bytes, that was indexed. -/
structure Indexed (converter : PositionConverter) : Prop where
  built : ∃ maximumLines maximumMemoryBytes,
    LineIndex.fromBytesWithLimits (Utf8.encode converter.text) maximumLines maximumMemoryBytes = .ok converter.lineIndex
  sized : Utf8.size converter.text < 2 ^ 63

variable {converter : PositionConverter} {line : UInt32} {before content terminator after : List Char}

theorem LineOf.lineContent (part : LineOf converter line before content terminator after) :
    converter.lineContent ⟨line, Utf8.size before, Utf8.size before + Utf8.size content⟩ = .ok content := by
  have found : Utf8.get converter.text (Utf8.size before) (Utf8.size before + Utf8.size content) = some content :=
    Utf8.get_eq_some_iff.mpr ⟨before, terminator ++ after, part.shape, rfl, rfl⟩
  rw [PositionConverter.lineContent, found]

/-- The line is within the text and one of its lines. -/
theorem LineOf.counted (part : LineOf converter line before content terminator after) :
    line.toNat + 1 ≤ converter.lineIndex.lineCount := by
  have start := part.start
  rw [LineIndex.lineStart] at start
  split_ifs at start <;> omega

private theorem lineEnd_mem {index : LineIndex} {line stop : ℕ} (found : index.lineEnd line = some stop) :
    stop ∈ index.boundaries := by
  rw [LineIndex.lineEnd] at found
  split_ifs at found
  exact List.mem_of_getElem? found

private theorem lineStart_splits (indexed : converter.Indexed) (inside : line.toNat < converter.lineIndex.lineCount) :
    ∃ front rest, converter.lineIndex.lineStart (line.toNat + 1) = some (Utf8.size front) ∧ converter.text = front ++ rest := by
  obtain ⟨_, _, built⟩ := indexed.built
  by_cases first : line.toNat = 0
  · refine ⟨[], converter.text, ?_, rfl⟩
    rw [LineIndex.lineStart, if_neg (by omega), if_pos (by omega)]
    rfl
  · have before : line.toNat - 1 < converter.lineIndex.boundaries.length := by
      rw [LineIndex.lineCount] at inside
      omega
    obtain ⟨front, rest, split, sized⟩ := boundary_splits built (List.getElem_mem before)
    refine ⟨front, rest, ?_, split⟩
    have place : line.toNat + 1 - 2 = line.toNat - 1 := by omega
    rw [LineIndex.lineStart, if_neg (by omega), if_neg (by omega), place, sized]
    exact List.getElem?_eq_getElem before

/-- A line that others follow ends in a terminator byte. -/
private theorem terminatorLength_pos (indexed : converter.Indexed) {front text rest : List Char}
    (shape : converter.text = front ++ (text ++ rest)) (nonempty : 0 < Utf8.size text)
    (boundary : Utf8.size front + Utf8.size text ∈ converter.lineIndex.boundaries) (followed : rest ≠ []) :
    0 < terminatorLength (Utf8.encode text) := by
  obtain ⟨_, _, built⟩ := indexed.built
  rw [LineIndex.boundaries_eq built] at boundary
  obtain ⟨position, listed, place⟩ := List.mem_map.mp boundary
  obtain ⟨-, closes⟩ := List.mem_filter.mp listed
  have later : 0 < Utf8.size rest := lt_of_lt_of_le (List.length_pos_iff.mpr followed) (Utf8.length_le_size rest)
  have inner : position + 1 ≠ (Utf8.encode converter.text).length := by
    rw [Utf8.length_encode, shape, Utf8.size_append, Utf8.size_append]
    omega
  have byteAt : (Utf8.encode converter.text)[position]? = (Utf8.encode text).getLast? := by
    rw [shape, Utf8.encode_append, Utf8.encode_append, List.getElem?_append_right (by rw [Utf8.length_encode]; omega),
      List.getElem?_append_left (by rw [Utf8.length_encode, Utf8.length_encode]; omega), List.getLast?_eq_getElem?,
      Utf8.length_encode, Utf8.length_encode]
    congr 1
    omega
  rw [closesLine, decide_eq_false inner, Bool.or_false, terminates, byteAt, Bool.or_eq_true_iff, Bool.and_eq_true,
    decide_eq_true_eq, decide_eq_true_eq] at closes
  have single : ([13].isSuffixOf (Utf8.encode text) || [10].isSuffixOf (Utf8.encode text)) = true := by
    rw [Bool.or_eq_true_iff, List.isSuffixOf_iff_suffix, List.isSuffixOf_iff_suffix]
    rcases closes with feed | ⟨carriage, -⟩
    · exact .inr (List.singleton_suffix_iff_getLast?_eq_some.mpr feed)
    · exact .inl (List.singleton_suffix_iff_getLast?_eq_some.mpr carriage)
  rw [terminatorLength]
  split_ifs <;> omega

/-- Every line of an indexed text has parts. -/
theorem Indexed.lineOf (indexed : converter.Indexed) (inside : line.toNat < converter.lineIndex.lineCount) :
    ∃ before content terminator after, LineOf converter line before content terminator after := by
  obtain ⟨_, _, built⟩ := indexed.built
  have bounds := LineIndex.bounds_of_fromBytes built
  obtain ⟨stop, ended⟩ : ∃ stop, converter.lineIndex.lineEnd (line.toNat + 1) = some stop := by
    rw [LineIndex.lineEnd, if_neg (by omega), Nat.add_sub_cancel]
    exact ⟨_, List.getElem?_eq_getElem inside⟩
  obtain ⟨before, rest, started, split⟩ := lineStart_splits indexed inside
  obtain ⟨front, after, split', sized⟩ := boundary_splits built (lineEnd_mem ended)
  have ordered := bounds.lineStart_lt_lineEnd le_rfl started ended
  obtain ⟨text, rfl⟩ : before <+: front := by
    refine Utf8.prefix_of_weight_le Char.utf8Size_pos ⟨rest, split.symm⟩ ⟨after, split'.symm⟩ ?_
    rw [← Utf8.size_eq_weight, ← Utf8.size_eq_weight, sized]
    exact ordered.le
  rw [Utf8.size_append] at sized
  subst sized
  rw [List.append_assoc] at split'
  obtain ⟨content, terminator, rfl, length⟩ := terminator_splits text
  have sliced : slice? (Utf8.encode converter.text) ⟨Utf8.size before, Utf8.size before + Utf8.size (content ++ terminator)⟩ =
      some (Utf8.encode (content ++ terminator)) := by
    rw [slice?_of_le (Nat.le_add_right _ _) (by rw [Utf8.length_encode, split']; simp), split', Utf8.encode_append]
    dsimp only
    rw [List.drop_left' (by rw [Utf8.length_encode]), Nat.add_sub_cancel_left, Utf8.encode_append (content ++ terminator)]
    exact congrArg some (List.take_left' (by rw [Utf8.length_encode]))
  have whole : Utf8.size before + Utf8.size (content ++ terminator) =
      Utf8.size before + Utf8.size content + Utf8.size terminator := by rw [Utf8.size_append, Nat.add_assoc]
  refine ⟨before, content, terminator, after, by rw [split', List.append_assoc], started, whole ▸ ended, ?_, ?_⟩
  · have ends : converter.contentEnd (Utf8.size before) (Utf8.size before + Utf8.size (content ++ terminator)) =
        .ok (Utf8.size before + Utf8.size content) := by
      rw [contentEnd, sliced]
      dsimp only
      rw [← length, whole, if_pos (Nat.le_add_left _ _), Nat.add_sub_cancel]
    rw [PositionConverter.lineBounds, started]
    dsimp only
    rw [ended]
    dsimp only
    rw [ends]
    rfl
  · rintro rfl
    by_contra followed
    have closed := terminatorLength_pos indexed split' (by omega) (lineEnd_mem ended) followed
    rw [← length] at closed
    exact absurd closed (lt_irrefl 0)

/-! ## The line of an offset -/

/-- The line that starts at or before the offset and ends behind it, unless it is the last. -/
structure Selects (index : LineIndex) (offset line : ℕ) : Prop where
  first : 1 ≤ line
  counted : line ≤ index.lineCount
  start : line = 1 ∨ ∃ stop, index.lineEnd (line - 1) = some stop ∧ stop ≤ offset
  stop : line = index.lineCount ∨ ∃ stop, index.lineEnd line = some stop ∧ offset < stop

theorem lineEnd_lt {index : LineIndex} (increasing : index.boundaries.Pairwise (· < ·)) {line other stop end_ : ℕ}
    (ordered : line < other) (found : index.lineEnd line = some stop) (later : index.lineEnd other = some end_) : stop < end_ := by
  rw [LineIndex.lineEnd] at found later
  split_ifs at found later
  obtain ⟨_, rfl⟩ := List.getElem?_eq_some_iff.mp found
  obtain ⟨_, rfl⟩ := List.getElem?_eq_some_iff.mp later
  exact List.pairwise_iff_getElem.mp increasing _ _ _ _ (by omega)

private theorem Selects.not_lt {index : LineIndex} (increasing : index.boundaries.Pairwise (· < ·)) {offset line other : ℕ}
    (selected : Selects index offset line) (chosen : Selects index offset other) : ¬line < other := by
  intro less
  have counted := chosen.counted
  rcases chosen.start with first | ⟨end_, later, reached⟩
  · have positive := selected.first
    omega
  rcases selected.stop with last | ⟨stop, found, beyond⟩
  · omega
  rcases Nat.lt_or_ge line (other - 1) with before | adjacent
  · have ordered := lineEnd_lt increasing before found later
    omega
  · obtain rfl : line = other - 1 := by omega
    have same := Option.some.inj (found.symm.trans later)
    omega

theorem Selects.unique {index : LineIndex} (increasing : index.boundaries.Pairwise (· < ·)) {offset line other : ℕ}
    (selected : Selects index offset line) (chosen : Selects index offset other) : line = other :=
  le_antisymm (Nat.le_of_not_lt (chosen.not_lt increasing selected)) (Nat.le_of_not_lt (selected.not_lt increasing chosen))

/-- The search keeps its lower line behind a line that is before, and its upper line not before. -/
private theorem searchLine_finds (before : ℕ → Bool) {low high : ℕ} (first : 1 ≤ low) (ordered : low ≤ high)
    (counted : high ≤ converter.lineIndex.lineCount)
    (below : low = 1 ∨ ∃ stop, converter.lineIndex.lineEnd (low - 1) = some stop ∧ before stop = true)
    (above : high = converter.lineIndex.lineCount ∨
      ∃ stop, converter.lineIndex.lineEnd high = some stop ∧ before stop = false) :
    ∃ line, converter.searchLine before low high = .ok line ∧ 1 ≤ line ∧ line ≤ converter.lineIndex.lineCount ∧
      (line = 1 ∨ ∃ stop, converter.lineIndex.lineEnd (line - 1) = some stop ∧ before stop = true) ∧
      (line = converter.lineIndex.lineCount ∨
        ∃ stop, converter.lineIndex.lineEnd line = some stop ∧ before stop = false) := by
  induction low, high using searchLine.induct converter before with
  | case1 low high less missing =>
    have inside : low + (high - low) / 2 - 1 < converter.lineIndex.boundaries.length := by
      rw [LineIndex.lineCount] at counted
      omega
    rw [LineIndex.lineEnd, if_neg (by omega), List.getElem?_eq_getElem inside] at missing
    cases missing
  | case2 low high less stop found earlier ih =>
    rw [searchLine, if_pos less, found]
    dsimp only
    rw [if_pos earlier]
    exact ih (by omega) (by omega) counted (.inr ⟨stop, found, earlier⟩) above
  | case3 low high less stop found later ih =>
    rw [searchLine, if_pos less, found]
    dsimp only
    rw [if_neg later]
    exact ih first (by omega) (by omega) below (.inr ⟨stop, found, Bool.eq_false_iff.mpr later⟩)
  | case4 low high met =>
    obtain rfl : low = high := by omega
    rw [searchLine, if_neg met]
    exact ⟨low, rfl, first, counted, below, above⟩

private theorem candidateLine_finds (before : ℕ → Bool) (nonempty : 0 < converter.lineIndex.lineCount) :
    ∃ line stop, converter.candidateLine before = .ok (line, stop) ∧ converter.lineIndex.lineEnd line = some stop ∧
      1 ≤ line ∧ line ≤ converter.lineIndex.lineCount ∧
      (line = 1 ∨ ∃ stop, converter.lineIndex.lineEnd (line - 1) = some stop ∧ before stop = true) ∧
      (line = converter.lineIndex.lineCount ∨ before stop = false) := by
  obtain ⟨line, searched, first, counted, below, above⟩ :=
    searchLine_finds before le_rfl nonempty le_rfl (.inl rfl) (.inl rfl)
  have inside : line - 1 < converter.lineIndex.boundaries.length := by
    rw [LineIndex.lineCount] at counted
    omega
  obtain ⟨stop, found⟩ : ∃ stop, converter.lineIndex.lineEnd line = some stop := by
    rw [LineIndex.lineEnd, if_neg (by omega)]
    exact ⟨_, List.getElem?_eq_getElem inside⟩
  refine ⟨line, stop, ?_, found, first, counted, below, above.imp_right ?_⟩
  · rw [candidateLine, searched, Except.ok_bind, found]
    rfl
  · rintro ⟨other, same, later⟩
    rw [Option.some.inj (found.symm.trans same)]
    exact later

/-- The search of server positions selects the line of the offset. -/
private theorem serverLine_selects (indexed : converter.Indexed) (offset : ℕ) (nonempty : 0 < converter.lineIndex.lineCount) :
    ∃ low candidateEnd, converter.candidateLine (fun stop => stop < offset) = .ok (low, candidateEnd) ∧
      Selects converter.lineIndex offset
        (if candidateEnd = offset ∧ low < converter.lineIndex.lineCount then low + 1 else low) := by
  obtain ⟨_, _, built⟩ := indexed.built
  obtain ⟨low, stop, candidate, found, first, counted, below, above⟩ :=
    candidateLine_finds (fun stop => stop < offset) nonempty
  have started : low = 1 ∨ ∃ start, converter.lineIndex.lineEnd (low - 1) = some start ∧ start ≤ offset :=
    below.imp_right fun ⟨start, ended, earlier⟩ => ⟨start, ended, (of_decide_eq_true earlier).le⟩
  refine ⟨low, stop, candidate, ?_⟩
  split_ifs with tie
  · refine ⟨by omega, by omega, .inr ⟨stop, found, tie.1.le⟩, ?_⟩
    rcases Nat.lt_or_ge (low + 1) converter.lineIndex.lineCount with followed | last
    · have inside : low < converter.lineIndex.boundaries.length := tie.2
      have next : converter.lineIndex.lineEnd (low + 1) = some converter.lineIndex.boundaries[low] := by
        rw [LineIndex.lineEnd, if_neg (by omega), Nat.add_sub_cancel]
        exact List.getElem?_eq_getElem inside
      have increases := lineEnd_lt (LineIndex.bounds_of_fromBytes built).increasing (Nat.lt_succ_self low) found next
      exact .inr ⟨_, next, by omega⟩
    · exact .inl (by omega)
  · refine ⟨first, counted, started, ?_⟩
    rcases above with last | later
    · exact .inl last
    · have reached := of_decide_eq_false later
      by_cases last : low = converter.lineIndex.lineCount
      · exact .inl last
      · exact .inr ⟨stop, found, by omega⟩

/-- So does the search of user positions. -/
private theorem userLine_selects (offset : ℕ) (nonempty : 0 < converter.lineIndex.lineCount) :
    ∃ low candidateEnd, converter.candidateLine (fun stop => stop ≤ offset) = .ok (low, candidateEnd) ∧
      Selects converter.lineIndex offset (if candidateEnd ≤ offset then converter.lineIndex.lineCount else low) := by
  obtain ⟨low, stop, candidate, found, first, counted, below, above⟩ :=
    candidateLine_finds (fun stop => stop ≤ offset) nonempty
  have started : low = 1 ∨ ∃ start, converter.lineIndex.lineEnd (low - 1) = some start ∧ start ≤ offset :=
    below.imp_right fun ⟨start, ended, earlier⟩ => ⟨start, ended, of_decide_eq_true earlier⟩
  refine ⟨low, stop, candidate, ?_⟩
  split_ifs with past
  · obtain rfl : low = converter.lineIndex.lineCount := above.resolve_right fun later => of_decide_eq_false later past
    exact ⟨nonempty, le_rfl, started, .inl rfl⟩
  · exact ⟨first, counted, started, .inr ⟨stop, found, by omega⟩⟩

theorem validateSearched_eq_ok {offset : ℕ} : converter.validateSearched offset = .ok () ↔
    Utf8.isCharBoundary converter.text offset = true ∧ 0 < converter.lineIndex.lineCount := by
  have within : Utf8.isCharBoundary converter.text offset = true → offset ≤ Utf8.size converter.text := by
    intro boundary
    obtain ⟨front, back, split, rfl⟩ := Utf8.isCharBoundary_iff.mp boundary
    rw [split, Utf8.size_append]
    exact Nat.le_add_right _ _
  rw [validateSearched, validateUserByte]
  by_cases boundary : Utf8.isCharBoundary converter.text offset = true
  · rw [if_neg (by simp [boundary, within boundary])]
    dsimp only
    by_cases empty : converter.lineIndex.lineCount = 0
    · simp [empty]
    · simp [empty, boundary, Nat.pos_of_ne_zero empty]
  · rw [if_pos (.inr (by simp [boundary]))]
    simp [boundary]

section Selected

variable {offset number : ℕ}

private theorem lineForByte_eq (indexed : converter.Indexed) (valid : converter.validateSearched offset = .ok ())
    (selected : Selects converter.lineIndex offset number) :
    converter.lineForByte offset = (do
      let bounds ← converter.lineBounds (← toU32 (number - 1) .byteNotRepresentable)
      if offset < bounds.start ∨ offset > bounds.contentEnd then .error .byteNotRepresentable else return bounds) := by
  obtain ⟨_, _, built⟩ := indexed.built
  obtain ⟨low, candidateEnd, candidate, chosen⟩ := serverLine_selects indexed offset (validateSearched_eq_ok.mp valid).2
  have same := chosen.unique (LineIndex.bounds_of_fromBytes built).increasing selected
  rw [lineForByte, valid, Except.ok_bind, candidate, Except.ok_bind]
  dsimp only
  rw [same]

private theorem userLineForByte_eq (indexed : converter.Indexed) (valid : converter.validateSearched offset = .ok ())
    (selected : Selects converter.lineIndex offset number) {physicalEnd : ℕ}
    (ends : converter.lineIndex.lineEnd number = some physicalEnd) :
    converter.userLineForByte offset = (do
      let bounds ← converter.lineBounds (← toU32 (number - 1) .byteNotRepresentable)
      if offset < bounds.start ∨ offset > physicalEnd then .error .byteNotRepresentable else return bounds) := by
  obtain ⟨_, _, built⟩ := indexed.built
  obtain ⟨low, candidateEnd, candidate, chosen⟩ := userLine_selects offset (validateSearched_eq_ok.mp valid).2
  have same := chosen.unique (LineIndex.bounds_of_fromBytes built).increasing selected
  rw [userLineForByte, valid, Except.ok_bind, candidate, Except.ok_bind]
  dsimp only
  rw [same, ends]

end Selected

/-- An offset within a line selects it. -/
private theorem LineOf.selects (indexed : converter.Indexed) (part : LineOf converter line before content terminator after)
    {offset : ℕ} (begun : Utf8.size before ≤ offset)
    (within : offset < Utf8.size before + Utf8.size content + Utf8.size terminator ∨ after = []) :
    Selects converter.lineIndex offset (line.toNat + 1) := by
  obtain ⟨_, _, built⟩ := indexed.built
  have counted := part.counted
  refine ⟨by omega, counted, ?_, ?_⟩
  · by_cases first : line.toNat = 0
    · exact .inl (by omega)
    · have start := part.start
      rw [LineIndex.lineStart, if_neg (by omega), if_neg (by omega)] at start
      refine .inr ⟨_, ?_, begun⟩
      rw [LineIndex.lineEnd, if_neg (by omega), ← start]
      congr 1
  · rcases within with inside | last
    · exact .inr ⟨_, part.stop, inside⟩
    · refine .inl (Nat.le_antisymm counted (Nat.le_of_not_lt fun less => ?_))
      have increases := lineEnd_lt (LineIndex.bounds_of_fromBytes built).increasing less part.stop
        (lineEnd_last built (by omega))
      rw [part.shape, last] at increases
      simp only [Utf8.size_append, Utf8.size_nil] at increases
      omega

theorem toU32_eq_ok {value : ℕ} {failure : PositionError} {small : UInt32} :
    toU32 value failure = .ok small ↔ small.toNat = value := by
  rw [toU32]
  by_cases fits : value < 2 ^ 32
  · rw [if_pos fits, Except.ok.injEq, ← UInt32.toNat_inj, UInt32.toNat_ofNat_of_lt' fits, eq_comm]
  · rw [if_neg fits]
    refine ⟨fun impossible => (by cases impossible), fun same => ?_⟩
    exact absurd (same ▸ small.toNat_lt) fits

/-- An offset of a line, terminator included; the end of the last line belongs to it. -/
structure LineOf.Reaches (before content terminator after : List Char) (offset : ℕ) : Prop where
  begun : Utf8.size before ≤ offset
  within : offset ≤ Utf8.size before + Utf8.size content + Utf8.size terminator
  inside : offset < Utf8.size before + Utf8.size content + Utf8.size terminator ∨ after = []

/-- The line of a selected number. -/
private theorem Selects.lineOf (indexed : converter.Indexed) {offset : ℕ} (inside : offset ≤ Utf8.size converter.text)
    (selected : Selects converter.lineIndex offset (line.toNat + 1)) : ∃ before content terminator after,
    LineOf converter line before content terminator after ∧ LineOf.Reaches before content terminator after offset := by
  obtain ⟨_, _, built⟩ := indexed.built
  obtain ⟨before, content, terminator, after, part⟩ := indexed.lineOf selected.counted
  have begun : Utf8.size before ≤ offset := by
    rcases selected.start with first | ⟨start, ended, reached⟩
    · have start := part.start
      rw [LineIndex.lineStart, if_neg (by have := part.counted; omega), if_pos first] at start
      exact (Option.some.inj start) ▸ Nat.zero_le _
    · have started := part.start
      rw [LineIndex.lineEnd] at ended
      split_ifs at ended
      rw [LineIndex.lineStart, if_neg (by have := part.counted; omega), if_neg (by omega)] at started
      have same : some (Utf8.size before) = some start := by
        rw [← started, ← ended]
        congr 1
      exact (Option.some.inj same) ▸ reached
  have last (same : line.toNat + 1 = converter.lineIndex.lineCount) : after = [] := by
    have stop := part.stop
    rw [same, lineEnd_last built (by omega), part.shape] at stop
    simp only [Utf8.size_append, Option.some.injEq] at stop
    by_contra followed
    have positive := lt_of_lt_of_le (List.length_pos_iff.mpr followed) (Utf8.length_le_size after)
    omega
  refine ⟨before, content, terminator, after, part, begun, ?_, ?_⟩
  · rcases selected.stop with same | ⟨stop, ended, beyond⟩
    · have nothing := last same
      subst nothing
      rw [part.shape] at inside
      simp only [Utf8.size_append, Utf8.size_nil] at inside
      omega
    · rw [Option.some.inj (part.stop.symm.trans ended)]
      exact beyond.le
  · rcases selected.stop with same | ⟨stop, ended, beyond⟩
    · exact .inr (last same)
    · exact .inl (Option.some.inj (part.stop.symm.trans ended) ▸ beyond)

/-- A user offset is found on the line that it reaches. -/
theorem LineOf.userLineForByte (indexed : converter.Indexed) (part : LineOf converter line before content terminator after)
    {offset : ℕ} (boundary : Utf8.isCharBoundary converter.text offset = true)
    (reaches : LineOf.Reaches before content terminator after offset) :
    converter.userLineForByte offset = .ok ⟨line, Utf8.size before, Utf8.size before + Utf8.size content⟩ := by
  have valid := validateSearched_eq_ok.mpr ⟨boundary, by have := part.counted; omega⟩
  have number : toU32 (line.toNat + 1 - 1) .byteNotRepresentable = .ok line := toU32_eq_ok.mpr rfl
  rw [userLineForByte_eq indexed valid (part.selects indexed reaches.begun reaches.inside) part.stop, number, Except.ok_bind,
    part.bounds, Except.ok_bind]
  have begun := reaches.begun
  have within := reaches.within
  dsimp only
  rw [if_neg (by omega)]
  rfl

/-- A server offset is found there when it lies in the content. -/
theorem LineOf.lineForByte (indexed : converter.Indexed) (part : LineOf converter line before content terminator after)
    {offset : ℕ} (boundary : Utf8.isCharBoundary converter.text offset = true)
    (reaches : LineOf.Reaches before content terminator after offset)
    (inner : offset ≤ Utf8.size before + Utf8.size content) :
    converter.lineForByte offset = .ok ⟨line, Utf8.size before, Utf8.size before + Utf8.size content⟩ := by
  have valid := validateSearched_eq_ok.mpr ⟨boundary, by have := part.counted; omega⟩
  have number : toU32 (line.toNat + 1 - 1) .byteNotRepresentable = .ok line := toU32_eq_ok.mpr rfl
  rw [lineForByte_eq indexed valid (part.selects indexed reaches.begun reaches.inside), number, Except.ok_bind,
    part.bounds, Except.ok_bind]
  have begun := reaches.begun
  dsimp only
  rw [if_neg (by omega)]
  rfl

/-- A line found for a user offset is the one that the offset reaches. -/
theorem userLineForByte_ok (indexed : converter.Indexed) {offset : ℕ} {bounds : LineBounds}
    (found : converter.userLineForByte offset = .ok bounds) :
    Utf8.isCharBoundary converter.text offset = true ∧ ∃ before content terminator after,
      LineOf converter bounds.line before content terminator after ∧
      LineOf.Reaches before content terminator after offset ∧
      bounds = ⟨bounds.line, Utf8.size before, Utf8.size before + Utf8.size content⟩ := by
  have searched := found
  rw [PositionConverter.userLineForByte] at searched
  obtain ⟨_, valid, -⟩ := Except.bind_eq_ok.mp searched
  obtain ⟨boundary, nonempty⟩ := validateSearched_eq_ok.mp valid
  obtain ⟨front, back, split, sized⟩ := Utf8.isCharBoundary_iff.mp boundary
  have inside : offset ≤ Utf8.size converter.text := by
    rw [split, Utf8.size_append]
    omega
  obtain ⟨low, candidateEnd, -, selected⟩ := userLine_selects offset nonempty
  generalize (if candidateEnd ≤ offset then converter.lineIndex.lineCount else low) = number at selected
  obtain ⟨stop, ends⟩ : ∃ stop, converter.lineIndex.lineEnd number = some stop := by
    have first := selected.first
    rw [LineIndex.lineEnd, if_neg (by omega)]
    exact ⟨_, List.getElem?_eq_getElem (by have := selected.counted; rw [LineIndex.lineCount] at this; omega)⟩
  rw [userLineForByte_eq indexed valid selected ends] at found
  obtain ⟨zeroBased, converted, found⟩ := Except.bind_eq_ok.mp found
  obtain ⟨line, bounded, found⟩ := Except.bind_eq_ok.mp found
  have placed : number = zeroBased.toNat + 1 := by
    have same := toU32_eq_ok.mp converted
    have first := selected.first
    omega
  obtain ⟨before, content, terminator, after, part, reaches⟩ := Selects.lineOf indexed inside (placed ▸ selected)
  obtain rfl := Except.ok.inj (part.bounds.symm.trans bounded)
  split_ifs at found
  obtain rfl := Except.pure_eq_ok.mp found
  exact ⟨boundary, before, content, terminator, after, part, reaches, rfl⟩

/-- A line found for a server offset has it in its content. -/
theorem lineForByte_ok (indexed : converter.Indexed) {offset : ℕ} {bounds : LineBounds}
    (found : converter.lineForByte offset = .ok bounds) :
    converter.userLineForByte offset = .ok bounds ∧ offset ≤ bounds.contentEnd := by
  have searched := found
  rw [PositionConverter.lineForByte] at searched
  obtain ⟨_, valid, -⟩ := Except.bind_eq_ok.mp searched
  obtain ⟨boundary, nonempty⟩ := validateSearched_eq_ok.mp valid
  obtain ⟨front, back, split, sized⟩ := Utf8.isCharBoundary_iff.mp boundary
  have inside : offset ≤ Utf8.size converter.text := by
    rw [split, Utf8.size_append]
    omega
  obtain ⟨low, candidateEnd, -, selected⟩ := serverLine_selects indexed offset nonempty
  generalize (if candidateEnd = offset ∧ low < converter.lineIndex.lineCount then low + 1 else low) = number at selected
  rw [lineForByte_eq indexed valid selected] at found
  obtain ⟨zeroBased, converted, found⟩ := Except.bind_eq_ok.mp found
  obtain ⟨line, bounded, found⟩ := Except.bind_eq_ok.mp found
  have placed : number = zeroBased.toNat + 1 := by
    have same := toU32_eq_ok.mp converted
    have first := selected.first
    omega
  obtain ⟨before, content, terminator, after, part, reaches⟩ := Selects.lineOf indexed inside (placed ▸ selected)
  obtain rfl := Except.ok.inj (part.bounds.symm.trans bounded)
  split_ifs at found with outside
  obtain rfl := Except.pure_eq_ok.mp found
  exact ⟨part.userLineForByte indexed boundary reaches, by dsimp only at outside ⊢; omega⟩

end PositionConverter

end Srcmv.Lsp
