import Srcmv.Proofs.Lsp.Extents

/-! # Extents of whole lines

A range grows through spaces and tabs only: to the left up to the start of its line, to the right up
to the end of its line. Each edge that moves becomes a boundary of the line index, so that no
terminator is cut, and the grown range does not grow again.
-/

namespace Srcmv.Lsp

open Srcmv.Core

/-- An offset between a CR and its LF. -/
def CutsCrlf (bytes : Bytes) (offset : ℕ) : Prop :=
  0 < offset ∧ bytes[offset - 1]? = some 13 ∧ bytes[offset]? = some 10

/-- How a range may grow to whole lines. -/
structure Expands (text : List Char) (index : LineIndex) (range result : ByteRange) : Prop where
  start_le : result.start ≤ range.start
  stop_le : range.stop ≤ result.stop
  bounded : result.stop ≤ Utf8.size text
  indentation : ∀ byte ∈ ((Utf8.encode text).take range.start).drop result.start, byte = 32 ∨ byte = 9
  lineStart : result.start ≠ range.start → ∃ line, index.lineStart line = some result.start
  trailing : result.stop ≠ range.stop → ∃ blanks terminator,
    ((Utf8.encode text).take result.stop).drop range.stop = blanks ++ terminator ∧ (∀ byte ∈ blanks, byte = 32 ∨ byte = 9) ∧
      (terminator ∈ [[10], [13, 10], [13]] ∨ terminator = [] ∧ result.stop = Utf8.size text)
  lineEnd : result.stop ≠ range.stop → ∃ line, index.lineEnd line = some result.stop
  boundaries : Utf8.isCharBoundary text result.start ∧ Utf8.isCharBoundary text result.stop
  uncut : ¬CutsCrlf (Utf8.encode text) result.start ∧ ¬CutsCrlf (Utf8.encode text) result.stop

/-! ## Both edges -/

section Edges

variable {text : List Char} {maximumLines maximumMemoryBytes : ℕ} {index : LineIndex}
  (built : LineIndex.fromBytesWithLimits (Utf8.encode text) maximumLines maximumMemoryBytes = .ok index)

include built

private theorem closes_mem {position : ℕ} (inside : position < (Utf8.encode text).length)
    (closes : closesLine (Utf8.encode text) position = true) : position + 1 ∈ index.boundaries := by
  rw [LineIndex.boundaries_eq built, List.mem_map]
  exact ⟨position, List.mem_filter.mpr ⟨List.mem_range.mpr inside, closes⟩, rfl⟩

private theorem boundary_isCharBoundary {offset : ℕ} (member : offset ∈ index.boundaries) :
    Utf8.isCharBoundary text offset = true := by
  obtain ⟨front, back, split, size⟩ := boundary_splits built member
  exact Utf8.isCharBoundary_iff.mpr ⟨front, back, split, size⟩

omit built in
private theorem lineEnd_of_mem {offset : ℕ} (member : offset ∈ index.boundaries) : ∃ line, index.lineEnd line = some offset := by
  obtain ⟨position, found⟩ := List.mem_iff_getElem?.mp member
  exact ⟨position + 1, by rw [LineIndex.lineEnd, if_neg (Nat.succ_ne_zero _), Nat.add_sub_cancel, found]⟩

/-- A boundary before the end is where another line starts. -/
private theorem lineStart_of_mem {offset : ℕ} (member : offset ∈ index.boundaries) (before : offset < Utf8.size text) :
    ∃ line, index.lineStart line = some offset := by
  obtain ⟨position, found⟩ := List.mem_iff_getElem?.mp member
  obtain ⟨inside, at_⟩ := List.getElem?_eq_some_iff.mp found
  have last := lineEnd_last built (Nat.zero_lt_of_lt inside)
  have later : position + 2 ≤ index.lineCount := by
    by_contra short
    have same : index.lineCount = position + 1 := by
      rw [LineIndex.lineCount] at short ⊢
      omega
    rw [same, LineIndex.lineEnd, if_neg (Nat.succ_ne_zero _), Nat.add_sub_cancel, found] at last
    exact absurd (Option.some.inj last) before.ne
  exact ⟨position + 2, by rw [LineIndex.lineStart, if_neg (by omega), if_neg (by omega), Nat.add_sub_cancel, found]⟩

private theorem lineStart_zero (nonempty : 0 < Utf8.size text) : ∃ line, index.lineStart line = some 0 := by
  have counted : 0 < index.lineCount := by
    rw [LineIndex.lineCount, List.length_pos_iff]
    have inside : Utf8.size text - 1 < (Utf8.encode text).length := by
      rw [Utf8.length_encode]
      omega
    have closes : closesLine (Utf8.encode text) (Utf8.size text - 1) = true := by
      rw [closesLine, Utf8.length_encode, Nat.sub_add_cancel nonempty, decide_eq_true rfl, Bool.or_true]
    exact List.ne_nil_of_mem (closes_mem built inside closes)
  exact ⟨1, by rw [LineIndex.lineStart, if_neg (by omega), if_pos rfl]⟩

end Edges

private theorem closes_uncut {bytes : Bytes} {offset : ℕ} (closes : closesLine bytes (offset - 1) = true) : ¬CutsCrlf bytes offset := by
  rintro ⟨positive, carriage, feed⟩
  have inside := (List.getElem?_eq_some_iff.mp feed).1
  rw [closesLine, terminates, Nat.sub_add_cancel positive, carriage, feed] at closes
  simp [inside.ne] at closes

/-- A range that cuts no terminator grows to whole lines, where only blanks and one terminator are
added. -/
theorem declaration_lines_expand (text : List Char) (range : ByteRange) (maximumLines maximumMemoryBytes : ℕ) (index : LineIndex)
    (built : LineIndex.fromBytesWithLimits (Utf8.encode text) maximumLines maximumMemoryBytes = .ok index)
    (nonempty : range.start < range.stop) (bounded : range.stop ≤ Utf8.size text)
    (first : Utf8.isCharBoundary text range.start) (last : Utf8.isCharBoundary text range.stop)
    (uncutStart : ¬CutsCrlf (Utf8.encode text) range.start) (uncutStop : ¬CutsCrlf (Utf8.encode text) range.stop) :
    ∃ result, applyExtent text range .declarationLines = .ok result ∧ Expands text index range result ∧
      applyExtent text result .declarationLines = .ok result := by
  have stopInside : range.stop ≤ (Utf8.encode text).length := Utf8.length_encode text ▸ bounded
  have startInside : range.start ≤ (Utf8.encode text).length := nonempty.le.trans stopInside
  have start_le := expandedStart_le startInside
  have startBlank := @expandedStart_blank (Utf8.encode text) range.start
  have startCloses := expandedStart_closes startInside
  have startIdem := expandedStart_idem startInside
  have stopCases := expandedEnd_cases (Utf8.encode text) range.stop
  have stopIdem := expandedEnd_idem stopInside
  have stopBounds := Utf8.length_encode text ▸ expandedEnd_le stopInside
  have grown := applyExtent_declarationLines ⟨nonempty, bounded, first, last⟩
  rw [wholeLines] at grown
  generalize expandedStart (Utf8.encode text) range.start = start at *
  generalize expandedEnd (Utf8.encode text) range.stop = stop at *
  have stopLast : stop ≠ range.stop → closesLine (Utf8.encode text) (stop - 1) = true := by
    intro moved
    obtain ⟨blanks, terminator, rest, line⟩ := stopCases.resolve_left moved
    exact (line.last stopInside moved).2
  have stopMem : stop ≠ range.stop → stop ∈ index.boundaries := by
    intro moved
    have member := closes_mem built (by rw [Utf8.length_encode]; omega) (stopLast moved)
    rwa [Nat.sub_add_cancel (by omega)] at member
  have startMem : start ≠ range.start → 0 < start → start ∈ index.boundaries := by
    intro moved positive
    have member := closes_mem built (by omega) (startCloses moved positive)
    rwa [Nat.sub_add_cancel positive] at member
  have startBoundary : Utf8.isCharBoundary text start = true := by
    by_cases moved : start = range.start
    · exact moved ▸ first
    · rcases Nat.eq_zero_or_pos start with rfl | positive
      · exact Utf8.isCharBoundary_iff.mpr ⟨[], text, rfl, rfl⟩
      · exact boundary_isCharBoundary built (startMem moved positive)
  have stopBoundary : Utf8.isCharBoundary text stop = true := by
    by_cases moved : stop = range.stop
    · exact moved ▸ last
    · exact boundary_isCharBoundary built (stopMem moved)
  refine ⟨⟨start, stop⟩, grown, ?_, ?_⟩
  · constructor
    · exact start_le
    · exact stopBounds.1
    · exact stopBounds.2
    · exact startBlank
    · intro moved
      rcases Nat.eq_zero_or_pos start with rfl | positive
      · exact lineStart_zero built (by omega)
      · exact lineStart_of_mem built (startMem moved positive) (lt_of_le_of_lt start_le (nonempty.trans_le bounded))
    · intro moved
      obtain ⟨blanks, terminator, rest, line⟩ := stopCases.resolve_left moved
      refine ⟨blanks, terminator, line.added stopInside, line.blank, ?_⟩
      have total := congrArg List.length (line.whole stopInside).1
      rcases line.complete with ⟨rfl, rfl⟩ | rfl | rfl | ⟨rfl, -⟩
      · rw [List.append_nil, (line.whole stopInside).2, Utf8.length_encode] at total
        exact .inr ⟨rfl, total.symm⟩
      · exact .inl (by decide)
      · exact .inl (by decide)
      · exact .inl (by decide)
    · exact fun moved => lineEnd_of_mem (stopMem moved)
    · exact ⟨startBoundary, stopBoundary⟩
    · constructor
      · by_cases moved : start = range.start
        · exact moved ▸ uncutStart
        · rcases Nat.eq_zero_or_pos start with rfl | positive
          · exact fun cut => absurd cut.1 (lt_irrefl _)
          · exact closes_uncut (startCloses moved positive)
      · by_cases moved : stop = range.stop
        · exact moved ▸ uncutStop
        · exact closes_uncut (stopLast moved)
  · have ordered : start < stop := lt_of_le_of_lt start_le (nonempty.trans_le stopBounds.1)
    have valid : ValidRange text ⟨start, stop⟩ := ⟨ordered, stopBounds.2, startBoundary, stopBoundary⟩
    have again := applyExtent_declarationLines valid
    rwa [wholeLines, startIdem, stopIdem] at again

/-- A word in the middle of an indented line that ends in CRLF. -/
theorem declaration_lines_expand_example : ∃ result,
    applyExtent "  f;\r\n".toList ⟨2, 4⟩ .declarationLines = .ok result ∧
      Expands "  f;\r\n".toList ⟨[6]⟩ ⟨2, 4⟩ result ∧
      applyExtent "  f;\r\n".toList result .declarationLines = .ok result :=
  declaration_lines_expand "  f;\r\n".toList ⟨2, 4⟩ 1 8 ⟨[6]⟩ (by decide) (by decide) (by decide)
    (by decide) (by decide) (by rw [CutsCrlf]; decide) (by rw [CutsCrlf]; decide)

end Srcmv.Lsp
