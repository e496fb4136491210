import Srcmv.Proofs.Cli.Lines
import Srcmv.Proofs.Core.Metrics

/-! # The line splitters agree

The index, the metrics and the diff splitter scan the same bytes with loops of their own. They find
the same lines in every byte sequence, whatever the sequence of terminators.
-/

namespace Srcmv.Cli

open Srcmv.Core

section Indexed

variable {bytes : Bytes} {maximumLines maximumMemoryBytes : ℕ} {index : LineIndex}

/-- A line that is followed by another ends where that one starts. -/
private theorem lineEnd_meets_lineStart {line : ℕ} (first : 1 ≤ line) (followed : line < index.lineCount) :
    ∃ stop, index.lineEnd line = some stop ∧ index.lineStart (line + 1) = some stop := by
  have inside : line - 1 < index.boundaries.length := by
    rw [LineIndex.lineCount] at followed
    omega
  obtain ⟨stop, found⟩ : ∃ stop, index.boundaries[line - 1]? = some stop := ⟨_, List.getElem?_eq_getElem inside⟩
  refine ⟨stop, ?_, ?_⟩
  · rw [LineIndex.lineEnd, if_neg (by omega), found]
  · rw [LineIndex.lineStart, if_neg (by omega), if_neg (by omega), ← found]
    congr 1

/-- No boundary falls between a CR and its LF. -/
private theorem boundary_keeps_pair (built : LineIndex.fromBytesWithLimits bytes maximumLines maximumMemoryBytes = .ok index)
    {boundary : ℕ} (member : boundary ∈ index.boundaries) : splitsPair bytes boundary = false := by
  rw [LineIndex.boundaries_eq built] at member
  obtain ⟨position, listed, rfl⟩ := List.mem_map.mp member
  obtain ⟨inside, closes⟩ := List.mem_filter.mp listed
  by_contra splits
  rw [Bool.not_eq_false, splitsPair, Nat.add_sub_cancel, Bool.and_eq_true, Bool.and_eq_true, decide_eq_true_eq,
    decide_eq_true_eq, decide_eq_true_eq] at splits
  obtain ⟨⟨-, carriage⟩, feed⟩ := splits
  have follows := (List.getElem?_eq_some_iff.mp feed).1
  have last : position + 1 ≠ bytes.length := by omega
  simp [closesLine, terminates, carriage, feed, last] at closes

private theorem boundaries_getLast? (built : LineIndex.fromBytesWithLimits bytes maximumLines maximumMemoryBytes = .ok index) :
    index.boundaries.getLast? = if bytes = [] then none else some bytes.length := by
  have length := LineIndex.indexedByteLength_eq built
  rw [LineIndex.indexedByteLength] at length
  split_ifs with empty
  · rw [LineIndex.boundaries_eq built, empty]
    rfl
  · cases found : index.boundaries.getLast? with
    | none =>
      rw [found] at length
      exact absurd (List.length_eq_zero_iff.mp length.symm) empty
    | some stop => rw [← length, found, Option.getD_some]

/-- The diff splitter, the metrics and the index agree on the lines of a text; the boundaries of every
byte sequence increase to its length, and a CR and its LF stay on one line. -/
theorem line_splitters_agree (built : LineIndex.fromBytesWithLimits bytes maximumLines maximumMemoryBytes = .ok index)
    (addressable : bytes.length ≤ u64Max) :
    ((Utf8.decode bytes).isSome → ∃ lines, textLines bytes = .ok lines ∧
      (lines.map TextLine.full).flatten = bytes ∧ lineEnds 0 lines = index.boundaries ∧ ∀ line ∈ lines, line.SplitsOff) ∧
    (∃ metrics, LineMetrics.tryFromBytes bytes = .ok metrics ∧ metrics.lineCount = index.boundaries.length) ∧
    index.boundaries.Pairwise (· < ·) ∧
    index.boundaries.getLast? = (if bytes = [] then none else some bytes.length) ∧
    (∀ line, 1 ≤ line → line < index.lineCount →
      ∃ stop, index.lineEnd line = some stop ∧ index.lineStart (line + 1) = some stop) ∧
    ∀ boundary ∈ index.boundaries, ¬(0 < boundary ∧ bytes[boundary - 1]? = some 13 ∧ bytes[boundary]? = some 10) := by
  refine ⟨fun valid => ?_, ?_, (LineIndex.bounds_of_fromBytes built).increasing, boundaries_getLast? built,
    fun line => lineEnd_meets_lineStart, fun boundary member => ?_⟩
  · obtain ⟨text, decoded⟩ := Option.isSome_iff_exists.mp valid
    have encoded := Utf8.decode_eq_some_iff.mp decoded
    have scanned : textLinesFrom bytes bytes 0 0 = cutLines [] bytes := textLinesFrom_eq rfl rfl
    have cut : textLines bytes = .ok (cutLines [] bytes) := by
      rw [textLines, decoded, if_neg (by simp), scanned]
    exact ⟨_, cut, cutLines_flatten [] bytes, lineEnds_eq_boundaries built, cutLines_splitsOff encoded (by simp)⟩
  · refine ⟨metricsOf bytes, LineMetrics.tryFromBytes_eq addressable, ?_⟩
    rw [LineMetrics.lineCount_metricsOf addressable, LineIndex.boundaries_eq built, List.length_map,
      List.countP_eq_length_filter]
  · have whole := boundary_keeps_pair built member
    rintro ⟨positive, carriage, feed⟩
    simp [splitsPair, positive, carriage, feed] at whole

/-- CR, CRLF, LF and a missing final terminator in one text. -/
theorem line_splitters_agree_example :
    (∃ lines, textLines [97, 13, 13, 10, 10, 98] = .ok lines ∧ lineEnds 0 lines = [2, 4, 5, 6]) ∧
      ∃ metrics, LineMetrics.tryFromBytes [97, 13, 13, 10, 10, 98] = .ok metrics ∧ metrics.lineCount = 4 := by
  have built : LineIndex.fromBytesWithLimits [97, 13, 13, 10, 10, 98] 9 72 = .ok ⟨[2, 4, 5, 6]⟩ := by decide
  obtain ⟨splits, counts, -⟩ := line_splitters_agree built (by decide)
  have valid : Utf8.decode [97, 13, 13, 10, 10, 98] = some "a\r\r\n\nb".toList :=
    Utf8.decode_eq_some_iff.mpr (by decide)
  obtain ⟨lines, cut, -, ends, -⟩ := splits (by rw [valid]; rfl)
  exact ⟨⟨lines, cut, ends⟩, counts⟩

end Indexed

end Srcmv.Cli
