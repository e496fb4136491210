import Srcmv.Model.Core.Snapshot
import Srcmv.Proofs.Core.Terminators

/-! # Metrics summarize bytes

The metrics of a byte sequence are determined by its length, its terminators and its two edge
bytes. A scan, a range query against the index and an append of two summaries all compute them.
-/

namespace Srcmv.Core

/-- What the metrics of a byte sequence are. -/
def metricsOf (bytes : Bytes) : LineMetrics where
  byteCount := bytes.length
  terminatorCount := terminatorsIn bytes
  firstByte := bytes.head?
  lastByte := bytes.getLast?

theorem checkedLineAdd_fits {left right : ℕ} {resource : String} (fits : left + right ≤ u64Max) :
    checkedLineAdd left right resource = .ok (left + right) := if_pos fits

namespace LineMetrics

private theorem countTerminators_eq (ends : List ℕ) (fits : ends.length ≤ u64Max) :
    countTerminators ends = .ok ends.length := by
  have counts : ∀ (ends : List ℕ) (count : ℕ), count + ends.length ≤ u64Max →
      ends.foldlM (fun count _ => checkedLineAdd count 1 "line_count") count = .ok (count + ends.length) := by
    intro ends
    induction ends with
    | nil => exact fun count _ => rfl
    | cons boundary rest ih =>
      intro count fits
      rw [List.length_cons] at fits
      rw [List.foldlM_cons, checkedLineAdd_fits (by omega), Except.ok_bind, ih (count + 1) (by omega), List.length_cons]
      congr 1
      omega
  rw [countTerminators, counts ends 0 (by omega), Nat.zero_add]

/-- A scan computes the metrics. -/
theorem tryFromBytes_eq {bytes : Bytes} (fits : bytes.length ≤ u64Max) : tryFromBytes bytes = .ok (metricsOf bytes) := by
  rw [tryFromBytes]
  split_ifs with empty
  · subst empty
    rfl
  · have counted : (terminatorEnds bytes 0).length = terminatorsIn bytes := by
      rw [terminatorEnds_eq, List.length_map, ← List.countP_eq_length_filter, terminatorsIn]
    have bounded : (terminatorEnds bytes 0).length ≤ u64Max := counted ▸ (terminatorsIn_le bytes).trans fits
    rw [countTerminators_eq _ bounded, Except.ok_bind, counted]
    rfl

/-- An LF that meets a CR is a terminator of its own bytes. -/
private theorem meeting_le (front back : Bytes) :
    (decide (front.getLast? = some 13) && decide (back.head? = some 10)).toNat ≤ terminatorsIn back := by
  by_cases feed : back.head? = some 10
  · obtain ⟨rest, rfl⟩ : ∃ rest, back = 10 :: rest := by simpa [List.head?_eq_some_iff] using feed
    have counted : 0 < terminatorsIn (10 :: rest) := List.countP_pos_iff.mpr ⟨0, by simp, by simp [terminates]⟩
    exact (Bool.toNat_le _).trans counted
  · simp [feed]

private theorem followingTerminators_eq {front back : Bytes} :
    (metricsOf front).followingTerminators (metricsOf back) = .ok (terminatorsIn back -
      (decide (front.getLast? = some 13) && decide (back.head? = some 10)).toNat) := by
  have counted := meeting_le front back
  rw [followingTerminators]
  split_ifs with meets
  · obtain ⟨carriage, feed⟩ : front.getLast? = some 13 ∧ back.head? = some 10 := meets
    rw [carriage, feed] at counted ⊢
    exact if_pos counted
  · have apart : (decide (front.getLast? = some 13) && decide (back.head? = some 10)) = false := by
      simpa [metricsOf] using meets
    rw [apart]
    rfl

/-- Appending summaries summarizes the concatenation. -/
theorem tryAppend_eq {front back : Bytes} (fits : (front ++ back).length ≤ u64Max) :
    (metricsOf front).tryAppend (metricsOf back) = .ok (metricsOf (front ++ back)) := by
  rw [tryAppend]
  split_ifs with noBack noFront
  · obtain rfl : back = [] := List.length_eq_zero_iff.mp noBack
    rw [List.append_nil]
  · obtain rfl : front = [] := List.length_eq_zero_iff.mp noFront
    rfl
  have appended := terminatorsIn_append front back
  have bounded := (terminatorsIn_le (front ++ back)).trans fits
  have frontNonempty : front ≠ [] := fun empty => noFront (by rw [empty]; rfl)
  have backNonempty : back ≠ [] := fun empty => noBack (by rw [empty]; rfl)
  have counted := meeting_le front back
  have merged : terminatorsIn front + (terminatorsIn back -
      (decide (front.getLast? = some 13) && decide (back.head? = some 10)).toNat) = terminatorsIn (front ++ back) := by
    omega
  have first : (front ++ back).head? = front.head? := List.head?_append_of_ne_nil _ frontNonempty
  have last : (front ++ back).getLast? = back.getLast? := List.getLast?_append_of_ne_nil _ backNonempty
  rw [checkedLineAdd_fits (by simpa [metricsOf] using fits), Except.ok_bind, followingTerminators_eq, Except.ok_bind,
    checkedLineAdd_fits (by rw [metricsOf, merged]; exact bounded), Except.ok_bind, metricsOf, merged]
  simp only [metricsOf, first, last, List.length_append]
  rfl

/-- Lines of a byte sequence: its terminators and an unterminated suffix. -/
theorem lineCount_metricsOf {bytes : Bytes} (fits : bytes.length ≤ u64Max) :
    (metricsOf bytes).lineCount = (List.range bytes.length).countP (closesLine bytes) := by
  have closing := countP_closesLine (le_refl bytes.length)
  have bounded : (List.range bytes.length).countP (closesLine bytes) ≤ u64Max :=
    (List.countP_le_length.trans (List.length_range).le).trans fits
  have last : bytes.getLast? = bytes[bytes.length - 1]? := List.getLast?_eq_getElem?
  rw [decide_eq_true rfl, Bool.true_and, ← last] at closing
  rw [lineCount, metricsOf, terminatorsIn, ← closing, min_eq_left bounded]

end LineMetrics

section Indexed

variable {bytes : Bytes} {maximumLines maximumMemoryBytes : ℕ} {index : LineIndex}

theorem LineIndex.indexedByteLength_eq
    (built : LineIndex.fromBytesWithLimits bytes maximumLines maximumMemoryBytes = .ok index) :
    index.indexedByteLength = bytes.length := by
  rw [indexedByteLength, boundaries_eq built]
  cases length : bytes.length with
  | zero => rfl
  | succ last =>
    have closes : closesLine bytes last = true := by simp [closesLine, length]
    rw [List.range_succ, List.filter_append, List.filter_singleton, closes]
    simp

private theorem LineIndex.withoutOpenLine_eq {stop before terminated : ℕ} (ordered : before ≤ terminated) :
    withoutOpenLine bytes stop (terminated +
      (decide (stop = bytes.length) && bytes[stop - 1]?.any fun byte => !isTerminatorByte byte).toNat - before) =
      .ok (terminated - before) := by
  rw [withoutOpenLine]
  split_ifs with unterminated
  · rw [decide_eq_true unterminated.1, unterminated.2, checkedLineDecrement, Bool.and_self, Bool.toNat_true, if_pos (by omega)]
    congr 1
    omega
  · have closed : (decide (stop = bytes.length) && bytes[stop - 1]?.any fun byte => !isTerminatorByte byte) = false := by
      simpa using unterminated
    rw [closed]
    rfl

private theorem LineIndex.withCutPair_eq {stop count : ℕ} (positive : 0 < stop)
    (fits : count + (splitsPair bytes stop).toNat ≤ u64Max) :
    withCutPair bytes stop count = .ok (count + (splitsPair bytes stop).toNat) := by
  rw [withCutPair]
  split_ifs with cut
  · have splits : splitsPair bytes stop = true := by simp [splitsPair, positive, cut.2]
    rw [splits] at fits ⊢
    exact checkedLineAdd_fits fits
  · have whole : splitsPair bytes stop = false := by
      by_contra splits
      rw [Bool.not_eq_false, splitsPair, Bool.and_eq_true, Bool.and_eq_true, decide_eq_true_eq, decide_eq_true_eq,
        decide_eq_true_eq] at splits
      exact cut ⟨(List.getElem?_eq_some_iff.mp splits.2).1, splits.1.2, splits.2⟩
    rw [whole]
    rfl

/-- A range query computes the metrics of the slice on its own. -/
theorem LineIndex.metricsForRange_eq
    (built : LineIndex.fromBytesWithLimits bytes maximumLines maximumMemoryBytes = .ok index) {range : ByteRange}
    {slice : Bytes} (sliced : slice? bytes range = some slice) (fits : slice.length ≤ u64Max) :
    index.metricsForRange bytes range = .ok (metricsOf slice) := by
  rw [slice?] at sliced
  split_ifs at sliced with valid
  obtain rfl := Option.some.inj sliced
  rw [metricsForRange, if_neg (not_not.mpr (indexedByteLength_eq built)), if_neg (by omega)]
  split_ifs with empty
  · rw [empty, Nat.sub_self, List.take_zero]
    rfl
  have nonempty : range.start < range.stop := by omega
  have inside := valid.2
  have counted := terminatorsIn_slice nonempty inside
  have begun : range.start ≤ bytes.length := by omega
  have upTo := countP_closesLine inside
  have before := countP_closesLine begun
  rw [decide_eq_false (by omega), Bool.false_and, Bool.toNat_false, Nat.add_zero] at before
  dsimp only
  have ordered : (List.range range.start).countP (terminates bytes) ≤ (List.range range.stop).countP (terminates bytes) :=
    (List.range_sublist.mpr nonempty.le).countP_le
  have bounded := (terminatorsIn_le _).trans fits
  rw [partitionPoint_boundaries built inside, partitionPoint_boundaries built (by omega), before, upTo,
    withoutOpenLine_eq ordered, Except.ok_bind, withCutPair_eq (by omega) (by omega), Except.ok_bind]
  have length : ((bytes.drop range.start).take (range.stop - range.start)).length = range.stop - range.start := by
    rw [List.length_take_of_le (by rw [List.length_drop]; omega)]
  have first : ((bytes.drop range.start).take (range.stop - range.start)).head? = bytes[range.start]? := by
    rw [List.head?_eq_getElem?, List.getElem?_take_of_lt (by omega), List.getElem?_drop, Nat.add_zero]
  have last : ((bytes.drop range.start).take (range.stop - range.start)).getLast? = bytes[range.stop - 1]? := by
    rw [List.getLast?_eq_getElem?, length, List.getElem?_take_of_lt (by omega), List.getElem?_drop]
    congr 1
    omega
  have terminators : (List.range range.stop).countP (terminates bytes) - (List.range range.start).countP (terminates bytes) +
      (splitsPair bytes range.stop).toNat = terminatorsIn ((bytes.drop range.start).take (range.stop - range.start)) := by
    omega
  rw [terminators, ← first, ← last, metricsOf, length]
  rfl

end Indexed

end Srcmv.Core
