import Srcmv.Model.Core.LineMetrics
import Srcmv.ToMathlib.Except

/-! # Where lines end

A position terminates a line when its byte is an LF, or a CR that no LF follows. This local test
determines the boundaries of the index, and counting it over a range determines the metrics.
-/

namespace Srcmv.Core

/-- The byte at `position` is the last byte of a terminator. -/
def terminates (bytes : Bytes) (position : ℕ) : Bool :=
  bytes[position]? = some 10 || (bytes[position]? = some 13 && bytes[position + 1]? ≠ some 10)

/-- The byte at `position` is the last byte of a line. -/
def closesLine (bytes : Bytes) (position : ℕ) : Bool :=
  terminates bytes position || position + 1 = bytes.length

/-- A position with nothing behind it terminates exactly when its byte is a terminator byte. -/
theorem terminates_last {bytes : Bytes} {position : ℕ} (last : position + 1 = bytes.length) :
    terminates bytes position = bytes[position]?.any isTerminatorByte := by
  have beyond : bytes[position + 1]? = none := List.getElem?_eq_none (by omega)
  rw [terminates, beyond]
  cases bytes[position]? with
  | none => rfl
  | some byte => simp [isTerminatorByte, Bool.or_comm]

/-- Only the byte and its successor matter. -/
theorem terminates_congr {bytes other : Bytes} {position place : ℕ} (same : bytes[position]? = other[place]?)
    (next : bytes[position + 1]? = other[place + 1]?) : terminates bytes position = terminates other place := by
  rw [terminates, terminates, same, next]

private theorem terminating_cons (byte : UInt8) (rest : Bytes) (place : ℕ → ℕ) :
    ((List.range (byte :: rest).length).filter (terminates (byte :: rest))).map place =
      (if terminates (byte :: rest) 0 then [place 0] else []) ++
        ((List.range rest.length).filter (terminates rest)).map fun position => place (position + 1) := by
  have later : terminates (byte :: rest) ∘ Nat.succ = terminates rest := funext fun position =>
    terminates_congr (List.getElem?_cons_succ ..) (List.getElem?_cons_succ ..)
  rw [List.length_cons, List.range_succ_eq_map, List.filter_cons, List.filter_map, later]
  split_ifs
  · rw [List.map_cons, List.map_map]
    rfl
  · rw [List.map_map]
    rfl

/-- The scan finds the positions that terminate. -/
theorem terminatorEnds_eq (bytes : Bytes) (offset : ℕ) : terminatorEnds bytes offset =
    ((List.range bytes.length).filter (terminates bytes)).map (· + 1 + offset) := by
  induction bytes, offset using terminatorEnds.induct with
  | case1 => rfl
  | case2 rest offset ih =>
    have pending : ¬terminates (13 :: 10 :: rest) 0 = true := by simp [terminates]
    have closed : terminates (10 :: rest) 0 = true := by simp [terminates]
    rw [terminatorEnds, ih, terminating_cons, terminating_cons, if_neg pending, if_pos closed, List.nil_append,
      List.singleton_append, List.cons.injEq]
    exact ⟨by omega, List.map_congr_left fun position _ => by omega⟩
  | case3 byte rest offset shape terminator ih =>
    have closed : terminates (byte :: rest) 0 = true := by
      rcases Bool.or_eq_true_iff.mp terminator with return_ | feed
      · obtain rfl : byte = 13 := of_decide_eq_true return_
        cases rest with
        | nil => simp [terminates]
        | cons next rest =>
          have other : next ≠ 10 := fun same => shape rest rfl (by rw [same])
          simp [terminates, other]
      · obtain rfl : byte = 10 := of_decide_eq_true feed
        simp [terminates]
    rw [terminatorEnds.eq_3 _ _ _ shape, if_pos terminator, ih, terminating_cons, if_pos closed, List.singleton_append,
      List.cons.injEq]
    exact ⟨by omega, List.map_congr_left fun position _ => by omega⟩
  | case4 byte rest offset shape terminator ih =>
    have silent : ¬terminates (byte :: rest) 0 = true := by
      simp only [isTerminatorByte, Bool.or_eq_true, decide_eq_true_eq, not_or] at terminator
      simp [terminates, terminator]
    rw [terminatorEnds.eq_3 _ _ _ shape, if_neg terminator, ih, terminating_cons, if_neg silent, List.nil_append]
    exact List.map_congr_left fun position _ => by omega

/-- Without a terminator byte the scan finds nothing. -/
theorem terminatorEnds_of_silent {bytes : Bytes} (silent : ∀ byte ∈ bytes, isTerminatorByte byte = false) (offset : ℕ) :
    terminatorEnds bytes offset = [] := by
  induction bytes, offset using terminatorEnds.induct with
  | case1 => rfl
  | case2 rest offset ih =>
    have carriage := silent 13 List.mem_cons_self
    cases carriage
  | case3 byte rest offset shape terminator ih =>
    rw [silent byte List.mem_cons_self] at terminator
    cases terminator
  | case4 byte rest offset shape terminator ih =>
    rw [terminatorEnds.eq_3 _ _ _ shape, if_neg terminator]
    exact ih fun other member => silent other (List.mem_cons_of_mem _ member)

/-- Bytes without a terminator are one line. -/
theorem LineIndex.fromBytes_of_silent {bytes : Bytes} {maximumLines maximumMemoryBytes : ℕ} (nonempty : bytes ≠ [])
    (silent : ∀ byte ∈ bytes, isTerminatorByte byte = false) (lines : 1 ≤ maximumLines) (memory : 8 ≤ maximumMemoryBytes) :
    fromBytesWithLimits bytes maximumLines maximumMemoryBytes = .ok ⟨[bytes.length]⟩ := by
  have pushed : pushLineBoundary [] bytes.length maximumLines maximumMemoryBytes = .ok [bytes.length] := by
    have counted : enforceLineLimit "line_count" 1 maximumLines = .ok () := if_neg (by omega)
    have stored : enforceLineLimit "line_index_memory" 8 maximumMemoryBytes = .ok () := if_neg (by omega)
    change (do
      enforceLineLimit "line_count" 1 maximumLines
      enforceLineLimit "line_index_memory" 8 maximumMemoryBytes
      return [bytes.length]) = _
    rw [counted, Except.ok_bind, stored, Except.ok_bind]
    rfl
  rw [fromBytesWithLimits, terminatorEnds_of_silent silent]
  change (if ([] : List ℕ).getLast? ≠ some bytes.length ∧ bytes ≠ [] then _ else _) = _
  rw [if_pos ⟨by simp, nonempty⟩, pushed]
  rfl

/-! ## Boundaries -/

/-- The boundaries of an index are the ends of the positions that close a line. -/
theorem LineIndex.boundaries_eq {bytes : Bytes} {maximumLines maximumMemoryBytes : ℕ} {index : LineIndex}
    (built : fromBytesWithLimits bytes maximumLines maximumMemoryBytes = .ok index) :
    index.boundaries = ((List.range bytes.length).filter (closesLine bytes)).map (· + 1) := by
  have listed : ((List.range bytes.length).filter (closesLine bytes)).map (· + 1) |>.Pairwise (· < ·) := by
    rw [List.pairwise_map]
    exact (List.pairwise_lt_range.filter _).imp fun less => Nat.succ_lt_succ less
  refine (bounds_of_fromBytes built).increasing.eq_of_mem_iff listed fun boundary => ?_
  have scanned : boundary ∈ terminatorEnds bytes 0 ↔ ∃ position < bytes.length, terminates bytes position ∧ position + 1 = boundary := by
    rw [terminatorEnds_eq]
    simp [and_assoc]
  have closing : boundary ∈ ((List.range bytes.length).filter (closesLine bytes)).map (· + 1) ↔
      ∃ position < bytes.length, closesLine bytes position ∧ position + 1 = boundary := by
    simp [and_assoc]
  rw [boundaries_of_fromBytes built, List.mem_append, scanned, closing]
  constructor
  · rintro (⟨position, inside, terminator, rfl⟩ | last)
    · exact ⟨position, inside, by rw [closesLine, terminator, Bool.true_or], rfl⟩
    · split_ifs at last with unterminated
      · obtain rfl := List.mem_singleton.mp last
        have nonempty := List.length_pos_iff.mpr unterminated.2
        exact ⟨bytes.length - 1, by omega, by simp [closesLine, Nat.sub_add_cancel nonempty], by omega⟩
      · cases last
  · rintro ⟨position, inside, closes, rfl⟩
    rcases Bool.or_eq_true_iff.mp closes with terminator | last
    · exact .inl ⟨position, inside, terminator, rfl⟩
    · have length := of_decide_eq_true last
      by_cases unterminated : (terminatorEnds bytes 0).getLast? ≠ some bytes.length ∧ bytes ≠ []
      · rw [if_pos unterminated, length]
        exact .inr (List.mem_singleton_self _)
      · have found : (terminatorEnds bytes 0).getLast? = some bytes.length := by
          by_contra other
          exact unterminated ⟨other, List.ne_nil_of_length_pos (by omega)⟩
        rw [← scanned, length]
        exact .inl (List.mem_of_getLast? found)

/-! ## Counting -/

/-- The number of terminators of a byte sequence on its own. -/
def terminatorsIn (bytes : Bytes) : ℕ := (List.range bytes.length).countP (terminates bytes)

/-- A CR and the LF that follows it lie on either side of the offset. -/
def splitsPair (bytes : Bytes) (offset : ℕ) : Bool :=
  0 < offset && bytes[offset - 1]? = some 13 && bytes[offset]? = some 10

theorem terminatorsIn_le (bytes : Bytes) : terminatorsIn bytes ≤ bytes.length :=
  List.countP_le_length.trans (List.length_range).le

private theorem countP_range_succ (holds : ℕ → Bool) (last : ℕ) :
    (List.range (last + 1)).countP holds = (List.range last).countP holds + (holds last).toNat := by
  rw [List.range_succ, List.countP_append, List.countP_singleton]
  cases holds last <;> rfl

/-- Cutting between CR and LF leaves one more terminator before the cut. -/
theorem terminatorsIn_take {bytes : Bytes} {offset : ℕ} (inside : offset ≤ bytes.length) :
    terminatorsIn (bytes.take offset) =
      (List.range offset).countP (terminates bytes) + (splitsPair bytes offset).toNat := by
  rw [terminatorsIn, List.length_take_of_le inside]
  cases offset with
  | zero => rfl
  | succ last =>
    have kept {position : ℕ} (before : position ≤ last) : (bytes.take (last + 1))[position]? = bytes[position]? :=
      List.getElem?_take_of_lt (by omega)
    have earlier : (List.range last).countP (terminates (bytes.take (last + 1))) =
        (List.range last).countP (terminates bytes) := by
      refine List.countP_congr fun position member => ?_
      have before := List.mem_range.mp member
      rw [terminates_congr (kept before.le) (kept before)]
    have ends : (bytes.take (last + 1))[last + 1]? = none :=
      List.getElem?_eq_none (by rw [List.length_take_of_le inside])
    have final : (terminates (bytes.take (last + 1)) last).toNat =
        (terminates bytes last).toNat + (splitsPair bytes (last + 1)).toNat := by
      rw [terminates, terminates, splitsPair, kept le_rfl, ends, Nat.add_sub_cancel]
      by_cases carriage : bytes[last]? = some 13
      · by_cases feed : bytes[last + 1]? = some 10 <;> simp [carriage, feed]
      · simp [carriage]
    rw [countP_range_succ, countP_range_succ, earlier, final, Nat.add_assoc]

/-- The terminators after an offset are those of the rest. -/
theorem terminatorsIn_drop (bytes : Bytes) (offset : ℕ) :
    terminatorsIn bytes = (List.range (min offset bytes.length)).countP (terminates bytes) +
      terminatorsIn (bytes.drop offset) := by
  have parts : List.range bytes.length = List.range (min offset bytes.length) ++
      (List.range (bytes.drop offset).length).map (min offset bytes.length + ·) := by
    rw [← List.range_add, List.length_drop]
    congr 1
    omega
  rw [terminatorsIn, terminatorsIn, parts, List.countP_append, List.countP_map]
  congr 1
  refine List.countP_congr fun position member => ?_
  have inside := List.mem_range.mp member
  rw [List.length_drop] at inside
  have start : min offset bytes.length = offset := by omega
  rw [Function.comp_apply, start,
    terminates_congr (List.getElem?_drop).symm (by rw [List.getElem?_drop, Nat.add_assoc])]

/-- Terminators of a concatenation: a CR and an LF that meet count once. -/
theorem terminatorsIn_append (front back : Bytes) :
    terminatorsIn (front ++ back) + (decide (front.getLast? = some 13) && decide (back.head? = some 10)).toNat =
      terminatorsIn front + terminatorsIn back := by
  have inside : front.length ≤ (front ++ back).length := by simp
  have cut := terminatorsIn_take inside
  have rest := terminatorsIn_drop (front ++ back) front.length
  rw [List.take_left] at cut
  rw [List.drop_left, min_eq_left (by simp)] at rest
  have seam : splitsPair (front ++ back) front.length =
      (decide (front.getLast? = some 13) && decide (back.head? = some 10)) := by
    rcases List.eq_nil_or_concat front with rfl | ⟨initial, last, rfl⟩
    · simp [splitsPair]
    · simp [splitsPair, List.head?_eq_getElem?, List.getElem?_append_right]
  rw [seam] at cut
  omega

/-- Terminators of a slice, counted in the whole. -/
theorem terminatorsIn_slice {bytes : Bytes} {start stop : ℕ} (nonempty : start < stop) (inside : stop ≤ bytes.length) :
    terminatorsIn ((bytes.drop start).take (stop - start)) + (List.range start).countP (terminates bytes) =
      (List.range stop).countP (terminates bytes) + (splitsPair bytes stop).toNat := by
  have whole := terminatorsIn_take inside
  have before := terminatorsIn_drop (bytes.take stop) start
  rw [List.length_take_of_le inside, min_eq_left nonempty.le, List.drop_take] at before
  have earlier : (List.range start).countP (terminates (bytes.take stop)) = (List.range start).countP (terminates bytes) := by
    refine List.countP_congr fun position member => ?_
    have below := List.mem_range.mp member
    rw [terminates_congr (List.getElem?_take_of_lt (by omega)) (List.getElem?_take_of_lt (by omega))]
  omega

/-! ## Boundaries up to an offset -/

/-- Leading items of an increasing list up to a bound. -/
private theorem partitionPoint_eq {items : List ℕ} (increasing : items.Pairwise (· < ·)) (bound : ℕ) :
    partitionPoint (fun item => item ≤ bound) items = items.countP fun item => item ≤ bound := by
  rw [partitionPoint]
  induction items with
  | nil => rfl
  | cons item rest ih =>
    obtain ⟨above, increasing⟩ := List.pairwise_cons.mp increasing
    by_cases inside : item ≤ bound
    · rw [List.takeWhile_cons_of_pos (by simpa using inside), List.length_cons, ih increasing,
        List.countP_cons_of_pos (by simpa using inside)]
    · have beyond : rest.countP (fun item => item ≤ bound) = 0 := by
        refine List.countP_eq_zero.mpr fun other member => ?_
        have := above other member
        simp only [decide_eq_true_eq]
        omega
      rw [List.takeWhile_cons_of_neg (by simpa using inside), List.countP_cons_of_neg (by simpa using inside), beyond]
      rfl

section Indexed

variable {bytes : Bytes} {maximumLines maximumMemoryBytes : ℕ} {index : LineIndex}

/-- The boundaries up to an offset, counted in the bytes. -/
theorem LineIndex.partitionPoint_boundaries
    (built : LineIndex.fromBytesWithLimits bytes maximumLines maximumMemoryBytes = .ok index) {offset : ℕ}
    (inside : offset ≤ bytes.length) :
    partitionPoint (fun boundary => boundary ≤ offset) index.boundaries = (List.range offset).countP (closesLine bytes) := by
  rw [partitionPoint_eq (bounds_of_fromBytes built).increasing, boundaries_eq built, List.countP_map, List.countP_filter]
  have parts : List.range bytes.length = List.range offset ++ (List.range (bytes.length - offset)).map (offset + ·) := by
    rw [← List.range_add]
    congr 1
    omega
  have later : (List.range (bytes.length - offset)).countP ((fun position =>
      ((fun item => decide (item ≤ offset)) ∘ fun x => x + 1) position && closesLine bytes position) ∘ (offset + ·)) = 0 := by
    refine List.countP_eq_zero.mpr fun position _ => ?_
    simp only [Function.comp_apply, Bool.and_eq_true, decide_eq_true_eq]
    omega
  rw [parts, List.countP_append, List.countP_map, later, Nat.add_zero]
  refine List.countP_congr fun position member => ?_
  have below := List.mem_range.mp member
  simp only [Function.comp_apply, Bool.and_eq_true, decide_eq_true_eq]
  exact ⟨And.right, fun closes => ⟨by omega, closes⟩⟩

/-- Up to an offset, only an unterminated last line closes without a terminator. -/
theorem countP_closesLine {offset : ℕ} (inside : offset ≤ bytes.length) :
    (List.range offset).countP (closesLine bytes) = (List.range offset).countP (terminates bytes) +
      (decide (offset = bytes.length) && bytes[offset - 1]?.any fun byte => !isTerminatorByte byte).toNat := by
  cases offset with
  | zero =>
    cases bytes with
    | nil => rfl
    | cons byte rest => rfl
  | succ last =>
    have earlier : (List.range last).countP (closesLine bytes) = (List.range last).countP (terminates bytes) := by
      refine List.countP_congr fun position member => ?_
      have below := List.mem_range.mp member
      rw [closesLine, decide_eq_false (by omega), Bool.or_false]
    have final : (closesLine bytes last).toNat = (terminates bytes last).toNat +
        (decide (last + 1 = bytes.length) && bytes[last]?.any fun byte => !isTerminatorByte byte).toNat := by
      by_cases whole : last + 1 = bytes.length
      · rw [closesLine, terminates_last whole]
        obtain ⟨byte, found⟩ : ∃ byte, bytes[last]? = some byte := ⟨_, List.getElem?_eq_getElem (by omega)⟩
        rw [found]
        cases terminator : isTerminatorByte byte <;> simp [whole, terminator]
      · simp [closesLine, whole]
    rw [countP_range_succ, countP_range_succ, earlier, final, Nat.add_sub_cancel, Nat.add_assoc]

end Indexed

end Srcmv.Core
