import Srcmv.Model.Lsp.Symbols
import Srcmv.Proofs.Lsp.PhysicalLines

/-! # Edges of an extent

The left edge of a range goes back to the start of its line when only blanks are before it. The right
edge goes on to the end of its line when only blanks are behind it. Neither moves twice.
-/

namespace Srcmv.Lsp

open Srcmv.Core

/-! ## The left edge -/

section Left

variable {bytes : Bytes} {start : ℕ}

theorem physicalLineStart_trims (inside : start ≤ bytes.length) :
    physicalLineStart bytes start ≤ start ∧
      bytes.take (physicalLineStart bytes start) = (bytes.take start).rdropWhile fun byte => !isTerminatorByte byte := by
  have kept := List.rdropWhile_prefix (fun byte => !isTerminatorByte byte) (bytes.take start)
  have short := kept.length_le
  rw [List.length_take_of_le inside] at short
  refine ⟨short, ?_⟩
  have whole := List.prefix_iff_eq_take.mp (kept.trans (List.take_prefix start bytes))
  exact whole.symm

/-- A line begins at the beginning or after a terminator byte. -/
theorem physicalLineStart_after (inside : start ≤ bytes.length) (positive : 0 < physicalLineStart bytes start) :
    ∃ byte, bytes[physicalLineStart bytes start - 1]? = some byte ∧ isTerminatorByte byte = true := by
  obtain ⟨le, taken⟩ := physicalLineStart_trims inside
  have nonempty : ((bytes.take start).rdropWhile fun byte => !isTerminatorByte byte) ≠ [] := List.ne_nil_of_length_pos positive
  have last := List.rdropWhile_last_not (fun byte => !isTerminatorByte byte) (bytes.take start) nonempty
  refine ⟨_, ?_, by simpa using last⟩
  rw [← List.getLast?_eq_some_getLast nonempty, ← taken, List.getLast?_eq_getElem?, List.length_take_of_le (le.trans inside),
    List.getElem?_take_of_lt (by omega)]

theorem expandedStart_le (inside : start ≤ bytes.length) : expandedStart bytes start ≤ start := by
  rw [expandedStart]
  split
  · exact (physicalLineStart_trims inside).1
  · exact le_rfl

theorem expandedStart_blank (byte : UInt8) (member : byte ∈ (bytes.take start).drop (expandedStart bytes start)) :
    byte = 32 ∨ byte = 9 := by
  rw [expandedStart] at member
  split at member
  · next blank => simpa using List.all_eq_true.mp blank byte member
  · rw [List.drop_of_length_le (List.length_take_le _ _)] at member
    cases member

theorem expandedStart_idem (inside : start ≤ bytes.length) :
    expandedStart bytes (expandedStart bytes start) = expandedStart bytes start := by
  by_cases blank : ((bytes.take start).drop (physicalLineStart bytes start)).all (fun byte => byte = 32 || byte = 9) = true
  · have moved : expandedStart bytes start = physicalLineStart bytes start := if_pos blank
    have again : physicalLineStart bytes (physicalLineStart bytes start) = physicalLineStart bytes start := by
      rw [physicalLineStart, (physicalLineStart_trims inside).2, List.rdropWhile_idempotent]
      rfl
    rw [moved, expandedStart, again, ite_self]
  · have kept : expandedStart bytes start = start := if_neg blank
    rw [kept, kept]

/-- A left edge that moves comes to the beginning or behind a whole terminator. -/
theorem expandedStart_closes (inside : start ≤ bytes.length) (moved : expandedStart bytes start ≠ start)
    (positive : 0 < expandedStart bytes start) : closesLine bytes (expandedStart bytes start - 1) = true := by
  have less : expandedStart bytes start < start := lt_of_le_of_ne (expandedStart_le inside) moved
  have line : expandedStart bytes start = physicalLineStart bytes start := by
    rw [expandedStart] at moved ⊢
    split at moved
    · next blank => rw [if_pos blank]
    · exact absurd rfl moved
  obtain ⟨byte, found, terminator⟩ := physicalLineStart_after inside (line ▸ positive)
  rw [← line] at found
  -- the byte behind the terminator is blank, hence no LF
  have next : bytes[expandedStart bytes start - 1 + 1]? ≠ some 10 := by
    intro feed
    rw [Nat.sub_add_cancel positive] at feed
    have member : (10 : UInt8) ∈ (bytes.take start).drop (expandedStart bytes start) := by
      rw [List.mem_iff_getElem?]
      exact ⟨0, by rw [List.getElem?_drop, Nat.add_zero, List.getElem?_take_of_lt less, feed]⟩
    rcases expandedStart_blank 10 member with same | same <;> cases same
  rw [closesLine, terminates, found]
  rw [isTerminatorByte] at terminator
  simp only [Option.some.injEq, ne_eq, next, not_false_eq_true, decide_true, Bool.and_true, Bool.or_eq_true,
    decide_eq_true_eq] at terminator ⊢
  exact .inl terminator.symm

end Left

/-! ## The right edge -/

section Right

variable {bytes : Bytes} {stop : ℕ}

theorem declarationLineEndFrom_blanks {blanks : Bytes} (blank : ∀ byte ∈ blanks, byte = 32 ∨ byte = 9) (cursor : ℕ)
    (tail : Bytes) : declarationLineEndFrom stop cursor (blanks ++ tail) =
      declarationLineEndFrom stop (cursor + blanks.length) tail := by
  induction blanks generalizing cursor with
  | nil => rfl
  | cons byte rest ih =>
    rw [List.cons_append, declarationLineEndFrom, if_pos (blank byte List.mem_cons_self),
      ih (fun other member => blank other (List.mem_cons_of_mem _ member)), List.length_cons, Nat.add_right_comm, Nat.add_assoc]

/-- What follows a range up to the end of its line. -/
structure LineRest (bytes : Bytes) (stop result : ℕ) (blanks terminator rest : Bytes) : Prop where
  shape : bytes.drop stop = blanks ++ (terminator ++ rest)
  blank : ∀ byte ∈ blanks, byte = 32 ∨ byte = 9
  result : result = stop + blanks.length + terminator.length
  complete : terminator = [] ∧ rest = [] ∨ terminator = [10] ∨ terminator = [13, 10] ∨ terminator = [13] ∧ rest.head? ≠ some 10

theorem declarationLineEnd_cases (bytes : Bytes) (stop : ℕ) : declarationLineEnd bytes stop = stop ∨
    ∃ blanks terminator rest, LineRest bytes stop (declarationLineEnd bytes stop) blanks terminator rest := by
  have split := List.takeWhile_append_dropWhile (p := fun byte => byte = 32 || byte = 9) (l := bytes.drop stop)
  have blank : ∀ byte ∈ (bytes.drop stop).takeWhile (fun byte => byte = 32 || byte = 9), byte = 32 ∨ byte = 9 :=
    fun byte member => by simpa using List.mem_takeWhile_imp member
  have first : ∀ byte, ((bytes.drop stop).dropWhile fun byte => byte = 32 || byte = 9).head? = some byte →
      ¬(byte = 32 ∨ byte = 9) := by
    intro byte found
    have stopped := List.head?_dropWhile_not (fun byte : UInt8 => byte = 32 || byte = 9) (bytes.drop stop)
    rw [found] at stopped
    simpa using stopped
  generalize (bytes.drop stop).takeWhile (fun byte => byte = 32 || byte = 9) = blanks at split blank
  generalize (bytes.drop stop).dropWhile (fun byte => byte = 32 || byte = 9) = tail at split first
  have scanned : declarationLineEnd bytes stop = declarationLineEndFrom stop (stop + blanks.length) tail := by
    rw [declarationLineEnd, ← split, declarationLineEndFrom_blanks blank]
  rw [scanned]
  cases tail with
  | nil => exact .inr ⟨blanks, [], [], split.symm, blank, rfl, .inl ⟨rfl, rfl⟩⟩
  | cons byte rest =>
    rw [declarationLineEndFrom, if_neg (first byte rfl)]
    by_cases carriage : byte = 13
    · subst carriage
      rw [if_pos rfl]
      split
      · next feed =>
        obtain ⟨rest, rfl⟩ : ∃ later, rest = 10 :: later := List.head?_eq_some_iff.mp feed
        exact .inr ⟨blanks, [13, 10], rest, split.symm, blank, rfl, .inr (.inr (.inl rfl))⟩
      · next other => exact .inr ⟨blanks, [13], rest, split.symm, blank, rfl, .inr (.inr (.inr ⟨rfl, other⟩))⟩
    · rw [if_neg carriage]
      split
      · next feed =>
        subst feed
        exact .inr ⟨blanks, [10], rest, split.symm, blank, rfl, .inr (.inl rfl)⟩
      · exact .inl rfl

namespace LineRest

variable {result : ℕ} {blanks terminator rest : Bytes} (line : LineRest bytes stop result blanks terminator rest)

include line

theorem whole (inside : stop ≤ bytes.length) : bytes = bytes.take stop ++ blanks ++ terminator ++ rest ∧
    (bytes.take stop ++ blanks ++ terminator).length = result := by
  constructor
  · rw [List.append_assoc, List.append_assoc, ← line.shape, List.take_append_drop]
  · rw [List.length_append, List.length_append, List.length_take_of_le inside, line.result]

theorem le (inside : stop ≤ bytes.length) : stop ≤ result ∧ result ≤ bytes.length := by
  obtain ⟨whole, length⟩ := line.whole inside
  have total := congrArg List.length whole
  rw [List.length_append, length] at total
  exact ⟨by rw [line.result]; omega, by omega⟩

theorem added (inside : stop ≤ bytes.length) : (bytes.take result).drop stop = blanks ++ terminator := by
  obtain ⟨whole, length⟩ := line.whole inside
  have taken : bytes.take result = bytes.take stop ++ (blanks ++ terminator) := by
    conv_lhs => rw [whole]
    rw [List.take_left' length, List.append_assoc]
  rw [taken, List.drop_left' (List.length_take_of_le inside)]

/-- The line rest ends in a terminator byte or with the bytes. -/
theorem last (inside : stop ≤ bytes.length) (moved : result ≠ stop) :
    (terminator ≠ [] → bytes[result - 1]?.any isTerminatorByte) ∧ closesLine bytes (result - 1) = true := by
  obtain ⟨whole, length⟩ := line.whole inside
  have behind : ∀ offset, bytes[result + offset]? = rest[offset]? := by
    intro offset
    conv_lhs => rw [whole]
    rw [List.getElem?_append_right (by omega), length, Nat.add_sub_cancel_left]
  have positive : 0 < result := lt_of_le_of_lt (Nat.zero_le stop) (lt_of_le_of_ne (line.le inside).1 moved.symm)
  have before : bytes[result - 1]? = (bytes.take stop ++ blanks ++ terminator).getLast? := by
    rw [List.getLast?_eq_getElem?, length]
    conv_lhs => rw [whole]
    rw [List.getElem?_append_left (by omega)]
  have next := behind 0
  rw [Nat.add_zero, ← Nat.sub_add_cancel positive, ← List.head?_eq_getElem?] at next
  rw [closesLine, terminates, before, next]
  rcases line.complete with ⟨rfl, rfl⟩ | rfl | rfl | ⟨rfl, other⟩
  · refine ⟨fun impossible => absurd rfl impossible, ?_⟩
    have total := congrArg List.length whole
    rw [List.append_nil, length] at total
    rw [Nat.sub_add_cancel positive, total, decide_eq_true rfl, Bool.or_true]
  · simp [isTerminatorByte]
  · simp [isTerminatorByte]
  · simp [isTerminatorByte, other]

end LineRest

theorem expandedEnd_cases (bytes : Bytes) (stop : ℕ) : expandedEnd bytes stop = stop ∨
    ∃ blanks terminator rest, LineRest bytes stop (expandedEnd bytes stop) blanks terminator rest := by
  rw [expandedEnd]
  split
  · exact .inl rfl
  · exact declarationLineEnd_cases bytes stop

theorem expandedEnd_idem (inside : stop ≤ bytes.length) : expandedEnd bytes (expandedEnd bytes stop) = expandedEnd bytes stop := by
  by_cases moved : expandedEnd bytes stop = stop
  · rw [moved, moved]
  · obtain ⟨blanks, terminator, rest, line⟩ := (expandedEnd_cases bytes stop).resolve_left moved
    obtain ⟨first, last⟩ := line.le inside
    by_cases closed : terminator = []
    · have ended : rest = [] := by
        rcases line.complete with ⟨-, same⟩ | other | other | ⟨other, -⟩
        · exact same
        all_goals rw [closed] at other; cases other
      have total := congrArg List.length (line.whole inside).1
      rw [ended, List.append_nil, (line.whole inside).2] at total
      rw [← total, expandedEnd, declarationLineEnd, List.drop_length, declarationLineEndFrom, ite_self]
    · have positive : expandedEnd bytes stop > 0 := by omega
      rw [expandedEnd, if_pos ⟨positive, (line.last inside moved).1 closed⟩]

end Right

/-! ## Extents -/

/-- A nonempty range between scalars of the text. -/
structure ValidRange (text : List Char) (range : ByteRange) : Prop where
  nonempty : range.start < range.stop
  bounded : range.stop ≤ Utf8.size text
  first : Utf8.isCharBoundary text range.start = true
  last : Utf8.isCharBoundary text range.stop = true

theorem applyExtent_ok {text : List Char} {range result : ByteRange} {extent : SelectionExtent}
    (applied : applyExtent text range extent = .ok result) : result.start < result.stop ∧ result.stop ≤ Utf8.size text := by
  rw [applyExtent.eq_def] at applied
  split_ifs at applied with invalid _
  cases extent with
  | symbol =>
    obtain rfl := Except.ok.inj applied
    omega
  | declarationLines =>
    dsimp only at applied
    split_ifs at applied with outside
    obtain rfl := Except.ok.inj applied
    dsimp only
    omega

theorem expandedEnd_le {bytes : Bytes} {stop : ℕ} (inside : stop ≤ bytes.length) :
    stop ≤ expandedEnd bytes stop ∧ expandedEnd bytes stop ≤ bytes.length := by
  rcases expandedEnd_cases bytes stop with kept | ⟨blanks, terminator, rest, line⟩
  · rw [kept]
    exact ⟨le_rfl, inside⟩
  · exact line.le inside

/-- The lines of a valid range. -/
def wholeLines (text : List Char) (range : ByteRange) : ByteRange :=
  ⟨expandedStart (Utf8.encode text) range.start, expandedEnd (Utf8.encode text) range.stop⟩

theorem applyExtent_declarationLines {text : List Char} {range : ByteRange} (valid : ValidRange text range) :
    applyExtent text range .declarationLines = .ok (wholeLines text range) := by
  have stopInside : range.stop ≤ (Utf8.encode text).length := Utf8.length_encode text ▸ valid.bounded
  have first := expandedStart_le (valid.nonempty.le.trans stopInside)
  have last := expandedEnd_le stopInside
  rw [Utf8.length_encode] at last
  have nonempty := valid.nonempty
  have bounded := valid.bounded
  rw [applyExtent, if_neg (by omega), if_neg (by simp [valid.first, valid.last])]
  exact if_neg (by omega)

/-- Every extent of a valid range can be applied. -/
theorem applyExtent_succeeds {text : List Char} {range : ByteRange} (valid : ValidRange text range) (extent : SelectionExtent) :
    ∃ result, applyExtent text range extent = .ok result := by
  cases extent with
  | symbol =>
    have nonempty := valid.nonempty
    have bounded := valid.bounded
    refine ⟨range, ?_⟩
    rw [applyExtent, if_neg (by omega), if_neg (by simp [valid.first, valid.last])]
  | declarationLines => exact ⟨_, applyExtent_declarationLines valid⟩

end Srcmv.Lsp
