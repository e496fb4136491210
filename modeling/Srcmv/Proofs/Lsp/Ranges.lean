import Srcmv.Proofs.Lsp.Conversions

/-! # Converted ranges

Conversion keeps the order of server positions, so that its results do not depend on what was left
of the budget. A range that converts is nonempty and ends between scalars.
-/

namespace Srcmv.Lsp

open Srcmv.Core

namespace PositionConverter

variable {converter : PositionConverter}

/-- Different parts around one line are the same. -/
theorem LineOf.unique {line : UInt32} {before content terminator after before' content' terminator' after' : List Char}
    (part : LineOf converter line before content terminator after)
    (other : LineOf converter line before' content' terminator' after') : content = content' := by
  have bounds := Except.ok.inj (part.bounds.symm.trans other.bounds)
  have found := part.lineContent
  rw [bounds] at found
  exact Except.ok.inj (found.symm.trans other.lineContent)

/-- A later line starts where an earlier one has ended. -/
theorem LineOf.before_le (indexed : converter.Indexed) {line other : UInt32}
    {before content terminator after before' content' terminator' after' : List Char}
    (part : LineOf converter line before content terminator after)
    (later : LineOf converter other before' content' terminator' after') (less : line.toNat < other.toNat) :
    Utf8.size before + Utf8.size content + Utf8.size terminator ≤ Utf8.size before' := by
  obtain ⟨_, _, built⟩ := indexed.built
  have start := later.start
  rw [LineIndex.lineStart, if_neg (by have := later.counted; omega), if_neg (by omega)] at start
  have previous : converter.lineIndex.lineEnd other.toNat = some (Utf8.size before') := by
    rw [LineIndex.lineEnd, if_neg (by omega), ← start]
    congr 1
  rcases Nat.lt_or_ge (line.toNat + 1) other.toNat with gap | adjacent
  · exact (lineEnd_lt (LineIndex.bounds_of_fromBytes built).increasing gap part.stop previous).le
  · have same : line.toNat + 1 = other.toNat := by omega
    exact (Option.some.inj ((same ▸ part.stop).symm.trans previous)).le

/-- The prefixes of a content that two characters name are ordered like the characters. -/
theorem Covers.size_le {width : Char → ℕ} (positive : ∀ scalar, 0 < width scalar)
    {content front back front' back' : List Char} {target target' : ℕ} (covers : Covers width content target front back)
    (covers' : Covers width content target' front' back') (ordered : target ≤ target') : Utf8.size front ≤ Utf8.size front' := by
  obtain ⟨rest, rfl⟩ : front <+: front' := by
    refine Utf8.prefix_of_weight_le positive ⟨back, covers.split.symm⟩ ⟨back', covers'.split.symm⟩ ?_
    rw [covers.units, covers'.units]
    omega
  rw [Utf8.size_append]
  exact Nat.le_add_right _ _

/-- Conversion keeps the order of positions. -/
theorem lspPositionToByte_monotone (indexed : converter.Indexed) {lower upper : Position}
    {scanned later other last start stop : ℕ}
    (first : (converter.lspPositionToByte lower).run scanned = (.ok start, later))
    (second : (converter.lspPositionToByte upper).run other = (.ok stop, last))
    (ordered : lower.line < upper.line ∨ lower.line = upper.line ∧ lower.character ≤ upper.character) : start ≤ stop := by
  obtain ⟨before, content, terminator, after, front, back, part, covers, rfl⟩ := lspPositionToByte_ok indexed first
  obtain ⟨before', content', terminator', after', front', back', part', covers', rfl⟩ := lspPositionToByte_ok indexed second
  rcases ordered with less | ⟨same, characters⟩
  · have separated := part.before_le indexed part' (UInt32.lt_iff_toNat_lt.mp less)
    have inner := congrArg Utf8.size covers.split
    rw [Utf8.size_append] at inner
    omega
  · rw [same] at part
    obtain rfl := part.unique part'
    have starts := congrArg LineBounds.start (Except.ok.inj (part.bounds.symm.trans part'.bounds))
    have fronts := covers.size_le converter.encoding.width_pos covers' (UInt32.le_iff_toNat_le.mp characters)
    dsimp only at starts
    omega

/-- What remains of the budget does not change a result. -/
theorem lspPositionToByte_unique (indexed : converter.Indexed) {position : Position} {scanned later other last start stop : ℕ}
    (first : (converter.lspPositionToByte position).run scanned = (.ok start, later))
    (second : (converter.lspPositionToByte position).run other = (.ok stop, last)) : start = stop :=
  le_antisymm (lspPositionToByte_monotone indexed first second (.inr ⟨rfl, UInt32.le_refl _⟩))
    (lspPositionToByte_monotone indexed second first (.inr ⟨rfl, UInt32.le_refl _⟩))

theorem lspRangeToByteRange_eq_ok {range : Range} {scanned later : ℕ} {bytes : ByteRange} :
    (converter.lspRangeToByteRange range).run scanned = (.ok bytes, later) ↔
      ∃ between, (converter.lspPositionToByte range.start).run scanned = (.ok bytes.start, between) ∧
        (converter.lspPositionToByte range.stop).run between = (.ok bytes.stop, later) ∧
        bytes.start < bytes.stop ∧ bytes.stop ≤ Utf8.size converter.text := by
  rw [lspRangeToByteRange, Conversion.run_bind_eq_ok]
  constructor
  · rintro ⟨start, between, first, ran⟩
    obtain ⟨stop, last, second, ran⟩ := Conversion.run_bind_eq_ok.mp ran
    split_ifs at ran with invalid
    · rw [Conversion.run_throw] at ran
      cases ran
    · rw [Conversion.run_pure, Prod.mk.injEq, Except.ok.injEq] at ran
      obtain ⟨rfl, rfl⟩ := ran
      exact ⟨between, first, second, by dsimp only; omega, by dsimp only; omega⟩
  · rintro ⟨between, first, second, nonempty, bounded⟩
    refine ⟨bytes.start, between, first, Conversion.run_bind_eq_ok.mpr ⟨bytes.stop, later, second, ?_⟩⟩
    rw [if_neg (by omega)]
    rfl

theorem lspRangeToByteRange_unique (indexed : converter.Indexed) {range : Range} {scanned later other last : ℕ} {bytes bytes' : ByteRange}
    (first : (converter.lspRangeToByteRange range).run scanned = (.ok bytes, later))
    (second : (converter.lspRangeToByteRange range).run other = (.ok bytes', last)) : bytes = bytes' := by
  obtain ⟨_, start, stop, -⟩ := lspRangeToByteRange_eq_ok.mp first
  obtain ⟨_, start', stop', -⟩ := lspRangeToByteRange_eq_ok.mp second
  cases bytes
  cases bytes'
  rw [ByteRange.mk.injEq]
  exact ⟨lspPositionToByte_unique indexed start start', lspPositionToByte_unique indexed stop stop'⟩

/-- The server range names these bytes. -/
def Converts (converter : PositionConverter) (range : Range) (bytes : ByteRange) : Prop :=
  ∃ scanned later, (converter.lspRangeToByteRange range).run scanned = (.ok bytes, later)

theorem Converts.unique (indexed : converter.Indexed) {range : Range} {bytes bytes' : ByteRange} (first : converter.Converts range bytes)
    (second : converter.Converts range bytes') : bytes = bytes' := by
  obtain ⟨_, _, first⟩ := first
  obtain ⟨_, _, second⟩ := second
  exact lspRangeToByteRange_unique indexed first second

theorem lspPositionToByte_isCharBoundary (indexed : converter.Indexed) {position : Position} {scanned later offset : ℕ}
    (ran : (converter.lspPositionToByte position).run scanned = (.ok offset, later)) :
    Utf8.isCharBoundary converter.text offset = true := by
  obtain ⟨before, content, terminator, after, front, back, part, covers, rfl⟩ := lspPositionToByte_ok indexed ran
  exact part.isCharBoundary covers.split

/-! ## Work -/

private theorem encodedUnitsFrom_charges {width : Char → ℕ} {content rest : List Char} {target byte units scanned later result : ℕ}
    (ran : (converter.encodedUnitsFrom width content target rest byte units).run scanned = (.ok result, later)) :
    later ≤ scanned + rest.length := by
  induction rest generalizing byte units scanned with
  | nil =>
    rw [encodedUnitsFrom, Conversion.run_pure] at ran
    exact (congrArg Prod.snd ran).ge
  | cons scalar rest ih =>
    rw [encodedUnitsFrom] at ran
    split_ifs at ran with reached
    · rw [Conversion.run_pure] at ran
      have same : scanned = later := congrArg Prod.snd ran
      omega
    · obtain ⟨_, between, charged, ran⟩ := Conversion.run_bind_eq_ok.mp ran
      obtain ⟨rfl, -⟩ := run_chargeCodePoint.mp charged
      obtain ⟨next, _, counted, ran⟩ := Conversion.run_bind_eq_ok.mp ran
      obtain ⟨-, rfl⟩ := Conversion.run_ofExcept_eq_ok.mp counted
      split_ifs at ran with over_
      · rw [Conversion.run_throw] at ran
        cases ran
      · have later := ih ran
        rw [List.length_cons]
        omega

/-- A position costs at most the scalars of its line. -/
theorem lspPositionToByte_charges (indexed : converter.Indexed) {position : Position} {scanned later offset : ℕ}
    (ran : (converter.lspPositionToByte position).run scanned = (.ok offset, later)) : later ≤ scanned + converter.text.length := by
  obtain ⟨bounds, _, lookup, ran⟩ := Conversion.run_bind_eq_ok.mp ran
  obtain ⟨bounded, rfl⟩ := Conversion.run_ofExcept_eq_ok.mp lookup
  obtain ⟨before, content, terminator, after, part, rfl⟩ := indexed.lineOf_bounds bounded
  obtain ⟨text, _, read, ran⟩ := Conversion.run_bind_eq_ok.mp ran
  obtain ⟨found, rfl⟩ := Conversion.run_ofExcept_eq_ok.mp read
  obtain rfl := Except.ok.inj (part.lineContent.symm.trans found)
  obtain ⟨relative, between, converted, ran⟩ := Conversion.run_bind_eq_ok.mp ran
  obtain ⟨-, rfl⟩ := Conversion.run_ofExcept_eq_ok.mp ran
  have shorter := part.content_le.2
  rw [characterToByte] at converted
  split at converted
  · obtain ⟨-, rfl⟩ := Conversion.run_ofExcept_eq_ok.mp converted
    exact Nat.le_add_right _ _
  · exact (encodedUnitsFrom_charges converted).trans (Nat.add_le_add_left shorter _)
  · exact (encodedUnitsFrom_charges converted).trans (Nat.add_le_add_left shorter _)

/-- A position that converts does so again with enough budget. -/
theorem lspPositionToByte_again (indexed : converter.Indexed) {position : Position} {scanned later offset other : ℕ}
    (ran : (converter.lspPositionToByte position).run scanned = (.ok offset, later))
    (budget : converter.Sufficient other converter.text.length) :
    ∃ last, (converter.lspPositionToByte position).run other = (.ok offset, last) ∧ last ≤ other + converter.text.length := by
  obtain ⟨before, content, terminator, after, front, back, part, covers, rfl⟩ := lspPositionToByte_ok indexed ran
  obtain ⟨last, again⟩ := lspPositionToByte_succeeds indexed part covers budget
  exact ⟨last, again, lspPositionToByte_charges indexed again⟩

theorem lspRangeToByteRange_charges (indexed : converter.Indexed) {range : Range} {scanned later : ℕ} {bytes : ByteRange}
    (ran : (converter.lspRangeToByteRange range).run scanned = (.ok bytes, later)) : later ≤ scanned + 2 * converter.text.length := by
  obtain ⟨between, start, stop, -⟩ := lspRangeToByteRange_eq_ok.mp ran
  have first := lspPositionToByte_charges indexed start
  have second := lspPositionToByte_charges indexed stop
  omega

theorem Converts.again (indexed : converter.Indexed) {range : Range} {bytes : ByteRange} (converts : converter.Converts range bytes)
    {scanned : ℕ} (budget : converter.Sufficient scanned (2 * converter.text.length)) :
    ∃ later, (converter.lspRangeToByteRange range).run scanned = (.ok bytes, later) := by
  obtain ⟨_, _, ran⟩ := converts
  obtain ⟨_, start, stop, nonempty, bounded⟩ := lspRangeToByteRange_eq_ok.mp ran
  rw [Sufficient] at budget
  obtain ⟨between, first, charged⟩ := lspPositionToByte_again indexed start
    (show converter.Sufficient scanned _ by rw [Sufficient]; omega)
  obtain ⟨last, second, -⟩ := lspPositionToByte_again indexed stop
    (show converter.Sufficient between _ by rw [Sufficient]; omega)
  exact ⟨last, lspRangeToByteRange_eq_ok.mpr ⟨between, first, second, nonempty, bounded⟩⟩

end PositionConverter

end Srcmv.Lsp
