import Srcmv.Soundness.Positions

/-! # User and server positions agree

Both searches select the same line for an offset, with different comparisons and ties. A column is
reported exactly for the offsets in the content of a line, which are those a server position can
name as long as its character, a `u32`, can count the units before them.
-/

namespace Srcmv.Lsp

open Srcmv.Core

namespace PositionConverter

variable {converter : PositionConverter}

/-- The text between the start of a numbered line and an offset. -/
def Precedes (converter : PositionConverter) (number offset : ℕ) (front : List Char) : Prop :=
  ∃ before after, converter.text = before ++ (front ++ after) ∧
    converter.lineIndex.lineStart number = some (Utf8.size before) ∧ offset = Utf8.size before + Utf8.size front

private theorem LineOf.precedes {line : UInt32} {before content terminator after front back : List Char}
    (part : LineOf converter line before content terminator after) (split : content = front ++ back) :
    Precedes converter (line.toNat + 1) (Utf8.size before + Utf8.size front) front :=
  ⟨before, back ++ (terminator ++ after), by rw [part.shape, split]; simp, part.start, rfl⟩

private theorem Precedes.unique {number offset : ℕ} {front other : List Char} (precedes : Precedes converter number offset front)
    (precedes' : Precedes converter number offset other) : front = other := by
  obtain ⟨before, after, shape, start, reached⟩ := precedes
  obtain ⟨before', after', shape', start', reached'⟩ := precedes'
  have starts := Option.some.inj (start.symm.trans start')
  obtain rfl : before = before' := Utf8.prefix_eq_of_size_eq ⟨_, shape.symm⟩ ⟨_, shape'.symm⟩ starts
  have rest : front ++ after = other ++ after' := List.append_cancel_left (shape.symm.trans shape')
  exact Utf8.prefix_eq_of_size_eq ⟨after, rest⟩ ⟨after', rfl⟩ (by omega)

/-- The line of an offset has one number. -/
private theorem LineOf.same_line (indexed : converter.Indexed) {line line' : UInt32}
    {before content terminator after front back before' content' terminator' after' front' back' : List Char}
    (part : LineOf converter line before content terminator after) (split : content = front ++ back)
    (part' : LineOf converter line' before' content' terminator' after') (split' : content' = front' ++ back')
    (same : Utf8.size before + Utf8.size front = Utf8.size before' + Utf8.size front') : line = line' := by
  have found := part.userLineForByte indexed (part.isCharBoundary split) (part.reaches_content split)
  rw [same, part'.userLineForByte indexed (part'.isCharBoundary split') (part'.reaches_content split')] at found
  exact (congrArg LineBounds.line (Except.ok.inj found)).symm

/-- A server position exists exactly when there is a column whose units fit a character. -/
private theorem converts_iff (indexed : converter.Indexed) {offset scanned other : ℕ}
    (budget : converter.Sufficient scanned converter.text.length) (budget' : converter.Sufficient other converter.text.length) :
    (∃ position later, (converter.byteToLspPosition offset).run scanned = (.ok position, later)) ↔
      ∃ number column later front, (converter.byteToUserLineScalar offset).run other = (.ok (number, some column), later) ∧
        Precedes converter number offset front ∧ Utf8.weight converter.encoding.width front < 2 ^ 32 := by
  constructor
  · rintro ⟨position, later, converted⟩
    obtain ⟨before, content, terminator, after, front, back, part, split, rfl, counts⟩ :=
      byteToLspPosition_ok indexed converted
    obtain ⟨last, ran⟩ := byteToUserLineScalar_succeeds indexed part split budget'
    exact ⟨_, _, last, front, ran, part.precedes split, counts ▸ position.character.toNat_lt⟩
  · rintro ⟨number, column, later, front, converted, precedes, small⟩
    obtain ⟨line, before, content, terminator, after, text, back, part, rfl, split, rfl, rfl⟩ :=
      byteToUserLineScalar_ok indexed converted
    obtain rfl := precedes.unique (part.precedes split)
    obtain ⟨character, counts⟩ : ∃ character : UInt32, character.toNat = Utf8.weight converter.encoding.width front :=
      ⟨_, UInt32.toNat_ofNat_of_lt' small⟩
    have located : LineOf converter (Position.mk line character).line before content terminator after := part
    obtain ⟨last, ran⟩ := byteToLspPosition_succeeds indexed located split counts budget
    exact ⟨_, last, ran⟩

/-- An offset has a server position if and only if it has a column and the units before it fit a
`u32`; the lines then differ by one, the column counts scalars, and columns and offsets round-trip. -/
theorem user_positions_agree (indexed : converter.Indexed) :
    (∀ offset scanned other, converter.Sufficient scanned converter.text.length →
      converter.Sufficient other converter.text.length →
      ((∃ position later, (converter.byteToLspPosition offset).run scanned = (.ok position, later)) ↔
        ∃ number column later front, (converter.byteToUserLineScalar offset).run other = (.ok (number, some column), later) ∧
          Precedes converter number offset front ∧ Utf8.weight converter.encoding.width front < 2 ^ 32)) ∧
    (∀ offset number column scanned later,
      (converter.byteToUserLineScalar offset).run scanned = (.ok (number, some column), later) →
      (∃ front, Precedes converter number offset front ∧ column = 1 + front.length) ∧
      (∀ position other last, (converter.byteToLspPosition offset).run other = (.ok position, last) →
        number = position.line.toNat + 1) ∧
      ∀ other, converter.Sufficient other converter.text.length →
        ∃ last, (converter.userLineScalarToByte number column).run other = (.ok offset, last)) ∧
    ∀ number column offset scanned later other,
      (converter.userLineScalarToByte number column).run scanned = (.ok offset, later) →
      converter.Sufficient other converter.text.length →
      ∃ last, (converter.byteToUserLineScalar offset).run other = (.ok (number, some column), last) := by
  refine ⟨fun _ _ _ => converts_iff indexed, ?_, ?_⟩
  · intro offset number column scanned later converted
    obtain ⟨line, before, content, terminator, after, front, back, part, rfl, split, rfl, rfl⟩ :=
      byteToUserLineScalar_ok indexed converted
    refine ⟨⟨front, part.precedes split, Nat.add_comm _ _⟩, ?_, ?_⟩
    · intro position other last ran
      obtain ⟨before', content', terminator', after', front', back', part', split', same, -⟩ := byteToLspPosition_ok indexed ran
      rw [part.same_line indexed split part' split' same]
    · exact fun other budget => userLineScalarToByte_succeeds indexed part split budget
  · intro number column offset scanned later other converted budget
    obtain ⟨line, before, content, terminator, after, front, back, part, rfl, split, rfl, rfl⟩ :=
      userLineScalarToByte_ok indexed converted
    exact byteToUserLineScalar_succeeds indexed part split budget

section Example

/-- The column behind a surrogate pair. -/
theorem user_positions_agree_example : ∃ last, (exampleConverter.byteToUserLineScalar 5).run 0 = (.ok (1, some 3), last) :=
  (user_positions_agree exampleConverter_indexed).2.2 1 3 5 0 2 0 (by decide) (by decide)

/-- A text without terminators is one line. -/
theorem LineOf.of_silent {text : List Char} (encoding : SupportedPositionEncoding) (limits : PositionLimits)
    (silent : ∀ byte ∈ Utf8.encode text, isTerminatorByte byte = false) :
    LineOf ⟨text, ⟨[Utf8.size text]⟩, encoding, limits⟩ 0 [] text [] [] := by
  have sliced : slice? (Utf8.encode text) ⟨0, Utf8.size text⟩ = some (Utf8.encode text) := by
    rw [slice?_of_le (Nat.zero_le _) (Utf8.length_encode text).ge, List.drop_zero, Nat.sub_zero,
      List.take_of_length_le (Utf8.length_encode text).le]
  have open_ (byte : UInt8) (terminator : isTerminatorByte byte = true) : [byte].isSuffixOf (Utf8.encode text) = false := by
    rw [Bool.eq_false_iff, ne_eq, List.isSuffixOf_iff_suffix]
    intro suffix
    have member := silent byte (suffix.subset (List.mem_singleton_self byte))
    rw [terminator] at member
    cases member
  have pair : [13, 10].isSuffixOf (Utf8.encode text) = false := by
    rw [Bool.eq_false_iff, ne_eq, List.isSuffixOf_iff_suffix]
    intro suffix
    have member := silent 10 (suffix.subset (by simp))
    cases member
  have length : terminatorLength (Utf8.encode text) = 0 := by
    rw [terminatorLength, pair, open_ 13 rfl, open_ 10 rfl]
    rfl
  have ends : contentEnd ⟨text, ⟨[Utf8.size text]⟩, encoding, limits⟩ 0 (Utf8.size text) = .ok (Utf8.size text) := by
    rw [contentEnd, sliced]
    dsimp only
    rw [length, if_pos (Nat.zero_le _)]
    rfl
  refine ⟨by simp, rfl, by simp [LineIndex.lineEnd], ?_, fun _ => rfl⟩
  change (do return LineBounds.mk 0 0 (← contentEnd ⟨text, ⟨[Utf8.size text]⟩, encoding, limits⟩ 0 (Utf8.size text))) = _
  rw [ends, Utf8.size_nil, Nat.zero_add]
  rfl

theorem replicate_silent (count : ℕ) :
    ∀ byte ∈ Utf8.encode (List.replicate count 'a'), isTerminatorByte byte = false := by
  intro byte member
  obtain ⟨char, listed, encoded⟩ := List.mem_flatMap.mp member
  obtain rfl := List.eq_of_mem_replicate listed
  have bytes : String.utf8EncodeChar 'a' = [97] := by decide
  rw [bytes, List.mem_singleton] at encoded
  rw [encoded]
  rfl

theorem weight_replicate (width : Char → ℕ) (count : ℕ) (char : Char) :
    Utf8.weight width (List.replicate count char) = count * width char := by
  rw [Utf8.weight, List.map_replicate, List.sum_replicate, smul_eq_mul]

/-- One line of so many letters. -/
def longLine (count : ℕ) : PositionConverter := ⟨List.replicate count 'a', ⟨[count]⟩, .utf8, ⟨2 ^ 33⟩⟩

theorem size_replicate (count : ℕ) : Utf8.size (List.replicate count 'a') = count := by
  rw [Utf8.size_eq_weight, weight_replicate]
  exact Nat.mul_one count

private theorem longLine_indexed {count : ℕ} (positive : 0 < count) (sized : count < 2 ^ 63) : (longLine count).Indexed := by
  have length : (Utf8.encode (List.replicate count 'a')).length = count := by rw [Utf8.length_encode, size_replicate]
  refine ⟨⟨1, 8, ?_⟩, (size_replicate count).symm ▸ sized⟩
  have built := LineIndex.fromBytes_of_silent (List.ne_nil_of_length_pos (length.symm ▸ positive)) (replicate_silent count)
    (Nat.le_refl 1) (Nat.le_refl 8)
  rw [length] at built
  exact built

/-- At the end of a line of four gibibytes there is a column, and no server position. -/
theorem long_line_has_no_position : ∃ scanned : ℕ, (longLine (2 ^ 32)).Indexed ∧ 0 < (longLine (2 ^ 32)).lineIndex.lineCount ∧
    (longLine (2 ^ 32)).Sufficient scanned (longLine (2 ^ 32)).text.length ∧
    Utf8.isCharBoundary (longLine (2 ^ 32)).text (2 ^ 32) = true ∧
    (∃ later, ((longLine (2 ^ 32)).byteToUserLineScalar (2 ^ 32)).run scanned = (.ok (1, some (2 ^ 32 + 1)), later)) ∧
    ¬∃ position later, ((longLine (2 ^ 32)).byteToLspPosition (2 ^ 32)).run scanned = (.ok position, later) := by
  have indexed : (longLine (2 ^ 32)).Indexed := longLine_indexed (by norm_num) (by norm_num)
  have size := size_replicate (2 ^ 32)
  have text : (longLine (2 ^ 32)).text = List.replicate (2 ^ 32) 'a' := rfl
  have part : LineOf (longLine (2 ^ 32)) 0 [] (longLine (2 ^ 32)).text [] [] := by
    have single := @LineOf.of_silent (List.replicate (2 ^ 32) 'a') .utf8 ⟨2 ^ 33⟩
      (replicate_silent (2 ^ 32))
    rw [size] at single
    exact single
  have split : (longLine (2 ^ 32)).text = (longLine (2 ^ 32)).text ++ [] := (List.append_nil _).symm
  have budget : (longLine (2 ^ 32)).Sufficient 0 (longLine (2 ^ 32)).text.length := by
    rw [Sufficient, text, List.length_replicate]
    norm_num [u64Max, longLine]
  obtain ⟨later, column⟩ := byteToUserLineScalar_succeeds indexed part split budget
  have boundary := part.isCharBoundary split
  rw [Utf8.size_nil, Nat.zero_add, text, size] at column boundary
  rw [List.length_replicate] at column
  refine ⟨0, indexed, Nat.one_pos, budget, boundary, ⟨later, column⟩, fun converts => ?_⟩
  obtain ⟨number, other, last, front, ran, precedes, small⟩ := (converts_iff indexed budget budget).mp converts
  have same : (1, some (2 ^ 32 + 1)) = (number, some other) := Except.ok.inj (congrArg Prod.fst (column.symm.trans ran))
  obtain ⟨rfl, -⟩ := Prod.mk.inj same
  have whole := part.precedes split
  rw [Utf8.size_nil, Nat.zero_add, text, size] at whole
  obtain rfl := precedes.unique whole
  rw [weight_replicate] at small
  exact absurd small (by decide)

end Example

end PositionConverter

end Srcmv.Lsp
