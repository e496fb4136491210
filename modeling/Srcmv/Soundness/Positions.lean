import Srcmv.Proofs.Lsp.Ranges

/-! # Positions round-trip

A server position and a byte offset that convert name the same prefix of the content of a line. The
two directions compute it with loops of their own, one by counting units and clamping, the other by
searching the line; they agree in every encoding.
-/

namespace Srcmv.Lsp

open Srcmv.Core

namespace PositionConverter

variable {converter : PositionConverter}

/-- An accepted byte offset is returned for its position. -/
private theorem byte_round_trips (indexed : converter.Indexed) {offset scanned later other : ℕ} {position : Position}
    (converted : (converter.byteToLspPosition offset).run scanned = (.ok position, later))
    (budget : converter.Sufficient other converter.text.length) :
    ∃ last, (converter.lspPositionToByte position).run other = (.ok offset, last) := by
  obtain ⟨before, content, terminator, after, front, back, part, split, rfl, counts⟩ :=
    byteToLspPosition_ok indexed converted
  refine lspPositionToByte_succeeds indexed part ⟨split, ?_⟩ budget
  rw [counts, split, Utf8.weight_append]
  omega

/-- An accepted position is returned for its byte offset, with an oversized character lowered. -/
private theorem position_round_trips (indexed : converter.Indexed) {offset scanned later other : ℕ} {position : Position}
    (converted : (converter.lspPositionToByte position).run scanned = (.ok offset, later))
    (budget : converter.Sufficient other converter.text.length) :
    ∃ bounds content, converter.lineBounds position.line = .ok bounds ∧ converter.lineContent bounds = .ok content ∧
      ∃ character last, (converter.byteToLspPosition offset).run other = (.ok ⟨position.line, character⟩, last) ∧
        character.toNat = min position.character.toNat (Utf8.weight converter.encoding.width content) := by
  obtain ⟨before, content, terminator, after, front, back, part, covers, rfl⟩ := lspPositionToByte_ok indexed converted
  have small : min position.character.toNat (Utf8.weight converter.encoding.width content) < 2 ^ 32 :=
    lt_of_le_of_lt (min_le_left _ _) position.character.toNat_lt
  obtain ⟨character, lowered⟩ : ∃ character : UInt32,
      character.toNat = min position.character.toNat (Utf8.weight converter.encoding.width content) :=
    ⟨_, UInt32.toNat_ofNat_of_lt' small⟩
  have located : LineOf converter (Position.mk position.line character).line before content terminator after := part
  obtain ⟨last, ran⟩ := byteToLspPosition_succeeds indexed located covers.split (lowered.trans covers.units.symm) budget
  exact ⟨_, content, part.bounds, part.lineContent, character, last, ran, lowered⟩

/-- Positions and byte offsets round-trip in every encoding, and conversion preserves their order. -/
theorem server_positions_round_trip (indexed : converter.Indexed) :
    (∀ offset position scanned later other, (converter.byteToLspPosition offset).run scanned = (.ok position, later) →
      converter.Sufficient other converter.text.length →
      ∃ last, (converter.lspPositionToByte position).run other = (.ok offset, last)) ∧
    (∀ position offset scanned later other, (converter.lspPositionToByte position).run scanned = (.ok offset, later) →
      converter.Sufficient other converter.text.length →
      ∃ bounds content, converter.lineBounds position.line = .ok bounds ∧ converter.lineContent bounds = .ok content ∧
        ∃ character last, (converter.byteToLspPosition offset).run other = (.ok ⟨position.line, character⟩, last) ∧
          character.toNat = min position.character.toNat (Utf8.weight converter.encoding.width content)) ∧
    ∀ lower upper scanned later other last start stop,
      (converter.lspPositionToByte lower).run scanned = (.ok start, later) →
      (converter.lspPositionToByte upper).run other = (.ok stop, last) →
      (lower.line < upper.line ∨ lower.line = upper.line ∧ lower.character ≤ upper.character) → start ≤ stop :=
  ⟨fun _ _ _ _ _ => byte_round_trips indexed, fun _ _ _ _ _ => position_round_trips indexed,
    fun _ _ _ _ _ _ _ _ => lspPositionToByte_monotone indexed⟩

section Example

/-- A surrogate pair and a CRLF in front of an unterminated line. -/
def exampleConverter : PositionConverter := ⟨"a𝄞\r\nb".toList, ⟨[7, 8]⟩, .utf16, {}⟩

theorem exampleConverter_indexed : exampleConverter.Indexed := ⟨⟨9, 99, by decide⟩, by decide⟩

/-- An oversized character comes back as the length of the content. -/
theorem server_positions_round_trip_example : ∃ character last,
    (exampleConverter.byteToLspPosition 5).run 0 = (.ok ⟨0, character⟩, last) ∧ character.toNat = 3 := by
  obtain ⟨bounds, content, bounded, found, character, last, ran, lowered⟩ :=
    (server_positions_round_trip exampleConverter_indexed).2.1 ⟨0, 9⟩ 5 0 2 0 (by decide) (by decide)
  refine ⟨character, last, ran, ?_⟩
  have line : exampleConverter.lineBounds 0 = .ok ⟨0, 0, 5⟩ := by decide
  obtain rfl := Except.ok.inj (bounded.symm.trans line)
  have text : exampleConverter.lineContent ⟨0, 0, 5⟩ = .ok "a𝄞".toList := by decide
  obtain rfl := Except.ok.inj (found.symm.trans text)
  exact lowered

end Example

end PositionConverter

end Srcmv.Lsp
