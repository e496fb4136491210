import Srcmv.Model.Fs.Execution
import Srcmv.Model.Protocol.Request

/-! # The wire spelling of digests

Only the spelling of a digest is parsed, and to this digest; the same goes for digests in records.
-/

namespace Srcmv.Protocol

open Srcmv.Core

private theorem hexNibble_hexDigit : ∀ nibble < 16, hexNibble (hexDigit nibble) = nibble ∧ isLowerHex (hexDigit nibble) = true := by
  decide

private theorem hexDigit_hexNibble {char : Char} (digit : isLowerHex char = true) :
    hexDigit (hexNibble char) = char ∧ hexNibble char < 16 := by
  have range : 48 ≤ char.toNat ∧ char.toNat ≤ 57 ∨ 97 ≤ char.toNat ∧ char.toNat ≤ 102 := by
    rw [isLowerHex, Bool.or_eq_true, Char.isDigit, Bool.and_eq_true, Bool.and_eq_true, decide_eq_true_iff, decide_eq_true_iff,
      decide_eq_true_iff, decide_eq_true_iff] at digit
    rcases digit with ⟨low, high⟩ | ⟨low, high⟩
    · exact .inl ⟨UInt32.le_iff_toNat_le.mp low, UInt32.le_iff_toNat_le.mp high⟩
    · exact .inr ⟨UInt32.le_iff_toNat_le.mp low, UInt32.le_iff_toNat_le.mp high⟩
  have each : ∀ code < 103, 48 ≤ code ∧ code ≤ 57 ∨ 97 ≤ code ∧ code ≤ 102 →
      hexDigit (hexNibble (Char.ofNat code)) = Char.ofNat code ∧ hexNibble (Char.ofNat code) < 16 := by decide
  have found := each char.toNat (by omega) range
  rw [Char.ofNat_toNat] at found
  exact found

/-- The digits of bytes. -/
private def spell (bytes : Bytes) : List Char :=
  bytes.flatMap fun byte => [hexDigit (byte.toNat / 16), hexDigit (byte.toNat % 16)]

private theorem hexBytes_spell (bytes : Bytes) : hexBytes (spell bytes) = bytes ∧ (spell bytes).all isLowerHex = true := by
  induction bytes with
  | nil => exact ⟨rfl, rfl⟩
  | cons byte rest ih =>
    have small := byte.toNat_lt
    obtain ⟨high, highDigit⟩ := hexNibble_hexDigit (byte.toNat / 16) (by omega)
    obtain ⟨low, lowDigit⟩ := hexNibble_hexDigit (byte.toNat % 16) (by omega)
    have same : byte.toNat / 16 * 16 + byte.toNat % 16 = byte.toNat := by omega
    rw [spell, List.flatMap_cons] at *
    rw [List.cons_append, List.cons_append, List.nil_append, hexBytes, high, low, same, UInt8.ofNat_toNat, List.all_cons,
      List.all_cons, highDigit, lowDigit]
    exact ⟨congrArg (byte :: ·) ih.1, ih.2⟩

private theorem length_spell (bytes : Bytes) : (spell bytes).length = 2 * bytes.length := by
  induction bytes with
  | nil => rfl
  | cons byte rest ih =>
    rw [spell, List.flatMap_cons, List.length_append, List.length_cons]
    rw [spell] at ih
    rw [ih]
    simp only [List.length_cons, List.length_nil]
    omega

private theorem spell_hexBytes {hex : List Char} (digits : hex.all isLowerHex = true) (even : hex.length % 2 = 0) :
    spell (hexBytes hex) = hex := by
  induction hex using hexBytes.induct with
  | case1 high low rest ih =>
    rw [List.all_cons, List.all_cons, Bool.and_eq_true, Bool.and_eq_true] at digits
    obtain ⟨highDigit, lowDigit, digits⟩ := digits
    obtain ⟨highSame, highSmall⟩ := hexDigit_hexNibble highDigit
    obtain ⟨lowSame, lowSmall⟩ := hexDigit_hexNibble lowDigit
    have value : (UInt8.ofNat (hexNibble high * 16 + hexNibble low)).toNat = hexNibble high * 16 + hexNibble low := by
      rw [UInt8.toNat_ofNat']
      omega
    have quotient : (hexNibble high * 16 + hexNibble low) / 16 = hexNibble high := by omega
    have remainder : (hexNibble high * 16 + hexNibble low) % 16 = hexNibble low := by omega
    have later := ih digits (by rw [List.length_cons, List.length_cons] at even; omega)
    rw [spell] at later ⊢
    rw [hexBytes, List.flatMap_cons, later, value, quotient, remainder, highSame, lowSame]
    rfl
  | case2 hex other =>
    rcases hex with _ | ⟨high, _ | ⟨low, rest⟩⟩
    · rfl
    · cases even
    · exact absurd rfl (other high low rest)

private theorem toPrefixedHex_toList (digest : Sha256Digest) : digest.toPrefixedHex.toList = "sha256:".toList ++ spell digest.bytes :=
  String.toList_ofList

theorem parseSha256_eq_ok {value field : String} {digest : Sha256Digest} :
    parseSha256 value field = .ok digest ↔ value = digest.toPrefixedHex := by
  rw [parseSha256]
  constructor
  · intro parsed
    split_ifs at parsed with valid
    obtain ⟨pref, length, digits⟩ := valid
    obtain rfl := Except.ok.inj parsed
    obtain ⟨hex, same⟩ := List.isPrefixOf_iff_prefix.mp pref
    have rest : value.toList.drop 7 = hex := by
      rw [← same]
      rfl
    rw [rest] at length digits
    have spelled : spell (hexBytes (value.toList.drop 7)) = hex := by
      rw [rest, spell_hexBytes digits (by rw [length])]
    rw [← String.toList_inj, toPrefixedHex_toList, spelled, same]
  · rintro rfl
    have rest : digest.toPrefixedHex.toList.drop 7 = spell digest.bytes := by
      rw [toPrefixedHex_toList]
      rfl
    obtain ⟨back, digits⟩ := hexBytes_spell digest.bytes
    rw [dif_pos]
    · rw [Except.ok.injEq, Sha256Digest.mk.injEq, rest, back]
    · rw [rest, length_spell, digest.size]
      refine ⟨?_, rfl, digits⟩
      rw [List.isPrefixOf_iff_prefix, toPrefixedHex_toList]
      exact List.prefix_append _ _

end Srcmv.Protocol

namespace Srcmv.Fs

open Srcmv.Core

private theorem nibbleOf_eq (char : Char) :
    nibbleOf char = if Protocol.isLowerHex char then some (Protocol.hexNibble char) else none := by
  unfold nibbleOf Protocol.isLowerHex Protocol.hexNibble
  by_cases digit : char.isDigit
  · simp [digit]
  · by_cases letter : 'a' ≤ char ∧ char ≤ 'f'
    · simp [digit, letter]
    · simp [digit, letter]

private theorem length_bytesOfHex {hex : List Char} {bytes : Bytes} (parsed : bytesOfHex hex = some bytes) :
    hex.length = 2 * bytes.length := by
  induction hex using bytesOfHex.induct generalizing bytes with
  | case1 => rw [← Option.some.inj parsed]; rfl
  | case2 high low rest ih =>
    rw [bytesOfHex] at parsed
    obtain ⟨_, -, parsed⟩ := Option.bind_eq_some_iff.mp parsed
    obtain ⟨_, -, parsed⟩ := Option.bind_eq_some_iff.mp parsed
    obtain ⟨later, found, parsed⟩ := Option.bind_eq_some_iff.mp parsed
    rw [← Option.some.inj parsed, List.length_cons, List.length_cons, List.length_cons, ih found]
    omega
  | case3 => cases parsed

private theorem bytesOfHex_eq {hex : List Char} (even : hex.length % 2 = 0) :
    bytesOfHex hex = if hex.all Protocol.isLowerHex then some (Protocol.hexBytes hex) else none := by
  induction hex using Protocol.hexBytes.induct with
  | case1 high low rest ih =>
    rw [bytesOfHex, ih (by rw [List.length_cons, List.length_cons] at even; omega), nibbleOf_eq, nibbleOf_eq,
      List.all_cons, List.all_cons]
    cases Protocol.isLowerHex high <;> cases Protocol.isLowerHex low <;> cases rest.all Protocol.isLowerHex <;> rfl
  | case2 hex other =>
    rcases hex with _ | ⟨high, _ | ⟨low, rest⟩⟩
    · rfl
    · cases even
    · exact absurd rfl (other high low rest)

private theorem parseDigest_eq_parseSha256 {value : String} {digest : Sha256Digest} :
    parseDigest value = .ok digest ↔ Protocol.parseSha256 value "" = .ok digest := by
  have opening : digestPrefix = "sha256:".toList := rfl
  rw [parseDigest, stripPrefix, opening, Protocol.parseSha256]
  by_cases begins : "sha256:".toList.isPrefixOf value.toList
  · have seven : "sha256:".toList.length = 7 := rfl
    rw [if_pos begins, Option.bind_some, seven]
    by_cases length : (value.toList.drop 7).length = 64
    · rw [bytesOfHex_eq (by rw [length])]
      by_cases digits : (value.toList.drop 7).all Protocol.isLowerHex
      · have size : (Protocol.hexBytes (value.toList.drop 7)).length = 32 := by rw [Protocol.length_hexBytes, length]
        rw [if_pos digits, dif_pos ⟨begins, length, digits⟩]
        dsimp only
        rw [dif_pos size, Except.ok.injEq, Except.ok.injEq]
      · rw [if_neg digits, dif_neg fun valid => digits valid.2.2]
        simp
    · rw [dif_neg fun valid => length valid.2.1]
      refine iff_of_false ?_ (by simp)
      intro parsed
      cases bytes : bytesOfHex (value.toList.drop 7) with
      | none => rw [bytes] at parsed; cases parsed
      | some bytes' =>
        rw [bytes] at parsed
        dsimp only at parsed
        split_ifs at parsed with size
        exact length (by rw [length_bytesOfHex bytes, size])
  · rw [if_neg begins, dif_neg fun valid => begins valid.1]
    simp

theorem parseDigest_eq_ok {value : String} {digest : Sha256Digest} :
    parseDigest value = .ok digest ↔ value = digest.toPrefixedHex :=
  parseDigest_eq_parseSha256.trans Protocol.parseSha256_eq_ok

end Srcmv.Fs
