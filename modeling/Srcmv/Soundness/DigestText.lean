import Srcmv.Model.Fs.Execution
import Srcmv.Model.Protocol.Digests
import Srcmv.Proofs.Protocol.Digests
import Srcmv.ToMathlib.Utf8

/-! # One spelling of a digest

The spelling of a digest is a prefix and two digits for each byte. Over bytes, writing pairs of digits
and joining pairs undo each other, so each of the readers accepts exactly the spellings, and reads the
digest that is spelled.
-/

namespace Srcmv.DigestText

open Srcmv.Core

/-- The digit of a nibble. -/
private def digitByte (nibble : UInt8) : UInt8 := if nibble < 10 then 48 + nibble else 87 + nibble

/-- The two digits of a byte. -/
private def spellByte (byte : UInt8) : Bytes := [digitByte (byte >>> 4), digitByte (byte &&& 15)]

private def spell (bytes : Bytes) : Bytes := bytes.flatMap spellByte

/-- The byte of two digits. -/
private def join (pair : UInt8 × UInt8) : UInt8 := hexNibble pair.1 <<< 4 ||| hexNibble pair.2

/-- Sixty-four digits. -/
private def Digits (hex : Bytes) : Prop := hex.length = 64 ∧ hex.all isLowerHexByte

/-! ## Single bytes -/

/-- Digits and bytes one by one. -/
private theorem tables :
    (∀ value < 256, (spellByte (UInt8.ofNat value)).all isLowerHexByte = true ∧
      (pairs (spellByte (UInt8.ofNat value))).map join = [UInt8.ofNat value] ∧
      Utf8.encode [Core.hexDigit (value / 16), Core.hexDigit (value % 16)] = spellByte (UInt8.ofNat value)) ∧
    (∀ value < 256, isLowerHexByte (UInt8.ofNat value) = true →
      digitByte (hexNibble (UInt8.ofNat value)) = UInt8.ofNat value ∧ (hexNibble (UInt8.ofNat value)).toNat < 16) ∧
    (∀ high < 16, ∀ low < 16,
      spellByte (UInt8.ofNat high <<< 4 ||| UInt8.ofNat low) = [digitByte (UInt8.ofNat high), digitByte (UInt8.ofNat low)]) ∧
    ∀ value < 256, hexDigit (UInt8.ofNat value) =
      if isLowerHexByte (UInt8.ofNat value) then some (hexNibble (UInt8.ofNat value)) else none := by
  decide +kernel

private theorem spell_one (byte : UInt8) : (spellByte byte).all isLowerHexByte = true ∧
    (pairs (spellByte byte)).map join = [byte] ∧
    Utf8.encode [Core.hexDigit (byte.toNat / 16), Core.hexDigit (byte.toNat % 16)] = spellByte byte := by
  have found := tables.1 byte.toNat byte.toNat_lt
  rwa [UInt8.ofNat_toNat] at found

private theorem join_one {high low : UInt8} (highDigit : isLowerHexByte high = true) (lowDigit : isLowerHexByte low = true) :
    spellByte (join (high, low)) = [high, low] := by
  have highNibble := tables.2.1 high.toNat high.toNat_lt
  have lowNibble := tables.2.1 low.toNat low.toNat_lt
  rw [UInt8.ofNat_toNat] at highNibble lowNibble
  obtain ⟨highSame, highSmall⟩ := highNibble highDigit
  obtain ⟨lowSame, lowSmall⟩ := lowNibble lowDigit
  have joined := tables.2.2.1 _ highSmall _ lowSmall
  rw [UInt8.ofNat_toNat, UInt8.ofNat_toNat, highSame, lowSame] at joined
  exact joined

private theorem hexDigit_eq (byte : UInt8) : hexDigit byte = if isLowerHexByte byte then some (hexNibble byte) else none := by
  have found := tables.2.2.2 byte.toNat byte.toNat_lt
  rwa [UInt8.ofNat_toNat] at found

/-! ## All bytes -/

private theorem spell_spec (bytes : Bytes) :
    (spell bytes).all isLowerHexByte = true ∧ (pairs (spell bytes)).map join = bytes ∧ (spell bytes).length = 2 * bytes.length := by
  induction bytes with
  | nil => exact ⟨rfl, rfl, rfl⟩
  | cons byte rest ih =>
    obtain ⟨digits, back, length⟩ := ih
    obtain ⟨first, single, -⟩ := spell_one byte
    have shape : spell (byte :: rest) = digitByte (byte >>> 4) :: digitByte (byte &&& 15) :: spell rest := rfl
    rw [spellByte, List.all_cons, List.all_cons, List.all_nil, Bool.and_true] at first
    rw [spellByte, pairs, pairs, List.map_singleton] at single
    refine ⟨?_, ?_, ?_⟩
    · rw [shape, List.all_cons, List.all_cons, digits, ← Bool.and_assoc, first]
      rfl
    · rw [shape, pairs, List.map_cons, back, (List.cons.inj single).1]
    · rw [shape, List.length_cons, List.length_cons, length, List.length_cons]
      omega
    · intro high low rest shape
      cases shape

/-- Digits are those of the bytes they are joined to. -/
private theorem spell_pairs {hex : Bytes} (digits : hex.all isLowerHexByte = true) (even : hex.length % 2 = 0) :
    spell ((pairs hex).map join) = hex := by
  induction hex using pairs.induct with
  | case1 high low rest ih =>
    rw [List.all_cons, List.all_cons, Bool.and_eq_true, Bool.and_eq_true] at digits
    obtain ⟨highDigit, lowDigit, digits⟩ := digits
    have later := ih digits (by rw [List.length_cons, List.length_cons] at even; omega)
    rw [spell] at later ⊢
    rw [pairs, List.map_cons, List.flatMap_cons, later, join_one highDigit lowDigit]
    rfl
  | case2 hex other =>
    rcases hex with _ | ⟨high, _ | ⟨low, rest⟩⟩
    · rfl
    · cases even
    · exact absurd rfl (other high low rest)

/-- The parser of transactions joins the pairs when all are digits. -/
private theorem mapM_parsePair {hex : Bytes} (even : hex.length % 2 = 0) :
    (pairs hex).mapM parsePair = if hex.all isLowerHexByte then some ((pairs hex).map join) else none := by
  induction hex using pairs.induct with
  | case1 high low rest ih =>
    rw [pairs, List.mapM_cons, ih (by rw [List.length_cons, List.length_cons] at even; omega), parsePair, hexDigit_eq,
      hexDigit_eq, List.all_cons, List.all_cons]
    cases isLowerHexByte high <;> cases isLowerHexByte low <;> cases rest.all isLowerHexByte <;> rfl
  | case2 hex other =>
    rcases hex with _ | ⟨high, _ | ⟨low, rest⟩⟩
    · rfl
    · cases even
    · exact absurd rfl (other high low rest)

/-! ## Texts -/

private theorem encode_flatMap (bytes : Bytes) :
    Utf8.encode (bytes.flatMap fun byte => [Core.hexDigit (byte.toNat / 16), Core.hexDigit (byte.toNat % 16)]) = spell bytes := by
  induction bytes with
  | nil => rfl
  | cons byte rest ih =>
    rw [List.flatMap_cons, Utf8.encode_append, ih, (spell_one byte).2.2]
    rfl

private theorem utf8Bytes_toPrefixedHex (digest : Sha256Digest) :
    utf8Bytes digest.toPrefixedHex = utf8Bytes "sha256:" ++ spell digest.bytes := by
  have chars : digest.toPrefixedHex.toList = "sha256:".toList ++ digest.bytes.flatMap fun byte =>
      [Core.hexDigit (byte.toNat / 16), Core.hexDigit (byte.toNat % 16)] := String.toList_ofList
  change Utf8.encode digest.toPrefixedHex.toList = Utf8.encode "sha256:".toList ++ _
  rw [chars, Utf8.encode_append, encode_flatMap]

private theorem stripDigestPrefix_eq_some {value : String} {hex : Bytes} :
    stripDigestPrefix value = some hex ↔ utf8Bytes value = utf8Bytes "sha256:" ++ hex := by
  rw [stripDigestPrefix]
  constructor
  · intro stripped
    split_ifs at stripped with begins
    obtain ⟨rest, same⟩ := List.isPrefixOf_iff_prefix.mp begins
    rw [← same, List.drop_left] at stripped
    rw [← same, Option.some.inj stripped]
  · intro shape
    rw [shape, List.drop_left, if_pos (List.isPrefixOf_iff_prefix.mpr (List.prefix_append _ _))]

/-- A text spells a digest when the digest is what its digits are joined to. -/
private theorem spelling_iff {digest : Sha256Digest} {value : String} : digest.toPrefixedHex = value ↔
    ∃ hex, stripDigestPrefix value = some hex ∧ Digits hex ∧ digest.bytes = (pairs hex).map join := by
  obtain ⟨digits, back, length⟩ := spell_spec digest.bytes
  constructor
  · rintro rfl
    refine ⟨spell digest.bytes, stripDigestPrefix_eq_some.mpr (utf8Bytes_toPrefixedHex digest), ⟨?_, digits⟩, back.symm⟩
    rw [length, digest.size]
  · rintro ⟨hex, stripped, ⟨count, digits⟩, same⟩
    have bytes : utf8Bytes digest.toPrefixedHex = utf8Bytes value := by
      rw [utf8Bytes_toPrefixedHex, same, spell_pairs digits (by rw [count]), stripDigestPrefix_eq_some.mp stripped]
    exact String.toList_inj.mp (Utf8.encode_injective bytes)

/-! ## The readers -/

theorem parseSha256_eq_ok_iff {value field : String} {digest : Sha256Digest} :
    parseSha256 value field = .ok digest ↔ digest.toPrefixedHex = value := by
  rw [spelling_iff, parseSha256]
  cases stripDigestPrefix value with
  | none => simp
  | some hex =>
    dsimp only
    by_cases digits : hex.length = 64 ∧ hex.all isLowerHexByte
    · rw [dif_pos digits, Except.ok.injEq, Sha256Digest.mk.injEq]
      exact ⟨fun same => ⟨hex, rfl, digits, same.symm⟩, fun ⟨_, same, _, bytes⟩ => Option.some.inj same ▸ bytes.symm⟩
    · rw [dif_neg digits]
      constructor
      · intro impossible
        cases impossible
      · rintro ⟨_, same, valid, -⟩
        exact absurd (Option.some.inj same ▸ valid) digits

theorem parseDigest_eq_ok_iff {value : String} {digest : Sha256Digest} :
    parseDigest value = .ok digest ↔ digest.toPrefixedHex = value := by
  rw [spelling_iff, parseDigest]
  cases stripDigestPrefix value with
  | none => simp
  | some hex =>
    dsimp only
    by_cases length : hex.length = 64
    · rw [if_neg (not_not.mpr length), mapM_parsePair (by rw [length])]
      by_cases digits : hex.all isLowerHexByte
      · have size : ((pairs hex).map join).length = 32 := by rw [List.length_map, length_pairs, length]
        rw [if_pos digits]
        dsimp only
        rw [digestOf, dif_pos size, Except.ok.injEq, Sha256Digest.mk.injEq]
        exact ⟨fun same => ⟨hex, rfl, ⟨length, digits⟩, same.symm⟩, fun ⟨_, same, _, bytes⟩ => Option.some.inj same ▸ bytes.symm⟩
      · rw [if_neg digits]
        constructor
        · intro impossible
          cases impossible
        · rintro ⟨_, same, valid, -⟩
          exact absurd (Option.some.inj same ▸ valid).2 digits
    · rw [if_pos length]
      constructor
      · intro impossible
        cases impossible
      · rintro ⟨_, same, valid, -⟩
        exact absurd (Option.some.inj same ▸ valid).1 length

theorem validateDigest_eq_ok_iff {value : String} {id : Option String} :
    validateDigest value id = .ok () ↔ ∃ digest : Sha256Digest, digest.toPrefixedHex = value := by
  simp only [spelling_iff]
  rw [validateDigest]
  cases stripDigestPrefix value with
  | none => simp
  | some hex =>
    dsimp only
    by_cases digits : hex.length = 64 ∧ hex.all isLowerHexByte
    · rw [if_pos digits]
      refine ⟨fun _ => ⟨⟨(pairs hex).map join, ?_⟩, hex, rfl, digits, rfl⟩, fun _ => rfl⟩
      rw [List.length_map, length_pairs, digits.1]
    · rw [if_neg digits]
      constructor
      · intro impossible
        cases impossible
      · rintro ⟨_, _, same, valid, -⟩
        exact absurd (Option.some.inj same ▸ valid) digits

/-! ## The readers of characters -/

/-- Readers that accept the same and have one failure are equal. -/
private theorem eq_of_agree {ε α : Type} {left right : Except ε α} {failure : ε}
    (agree : ∀ value, left = .ok value ↔ right = .ok value) (leftFails : ∀ found, left = .error found → found = failure)
    (rightFails : ∀ found, right = .error found → found = failure) : left = right := by
  cases found : left with
  | ok value => exact ((agree value).mp found).symm
  | error first =>
    cases found' : right with
    | ok value =>
      rw [(agree value).mpr found'] at found
      cases found
    | error second => rw [leftFails first found, rightFails second found']

theorem parseSha256_eq (value field : String) : parseSha256 value field = Protocol.parseSha256 value field := by
  apply eq_of_agree
  · intro digest
    rw [parseSha256_eq_ok_iff, Protocol.parseSha256_eq_ok]
    exact eq_comm
  · intro failure rejected
    unfold parseSha256 at rejected
    split at rejected
    · exact (Except.error.inj rejected).symm
    · split_ifs at rejected
      exact (Except.error.inj rejected).symm
  · intro failure rejected
    rw [Protocol.parseSha256] at rejected
    split_ifs at rejected
    exact (Except.error.inj rejected).symm

theorem parseDigest_eq (value : String) : parseDigest value = Fs.parseDigest value := by
  apply eq_of_agree
  · intro digest
    rw [parseDigest_eq_ok_iff, Fs.parseDigest_eq_ok]
    exact eq_comm
  · intro failure rejected
    unfold parseDigest at rejected
    split at rejected
    · exact (Except.error.inj rejected).symm
    · split_ifs at rejected
      · exact (Except.error.inj rejected).symm
      · split at rejected
        · exact (Except.error.inj rejected).symm
        · rw [digestOf] at rejected
          split_ifs at rejected
          exact (Except.error.inj rejected).symm
  · intro failure rejected
    unfold Fs.parseDigest at rejected
    split at rejected
    · exact (Except.error.inj rejected).symm
    · split_ifs at rejected
      exact (Except.error.inj rejected).symm

theorem validateDigest_eq (value : String) (id : Option String) : validateDigest value id = Fs.validateDigest value id := by
  apply eq_of_agree
  · intro _
    have chars : Fs.validateDigest value id = .ok () ↔ ∃ digest, Protocol.parseSha256 value "" = .ok digest := by
      have shape : Fs.validateDigest value id = if "sha256:".toList.isPrefixOf value.toList ∧
          (value.toList.drop 7).length = 64 ∧ (value.toList.drop 7).all Protocol.isLowerHex then .ok ()
          else .error (Fs.corrupt id "record_digest_invalid") := rfl
      rw [shape, Protocol.parseSha256]
      by_cases valid : "sha256:".toList.isPrefixOf value.toList ∧ (value.toList.drop 7).length = 64 ∧
          (value.toList.drop 7).all Protocol.isLowerHex
      · rw [if_pos valid, dif_pos valid]
        exact iff_of_true rfl ⟨_, rfl⟩
      · rw [if_neg valid, dif_neg valid]
        simp
    rw [validateDigest_eq_ok_iff, chars]
    exact exists_congr fun digest => eq_comm.trans Protocol.parseSha256_eq_ok.symm
  · intro failure rejected
    unfold validateDigest at rejected
    split at rejected
    · exact (Except.error.inj rejected).symm
    · split_ifs at rejected
      exact (Except.error.inj rejected).symm
  · intro failure rejected
    rw [Fs.validateDigest] at rejected
    split_ifs at rejected
    exact (Except.error.inj rejected).symm

/-! ## One format -/

/-- The spelling of a digest is read back by both parsers, nothing else is read, and the validator accepts
what they read. -/
theorem digest_text_is_one_format (value field : String) (id : Option String) (digest : Sha256Digest) :
    (parseSha256 digest.toPrefixedHex field = .ok digest ∧ parseDigest digest.toPrefixedHex = .ok digest) ∧
    (parseSha256 value field = .ok digest ↔ digest.toPrefixedHex = value) ∧
    (parseDigest value = .ok digest ↔ digest.toPrefixedHex = value) ∧
    ((∃ result, parseSha256 value field = .ok result) ↔ validateDigest value id = .ok ()) ∧
    ((∃ result, parseDigest value = .ok result) ↔ validateDigest value id = .ok ()) := by
  refine ⟨⟨parseSha256_eq_ok_iff.mpr rfl, parseDigest_eq_ok_iff.mpr rfl⟩, parseSha256_eq_ok_iff, parseDigest_eq_ok_iff, ?_, ?_⟩
  · rw [validateDigest_eq_ok_iff]
    exact exists_congr fun _ => parseSha256_eq_ok_iff
  · rw [validateDigest_eq_ok_iff]
    exact exists_congr fun _ => parseDigest_eq_ok_iff

end Srcmv.DigestText
