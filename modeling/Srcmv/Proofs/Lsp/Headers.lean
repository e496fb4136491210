import Srcmv.Proofs.Lsp.Frames

/-! # Generated headers

A generated header names one field with a decimal length. Its text has no carriage return, so that
the header ends where it was generated to end, and it is parsed to the length it was printed from.
-/

namespace Srcmv.Lsp

open Srcmv.Core

variable {limits : FramingLimits}

/-! ## Decimal lengths -/

private theorem digit_range {char : Char} (digit : char.isDigit) : 48 ≤ char.toNat ∧ char.toNat ≤ 57 := by
  rw [Char.isDigit, Bool.and_eq_true, decide_eq_true_iff, decide_eq_true_iff] at digit
  exact ⟨UInt32.le_iff_toNat_le.mp digit.1, UInt32.le_iff_toNat_le.mp digit.2⟩

private theorem digit_toNat {char : Char} (digit : char.isDigit) : char.val.toUInt8.toNat = char.toNat := by
  obtain ⟨-, high⟩ := digit_range digit
  change char.val.toNat % 256 = char.val.toNat
  exact Nat.mod_eq_of_lt (lt_of_le_of_lt high (by decide))

private theorem mem_decimal {number : ℕ} {byte : UInt8} (mem : byte ∈ decimal number) : 48 ≤ byte.toNat ∧ byte.toNat ≤ 57 := by
  obtain ⟨char, found, rfl⟩ := List.mem_map.mp mem
  have digit : char.isDigit := Nat.isDigit_of_mem_toDigits (by decide) (by decide) found
  rw [digit_toNat digit]
  exact digit_range digit

private theorem decimal_ne_nil (number : ℕ) : decimal number ≠ [] := by
  rw [decimal, Ne, List.map_eq_nil_iff]
  exact Nat.toDigits_ne_nil

/-- Every number read on the way is at most the last one, hence no addition overflows. -/
private theorem foldlM_digits (chars : List Char) (length : ℕ) (digits : ∀ char ∈ chars, char.isDigit)
    (bounded : Nat.ofDigitChars 10 chars length ≤ usizeMax) :
    (chars.map fun char => char.val.toUInt8).foldlM (fun (length : ℕ) (digit : UInt8) =>
      if length * 10 + (digit - 48).toNat ≤ usizeMax then Except.ok (length * 10 + (digit - 48).toNat)
      else .error JsonRpcError.contentLengthOverflow) length = .ok (Nat.ofDigitChars 10 chars length) := by
  induction chars generalizing length with
  | nil =>
    rw [Nat.ofDigitChars_nil]
    rfl
  | cons char chars ih =>
    obtain ⟨digit, later⟩ := List.forall_mem_cons.mp digits
    have low : (48 : UInt8) ≤ char.val.toUInt8 := by
      rw [UInt8.le_iff_toNat_le, digit_toNat digit]
      exact (digit_range digit).1
    have value : (char.val.toUInt8 - 48).toNat = char.toNat - '0'.toNat := by
      rw [UInt8.toNat_sub_of_le _ _ low, digit_toNat digit]
      rfl
    have next : length * 10 + (char.val.toUInt8 - 48).toNat = 10 * length + (char.toNat - '0'.toNat) := by
      rw [value, Nat.mul_comm]
    rw [Nat.ofDigitChars_cons] at bounded ⊢
    have partial_ : 10 * length + (char.toNat - '0'.toNat) ≤ usizeMax := by
      rw [Nat.ofDigitChars_eq_ofDigitChars_zero] at bounded
      exact le_trans (le_trans (Nat.le_mul_of_pos_left _ (Nat.pow_pos (by decide))) (Nat.le_add_right _ _)) bounded
    rw [List.map_cons, List.foldlM_cons, next, if_pos partial_]
    exact ih _ later bounded

theorem parseContentLength_decimal {number : ℕ} (bounded : number ≤ usizeMax) :
    parseContentLength (decimal number) = .ok number := by
  have accepted : ¬(decimal number = [] ∨ !(decimal number).all isAsciiDigit) := by
    rintro (empty | other)
    · exact decimal_ne_nil number empty
    · have digits : (decimal number).all isAsciiDigit = true := by
        refine List.all_eq_true.mpr fun byte mem => ?_
        rw [isAsciiDigit, Bool.and_eq_true, decide_eq_true_iff, decide_eq_true_iff]
        exact ⟨UInt8.le_iff_toNat_le.mpr (mem_decimal mem).1, UInt8.le_iff_toNat_le.mpr (mem_decimal mem).2⟩
      rw [digits] at other
      cases other
  have folded := foldlM_digits (Nat.toDigits 10 number) 0
    (fun _ mem => Nat.isDigit_of_mem_toDigits (by decide) (by decide) mem) (by
      rw [Nat.ofDigitChars_ten_toDigits]
      exact bounded)
  rw [Nat.ofDigitChars_ten_toDigits] at folded
  rw [parseContentLength, rejectFrame, if_neg accepted]
  exact folded

/-! ## The text of a generated header -/

private def fieldText : Bytes := [67, 111, 110, 116, 101, 110, 116, 45, 76, 101, 110, 103, 116, 104, 58, 32]

private theorem frameHeader_eq (length : ℕ) : frameHeader length = (fieldText ++ decimal length) ++ terminator := rfl

/-- The text is printable ASCII. -/
private theorem mem_text {length : ℕ} {byte : UInt8} (mem : byte ∈ fieldText ++ decimal length) :
    32 ≤ byte.toNat ∧ byte.toNat < 127 := by
  rcases List.mem_append.mp mem with field | digit
  · have printable : ∀ byte ∈ fieldText, 32 ≤ byte.toNat ∧ byte.toNat < 127 := by simp [fieldText]
    exact printable byte field
  · have range := mem_decimal digit
    omega

private theorem return_not_mem_text (length : ℕ) : (13 : UInt8) ∉ fieldText ++ decimal length :=
  fun mem => absurd (mem_text mem).1 (by decide)

private theorem newline_not_mem_text (length : ℕ) : (10 : UInt8) ∉ fieldText ++ decimal length :=
  fun mem => absurd (mem_text mem).1 (by decide)

theorem splitLines_of_no_return {bytes : Bytes} (none : (13 : UInt8) ∉ bytes) : splitLines bytes = [bytes] := by
  induction bytes with
  | nil => rfl
  | cons byte rest ih =>
    obtain ⟨other, later⟩ := not_or.mp (List.mem_cons.not.mp none)
    rw [splitLines]
    · rw [ih later]
      rfl
    · rintro _ rfl -
      exact other rfl

private theorem encode_digits {chars : List Char} (digits : ∀ char ∈ chars, char.isDigit) :
    Utf8.encode chars = chars.map fun char => char.val.toUInt8 := by
  induction chars with
  | nil => rfl
  | cons char chars ih =>
    obtain ⟨digit, later⟩ := List.forall_mem_cons.mp digits
    have one : char.utf8Size = 1 := by
      rw [Char.utf8Size_eq_one_iff, UInt32.le_iff_toNat_le]
      exact (digit_range digit).2.trans (by decide)
    rw [Utf8.encode_cons, ih later, String.utf8EncodeChar_eq_singleton one]
    rfl

private theorem decode_text (length : ℕ) : (Utf8.decode (fieldText ++ decimal length)).isSome := by
  have digits : ∀ char ∈ Nat.toDigits 10 length, char.isDigit :=
    fun _ mem => Nat.isDigit_of_mem_toDigits (by decide) (by decide) mem
  have encoded : Utf8.encode ("Content-Length: ".toList ++ Nat.toDigits 10 length) = fieldText ++ decimal length := by
    rw [Utf8.encode_append, encode_digits digits]
    rfl
  rw [Utf8.decode_eq_some_iff.mpr encoded]
  rfl

private theorem dropWhile_blank {bytes : Bytes} (printed : ∀ byte ∈ bytes, 48 ≤ byte.toNat ∧ byte.toNat ≤ 57) :
    bytes.dropWhile isBlank = bytes := by
  cases bytes with
  | nil => rfl
  | cons byte rest =>
    have first := (printed byte (List.mem_cons_self ..)).1
    have solid : isBlank byte = false := by
      rw [isBlank, Bool.or_eq_false_iff, decide_eq_false_iff_not, decide_eq_false_iff_not]
      constructor <;>
      · rintro rfl
        exact absurd first (by decide)
    rw [List.dropWhile_cons_of_neg (by rw [solid]; exact Bool.false_ne_true)]

private theorem trim_decimal (length : ℕ) : trimAsciiWhitespace (32 :: decimal length) = decimal length := by
  have printed : ∀ byte ∈ (decimal length).reverse, 48 ≤ byte.toNat ∧ byte.toNat ≤ 57 :=
    fun byte mem => mem_decimal (List.mem_reverse.mp mem)
  rw [trimAsciiWhitespace, List.dropWhile_cons_of_pos (by decide), dropWhile_blank fun _ mem => mem_decimal mem,
    List.rdropWhile, dropWhile_blank printed, List.reverse_reverse]

/-- The field of a generated header. -/
private theorem parseLine_text {length : ℕ} (bounded : length ≤ usizeMax) :
    parseLine {} (fieldText ++ decimal length) = .ok ⟨some length, false⟩ := by
  have single : ¬((fieldText ++ decimal length).any fun byte => byte = 13 || byte = 10) = true := by
    intro found
    obtain ⟨byte, mem, broken⟩ := List.any_eq_true.mp found
    rw [Bool.or_eq_true, decide_eq_true_iff, decide_eq_true_iff] at broken
    rcases broken with rfl | rfl
    · exact return_not_mem_text length mem
    · exact newline_not_mem_text length mem
  have colon : (fieldText ++ decimal length).idxOf? 58 = some 14 := rfl
  have value : trimAsciiWhitespace ((fieldText ++ decimal length).drop (14 + 1)) = decimal length := trim_decimal length
  have named : (fieldText ++ decimal length).take 14 = utf8Bytes "Content-Length" := rfl
  have printed : (decimal length).all (fun byte => byte = 9 || (32 ≤ byte && byte ≤ 126)) = true := by
    refine List.all_eq_true.mpr fun byte mem => ?_
    have range := mem_decimal mem
    rw [Bool.or_eq_true, Bool.and_eq_true, decide_eq_true_iff, decide_eq_true_iff, decide_eq_true_iff]
    exact .inr ⟨UInt8.le_iff_toNat_le.mpr (le_trans (by decide) range.1),
      UInt8.le_iff_toNat_le.mpr (le_trans range.2 (by decide))⟩
  have wellFormed : ¬(utf8Bytes "Content-Length" = [] ∨ !(utf8Bytes "Content-Length").all isHeaderNameByte ∨
      !(decimal length).all fun byte => byte = 9 || (32 ≤ byte && byte ≤ 126)) := by
    rw [printed]
    decide
  rw [parseLine, rejectFrame, if_neg single, Except.ok_bind, colon]
  dsimp only
  rw [named, value, rejectFrame, if_neg wellFormed, Except.ok_bind, recordField, if_pos (by decide)]
  change (parseContentLength (decimal length) >>= _) = _
  rw [parseContentLength_decimal bounded]
  rfl

theorem parseHeader_frameHeader {length : ℕ} (bounded : length ≤ usizeMax) : parseHeader (frameHeader length) = .ok length := by
  have ended : terminator.isSuffixOf (frameHeader length) = true := by
    rw [List.isSuffixOf_iff_suffix, frameHeader_eq]
    exact List.suffix_append _ _
  have payload : (frameHeader length).take ((frameHeader length).length - terminator.length) = fieldText ++ decimal length := by
    rw [frameHeader_eq, List.length_append, Nat.add_sub_cancel, List.take_left']
    rfl
  have text : ¬(Utf8.decode (fieldText ++ decimal length)).isNone := by
    rw [Option.isNone_iff_eq_none, ← Option.not_isSome_iff_eq_none, not_not]
    exact decode_text length
  rw [parseHeader, ended, if_neg (by decide)]
  dsimp only
  rw [payload, rejectFrame, if_neg text, Except.ok_bind,
    splitLines_of_no_return (return_not_mem_text length), List.foldlM_cons, parseLine_text bounded]
  rfl

/-! ## The end of a header -/

/-- Bytes that do not end a header extend it. -/
private theorem nextFrame_open {back rest : Bytes} (front : Bytes) (ascii : ∀ byte ∈ back, byte.toNat < 128)
    (room : (front ++ back).length < limits.maxHeaderBytes)
    (open_ : ∀ part, part <+: back → part ≠ [] → terminator.isSuffixOf (front ++ part) = false) :
    nextFrame limits front (back ++ rest) = nextFrame limits (front ++ back) rest := by
  induction back generalizing front with
  | nil => rw [List.append_nil, List.nil_append]
  | cons byte back ih =>
    obtain ⟨first, later⟩ := List.forall_mem_cons.mp ascii
    have shape : front ++ byte :: back = (front ++ [byte]) ++ back := by rw [List.append_assoc]; rfl
    have low : ¬byte ≥ 128 := by
      rw [ge_iff_le, UInt8.le_iff_toNat_le, not_le]
      exact first
    have opened : terminator.isSuffixOf (front ++ [byte]) = false :=
      open_ [byte] (List.prefix_append [byte] back) (List.cons_ne_nil _ _)
    rw [shape] at room
    have length := room
    rw [List.length_append, List.length_append, List.length_singleton] at length
    rw [List.cons_append, nextFrame, if_neg (by omega), if_neg low, opened, if_neg Bool.false_ne_true,
      if_neg (by rw [List.length_append, List.length_singleton]; omega), shape]
    refine ih (front ++ [byte]) later room fun part within nonempty => ?_
    rw [List.append_assoc]
    exact open_ (byte :: part) ((List.prefix_cons_inj _).mpr within) (List.cons_ne_nil _ _)

/-- A generated frame is the next one. -/
theorem nextFrame_generated {body rest : Bytes} (bounded : body.length ≤ usizeMax)
    (inbound : body.length ≤ limits.maxInboundBodyBytes) (room : (frameHeader body.length).length ≤ limits.maxHeaderBytes) :
    nextFrame limits [] (frameHeader body.length ++ body ++ rest) = .ok (some body, rest) := by
  set front : Bytes := (fieldText ++ decimal body.length) ++ [13, 10, 13] with fronted
  have whole : frameHeader body.length = front ++ [10] := by
    rw [frameHeader_eq, fronted, List.append_assoc _ _ [10]]
    rfl
  have ascii : ∀ byte ∈ front, byte.toNat < 128 := by
    intro byte mem
    rcases List.mem_append.mp mem with text | ending
    · exact (mem_text text).2.trans (by decide)
    · have returns : ∀ byte ∈ ([13, 10, 13] : Bytes), byte.toNat < 128 := by simp
      exact returns byte ending
  -- Only the last byte ends the header: an earlier end has a carriage return in the text.
  have open_ : ∀ part, part <+: front → part ≠ [] → terminator.isSuffixOf ([] ++ part) = false := by
    intro part within nonempty
    rw [List.nil_append, Bool.eq_false_iff]
    intro ended
    obtain ⟨text, rfl⟩ := List.isSuffixOf_iff_suffix.mp ended
    have shorter : text.length < (fieldText ++ decimal body.length).length := by
      have length := within.length_le
      rw [fronted, List.length_append, List.length_append] at length
      exact Nat.lt_of_add_lt_add_right (n := 3) length
    obtain ⟨later, same⟩ := within
    have found : front[text.length]? = some 13 := by
      rw [← same, List.append_assoc, List.getElem?_append_right le_rfl, Nat.sub_self]
      rfl
    rw [fronted, List.getElem?_append_left shorter] at found
    exact return_not_mem_text _ (List.mem_of_getElem? found)
  have length : front.length < limits.maxHeaderBytes := by
    rw [whole, List.length_append, List.length_singleton] at room
    exact room
  have ended : terminator.isSuffixOf (front ++ [10]) = true := by
    rw [List.isSuffixOf_iff_suffix, ← whole, frameHeader_eq]
    exact List.suffix_append _ _
  have accepted : acceptLength limits (front ++ [10]) = .ok body.length := by
    rw [← whole, acceptLength, parseHeader_frameHeader bounded, Except.ok_bind, rejectFrame, if_neg (not_lt.mpr inbound)]
    rfl
  have stream : frameHeader body.length ++ body ++ rest = front ++ 10 :: (body ++ rest) := by
    rw [whole, List.append_assoc, List.append_assoc, List.singleton_append]
  rw [stream, nextFrame_open [] ascii length open_, List.nil_append, nextFrame, if_neg (by omega), if_neg (by decide), ended,
    if_pos rfl, accepted, Except.ok_bind, if_neg (by rw [List.length_append]; omega), List.take_left', List.drop_left']
  · rfl
  · rfl
  · rfl

end Srcmv.Lsp
