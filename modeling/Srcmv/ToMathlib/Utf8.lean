import Mathlib.Data.List.Basic
import Mathlib.Tactic

/-! # UTF-8 texts and their bytes

A text is a list of characters; its bytes are the concatenated encodings. An ASCII byte of a text is
a character of its own, so that cutting the bytes before or after one cuts the text. Byte offsets
between characters are the lengths of prefixes.
-/

namespace Utf8

/-- The bytes of a text. -/
def encode (text : List Char) : List UInt8 := text.flatMap String.utf8EncodeChar

/-- The text of the bytes, when they are valid. -/
def decode (bytes : List UInt8) : Option (List Char) := bytes.toByteArray.utf8Decode?.map Array.toList

@[simp] theorem encode_nil : encode [] = [] := rfl

@[simp] theorem encode_cons (char : Char) (text : List Char) :
    encode (char :: text) = String.utf8EncodeChar char ++ encode text := rfl

@[simp] theorem encode_append (front back : List Char) : encode (front ++ back) = encode front ++ encode back :=
  List.flatMap_append

theorem decode_encode (text : List Char) : decode (encode text) = some text := by
  have encoded : (encode text).toByteArray = text.utf8Encode := rfl
  rw [decode, encoded, List.utf8Decode?_utf8Encode]
  rfl

/-- Valid bytes are those of their text. -/
theorem decode_eq_some_iff {bytes : List UInt8} {text : List Char} : decode bytes = some text ↔ encode text = bytes := by
  constructor
  · intro decoded
    obtain ⟨chars, found, rfl⟩ := Option.map_eq_some_iff.mp decoded
    have back : (bytes.toByteArray.utf8Decode?.get (by rw [found]; rfl)).toList.utf8Encode = bytes.toByteArray :=
      ByteArray.utf8Encode_get_utf8Decode?
    have same : (encode chars.toList).toByteArray = bytes.toByteArray := by
      rw [← back]
      simp [found, encode, List.utf8Encode]
    exact List.toByteArray_inj.mp same
  · rintro rfl
    exact decode_encode text

theorem encode_injective : Function.Injective encode := by
  intro left right same
  have decoded := congrArg decode same
  rw [decode_encode, decode_encode] at decoded
  exact Option.some.inj decoded

/-! ## Sizes -/

/-- The length of the bytes. -/
def size (text : List Char) : ℕ := (text.map Char.utf8Size).sum

@[simp] theorem size_nil : size [] = 0 := rfl

@[simp] theorem size_cons (char : Char) (text : List Char) : size (char :: text) = char.utf8Size + size text := rfl

@[simp] theorem size_append (front back : List Char) : size (front ++ back) = size front + size back := by
  simp [size]

@[simp] theorem length_encode (text : List Char) : (encode text).length = size text := by
  induction text with
  | nil => rfl
  | cons char text ih => rw [encode_cons, List.length_append, String.length_utf8EncodeChar, ih, size_cons]

theorem length_le_size (text : List Char) : text.length ≤ size text := by
  induction text with
  | nil => exact le_rfl
  | cons char text ih =>
    have positive := char.utf8Size_pos
    rw [List.length_cons, size_cons]
    omega

/-! ## ASCII bytes -/

private theorem or_high {left right : UInt8} (high : 128 ≤ right.toNat) : 128 ≤ (left ||| right).toNat := by
  rw [UInt8.toNat_or]
  exact high.trans Nat.right_le_or

/-- A character is one ASCII byte, or has none. -/
theorem encodeChar_cases (char : Char) :
    String.utf8EncodeChar char = [char.val.toUInt8] ∧ char.toNat < 128 ∨
      ∀ byte ∈ String.utf8EncodeChar char, 128 ≤ byte.toNat := by
  rcases char.utf8Size_eq with one | two | three | four
  · refine .inl ⟨String.utf8EncodeChar_eq_singleton one, ?_⟩
    have small := UInt32.le_iff_toNat_le.mp (Char.utf8Size_eq_one_iff.mp one)
    exact Nat.lt_succ_of_le small
  · rw [String.utf8EncodeChar_eq_cons_cons two]
    simp only [List.forall_mem_cons]
    exact .inr ⟨or_high (by decide), or_high (by decide), by simp⟩
  · rw [String.utf8EncodeChar_eq_cons_cons_cons three]
    simp only [List.forall_mem_cons]
    exact .inr ⟨or_high (by decide), or_high (by decide), or_high (by decide), by simp⟩
  · rw [String.utf8EncodeChar_eq_cons_cons_cons_cons four]
    simp only [List.forall_mem_cons]
    exact .inr ⟨or_high (by decide), or_high (by decide), or_high (by decide), or_high (by decide), by simp⟩

/-- ASCII is valid as it is. -/
theorem decode_ascii {bytes : List UInt8} (ascii : ∀ byte ∈ bytes, byte.toNat < 128) : (decode bytes).isSome := by
  have encoded : encode (bytes.map Char.ofUInt8) = bytes := by
    induction bytes with
    | nil => rfl
    | cons byte bytes ih =>
      obtain ⟨low, others⟩ := List.forall_mem_cons.mp ascii
      have one : (Char.ofUInt8 byte).utf8Size = 1 :=
        Char.utf8Size_eq_one_iff.mpr (UInt32.le_iff_toNat_le.mpr (Nat.le_of_lt_succ low))
      rw [List.map_cons, encode_cons, ih others, String.utf8EncodeChar_eq_singleton one]
      exact congrArg (· :: bytes) (UInt8.toUInt8_toUInt32 byte)
  rw [decode_eq_some_iff.mpr encoded]
  rfl

/-- Bytes cut around an ASCII byte are cut around its character. -/
theorem encode_split {text : List Char} {front back : List UInt8} {byte : UInt8} (ascii : byte.toNat < 128)
    (shape : encode text = front ++ byte :: back) :
    ∃ before char after, text = before ++ char :: after ∧ encode before = front ∧ String.utf8EncodeChar char = [byte] ∧
      encode after = back := by
  induction text generalizing front with
  | nil => simp at shape
  | cons char text ih =>
    rw [encode_cons] at shape
    rcases encodeChar_cases char with ⟨single, small⟩ | high
    · rw [single, List.singleton_append] at shape
      cases front with
      | nil =>
        obtain ⟨rfl, rest⟩ := List.cons.inj shape
        exact ⟨[], char, text, rfl, rfl, single, rest⟩
      | cons first front =>
        obtain ⟨rfl, rest⟩ := List.cons.inj shape
        obtain ⟨before, found, after, rfl, rfl, encoded, rfl⟩ := ih rest
        exact ⟨char :: before, found, after, rfl, by rw [encode_cons, single]; rfl, encoded, rfl⟩
    · -- The ASCII byte comes after all bytes of this character.
      rcases List.append_eq_append_iff.mp shape with ⟨middle, rfl, rest⟩ | ⟨middle, same, rest⟩
      · obtain ⟨before, found, after, rfl, rfl, encoded, rfl⟩ := ih rest
        exact ⟨char :: before, found, after, rfl, rfl, encoded, rfl⟩
      · cases middle with
        | nil =>
          rw [List.nil_append] at rest
          have rest : encode text = [] ++ byte :: back := rest.symm
          obtain ⟨before, found, after, rfl, none, encoded, rfl⟩ := ih rest
          rw [List.append_nil] at same
          exact ⟨char :: before, found, after, rfl, by rw [encode_cons, none, List.append_nil, same], encoded, rfl⟩
        | cons first middle =>
          obtain ⟨rfl, -⟩ := List.cons.inj rest
          have above := high byte (by rw [same]; simp)
          omega

/-! ## Offsets between characters -/

/-- The text cut at a byte offset, when it lies between characters. -/
def splitAt? : List Char → ℕ → Option (List Char × List Char)
  | text, 0 => some ([], text)
  | [], _ + 1 => none
  | char :: text, offset + 1 =>
      if char.utf8Size ≤ offset + 1 then
        (splitAt? text (offset + 1 - char.utf8Size)).map fun parts => (char :: parts.1, parts.2)
      else none

/-- `str::is_char_boundary`. -/
def isCharBoundary (text : List Char) (offset : ℕ) : Bool := (splitAt? text offset).isSome

/-- `str::get` of a range of byte offsets. -/
def get (text : List Char) (start stop : ℕ) : Option (List Char) :=
  if start ≤ stop then do
    let (_, rest) ← splitAt? text start
    let (slice, _) ← splitAt? rest (stop - start)
    return slice
  else none

theorem splitAt?_eq_some_iff {text front back : List Char} {offset : ℕ} :
    splitAt? text offset = some (front, back) ↔ text = front ++ back ∧ size front = offset := by
  induction text, offset using splitAt?.induct generalizing front with
  | case1 text =>
    cases front with
    | nil => simp [splitAt?, eq_comm]
    | cons char front =>
      have positive := char.utf8Size_pos
      simp [splitAt?]
      omega
  | case2 offset => cases front <;> simp [splitAt?]
  | case3 char text offset inside ih =>
    rw [splitAt?, if_pos inside]
    cases front with
    | nil => simp
    | cons other front =>
      constructor
      · intro found
        obtain ⟨⟨first, last⟩, split, same⟩ := Option.map_eq_some_iff.mp found
        obtain ⟨⟨rfl, rfl⟩, rfl⟩ := Prod.mk.inj same |>.imp_left List.cons.inj
        obtain ⟨rfl, sized⟩ := ih.mp split
        exact ⟨rfl, by rw [size_cons, sized]; omega⟩
      · rintro ⟨shape, sized⟩
        obtain ⟨rfl, rest⟩ := List.cons.inj shape
        rw [size_cons] at sized
        rw [ih.mpr ⟨rest, by omega⟩]
        rfl
  | case4 char text offset outside =>
    rw [splitAt?, if_neg outside]
    cases front with
    | nil => simp
    | cons other front =>
      simp only [reduceCtorEq, List.cons_append, List.cons.injEq, size_cons, false_iff, not_and]
      rintro ⟨rfl, -⟩
      omega

theorem isCharBoundary_iff {text : List Char} {offset : ℕ} :
    isCharBoundary text offset = true ↔ ∃ front back, text = front ++ back ∧ size front = offset := by
  rw [isCharBoundary, Option.isSome_iff_exists]
  constructor
  · rintro ⟨⟨front, back⟩, split⟩
    exact ⟨front, back, splitAt?_eq_some_iff.mp split⟩
  · rintro ⟨front, back, split⟩
    exact ⟨(front, back), splitAt?_eq_some_iff.mpr split⟩

theorem get_eq_some_iff {text slice : List Char} {start stop : ℕ} :
    get text start stop = some slice ↔
      ∃ front back, text = front ++ (slice ++ back) ∧ size front = start ∧ start + size slice = stop := by
  rw [get]
  constructor
  · intro found
    split_ifs at found with ordered
    obtain ⟨⟨front, rest⟩, first, found⟩ := Option.bind_eq_some_iff.mp found
    obtain ⟨⟨middle, back⟩, second, found⟩ := Option.bind_eq_some_iff.mp found
    obtain rfl := Option.some.inj found
    obtain ⟨rfl, sized⟩ := splitAt?_eq_some_iff.mp first
    obtain ⟨rfl, length⟩ := splitAt?_eq_some_iff.mp second
    exact ⟨front, back, rfl, sized, by rw [length]; omega⟩
  · rintro ⟨front, back, rfl, rfl, rfl⟩
    rw [if_pos (Nat.le_add_right _ _), splitAt?_eq_some_iff.mpr ⟨rfl, rfl⟩, Nat.add_sub_cancel_left]
    change (splitAt? (slice ++ back) (size slice)).bind _ = _
    rw [splitAt?_eq_some_iff.mpr ⟨rfl, rfl⟩]
    rfl

/-! ## Weights -/

/-- The total width of the characters; the size is one of the weights. -/
def weight (width : Char → ℕ) (text : List Char) : ℕ := (text.map width).sum

theorem size_eq_weight (text : List Char) : size text = weight Char.utf8Size text := rfl

@[simp] theorem weight_nil (width : Char → ℕ) : weight width [] = 0 := rfl

@[simp] theorem weight_cons (width : Char → ℕ) (char : Char) (text : List Char) :
    weight width (char :: text) = width char + weight width text := rfl

@[simp] theorem weight_append (width : Char → ℕ) (front back : List Char) :
    weight width (front ++ back) = weight width front + weight width back := by
  simp [weight]

theorem weight_le_size {width : Char → ℕ} (within : ∀ char, width char ≤ char.utf8Size) (text : List Char) :
    weight width text ≤ size text :=
  List.sum_le_sum fun char _ => within char

/-- Among the prefixes of a text, a lighter one is a prefix of a heavier one. -/
theorem prefix_of_weight_le {width : Char → ℕ} (positive : ∀ char, 0 < width char) {front other text : List Char}
    (left : front <+: text) (right : other <+: text) (lighter : weight width front ≤ weight width other) :
    front <+: other := by
  rcases List.prefix_or_prefix_of_prefix left right with within | ⟨rest, rfl⟩
  · exact within
  · cases rest with
    | nil => rw [List.append_nil]
    | cons char rest =>
      have heavier := positive char
      rw [weight_append, weight_cons] at lighter
      omega

theorem prefix_eq_of_size_eq {front other text : List Char} (left : front <+: text) (right : other <+: text)
    (same : size front = size other) : front = other :=
  (prefix_of_weight_le Char.utf8Size_pos left right same.le).eq_of_length
    (le_antisymm (prefix_of_weight_le Char.utf8Size_pos left right same.le).length_le
      (prefix_of_weight_le Char.utf8Size_pos right left same.ge).length_le)

end Utf8
