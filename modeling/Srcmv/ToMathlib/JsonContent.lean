import Srcmv.ToMathlib.CompactJson
import Srcmv.ToMathlib.JsonText

/-! # Content of JSON texts

A reader of JSON gives the content of the value that a text denotes. However a text spells its strings, it
is at least as long as their minimal escapes, so that it bounds the strings which deserializers take from
its content.
-/

open CompactJson

namespace JsonText

/-! ## Strings in a text -/

/-- The units of a text. -/
def unitsOf (text : String) : List UInt16 := text.toList.flatMap utf16

/-- The bytes that a unit needs at least; half of those of its character for a surrogate. -/
def unitLength (unit : UInt16) : ℕ :=
  if unit.toNat ∈ [8, 9, 10, 12, 13, 34, 92] then 2
  else if unit.toNat < 32 then 6
  else if unit.toNat < 128 then 1
  else if unit.toNat < 2048 ∨ 55296 ≤ unit.toNat ∧ unit.toNat < 57344 then 2
  else 3

def unitsLength (units : List UInt16) : ℕ := (units.map unitLength).sum

theorem unitsLength_cons (unit : UInt16) (units : List UInt16) :
    unitsLength (unit :: units) = unitLength unit + unitsLength units := rfl

theorem unitsLength_append (front back : List UInt16) : unitsLength (front ++ back) = unitsLength front + unitsLength back := by
  rw [unitsLength, List.map_append, List.sum_append]
  rfl

private theorem unitLength_le (unit : UInt16) : unitLength unit ≤ 6 := by
  unfold unitLength
  split_ifs <;> decide

private theorem unitLength_short (escape : UInt8 × UInt16) (member : escape ∈ shortEscapes) : unitLength escape.2 ≤ 2 := by
  have table : shortEscapes.all (fun escape => decide (unitLength escape.2 ≤ 2)) = true := by decide
  exact of_decide_eq_true (List.all_eq_true.mp table escape member)

private theorem unitsLength_ascii : ∀ code < 128,
    unitsLength (utf16 (Char.ofNat code)) = ((Json.escape (Char.ofNat code)).flatMap String.utf8EncodeChar).length := by
  decide

private theorem unitLength_high {unit : UInt16} (high : 128 ≤ unit.toNat) :
    unitLength unit = if unit.toNat < 2048 ∨ 55296 ≤ unit.toNat ∧ unit.toNat < 57344 then 2 else 3 := by
  have plain : unit.toNat ∉ [8, 9, 10, 12, 13, 34, 92] := by
    simp only [List.mem_cons, List.not_mem_nil, or_false]
    omega
  rw [unitLength, if_neg plain, if_neg (by omega), if_neg (by omega)]

private theorem unitsLength_utf16_high {char : Char} (high : 128 ≤ char.toNat) : unitsLength (utf16 char) = char.utf8Size := by
  have valid : char.toNat < 55296 ∨ 57343 < char.toNat ∧ char.toNat < 1114112 := char.valid
  have unit : ∀ code < 65536, (UInt16.ofNat code).toNat = code := fun code small => UInt16.toNat_ofNat_of_lt' small
  by_cases basic : char.toNat < 65536
  · rw [utf16, if_pos basic, unitsLength, List.map_singleton, List.sum_singleton,
      unitLength_high (by rw [unit _ basic]; exact high), unit _ basic]
    split_ifs with short
    · exact (Char.utf8Size_eq_two_iff.mpr ⟨UInt32.lt_iff_toNat_lt.mpr high, UInt32.le_iff_toNat_le.mpr (by show char.toNat ≤ 2047; omega)⟩).symm
    · exact (Char.utf8Size_eq_three_iff.mpr ⟨UInt32.lt_iff_toNat_lt.mpr (by show 2047 < char.toNat; omega), UInt32.le_iff_toNat_le.mpr (by show char.toNat ≤ 65535; omega)⟩).symm
  · have first : unitLength (UInt16.ofNat (55296 + (char.toNat - 65536) / 1024)) = 2 := by
      rw [unitLength_high (by rw [unit _ (by omega)]; omega), unit _ (by omega), if_pos (by omega)]
    have second : unitLength (UInt16.ofNat (56320 + (char.toNat - 65536) % 1024)) = 2 := by
      rw [unitLength_high (by rw [unit _ (by omega)]; omega), unit _ (by omega), if_pos (by omega)]
    rw [utf16, if_neg basic, unitsLength_cons, unitsLength_cons, first, second]
    exact (Char.utf8Size_eq_four_iff.mpr (UInt32.lt_iff_toNat_lt.mpr (by show 65535 < char.toNat; omega))).symm

/-- The units of a character need what its minimal escape takes. -/
theorem unitsLength_utf16 (char : Char) :
    unitsLength (utf16 char) = ((Json.escape char).flatMap String.utf8EncodeChar).length := by
  by_cases low : char.toNat < 128
  · have table := unitsLength_ascii char.toNat low
    rwa [Char.ofNat_toNat] at table
  · rw [escape_high (not_lt.mp low), List.flatMap_singleton, String.length_utf8EncodeChar]
    exact unitsLength_utf16_high (not_lt.mp low)

theorem unitsLength_unitsOf (text : String) : unitsLength (unitsOf text) = escapedLength text := by
  rw [unitsOf, escapedLength]
  induction text.toList with
  | nil => rfl
  | cons char rest ih =>
    rw [List.flatMap_cons, List.flatMap_cons, List.flatMap_append, List.length_append, unitsLength_append, ih, unitsLength_utf16]

private theorem escape_printed {char : Char} (unquoted : char ≠ '"') (unescaped : char ≠ '\\') (printed : 32 ≤ char.toNat) :
    Json.escape char = [char] := by
  have apart : ∀ other : Char, other.toNat < 32 → char ≠ other := by
    rintro other low rfl
    omega
  rw [Json.escape, if_neg unquoted, if_neg unescaped, if_neg (apart _ (by decide)), if_neg (apart _ (by decide)),
    if_neg (apart _ (by decide)), if_neg (by omega), if_neg (by omega), if_neg (by omega)]

/-- The inside of a string is as long as its units need. -/
theorem Units.unitsLength_le {units : List UInt16} {text : List UInt8} (inside : Units units text) :
    unitsLength units ≤ text.length := by
  induction inside with
  | nil => exact le_rfl
  | @literal char units text unquoted unescaped printed rest ih =>
    rw [unitsLength_append, List.length_append, unitsLength_utf16, escape_printed unquoted unescaped printed, List.flatMap_singleton]
    omega
  | short escape rest ih =>
    have two := unitLength_short _ escape
    rw [unitsLength_cons, List.length_cons, List.length_cons]
    dsimp only at two
    omega
  | hex first second third fourth rest ih =>
    refine (Nat.add_le_add (unitLength_le _) ih).trans (le_of_eq ?_)
    simp only [List.length_cons]
    omega

end JsonText

/-! ## The strings of a value -/

namespace JsonValue

mutual

/-- What the strings of a value need at least, without the names of fields. -/
def stringsLength : JsonValue → ℕ
  | string units => JsonText.unitsLength units
  | array items => itemsLength items
  | object fields => fieldsLength fields
  | _ => 0

def itemsLength : List JsonValue → ℕ
  | [] => 0
  | item :: rest => stringsLength item + itemsLength rest

def fieldsLength : List (List UInt16 × JsonValue) → ℕ
  | [] => 0
  | (_, value) :: rest => stringsLength value + fieldsLength rest

end

end JsonValue

namespace JsonText

def Part.stringsLength : Part → ℕ
  | .value one => one.stringsLength
  | .items several => JsonValue.itemsLength several
  | .fields named => JsonValue.fieldsLength named

theorem Quoted.unitsLength_le {units : List UInt16} {text : List UInt8} (quoted : Quoted units text) :
    unitsLength units ≤ text.length := by
  obtain ⟨inside, content, rfl⟩ := quoted
  have sized := content.unitsLength_le
  rw [List.length_cons, List.length_append]
  omega

/-- A text is as long as the strings in it need. -/
theorem Denotes.stringsLength_le {part : Part} {text : List UInt8} (denotes : Denotes part text) :
    part.stringsLength ≤ text.length := by
  induction denotes with
  | null | true | false | number | noItems | noFields =>
    simp only [Part.stringsLength, JsonValue.stringsLength, JsonValue.itemsLength, JsonValue.fieldsLength]
    exact Nat.zero_le _
  | string quoted =>
    rw [Part.stringsLength, JsonValue.stringsLength]
    exact quoted.unitsLength_le
  | array inside ih | object inside ih =>
    rw [Part.stringsLength] at ih
    rw [Part.stringsLength, JsonValue.stringsLength, List.length_cons, List.length_append]
    omega
  | lastItem space value space' ih =>
    simp only [Part.stringsLength, JsonValue.itemsLength, List.length_append] at ih ⊢
    omega
  | nextItem space value space' others ih ih' =>
    simp only [Part.stringsLength, JsonValue.itemsLength, List.length_append, List.length_cons] at ih ih' ⊢
    omega
  | lastField space quoted inner inner' value space' ih =>
    simp only [Part.stringsLength, JsonValue.fieldsLength, List.length_append, List.length_cons] at ih ⊢
    omega
  | nextField space quoted inner inner' value space' others ih ih' =>
    simp only [Part.stringsLength, JsonValue.fieldsLength, List.length_append, List.length_cons] at ih ih' ⊢
    omega

theorem Document.stringsLength_le {value : JsonValue} {text : List UInt8} (document : Document value text) :
    value.stringsLength ≤ text.length := by
  obtain ⟨before, inside, after, -, denotes, -, rfl⟩ := document
  have sized := denotes.stringsLength_le
  rw [Part.stringsLength] at sized
  rw [List.length_append, List.length_append]
  omega

end JsonText

namespace Content

mutual

/-- The content that a reader gives for a value. -/
def Mirrors : Content → JsonValue → Prop
  | null, value => value = .null
  | bool flag, value => value = .bool flag
  | natural count, value => value = .number count.toNat
  | number, value => ∃ number, value = .number number
  | string text, value => value = .string (JsonText.unitsOf text)
  | seq items, value => ∃ values, value = .array values ∧ MirrorsItems items values
  | map members, value => ∃ fields, value = .object fields ∧ MirrorsMembers members fields

def MirrorsItems : List Content → List JsonValue → Prop
  | [], values => values = []
  | item :: rest, values => ∃ value others, values = value :: others ∧ Mirrors item value ∧ MirrorsItems rest others

def MirrorsMembers : List (String × Content) → List (List UInt16 × JsonValue) → Prop
  | [], fields => fields = []
  | (name, item) :: rest, fields =>
      ∃ value others, fields = (JsonText.unitsOf name, value) :: others ∧ Mirrors item value ∧ MirrorsMembers rest others

end

mutual

/-- The number of sequences and maps around the innermost content. -/
def nesting : Content → ℕ
  | seq items => nestingItems items + 1
  | map members => nestingMembers members + 1
  | _ => 0

def nestingItems : List Content → ℕ
  | [] => 0
  | item :: rest => max (nesting item) (nestingItems rest)

def nestingMembers : List (String × Content) → ℕ
  | [] => 0
  | (_, value) :: rest => max (nesting value) (nestingMembers rest)

end

mutual

/-- A value is nested like the content a reader gives for it. -/
theorem Mirrors.nesting_eq {content : Content} {value : JsonValue} (mirrors : content.Mirrors value) :
    value.nesting = content.nesting := by
  cases content with
  | seq items =>
    rw [Mirrors] at mirrors
    obtain ⟨values, rfl, each⟩ := mirrors
    rw [JsonValue.nesting, nesting, each.nesting_eq]
  | map members =>
    rw [Mirrors] at mirrors
    obtain ⟨fields, rfl, each⟩ := mirrors
    rw [JsonValue.nesting, nesting, each.nesting_eq]
  | number =>
    rw [Mirrors] at mirrors
    obtain ⟨number, rfl⟩ := mirrors
    rw [JsonValue.nesting, nesting] <;> intros <;> contradiction
  | null | bool | natural | string =>
    rw [Mirrors] at mirrors
    rw [mirrors, JsonValue.nesting, nesting] <;> intros <;> contradiction

theorem MirrorsItems.nesting_eq {items : List Content} {values : List JsonValue} (mirrors : MirrorsItems items values) :
    JsonValue.nestingItems values = nestingItems items := by
  cases items with
  | nil =>
    rw [MirrorsItems] at mirrors
    rw [mirrors, JsonValue.nestingItems, nestingItems]
  | cons item rest =>
    rw [MirrorsItems] at mirrors
    obtain ⟨value, others, rfl, first, later⟩ := mirrors
    rw [JsonValue.nestingItems, nestingItems, first.nesting_eq, later.nesting_eq]

theorem MirrorsMembers.nesting_eq {members : List (String × Content)} {fields : List (List UInt16 × JsonValue)}
    (mirrors : MirrorsMembers members fields) : JsonValue.nestingFields fields = nestingMembers members := by
  cases members with
  | nil =>
    rw [MirrorsMembers] at mirrors
    rw [mirrors, JsonValue.nestingFields, nestingMembers]
  | cons entry rest =>
    obtain ⟨name, item⟩ := entry
    rw [MirrorsMembers] at mirrors
    obtain ⟨value, others, rfl, first, later⟩ := mirrors
    rw [JsonValue.nestingFields, nestingMembers, first.nesting_eq, later.nesting_eq]

end

mutual

/-- What the strings of content need at least, without the names of members. -/
def stringsLength : Content → ℕ
  | string text => escapedLength text
  | seq items => itemsLength items
  | map members => membersLength members
  | _ => 0

def itemsLength : List Content → ℕ
  | [] => 0
  | item :: rest => stringsLength item + itemsLength rest

def membersLength : List (String × Content) → ℕ
  | [] => 0
  | (_, value) :: rest => stringsLength value + membersLength rest

end

theorem itemsLength_eq (items : List Content) : itemsLength items = (items.map stringsLength).sum := by
  induction items with
  | nil => rw [itemsLength, List.map_nil, List.sum_nil]
  | cons item rest ih => rw [itemsLength, ih, List.map_cons, List.sum_cons]

theorem membersLength_eq (members : List (String × Content)) :
    membersLength members = (members.map fun member => stringsLength member.2).sum := by
  induction members with
  | nil => rw [membersLength, List.map_nil, List.sum_nil]
  | cons member rest ih =>
    obtain ⟨name, value⟩ := member
    rw [membersLength, ih, List.map_cons, List.sum_cons]

mutual

/-- Content needs for its strings what its value does. -/
theorem Mirrors.stringsLength_eq {content : Content} {value : JsonValue} (mirrors : content.Mirrors value) :
    content.stringsLength = value.stringsLength := by
  cases content with
  | seq items =>
    rw [Mirrors] at mirrors
    obtain ⟨values, rfl, each⟩ := mirrors
    rw [Content.stringsLength, JsonValue.stringsLength, each.itemsLength_eq]
  | map members =>
    rw [Mirrors] at mirrors
    obtain ⟨fields, rfl, each⟩ := mirrors
    rw [Content.stringsLength, JsonValue.stringsLength, each.membersLength_eq]
  | string text =>
    rw [Mirrors] at mirrors
    rw [mirrors, Content.stringsLength, JsonValue.stringsLength, JsonText.unitsLength_unitsOf]
  | number =>
    rw [Mirrors] at mirrors
    obtain ⟨number, rfl⟩ := mirrors
    rw [Content.stringsLength, JsonValue.stringsLength] <;> intros <;> contradiction
  | null | bool | natural =>
    rw [Mirrors] at mirrors
    rw [mirrors, Content.stringsLength, JsonValue.stringsLength] <;> intros <;> contradiction

theorem MirrorsItems.itemsLength_eq {items : List Content} {values : List JsonValue} (mirrors : MirrorsItems items values) :
    itemsLength items = JsonValue.itemsLength values := by
  cases items with
  | nil =>
    rw [MirrorsItems] at mirrors
    rw [mirrors, itemsLength, JsonValue.itemsLength]
  | cons item rest =>
    rw [MirrorsItems] at mirrors
    obtain ⟨value, others, rfl, first, later⟩ := mirrors
    rw [itemsLength, JsonValue.itemsLength, first.stringsLength_eq, later.itemsLength_eq]

theorem MirrorsMembers.membersLength_eq {members : List (String × Content)} {fields : List (List UInt16 × JsonValue)}
    (mirrors : MirrorsMembers members fields) : membersLength members = JsonValue.fieldsLength fields := by
  cases members with
  | nil =>
    rw [MirrorsMembers] at mirrors
    rw [mirrors, membersLength, JsonValue.fieldsLength]
  | cons member rest =>
    obtain ⟨name, item⟩ := member
    rw [MirrorsMembers] at mirrors
    obtain ⟨value, others, rfl, first, later⟩ := mirrors
    rw [membersLength, JsonValue.fieldsLength, first.stringsLength_eq, later.membersLength_eq]

end

/-- What a reader of JSON promises: it gives the content of the value of a text. -/
def Reader (read : List UInt8 → Option Content) : Prop :=
  ∀ text content, read text = some content → ∃ value, JsonText.Document value text ∧ content.Mirrors value

/-- Whatever a text is read into needs no more for its strings than the text has. -/
theorem Reader.stringsLength_le {read : List UInt8 → Option Content} (reader : Reader read) {text : List UInt8}
    {content : Content} (found : read text = some content) : content.stringsLength ≤ text.length := by
  obtain ⟨value, document, mirrors⟩ := reader text content found
  exact mirrors.stringsLength_eq.trans_le document.stringsLength_le

/-! ## Deserializers -/

theorem fields_stringsLength_le {names : List String} (distinct : names.Nodup) {content : Content} {values : List Content}
    (taken : content.fields names = some values) : (values.map stringsLength).sum ≤ content.stringsLength := by
  cases content with
  | seq items =>
    rw [fields] at taken
    split_ifs at taken
    rw [← Option.some.inj taken, stringsLength, itemsLength_eq]
  | map members =>
    obtain ⟨length, same⟩ := (fields_map_eq_some distinct).mp taken
    have snd : (names.zip values).map Prod.snd = values := List.map_snd_zip (by omega)
    rw [stringsLength, membersLength_eq, (same.map _).sum_eq, ← Function.comp_def, ← List.map_map, snd]
  | _ => cases taken

theorem Reads.stringsLength_le {buffered : Bool} {tag name : String} {names : List String} {content rest : Content}
    (reads : Reads buffered tag names content name rest) : rest.stringsLength ≤ content.stringsLength := by
  obtain ⟨found, taken, -⟩ := reads
  cases content with
  | seq items =>
    cases items with
    | nil => cases taken
    | cons first others =>
      obtain ⟨-, rfl⟩ := Prod.mk.inj (Option.some.inj taken)
      simp only [stringsLength, itemsLength]
      omega
  | map members =>
    have kept : rest = map (members.filter (·.1 ≠ tag)) := by
      rw [tagged] at taken
      split at taken
      · exact (Prod.mk.inj (Option.some.inj taken)).2.symm
      · cases taken
    rw [kept, stringsLength, stringsLength, membersLength_eq, membersLength_eq]
    exact (List.filter_sublist.map _).sum_le_sum fun _ _ => Nat.zero_le _
  | _ => cases taken

end Content

/-! ## Compact texts -/

namespace JsonText

private def digitText (value : ℕ) : List UInt8 := (Nat.toDigits 10 value).map fun digit => UInt8.ofNat digit.toNat

private theorem digitChar_byte : ∀ digit < 10, UInt8.ofNat (Nat.digitChar digit).toNat = UInt8.ofNat (48 + digit) := by decide

private theorem digitsValue_concat (digits : List UInt8) {digit : ℕ} (small : digit < 10) :
    digitsValue (digits ++ [UInt8.ofNat (48 + digit)]) = 10 * digitsValue digits + digit := by
  have value : (UInt8.ofNat (48 + digit)).toNat = 48 + digit := UInt8.toNat_ofNat_of_lt' (by change _ < 256; omega)
  rw [digitsValue, List.map_append, List.map_singleton, List.reverse_append, List.reverse_singleton, List.singleton_append,
    Nat.ofDigits_cons, value, digitsValue]
  omega

/-- Digits of a natural denote it, without leading zeros. -/
private theorem digitText_whole (value : ℕ) :
    Digits (digitText value) ∧ ((digitText value).head? = some 48 → digitText value = [48]) ∧
      digitsValue (digitText value) = value := by
  induction value using Nat.strong_induction_on with
  | _ value ih =>
  have byte : ∀ digit < 10, 48 ≤ (UInt8.ofNat (48 + digit)).toNat ∧ (UInt8.ofNat (48 + digit)).toNat ≤ 57 := by decide
  by_cases small : value < 10
  · have text : digitText value = [UInt8.ofNat (48 + value)] := by
      rw [digitText, Nat.toDigits_of_lt_base small, List.map_singleton, digitChar_byte value small]
    rw [text]
    refine ⟨⟨List.cons_ne_nil _ _, List.forall_mem_singleton.mpr (byte value small)⟩, ?_, ?_⟩
    · intro zero
      rw [List.head?_cons, Option.some.injEq] at zero
      rw [zero]
    · have concat := digitsValue_concat [] small
      rwa [List.nil_append, show digitsValue [] = 0 from rfl, Nat.mul_zero, Nat.zero_add] at concat
  · have last : value % 10 < 10 := Nat.mod_lt _ (by decide)
    have text : digitText value = digitText (value / 10) ++ [UInt8.ofNat (48 + value % 10)] := by
      rw [digitText, Nat.toDigits_of_base_le (by decide) (not_lt.mp small), List.map_append, List.map_singleton,
        digitChar_byte _ last, digitText]
    obtain ⟨⟨nonempty, decimal⟩, short, whole⟩ := ih (value / 10) (by omega)
    rw [text]
    refine ⟨⟨List.append_ne_nil_of_left_ne_nil nonempty _, ?_⟩, ?_, ?_⟩
    · exact List.forall_mem_append.mpr ⟨decimal, List.forall_mem_singleton.mpr (byte _ last)⟩
    · intro zero
      rw [List.head?_append_of_ne_nil _ nonempty] at zero
      rw [short zero, show digitsValue [48] = 0 from rfl] at whole
      omega
    · rw [digitsValue_concat _ last, whole]
      omega

private theorem denotes_natural (value : ℕ) : Denotes (.value (.number value)) (digitText value) := by
  obtain ⟨decimal, short, whole⟩ := digitText_whole value
  have number := Number.positive (.whole decimal short) .none
  rw [whole, zpow_zero, mul_one, List.append_nil] at number
  exact .number number

private theorem control_text : ∀ code < 32, ∀ text, (Json.escape (Char.ofNat code)).flatMap String.utf8EncodeChar = text →
    (text = [92, text.getD 1 0] ∧ (text.getD 1 0, UInt16.ofNat code) ∈ shortEscapes) ∨
      (text = [92, 117, 48, 48, text.getD 4 0, text.getD 5 0] ∧ hexValue (text.getD 4 0) = some (code / 16) ∧
        hexValue (text.getD 5 0) = some (code % 16)) := by
  have table : ∀ code < 32,
      let text := (Json.escape (Char.ofNat code)).flatMap String.utf8EncodeChar
      (text = [92, text.getD 1 0] ∧ (text.getD 1 0, UInt16.ofNat code) ∈ shortEscapes) ∨
        (text = [92, 117, 48, 48, text.getD 4 0, text.getD 5 0] ∧ hexValue (text.getD 4 0) = some (code / 16) ∧
          hexValue (text.getD 5 0) = some (code % 16)) := by decide
  rintro code small text rfl
  exact table code small

/-- An escaped character is read back. -/
private theorem Units.escape (char : Char) {units : List UInt16} {text : List UInt8} (rest : Units units text) :
    Units (utf16 char ++ units) ((Json.escape char).flatMap String.utf8EncodeChar ++ text) := by
  by_cases control : char.toNat < 32
  · have unit : utf16 char = [UInt16.ofNat char.toNat] := if_pos (by omega)
    generalize found : (Json.escape char).flatMap String.utf8EncodeChar = escaped
    have same : (Json.escape (Char.ofNat char.toNat)).flatMap String.utf8EncodeChar = escaped := by
      rw [Char.ofNat_toNat]
      exact found
    rcases control_text char.toNat control escaped same with ⟨shape, short⟩ | ⟨shape, tens, ones⟩
    · rw [shape, unit]
      exact .short short rest
    · have value : char.toNat = ((0 * 16 + 0) * 16 + char.toNat / 16) * 16 + char.toNat % 16 := by omega
      rw [shape, unit, value]
      exact .hex rfl rfl tens ones rest
  · by_cases quote : char = '"'
    · subst quote
      exact .short (by decide) rest
    · by_cases backslash : char = '\\'
      · subst backslash
        exact .short (by decide) rest
      · rw [escape_printed quote backslash (not_lt.mp control), List.flatMap_singleton]
        exact .literal quote backslash (not_lt.mp control) rest

private theorem quoted_quoted (text : String) : Quoted (unitsOf text) (quoted text) := by
  refine ⟨_, ?_, quoted_eq text⟩
  rw [unitsOf]
  induction text.toList with
  | nil => exact .nil
  | cons char rest ih =>
    rw [List.flatMap_cons, List.flatMap_cons, List.flatMap_append]
    exact ih.escape char

end JsonText

namespace Content

open JsonText

mutual

/-- The compact form of content is a text of its value. -/
theorem exists_denotes (content : Content) : ∃ value, content.Mirrors value ∧ Denotes (.value value) content.compact := by
  cases content with
  | null => exact ⟨.null, by rw [Mirrors], by rw [compact]; exact .null⟩
  | bool flag =>
    refine ⟨.bool flag, by rw [Mirrors], ?_⟩
    cases flag with
    | true => rw [compact]; exact .true
    | false => rw [compact]; exact .false
  | natural count => exact ⟨.number count.toNat, by rw [Mirrors], by rw [compact]; exact denotes_natural count.toNat⟩
  | number => exact ⟨.number (0 : ℕ), by rw [Mirrors]; exact ⟨_, rfl⟩, by rw [compact]; exact denotes_natural 0⟩
  | string text =>
    exact ⟨.string (unitsOf text), by rw [Mirrors], by rw [compact]; exact .string (quoted_quoted text)⟩
  | seq items =>
    obtain ⟨values, mirrors, denotes⟩ := exists_denotes_items items
    exact ⟨.array values, by rw [Mirrors]; exact ⟨values, rfl, mirrors⟩, by rw [compact]; exact .array denotes⟩
  | map members =>
    obtain ⟨fields, mirrors, denotes⟩ := exists_denotes_members members
    exact ⟨.object fields, by rw [Mirrors]; exact ⟨fields, rfl, mirrors⟩, by rw [compact]; exact .object denotes⟩

theorem exists_denotes_items (items : List Content) :
    ∃ values, MirrorsItems items values ∧ Denotes (.items values) (joined (compactItems items)) := by
  have blank : Blank [] := fun _ member => absurd member List.not_mem_nil
  cases items with
  | nil => exact ⟨[], by rw [MirrorsItems], by rw [compactItems]; exact .noItems blank⟩
  | cons item rest =>
    obtain ⟨value, mirrors, denotes⟩ := exists_denotes item
    obtain ⟨others, mirrors', denotes'⟩ := exists_denotes_items rest
    refine ⟨value :: others, by rw [MirrorsItems]; exact ⟨value, others, rfl, mirrors, mirrors'⟩, ?_⟩
    cases rest with
    | nil =>
      rw [MirrorsItems] at mirrors'
      rw [mirrors', compactItems, compactItems]
      have single := Denotes.lastItem blank denotes blank
      rwa [List.nil_append, List.append_nil] at single
    | cons next later =>
      rw [MirrorsItems] at mirrors'
      obtain ⟨_, _, rfl, -⟩ := mirrors'
      have several := Denotes.nextItem blank denotes blank denotes'
      rw [List.nil_append, List.append_nil] at several
      rwa [compactItems, joined_cons _ _ (by rw [compactItems]; exact List.cons_ne_nil _ _)]

theorem exists_denotes_members (members : List (String × Content)) :
    ∃ fields, MirrorsMembers members fields ∧ Denotes (.fields fields) (joined (compactMembers members)) := by
  have blank : Blank [] := fun _ member => absurd member List.not_mem_nil
  cases members with
  | nil => exact ⟨[], by rw [MirrorsMembers], by rw [compactMembers]; exact .noFields blank⟩
  | cons entry rest =>
    obtain ⟨name, item⟩ := entry
    obtain ⟨value, mirrors, denotes⟩ := exists_denotes item
    obtain ⟨others, mirrors', denotes'⟩ := exists_denotes_members rest
    refine ⟨(unitsOf name, value) :: others, by rw [MirrorsMembers]; exact ⟨value, others, rfl, mirrors, mirrors'⟩, ?_⟩
    cases rest with
    | nil =>
      rw [MirrorsMembers] at mirrors'
      rw [mirrors', compactMembers, compactMembers]
      have single := Denotes.lastField blank (quoted_quoted name) blank blank denotes blank
      rwa [List.nil_append, List.append_nil, List.append_nil, List.nil_append] at single
    | cons next later =>
      obtain ⟨nextName, nextItem⟩ := next
      rw [MirrorsMembers] at mirrors'
      obtain ⟨_, _, rfl, -⟩ := mirrors'
      have several := Denotes.nextField blank (quoted_quoted name) blank blank denotes blank denotes'
      rw [List.nil_append, List.append_nil, List.append_nil, List.nil_append] at several
      rwa [compactMembers, joined_cons _ _ (by rw [compactMembers]; exact List.cons_ne_nil _ _)]

end

/-- A reader that knows the compact form of one content. -/
theorem reader_of_compact (content : Content) : Reader fun text => if text = content.compact then some content else none := by
  intro text found known
  dsimp only at known
  split_ifs at known with same
  obtain rfl := Option.some.inj known
  obtain ⟨value, mirrors, denotes⟩ := exists_denotes content
  have blank : Blank [] := fun _ member => absurd member List.not_mem_nil
  exact ⟨value, ⟨[], _, [], blank, denotes, blank, by rw [same, List.nil_append, List.append_nil]⟩, mirrors⟩

end Content
