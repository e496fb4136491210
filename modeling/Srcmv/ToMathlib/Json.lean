import Mathlib.Data.String.Basic
import Mathlib.Tactic

/-! # Compact JSON text

Values built from `null`, booleans, naturals, strings, arrays and objects with ordered fields, and
the compact rendering a serializer produces for them. Strings escape quotes, backslashes and
control characters and keep everything else.
-/

inductive Json where
  | null
  | bool (value : Bool)
  | number (value : ℕ)
  | string (value : String)
  | array (items : List Json)
  | object (fields : List (String × Json))

namespace Json

/-- One lowercase hexadecimal digit. -/
def hexadecimal (nibble : ℕ) : Char := Nat.digitChar nibble

/-- The escaped form of one character of a string. -/
def escape (char : Char) : List Char :=
  if char = '"' then ['\\', '"']
  else if char = '\\' then ['\\', '\\']
  else if char = '\n' then ['\\', 'n']
  else if char = '\r' then ['\\', 'r']
  else if char = '\t' then ['\\', 't']
  else if char.toNat = 8 then ['\\', 'b']
  else if char.toNat = 12 then ['\\', 'f']
  else if char.toNat < 32 then
    ['\\', 'u', '0', '0', hexadecimal (char.toNat / 16), hexadecimal (char.toNat % 16)]
  else [char]

def renderString (value : String) : List Char := '"' :: (value.toList.flatMap escape ++ ['"'])

mutual

/-- The compact text of a value. -/
def render : Json → List Char
  | null => "null".toList
  | bool true => "true".toList
  | bool false => "false".toList
  | number value => Nat.toDigits 10 value
  | string value => renderString value
  | array items => '[' :: (renderItems items ++ [']'])
  | object fields => '{' :: (renderFields fields ++ ['}'])

/-- Items separated by commas. -/
def renderItems : List Json → List Char
  | [] => []
  | [item] => render item
  | item :: rest => render item ++ ',' :: renderItems rest

/-- Fields separated by commas. -/
def renderFields : List (String × Json) → List Char
  | [] => []
  | [(name, value)] => renderString name ++ ':' :: render value
  | (name, value) :: rest => renderString name ++ ':' :: (render value ++ ',' :: renderFields rest)

end

section Reader

/-! The reader accepts the compact text only, without white space. -/

/-- The value of a hexadecimal digit, lowercase only. -/
def nibble (char : Char) : Option ℕ :=
  if char.isDigit then some (char.toNat - '0'.toNat)
  else if 'a' ≤ char ∧ char ≤ 'f' then some (char.toNat - 'a'.toNat + 10)
  else none

/-- The character a short escape stands for. -/
def unescape (char : Char) : Option Char :=
  if char = '"' then some '"'
  else if char = '\\' then some '\\'
  else if char = 'n' then some '\n'
  else if char = 'r' then some '\r'
  else if char = 't' then some '\t'
  else if char = 'b' then some (Char.ofNat 8)
  else if char = 'f' then some (Char.ofNat 12)
  else none

/-- Put a character before what was read. -/
def prepend (char : Char) (result : Option (List Char × List Char)) : Option (List Char × List Char) :=
  result.map fun result => (char :: result.1, result.2)

/-- The rest of a string after its opening quote. -/
def readString : List Char → Option (List Char × List Char)
  | '"' :: rest => some ([], rest)
  | '\\' :: 'u' :: '0' :: '0' :: high :: low :: rest =>
      match nibble high, nibble low with
      | some high, some low => prepend (Char.ofNat (high * 16 + low)) (readString rest)
      | _, _ => none
  | '\\' :: escaped :: rest =>
      match unescape escaped with
      | some char => prepend char (readString rest)
      | none => none
  | char :: rest => if char = '\\' ∨ char.toNat < 32 then none else prepend char (readString rest)
  | [] => none
termination_by structural chars => chars

def readNumber (chars : List Char) : Option (Json × List Char) :=
  let digits := chars.takeWhile Char.isDigit
  if Nat.toDigits 10 (Nat.ofDigitChars 10 digits 0) = digits then
    some (number (Nat.ofDigitChars 10 digits 0), chars.dropWhile Char.isDigit)
  else none

mutual

/-- One value at the beginning of a text, within a bound on the nesting. -/
def readValue : ℕ → List Char → Option (Json × List Char)
  | 0, _ => none
  | fuel + 1, chars =>
      match chars with
      | 'n' :: 'u' :: 'l' :: 'l' :: rest => some (null, rest)
      | 't' :: 'r' :: 'u' :: 'e' :: rest => some (bool true, rest)
      | 'f' :: 'a' :: 'l' :: 's' :: 'e' :: rest => some (bool false, rest)
      | '"' :: rest => (readString rest).map fun result => (string (String.ofList result.1), result.2)
      | '[' :: ']' :: rest => some (array [], rest)
      | '[' :: rest => (readItems fuel rest).map fun result => (array result.1, result.2)
      | '{' :: '}' :: rest => some (object [], rest)
      | '{' :: rest => (readFields fuel rest).map fun result => (object result.1, result.2)
      | chars => readNumber chars

/-- Items up to the closing bracket. -/
def readItems : ℕ → List Char → Option (List Json × List Char)
  | 0, _ => none
  | fuel + 1, chars => do
      let (item, rest) ← readValue fuel chars
      match rest with
      | ',' :: rest => (readItems fuel rest).map fun result => (item :: result.1, result.2)
      | ']' :: rest => some ([item], rest)
      | _ => none

/-- Fields up to the closing brace. -/
def readFields : ℕ → List Char → Option (List (String × Json) × List Char)
  | 0, _ => none
  | fuel + 1, chars =>
      match chars with
      | '"' :: rest => do
          let (name, rest) ← readString rest
          match rest with
          | ':' :: rest => do
              let (value, rest) ← readValue fuel rest
              match rest with
              | ',' :: rest =>
                  (readFields fuel rest).map fun result => ((String.ofList name, value) :: result.1, result.2)
              | '}' :: rest => some ([(String.ofList name, value)], rest)
              | _ => none
          | _ => none
      | _ => none

end

/-- The value at the front of a text, and what follows it. -/
def read (chars : List Char) : Option (Json × List Char) := readValue (2 * chars.length) chars

end Reader

/-- The value of an optional field. -/
def ofOption {α : Type*} (encode : α → Json) : Option α → Json
  | none => null
  | some value => encode value

section Length

/-! How long a rendered value can get. -/

theorem length_escape_le (char : Char) : (escape char).length ≤ 6 := by
  unfold escape
  split_ifs <;> simp

theorem length_renderString_le (value : String) : (renderString value).length ≤ 6 * value.toList.length + 2 := by
  have escaped : (value.toList.flatMap escape).length ≤ 6 * value.toList.length := by
    induction value.toList with
    | nil => rfl
    | cons char rest ih =>
      have one := length_escape_le char
      rw [List.flatMap_cons, List.length_append, List.length_cons]
      omega
  rw [renderString, List.length_cons, List.length_append, List.length_singleton]
  omega

theorem length_render_number_le {value digits : ℕ} (positive : 0 < digits) (small : value < 10 ^ digits) :
    (render (.number value)).length ≤ digits := by
  rw [render]
  exact (Nat.length_toDigits_le_iff (by decide) positive).mpr small

theorem length_render_array_le {items : List Json} {bound : ℕ} (each : ∀ item ∈ items, (render item).length ≤ bound) :
    (render (.array items)).length ≤ items.length * (bound + 1) + 2 := by
  have joined : (renderItems items).length ≤ items.length * (bound + 1) := by
    induction items with
    | nil => rw [renderItems]; exact Nat.zero_le _
    | cons item rest ih =>
      have first := each item List.mem_cons_self
      have later := ih fun other member => each other (List.mem_cons_of_mem _ member)
      rw [List.length_cons, Nat.add_mul]
      cases rest with
      | nil => rw [renderItems]; omega
      | cons next rest => rw [renderItems.eq_3 item (next :: rest) nofun, List.length_append, List.length_cons]; omega
  rw [render, List.length_cons, List.length_append, List.length_singleton]
  omega

/-- Each field adds its name, its value, a colon and perhaps a comma. -/
theorem length_render_object_le (fields : List (String × Json)) :
    (render (.object fields)).length ≤
      (fields.map fun field => (renderString field.1).length + (render field.2).length + 2).sum + 2 := by
  have joined : (renderFields fields).length ≤
      (fields.map fun field => (renderString field.1).length + (render field.2).length + 2).sum := by
    induction fields with
    | nil => rw [renderFields]; exact Nat.zero_le _
    | cons field rest ih =>
      obtain ⟨name, value⟩ := field
      rw [List.map_cons, List.sum_cons]
      dsimp only
      cases rest with
      | nil => rw [renderFields, List.length_append, List.length_cons]; omega
      | cons next rest =>
        rw [renderFields.eq_3 name value (next :: rest) nofun, List.length_append, List.length_cons, List.length_append, List.length_cons]
        omega
  rw [render, List.length_cons, List.length_append, List.length_singleton]
  omega

theorem length_render_ofOption_le {α : Type*} {encode : α → Json} {bound : ℕ} (value : Option α)
    (room : 4 ≤ bound) (each : ∀ found, value = some found → (render (encode found)).length ≤ bound) :
    (render (ofOption encode value)).length ≤ bound := by
  cases value with
  | none => exact room
  | some found => exact each found rfl

end Length

section RoundTrip

private theorem nibble_hexadecimal {value : ℕ} (small : value < 16) : nibble (hexadecimal value) = some value := by
  interval_cases value <;> rfl

/-- A character in the form it is written is read back. -/
private theorem readString_escape (char : Char) (rest : List Char) :
    readString (escape char ++ rest) = prepend char (readString rest) := by
  unfold escape
  split
  · next equal => rw [equal]; rfl
  split
  · next equal => rw [equal]; rfl
  split
  · next equal => rw [equal]; rfl
  split
  · next equal => rw [equal]; rfl
  split
  · next equal => rw [equal]; rfl
  split
  · next equal => rw [show char = Char.ofNat 8 by rw [← equal, Char.ofNat_toNat]]; rfl
  split
  · next equal => rw [show char = Char.ofNat 12 by rw [← equal, Char.ofNat_toNat]]; rfl
  split
  · next control =>
    have high : char.toNat / 16 < 16 := by omega
    have low : char.toNat % 16 < 16 := by omega
    have same : char.toNat / 16 * 16 + char.toNat % 16 = char.toNat := by omega
    simp only [List.cons_append, List.nil_append, readString, nibble_hexadecimal high, nibble_hexadecimal low, same,
      Char.ofNat_toNat]
  · next quote backslash _ _ _ _ _ control =>
    rw [List.singleton_append, readString.eq_def]
    split
    · next equal => exact absurd (List.cons.inj equal).1 quote
    · next equal => exact absurd (List.cons.inj equal).1 backslash
    · next equal => exact absurd (List.cons.inj equal).1 backslash
    · next equal =>
      obtain ⟨rfl, rfl⟩ := List.cons.inj equal
      rw [if_neg (not_or.mpr ⟨backslash, control⟩)]
    · next equal => cases equal

private theorem readString_renderString (chars rest : List Char) :
    readString (chars.flatMap escape ++ '"' :: rest) = some (chars, rest) := by
  induction chars with
  | nil => rfl
  | cons char chars ih => rw [List.flatMap_cons, List.append_assoc, readString_escape, ih]; rfl

/-- No digit follows. -/
def NoDigit (rest : List Char) : Prop := ∀ char, rest.head? = some char → char.isDigit = false

private theorem NoDigit.cons {char : Char} (other : char.isDigit = false) (rest : List Char) : NoDigit (char :: rest) := by
  intro head found
  cases found
  exact other

private theorem readNumber_toDigits (value : ℕ) {rest : List Char} (ended : NoDigit rest) :
    readNumber (Nat.toDigits 10 value ++ rest) = some (number value, rest) := by
  have digits : ∀ char ∈ Nat.toDigits 10 value, char.isDigit = true := fun char member =>
    Nat.isDigit_of_mem_toDigits (by decide) (by decide) member
  have stop : rest.takeWhile Char.isDigit = [] ∧ rest.dropWhile Char.isDigit = rest := by
    cases rest with
    | nil => exact ⟨rfl, rfl⟩
    | cons head tail =>
      have other := ended head rfl
      simp [other]
  unfold readNumber
  rw [List.takeWhile_append_of_pos digits, List.dropWhile_append_of_pos digits, stop.1, stop.2, List.append_nil]
  dsimp only
  rw [Nat.ofDigitChars_ten_toDigits, if_pos rfl]

/-- The text of a number is none of the other values. -/
private theorem readValue_number (fuel value : ℕ) {rest : List Char} (ended : NoDigit rest) :
    readValue (fuel + 1) (Nat.toDigits 10 value ++ rest) = some (number value, rest) := by
  have read := readNumber_toDigits value ended
  cases text : Nat.toDigits 10 value with
  | nil => exact absurd text Nat.toDigits_ne_nil
  | cons head tail =>
    have digit : head.isDigit = true :=
      Nat.isDigit_of_mem_toDigits (by decide) (by decide) (text ▸ List.mem_cons_self)
    rw [text] at read
    rw [List.cons_append] at read ⊢
    unfold readValue
    split
    all_goals first
      | exact read
      | next equal =>
        rw [(List.cons.inj equal).1] at digit
        cases digit

/-- No value begins with a closing bracket. -/
private theorem render_head (value : Json) : ∃ head tail, render value = head :: tail ∧ head ≠ ']' := by
  cases value with
  | null => exact ⟨'n', _, rfl, by decide⟩
  | bool value => cases value; exacts [⟨'f', _, rfl, by decide⟩, ⟨'t', _, rfl, by decide⟩]
  | number value =>
    cases text : Nat.toDigits 10 value with
    | nil => exact absurd text Nat.toDigits_ne_nil
    | cons head tail =>
      refine ⟨head, tail, by rw [render, text], ?_⟩
      have digit : head.isDigit = true :=
        Nat.isDigit_of_mem_toDigits (by decide) (by decide) (text ▸ List.mem_cons_self)
      rintro rfl
      cases digit
  | string value => exact ⟨'"', _, by rw [render, renderString], by decide⟩
  | array items => exact ⟨'[', _, by rw [render], by decide⟩
  | object fields => exact ⟨'{', _, by rw [render], by decide⟩

private theorem renderItems_head (item : Json) (items : List Json) :
    ∃ head tail, renderItems (item :: items) = head :: tail ∧ head ≠ ']' := by
  obtain ⟨head, tail, text, other⟩ := render_head item
  cases items with
  | nil => exact ⟨head, tail, by rw [renderItems, text], other⟩
  | cons next items =>
    exact ⟨head, _, by rw [renderItems.eq_def]; dsimp only; rw [text, List.cons_append], other⟩

/-- After an opening bracket, items are read unless the array is closed. -/
private theorem readValue_items {fuel : ℕ} {head : Char} {tail : List Char} (other : head ≠ ']') :
    readValue (fuel + 1) ('[' :: head :: tail) =
      (readItems fuel (head :: tail)).map fun result => (array result.1, result.2) := by
  rw [readValue.eq_def]
  dsimp only
  split
  all_goals first
    | rfl
    | next equal => exact absurd (List.cons.inj equal).1 (by decide)
    | skip
  · next equal => exact absurd (List.cons.inj (List.cons.inj equal).2).1 other
  · next equal => rw [(List.cons.inj equal).2]
  · next distinct _ _ => exact absurd rfl (distinct _)

private theorem renderItems_cons (item next : Json) (items : List Json) :
    renderItems (item :: next :: items) = render item ++ ',' :: renderItems (next :: items) := by
  rw [renderItems.eq_def]

private theorem renderFields_cons (name : String) (value : Json) (next : String × Json) (fields : List (String × Json)) :
    renderFields ((name, value) :: next :: fields) =
      renderString name ++ ':' :: (render value ++ ',' :: renderFields (next :: fields)) := by
  rw [renderFields.eq_def]

private theorem renderString_append (name : String) (rest : List Char) :
    renderString name ++ rest = '"' :: (name.toList.flatMap escape ++ '"' :: rest) := by
  rw [renderString, List.cons_append, List.append_assoc, List.singleton_append]

mutual

private theorem readValue_render : ∀ (value : Json) (fuel : ℕ) (rest : List Char), NoDigit rest →
    2 * (render value).length ≤ fuel → readValue fuel (render value ++ rest) = some (value, rest)
  | null, fuel + 1, rest, _, _ => rfl
  | bool true, fuel + 1, rest, _, _ => rfl
  | bool false, fuel + 1, rest, _, _ => rfl
  | number value, fuel + 1, rest, ended, _ => readValue_number fuel value ended
  | string value, fuel + 1, rest, _, _ => by
      rw [render, renderString_append, readValue, readString_renderString, Option.map_some, String.ofList_toList]
  | array [], fuel + 1, rest, _, _ => rfl
  | array (item :: items), fuel + 1, rest, _, enough => by
      rw [render, List.length_cons, List.length_append, List.length_singleton] at enough
      have read := readItems_render item items fuel rest (by omega)
      obtain ⟨head, tail, text, other⟩ := renderItems_head item items
      rw [render, List.cons_append, List.append_assoc, List.singleton_append]
      rw [text] at read ⊢
      rw [List.cons_append] at read ⊢
      rw [readValue_items other, read, Option.map_some]
  | object [], fuel + 1, rest, _, _ => rfl
  | object ((name, value) :: fields), fuel + 1, rest, _, enough => by
      rw [render, List.length_cons, List.length_append, List.length_singleton] at enough
      have read := readFields_render name value fields fuel rest (by omega)
      obtain ⟨tail, text⟩ : ∃ tail, renderFields ((name, value) :: fields) = '"' :: tail := by
        cases fields with
        | nil => exact ⟨_, by rw [renderFields, renderString_append]⟩
        | cons next fields => exact ⟨_, by rw [renderFields_cons, renderString_append]⟩
      rw [render, List.cons_append, List.append_assoc, List.singleton_append]
      rw [text] at read ⊢
      rw [List.cons_append] at read ⊢
      change (readFields fuel _).map _ = _
      rw [read, Option.map_some]
  | value, 0, rest, _, enough => by
      obtain ⟨head, tail, text, _⟩ := render_head value
      rw [text, List.length_cons] at enough
      omega

private theorem readItems_render : ∀ (item : Json) (items : List Json) (fuel : ℕ) (rest : List Char),
    2 * (renderItems (item :: items)).length + 1 ≤ fuel →
      readItems fuel (renderItems (item :: items) ++ ']' :: rest) = some (item :: items, rest)
  | item, [], fuel + 1, rest, enough => by
      rw [renderItems, readItems, readValue_render item fuel _ (NoDigit.cons rfl _) (by rw [renderItems] at enough; omega)]
      rfl
  | item, next :: items, fuel + 1, rest, enough => by
      rw [renderItems_cons, List.length_append, List.length_cons] at enough
      rw [renderItems_cons, readItems, List.append_assoc, List.cons_append,
        readValue_render item fuel _ (NoDigit.cons rfl _) (by omega)]
      change ((readItems fuel (renderItems (next :: items) ++ ']' :: rest)).map _) = _
      rw [readItems_render next items fuel rest (by omega)]
      rfl

private theorem readFields_render : ∀ (name : String) (value : Json) (fields : List (String × Json)) (fuel : ℕ)
    (rest : List Char), 2 * (renderFields ((name, value) :: fields)).length + 1 ≤ fuel →
      readFields fuel (renderFields ((name, value) :: fields) ++ '}' :: rest) = some ((name, value) :: fields, rest)
  | name, value, [], fuel + 1, rest, enough => by
      rw [renderFields, List.length_append, List.length_cons] at enough
      rw [renderFields, List.append_assoc, renderString_append, readFields, readString_renderString]
      change ((readValue fuel (render value ++ '}' :: rest)).bind _) = _
      rw [readValue_render value fuel _ (NoDigit.cons rfl _) (by omega), Option.bind_some]
      dsimp only
      rw [String.ofList_toList]
      rfl
  | name, value, (following, other) :: fields, fuel + 1, rest, enough => by
      rw [renderFields_cons, List.length_append, List.length_cons, List.length_append, List.length_cons] at enough
      rw [renderFields_cons, List.append_assoc, renderString_append, readFields, readString_renderString,
        List.cons_append, List.append_assoc, List.cons_append]
      change ((readValue fuel (render value ++ ',' :: (renderFields ((following, other) :: fields) ++ '}' :: rest))).bind
        _) = _
      rw [readValue_render value fuel _ (NoDigit.cons rfl _) (by omega), Option.bind_some]
      change (readFields fuel (renderFields ((following, other) :: fields) ++ '}' :: rest)).map _ = _
      rw [readFields_render following other fields fuel rest (by omega), Option.map_some, String.ofList_toList]

end

/-- What is written is read back. -/
theorem read_render (value : Json) : read (render value) = some (value, []) := by
  have whole := readValue_render value (2 * (render value).length) [] (by intro char found; cases found) le_rfl
  rwa [List.append_nil] at whole

end RoundTrip

end Json
