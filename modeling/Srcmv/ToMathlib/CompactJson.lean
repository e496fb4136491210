import Srcmv.ToMathlib.Json
import Srcmv.ToMathlib.Serde

/-! # Sizes of compact JSON

A serializer that writes content in the compact form puts commas between items, colons after names and
nothing else between tokens. The size of what it writes follows from the sizes of the parts.
-/

namespace CompactJson

/-- A text in quotes, with the minimal escapes. -/
def quoted (text : String) : List UInt8 := (Json.renderString text).flatMap String.utf8EncodeChar

/-- Items separated by commas. -/
def joined : List (List UInt8) → List UInt8
  | [] => []
  | [item] => item
  | item :: rest => item ++ 44 :: joined rest

def array (items : List (List UInt8)) : List UInt8 := 91 :: (joined items ++ [93])

def member (name : String) (value : List UInt8) : List UInt8 := quoted name ++ 58 :: value

def object (members : List (List UInt8)) : List UInt8 := 123 :: (joined members ++ [125])

def natural (value : UInt64) : List UInt8 := (Nat.toDigits 10 value.toNat).map fun digit => UInt8.ofNat digit.toNat

/-- The size of a text between its quotes. -/
def escapedLength (text : String) : ℕ := ((text.toList.flatMap Json.escape).flatMap String.utf8EncodeChar).length

/-- The size of names with their quotes and colons. -/
def namesLength (names : List String) : ℕ := (names.map fun name => escapedLength name + 3).sum

section Joined

variable (item : List UInt8) (items : List (List UInt8))

theorem joined_cons (nonempty : items ≠ []) : joined (item :: items) = item ++ 44 :: joined items := by
  cases items with
  | nil => contradiction
  | cons next rest => rfl

theorem length_joined : (joined items).length = (items.map List.length).sum + (items.length - 1) := by
  induction items with
  | nil => rfl
  | cons item rest ih =>
    cases rest with
    | nil => rfl
    | cons next rest =>
      rw [joined_cons item (next :: rest) (List.cons_ne_nil _ _), List.length_append, List.length_cons, ih]
      simp only [List.map_cons, List.sum_cons, List.length_cons]
      omega

theorem length_array : (array items).length = 2 + (items.map List.length).sum + (items.length - 1) := by
  rw [array, List.length_cons, List.length_append, length_joined, List.length_singleton]
  omega

theorem length_object : (object items).length = 2 + (items.map List.length).sum + (items.length - 1) := by
  rw [object, List.length_cons, List.length_append, length_joined, List.length_singleton]
  omega

/-- One more item costs its own size, and a comma unless it is the first. -/
theorem length_array_concat : (array (items ++ [item])).length =
    (array items).length + (if items = [] then 0 else 1) + item.length := by
  rw [length_array, length_array, List.map_append, List.sum_append, List.length_append]
  cases items with
  | nil => simp
  | cons first rest =>
    rw [if_neg (List.cons_ne_nil _ _)]
    simp only [List.map_cons, List.map_nil, List.sum_cons, List.sum_nil, List.length_cons, List.length_nil]
    omega

end Joined

section Strings

theorem quoted_eq (text : String) : quoted text = 34 :: ((text.toList.flatMap Json.escape).flatMap String.utf8EncodeChar ++ [34]) := by
  rw [quoted, Json.renderString, List.flatMap_cons, List.flatMap_append]
  rfl

theorem length_quoted (text : String) : (quoted text).length = escapedLength text + 2 := by
  rw [quoted_eq, List.length_cons, List.length_append, escapedLength, List.length_singleton]

theorem length_member (name : String) (value : List UInt8) :
    (member name value).length = escapedLength name + 3 + value.length := by
  rw [member, List.length_append, length_quoted, List.length_cons]
  omega

theorem escape_high {char : Char} (high : 128 ≤ char.toNat) : Json.escape char = [char] := by
  have apart : ∀ other : Char, other.toNat < 128 → char ≠ other := by
    rintro other low rfl
    omega
  rw [Json.escape, if_neg (apart _ (by decide)), if_neg (apart _ (by decide)), if_neg (apart _ (by decide)),
    if_neg (apart _ (by decide)), if_neg (apart _ (by decide)), if_neg (by omega), if_neg (by omega), if_neg (by omega)]

private theorem length_escape_ascii : ∀ code < 128,
    1 ≤ ((Json.escape (Char.ofNat code)).flatMap String.utf8EncodeChar).length ∧
      ((Json.escape (Char.ofNat code)).flatMap String.utf8EncodeChar).length ≤ 6 := by
  decide

/-- A character is written with at least its own bytes, and with at most six for each. -/
theorem length_escape (char : Char) : char.utf8Size ≤ ((Json.escape char).flatMap String.utf8EncodeChar).length ∧
    ((Json.escape char).flatMap String.utf8EncodeChar).length ≤ 6 * char.utf8Size := by
  by_cases high : 128 ≤ char.toNat
  · rw [escape_high high, List.flatMap_singleton, String.length_utf8EncodeChar]
    omega
  · have low : char.val.toNat < 128 := not_le.mp high
    have one : char.utf8Size = 1 := Char.utf8Size_eq_one_iff.mpr (UInt32.le_iff_toNat_le.mpr (Nat.le_of_lt_succ low))
    have table := length_escape_ascii char.toNat low
    rw [Char.ofNat_toNat] at table
    omega

/-- The size of a text with its escapes lies between its size and six times its size. -/
theorem escapedLength_bounds (text : String) :
    (text.toList.flatMap String.utf8EncodeChar).length ≤ escapedLength text ∧
      escapedLength text ≤ 6 * (text.toList.flatMap String.utf8EncodeChar).length := by
  rw [escapedLength]
  induction text.toList with
  | nil => exact ⟨le_rfl, le_rfl⟩
  | cons char rest ih =>
    have one := length_escape char
    simp only [List.flatMap_cons, List.flatMap_append, List.length_append, String.length_utf8EncodeChar]
    omega

theorem length_natural_le (value : UInt64) : (natural value).length ≤ 20 := by
  rw [natural, List.length_map]
  exact Json.length_render_number_le (by decide) (lt_trans value.toNat_lt (by decide))

end Strings

end CompactJson

namespace Content

open CompactJson

/-- What a serializer of compact JSON promises; it says nothing about numbers that are not told apart. -/
structure Compact (toVec : Content → List UInt8) : Prop where
  null : toVec .null = [110, 117, 108, 108]
  true_ : toVec (.bool true) = [116, 114, 117, 101]
  false_ : toVec (.bool false) = [102, 97, 108, 115, 101]
  natural : ∀ value, toVec (.natural value) = CompactJson.natural value
  string : ∀ value, toVec (.string value) = quoted value
  seq : ∀ items, toVec (.seq items) = array (items.map toVec)
  map : ∀ members, toVec (.map members) = object (members.map fun entry => member entry.1 (toVec entry.2))

mutual

/-- The compact form, with zero for the numbers that are not told apart. -/
def compact : Content → List UInt8
  | null => [110, 117, 108, 108]
  | bool true => [116, 114, 117, 101]
  | bool false => [102, 97, 108, 115, 101]
  | natural value => CompactJson.natural value
  | number => [48]
  | string value => quoted value
  | seq items => array (compactItems items)
  | map members => object (compactMembers members)

def compactItems : List Content → List (List UInt8)
  | [] => []
  | item :: rest => compact item :: compactItems rest

def compactMembers : List (String × Content) → List (List UInt8)
  | [] => []
  | (name, value) :: rest => member name (compact value) :: compactMembers rest

end

private theorem compactItems_eq (items : List Content) : compactItems items = items.map compact := by
  induction items with
  | nil => rw [compactItems, List.map_nil]
  | cons item rest ih => rw [compactItems, ih, List.map_cons]

private theorem compactMembers_eq (members : List (String × Content)) :
    compactMembers members = members.map fun entry => member entry.1 (compact entry.2) := by
  induction members with
  | nil => rw [compactMembers, List.map_nil]
  | cons entry rest ih =>
    obtain ⟨name, value⟩ := entry
    rw [compactMembers, ih, List.map_cons]

theorem compact_compact : Compact compact where
  null := by rw [compact]
  true_ := by rw [compact]
  false_ := by rw [compact]
  natural value := by rw [compact]
  string value := by rw [compact]
  seq items := by rw [compact, compactItems_eq]
  map members := by rw [compact, compactMembers_eq]

section Sizes

variable {toVec : Content → List UInt8} (serializer : Compact toVec)

include serializer

theorem Compact.length_string (text : String) : (toVec (.string text)).length = escapedLength text + 2 := by
  rw [serializer.string, length_quoted]

theorem Compact.length_seq (items : List Content) :
    (toVec (.seq items)).length = 2 + (items.map fun item => (toVec item).length).sum + (items.length - 1) := by
  rw [serializer.seq, length_array, List.map_map, List.length_map]
  rfl

theorem Compact.length_seq_map {α : Type*} {encode : α → Content} {size : α → ℕ}
    (each : ∀ item, (toVec (encode item)).length = size item) (items : List α) :
    (toVec (.seq (items.map encode))).length = 2 + (items.map size).sum + (items.length - 1) := by
  rw [serializer.length_seq, List.map_map, List.length_map]
  exact congrArg (2 + List.sum · + (items.length - 1)) (List.map_congr_left fun item _ => each item)

theorem Compact.length_map (members : List (String × Content)) :
    (toVec (.map members)).length = 2 + namesLength (members.map Prod.fst) +
      (members.map fun entry => (toVec entry.2).length).sum + (members.length - 1) := by
  rw [serializer.map, length_object, List.map_map, List.length_map, namesLength, List.map_map]
  simp only [Function.comp_def, length_member]
  rw [List.sum_map_add]
  omega

end Sizes

end Content
