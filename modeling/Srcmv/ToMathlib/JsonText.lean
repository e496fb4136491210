import Srcmv.ToMathlib.Except
import Srcmv.ToMathlib.Utf8
import Mathlib.Data.Nat.Digits.Defs
import Mathlib.Data.Rat.Defs

/-! # JSON texts and their nesting

Values and the texts that denote them, with any white space, any spelling of numbers and any escapes.
A scan that only tells strings from the rest and counts brackets stays in step with this grammar, so
that it measures how deep arrays and objects are nested.
-/

/-- A value; strings are sequences of UTF-16 units, as escapes denote them. -/
inductive JsonValue where
  | null
  | bool (value : Bool)
  | number (value : ℚ)
  | string (units : List UInt16)
  | array (items : List JsonValue)
  | object (fields : List (List UInt16 × JsonValue))

namespace JsonValue

mutual

/-- The number of arrays and objects around the innermost value. -/
def nesting : JsonValue → ℕ
  | array items => nestingItems items + 1
  | object fields => nestingFields fields + 1
  | _ => 0

def nestingItems : List JsonValue → ℕ
  | [] => 0
  | item :: rest => max (nesting item) (nestingItems rest)

def nestingFields : List (List UInt16 × JsonValue) → ℕ
  | [] => 0
  | (_, value) :: rest => max (nesting value) (nestingFields rest)

end

end JsonValue

namespace JsonText

/-! ## Grammar -/

/-- Spaces, tabs and line ends. -/
def Blank (text : List UInt8) : Prop := ∀ byte ∈ text, byte ∈ ([32, 9, 10, 13] : List UInt8)

def Digits (text : List UInt8) : Prop := text ≠ [] ∧ ∀ byte ∈ text, 48 ≤ byte.toNat ∧ byte.toNat ≤ 57

def digitsValue (text : List UInt8) : ℕ := Nat.ofDigits 10 (text.map fun digit => digit.toNat - 48).reverse

/-- A decimal fraction without leading zeros. -/
inductive Magnitude : ℚ → List UInt8 → Prop
  | whole {digits : List UInt8} (decimal : Digits digits) (short : digits.head? = some 48 → digits = [48]) :
      Magnitude (digitsValue digits) digits
  | fraction {digits places : List UInt8} (decimal : Digits digits) (short : digits.head? = some 48 → digits = [48])
      (decimal' : Digits places) :
      Magnitude (digitsValue (digits ++ places) / 10 ^ places.length) (digits ++ 46 :: places)

/-- A decimal exponent, if there is one. -/
inductive Exponent : ℤ → List UInt8 → Prop
  | none : Exponent 0 []
  | plain {letter : UInt8} {digits : List UInt8} (marks : letter = 101 ∨ letter = 69) (decimal : Digits digits) :
      Exponent (digitsValue digits) (letter :: digits)
  | plus {letter : UInt8} {digits : List UInt8} (marks : letter = 101 ∨ letter = 69) (decimal : Digits digits) :
      Exponent (digitsValue digits) (letter :: 43 :: digits)
  | minus {letter : UInt8} {digits : List UInt8} (marks : letter = 101 ∨ letter = 69) (decimal : Digits digits) :
      Exponent (-digitsValue digits) (letter :: 45 :: digits)

inductive Number : ℚ → List UInt8 → Prop
  | positive {magnitude : ℚ} {exponent : ℤ} {text power : List UInt8} (value : Magnitude magnitude text)
      (scale : Exponent exponent power) : Number (magnitude * 10 ^ exponent) (text ++ power)
  | negative {magnitude : ℚ} {exponent : ℤ} {text power : List UInt8} (value : Magnitude magnitude text)
      (scale : Exponent exponent power) : Number (-(magnitude * 10 ^ exponent)) (45 :: (text ++ power))

/-- The UTF-16 units of a character. -/
def utf16 (char : Char) : List UInt16 :=
  if char.toNat < 65536 then [UInt16.ofNat char.toNat]
  else [UInt16.ofNat (55296 + (char.toNat - 65536) / 1024), UInt16.ofNat (56320 + (char.toNat - 65536) % 1024)]

/-- What stands after a backslash, and the unit that it denotes. -/
def shortEscapes : List (UInt8 × UInt16) :=
  [(34, 34), (92, 92), (47, 47), (98, 8), (102, 12), (110, 10), (114, 13), (116, 9)]

def hexValue (byte : UInt8) : Option ℕ :=
  if 48 ≤ byte.toNat ∧ byte.toNat ≤ 57 then some (byte.toNat - 48)
  else if 65 ≤ byte.toNat ∧ byte.toNat ≤ 70 then some (byte.toNat - 55)
  else if 97 ≤ byte.toNat ∧ byte.toNat ≤ 102 then some (byte.toNat - 87)
  else none

/-- The inside of a string. -/
inductive Units : List UInt16 → List UInt8 → Prop
  | nil : Units [] []
  | literal {char : Char} {units : List UInt16} {text : List UInt8} (unquoted : char ≠ '"') (unescaped : char ≠ '\\')
      (printed : 32 ≤ char.toNat) (rest : Units units text) : Units (utf16 char ++ units) (String.utf8EncodeChar char ++ text)
  | short {letter : UInt8} {unit : UInt16} {units : List UInt16} {text : List UInt8} (escape : (letter, unit) ∈ shortEscapes)
      (rest : Units units text) : Units (unit :: units) (92 :: letter :: text)
  | hex {first second third fourth : UInt8} {thousands hundreds tens ones : ℕ} {units : List UInt16} {text : List UInt8}
      (first_ : hexValue first = some thousands) (second_ : hexValue second = some hundreds) (third_ : hexValue third = some tens)
      (fourth_ : hexValue fourth = some ones) (rest : Units units text) :
      Units (UInt16.ofNat (((thousands * 16 + hundreds) * 16 + tens) * 16 + ones) :: units)
        (92 :: 117 :: first :: second :: third :: fourth :: text)

def Quoted (units : List UInt16) (text : List UInt8) : Prop := ∃ inside, Units units inside ∧ text = 34 :: (inside ++ [34])

/-- What a part of a text denotes: a value, or what is between brackets or braces. -/
inductive Part where
  | value (value : JsonValue)
  | items (items : List JsonValue)
  | fields (fields : List (List UInt16 × JsonValue))

def Part.nesting : Part → ℕ
  | .value one => one.nesting
  | .items several => JsonValue.nestingItems several
  | .fields named => JsonValue.nestingFields named

inductive Denotes : Part → List UInt8 → Prop
  | null : Denotes (.value .null) [110, 117, 108, 108]
  | true : Denotes (.value (.bool true)) [116, 114, 117, 101]
  | false : Denotes (.value (.bool false)) [102, 97, 108, 115, 101]
  | number {value : ℚ} {text : List UInt8} (number : Number value text) : Denotes (.value (.number value)) text
  | string {units : List UInt16} {text : List UInt8} (quoted : Quoted units text) : Denotes (.value (.string units)) text
  | array {items : List JsonValue} {text : List UInt8} (inside : Denotes (.items items) text) :
      Denotes (.value (.array items)) (91 :: (text ++ [93]))
  | object {fields : List (List UInt16 × JsonValue)} {text : List UInt8} (inside : Denotes (.fields fields) text) :
      Denotes (.value (.object fields)) (123 :: (text ++ [125]))
  | noItems {blank : List UInt8} (space : Blank blank) : Denotes (.items []) blank
  | lastItem {item : JsonValue} {before text after : List UInt8} (space : Blank before) (value : Denotes (.value item) text)
      (space' : Blank after) : Denotes (.items [item]) (before ++ text ++ after)
  | nextItem {item next : JsonValue} {rest : List JsonValue} {before text after texts : List UInt8} (space : Blank before)
      (value : Denotes (.value item) text) (space' : Blank after) (others : Denotes (.items (next :: rest)) texts) :
      Denotes (.items (item :: next :: rest)) (before ++ text ++ after ++ 44 :: texts)
  | noFields {blank : List UInt8} (space : Blank blank) : Denotes (.fields []) blank
  | lastField {name : List UInt16} {value : JsonValue} {before quote middle middle' text after : List UInt8} (space : Blank before)
      (quoted : Quoted name quote) (inner : Blank middle) (inner' : Blank middle') (denotes : Denotes (.value value) text)
      (space' : Blank after) : Denotes (.fields [(name, value)]) (before ++ quote ++ middle ++ 58 :: (middle' ++ text ++ after))
  | nextField {name : List UInt16} {value : JsonValue} {next : List UInt16 × JsonValue} {rest : List (List UInt16 × JsonValue)}
      {before quote middle middle' text after texts : List UInt8} (space : Blank before) (quoted : Quoted name quote)
      (inner : Blank middle) (inner' : Blank middle') (denotes : Denotes (.value value) text) (space' : Blank after)
      (others : Denotes (.fields (next :: rest)) texts) :
      Denotes (.fields ((name, value) :: next :: rest))
        (before ++ quote ++ middle ++ 58 :: (middle' ++ text ++ after) ++ 44 :: texts)

/-- A text of one value between blanks. -/
def Document (value : JsonValue) (text : List UInt8) : Prop :=
  ∃ before inside after, Blank before ∧ Denotes (.value value) inside ∧ Blank after ∧ text = before ++ inside ++ after

/-! ## The scan -/

structure Scan where
  depth : ℕ := 0
  inString : Bool := false
  escaped : Bool := false

variable {ε : Type} (nested : ℕ → Except ε ℕ)

/-- One byte; `nested` counts an opening bracket or rejects it. -/
def Scan.visit (scan : Scan) (byte : UInt8) : Except ε Scan :=
  if scan.inString then
    if scan.escaped then .ok { scan with escaped := false }
    else if byte = 92 then .ok { scan with escaped := true }
    else if byte = 34 then .ok { scan with inString := false }
    else .ok scan
  else if byte = 34 then .ok { scan with inString := true }
  else if byte = 123 ∨ byte = 91 then do
    let depth ← nested scan.depth
    return { scan with depth := depth }
  else if byte = 125 ∨ byte = 93 then .ok { scan with depth := scan.depth - 1 }
  else .ok scan

/-- A byte that no scan outside of strings reacts to. -/
def Plain (byte : UInt8) : Prop := byte ∉ ([34, 91, 93, 123, 125] : List UInt8)

instance (byte : UInt8) : Decidable (Plain byte) := inferInstanceAs (Decidable (byte ∉ _))

variable {nested} {limit bound : ℕ}

theorem Scan.visit_plain {byte : UInt8} (plain : Plain byte) (depth : ℕ) :
    Scan.visit nested ⟨depth, false, false⟩ byte = .ok ⟨depth, false, false⟩ := by
  simp only [Plain, List.mem_cons, List.not_mem_nil, or_false, not_or] at plain
  obtain ⟨quote, bracket, bracket', brace, brace'⟩ := plain
  rw [visit, if_neg Bool.false_ne_true, if_neg quote, if_neg (not_or.mpr ⟨brace, bracket⟩), if_neg (not_or.mpr ⟨brace', bracket'⟩)]

private theorem foldlM_fixed {step : Scan → UInt8 → Except ε Scan} {scan : Scan} {text : List UInt8}
    (fixed : ∀ byte ∈ text, step scan byte = .ok scan) : text.foldlM step scan = .ok scan := by
  induction text with
  | nil => rfl
  | cons byte text ih =>
    obtain ⟨first, others⟩ := List.forall_mem_cons.mp fixed
    rw [List.foldlM_cons, first, Except.ok_bind]
    exact ih others

/-! ### Strings -/

/-- A character that is neither a quote nor a backslash has no byte of theirs. -/
private theorem encodeChar_unquoted {char : Char} (unquoted : char ≠ '"') (unescaped : char ≠ '\\') :
    ∀ byte ∈ String.utf8EncodeChar char, byte ≠ 34 ∧ byte ≠ 92 := by
  rcases Utf8.encodeChar_cases char with ⟨single, ascii⟩ | high
  · rw [single]
    intro byte member
    obtain rfl := List.mem_singleton.mp member
    have value : char.val.toUInt8.toNat = char.toNat := Nat.mod_eq_of_lt (by omega : char.toNat < 256)
    constructor
    · intro quote
      rw [quote] at value
      exact unquoted (Char.toNat_inj.mp value.symm)
    · intro escape
      rw [escape] at value
      exact unescaped (Char.toNat_inj.mp value.symm)
  · intro byte member
    have large := high byte member
    constructor
    · rintro rfl
      exact absurd large (by decide)
    · rintro rfl
      exact absurd large (by decide)

private theorem visit_inside {byte : UInt8} (depth : ℕ) (clean : byte ≠ 34 ∧ byte ≠ 92) :
    Scan.visit nested ⟨depth, true, false⟩ byte = .ok ⟨depth, true, false⟩ := by
  rw [Scan.visit, if_pos rfl, if_neg Bool.false_ne_true, if_neg clean.2, if_neg clean.1]

private theorem hexValue_unquoted {byte : UInt8} {value : ℕ} (digit : hexValue byte = some value) : byte ≠ 34 ∧ byte ≠ 92 := by
  constructor
  · rintro rfl
    cases digit
  · rintro rfl
    cases digit

/-- The inside of a string leaves the scan inside, hence escapes never desynchronize it. -/
theorem Units.scan {units : List UInt16} {text : List UInt8} (inside : Units units text) (depth : ℕ) :
    text.foldlM (Scan.visit nested) ⟨depth, true, false⟩ = .ok ⟨depth, true, false⟩ := by
  induction inside with
  | nil => rfl
  | literal unquoted unescaped printed rest ih =>
    rw [List.foldlM_append, foldlM_fixed, Except.ok_bind]
    · exact ih
    · exact fun byte member => visit_inside depth (encodeChar_unquoted unquoted unescaped byte member)
  | short escape rest ih => exact ih
  | hex first second third fourth rest ih =>
    have entered : Scan.visit nested ⟨depth, true, false⟩ 92 = .ok ⟨depth, true, true⟩ := rfl
    have escaped : Scan.visit nested ⟨depth, true, true⟩ 117 = .ok ⟨depth, true, false⟩ := rfl
    rw [List.foldlM_cons, entered, Except.ok_bind, List.foldlM_cons, escaped, Except.ok_bind,
      List.foldlM_cons, visit_inside depth (hexValue_unquoted first), Except.ok_bind,
      List.foldlM_cons, visit_inside depth (hexValue_unquoted second), Except.ok_bind,
      List.foldlM_cons, visit_inside depth (hexValue_unquoted third), Except.ok_bind,
      List.foldlM_cons, visit_inside depth (hexValue_unquoted fourth), Except.ok_bind]
    exact ih

/-! ### Values -/

variable (nested limit bound)

/-- Brackets are counted up to the limit, as long as their number is within the bound. -/
def Counts : Prop := ∀ depth < bound,
  (depth + 1 ≤ limit → nested depth = .ok (depth + 1)) ∧ (limit < depth + 1 → ∃ failure, nested depth = .error failure)

/-- The scan of a text returns to its depth unless the text reaches below the limit. -/
def Measures (text : List UInt8) (levels : ℕ) : Prop := ∀ depth ≤ limit, depth + text.length ≤ bound →
  (depth + levels ≤ limit → text.foldlM (Scan.visit nested) ⟨depth, false, false⟩ = .ok ⟨depth, false, false⟩) ∧
  (limit < depth + levels → ∃ failure, text.foldlM (Scan.visit nested) ⟨depth, false, false⟩ = .error failure)

variable {nested limit bound}

namespace Measures

variable {text text' : List UInt8} {levels levels' : ℕ}

theorem of_plain (plain : ∀ byte ∈ text, Plain byte) : Measures nested limit bound text 0 := by
  intro depth within sized
  refine ⟨fun _ => foldlM_fixed fun byte member => Scan.visit_plain (plain byte member) depth, ?_⟩
  intro beyond
  omega

theorem append (front : Measures nested limit bound text levels) (back : Measures nested limit bound text' levels') :
    Measures nested limit bound (text ++ text') (max levels levels') := by
  intro depth within sized
  rw [List.length_append] at sized
  obtain ⟨passes, fails⟩ := front depth within (by omega)
  obtain ⟨passes', fails'⟩ := back depth within (by omega)
  rw [List.foldlM_append]
  constructor
  · intro fits
    rw [passes (by omega), Except.ok_bind]
    exact passes' (by omega)
  · intro beyond
    by_cases first : depth + levels ≤ limit
    · rw [passes first, Except.ok_bind]
      exact fails' (by omega)
    · obtain ⟨failure, failed⟩ := fails (by omega)
      exact ⟨failure, by rw [failed, Except.error_bind]⟩

/-- Brackets or braces around a text. -/
theorem enclose (counts : Counts nested limit bound) {opening closing : UInt8} (opens : opening = 123 ∨ opening = 91)
    (closes : closing = 125 ∨ closing = 93) (inside : Measures nested limit bound text levels) :
    Measures nested limit bound (opening :: (text ++ [closing])) (levels + 1) := by
  intro depth within sized
  rw [List.length_cons, List.length_append, List.length_singleton] at sized
  have unquoted : opening ≠ 34 := by rcases opens with rfl | rfl <;> decide
  have entered : Scan.visit nested ⟨depth, false, false⟩ opening =
      (nested depth >>= fun depth => .ok ⟨depth, false, false⟩) := by
    rw [Scan.visit, if_neg Bool.false_ne_true, if_neg unquoted, if_pos opens]
    rfl
  have left : Scan.visit nested ⟨depth + 1, false, false⟩ closing = .ok ⟨depth, false, false⟩ := by
    rcases closes with rfl | rfl <;> rfl
  obtain ⟨counted, rejected⟩ := counts depth (by omega)
  rw [List.foldlM_cons, entered]
  by_cases room : depth + 1 ≤ limit
  · obtain ⟨passes, fails⟩ := inside (depth + 1) room (by omega)
    rw [counted room, Except.ok_bind, Except.ok_bind, List.foldlM_append]
    constructor
    · intro fits
      rw [passes (by omega), Except.ok_bind, List.foldlM_cons, left]
      rfl
    · intro beyond
      obtain ⟨failure, failed⟩ := fails (by omega)
      exact ⟨failure, by rw [failed, Except.error_bind]⟩
  · obtain ⟨failure, failed⟩ := rejected (by omega)
    refine ⟨fun fits => absurd fits (by omega), fun _ => ⟨failure, ?_⟩⟩
    rw [failed, Except.error_bind, Except.error_bind]

end Measures

private theorem Blank.plain {text : List UInt8} (blank : Blank text) : ∀ byte ∈ text, Plain byte := by
  intro byte member
  have closed : ∀ byte ∈ ([32, 9, 10, 13] : List UInt8), Plain byte := by simp [Plain]
  exact closed byte (blank byte member)

private theorem Digits.plain {text : List UInt8} (digits : Digits text) : ∀ byte ∈ text, Plain byte := by
  intro byte member
  obtain ⟨low, high⟩ := digits.2 byte member
  simp only [Plain, List.mem_cons, List.not_mem_nil, or_false, not_or]
  refine ⟨?_, ?_, ?_, ?_, ?_⟩
  · rintro rfl
    exact absurd low (by decide)
  all_goals
    rintro rfl
    exact absurd high (by decide)

private theorem plain_cons {byte : UInt8} {text : List UInt8} (first : Plain byte) (others : ∀ byte ∈ text, Plain byte) :
    ∀ next ∈ byte :: text, Plain next := List.forall_mem_cons.mpr ⟨first, others⟩

private theorem plain_append {text text' : List UInt8} (front : ∀ byte ∈ text, Plain byte) (back : ∀ byte ∈ text', Plain byte) :
    ∀ byte ∈ text ++ text', Plain byte := List.forall_mem_append.mpr ⟨front, back⟩

private theorem Magnitude.plain {value : ℚ} {text : List UInt8} (magnitude : Magnitude value text) : ∀ byte ∈ text, Plain byte := by
  cases magnitude with
  | whole decimal short => exact decimal.plain
  | fraction decimal short decimal' => exact plain_append decimal.plain (plain_cons (by decide) decimal'.plain)

private theorem Exponent.all_plain {value : ℤ} {text : List UInt8} (exponent : Exponent value text) : ∀ byte ∈ text, Plain byte := by
  cases exponent with
  | none => exact fun _ member => absurd member List.not_mem_nil
  | plain marks decimal => exact plain_cons (by rcases marks with rfl | rfl <;> decide) decimal.plain
  | plus marks decimal =>
    exact plain_cons (by rcases marks with rfl | rfl <;> decide) (plain_cons (by decide) decimal.plain)
  | minus marks decimal =>
    exact plain_cons (by rcases marks with rfl | rfl <;> decide) (plain_cons (by decide) decimal.plain)

private theorem Number.plain {value : ℚ} {text : List UInt8} (number : Number value text) : ∀ byte ∈ text, Plain byte := by
  cases number with
  | positive value scale => exact plain_append value.plain scale.all_plain
  | negative value scale => exact plain_cons (by decide) (plain_append value.plain scale.all_plain)

theorem Quoted.measures {units : List UInt16} {text : List UInt8} (quoted : Quoted units text) : Measures nested limit bound text 0 := by
  obtain ⟨inside, denotes, rfl⟩ := quoted
  intro depth within sized
  have entered : Scan.visit nested ⟨depth, false, false⟩ 34 = .ok ⟨depth, true, false⟩ := rfl
  have left : Scan.visit nested ⟨depth, true, false⟩ 34 = .ok ⟨depth, false, false⟩ := rfl
  refine ⟨fun _ => ?_, fun beyond => absurd beyond (by omega)⟩
  rw [List.foldlM_cons, entered, Except.ok_bind, List.foldlM_append, denotes.scan, Except.ok_bind, List.foldlM_cons, left]
  rfl

private theorem measures_separator {separator : UInt8} (plain : Plain separator) {text : List UInt8} {levels : ℕ}
    (measures : Measures nested limit bound text levels) : Measures nested limit bound (separator :: text) levels := by
  have first : ∀ byte ∈ [separator], Plain byte := plain_cons plain fun _ member => absurd member List.not_mem_nil
  have whole := (Measures.of_plain first).append measures
  rwa [Nat.zero_max] at whole

/-- A value or a string between blanks. -/
private theorem measures_between {before text after : List UInt8} {levels : ℕ} (space : Blank before)
    (measures : Measures nested limit bound text levels) (space' : Blank after) :
    Measures nested limit bound (before ++ text ++ after) levels := by
  have whole := ((Measures.of_plain space.plain).append measures).append (Measures.of_plain space'.plain)
  rwa [Nat.zero_max, Nat.max_zero] at whole

private theorem measures_field {name : List UInt16} {before quote middle middle' text after : List UInt8} {levels : ℕ}
    (space : Blank before) (quoted : Quoted name quote) (inner : Blank middle) (inner' : Blank middle')
    (measures : Measures nested limit bound text levels) (space' : Blank after) :
    Measures nested limit bound (before ++ quote ++ middle ++ 58 :: (middle' ++ text ++ after)) levels := by
  have named : Measures nested limit bound _ 0 := measures_between space quoted.measures inner
  have whole := named.append (measures_separator (by decide : Plain 58) (measures_between inner' measures space'))
  rwa [Nat.zero_max] at whole

/-- A scan measures the nesting of what a text denotes. -/
theorem Denotes.measures (counts : Counts nested limit bound) {part : Part} {text : List UInt8} (denotes : Denotes part text) :
    Measures nested limit bound text part.nesting := by
  induction denotes with
  | null => exact .of_plain (by simp [Plain])
  | true => exact .of_plain (by simp [Plain])
  | false => exact .of_plain (by simp [Plain])
  | number number => exact .of_plain number.plain
  | string quoted => exact quoted.measures
  | array inside ih => exact ih.enclose counts (.inr rfl) (.inr rfl)
  | object inside ih => exact ih.enclose counts (.inl rfl) (.inl rfl)
  | noItems space => exact .of_plain space.plain
  | lastItem space value space' ih =>
    have item := measures_between space ih space'
    rwa [← Nat.max_zero (Part.nesting _)] at item
  | nextItem space value space' others ih ih' =>
    exact (measures_between space ih space').append (measures_separator (by decide) ih')
  | noFields space => exact .of_plain space.plain
  | lastField space quoted inner inner' denotes space' ih =>
    have field := measures_field space quoted inner inner' ih space'
    rwa [← Nat.max_zero (Part.nesting _)] at field
  | nextField space quoted inner inner' denotes space' others ih ih' =>
    exact (measures_field space quoted inner inner' ih space').append (measures_separator (by decide) ih')

/-- A document passes the scan exactly when it is not nested too deeply. -/
theorem Document.scan (counts : Counts nested limit bound) {value : JsonValue} {text : List UInt8} (document : Document value text)
    (sized : text.length ≤ bound) : (∃ final, text.foldlM (Scan.visit nested) {} = .ok final) ↔ value.nesting ≤ limit := by
  obtain ⟨before, inside, after, space, denotes, space', rfl⟩ := document
  have whole : Measures nested limit bound _ value.nesting := measures_between space (denotes.measures counts) space'
  obtain ⟨passes, fails⟩ := whole 0 (Nat.zero_le _) (by omega)
  rw [Nat.zero_add] at passes fails
  constructor
  · rintro ⟨final, passed⟩
    by_contra beyond
    obtain ⟨failure, failed⟩ := fails (not_le.mp beyond)
    cases passed.symm.trans failed
  · intro fits
    exact ⟨_, passes fits⟩

end JsonText
