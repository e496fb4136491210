import Srcmv.Proofs.Lsp.Headers

/-! # The grammar of headers

A header is accepted exactly when it is a sequence of field lines with one length, which is decimal
and small enough, and at most one content type. Lines are found by their terminators, names are
compared without case, and blanks around values and around the parts of a content type do not count.
-/

namespace Srcmv.Lsp

open Srcmv.Core

/-! ## Grammar -/

/-- A text between blanks. -/
def Padded (text core : Bytes) : Prop :=
  ∃ front back, text = front ++ (core ++ back) ∧ (∀ byte ∈ front, isBlank byte) ∧ ∀ byte ∈ back, isBlank byte

/-- A word without regard to case. -/
def Caseless (text : Bytes) (word : String) : Prop := eqIgnoreAsciiCase text (utf8Bytes word) = true

/-- A field line: a token, a colon, and printable characters or tabs. -/
structure FieldLine where
  name : Bytes
  value : Bytes
  named : name ≠ []
  token : ∀ byte ∈ name, isHeaderNameByte byte
  printed : ∀ byte ∈ value, byte = 9 ∨ 32 ≤ byte ∧ byte ≤ 126

def FieldLine.text (line : FieldLine) : Bytes := line.name ++ 58 :: line.value

/-- The number that a string of digits denotes. -/
def decimalValue (digits : Bytes) : ℕ := Nat.ofDigits 10 ((digits.map fun digit => digit.toNat - 48).reverse)

/-- A value that is a nonempty string of digits, up to blanks around it. -/
def Denotes (value : Bytes) (number : ℕ) : Prop :=
  ∃ digits, Padded value digits ∧ digits ≠ [] ∧ (∀ byte ∈ digits, isAsciiDigit byte) ∧ decimalValue digits = number

/-- The type of all bodies, alone or with one charset. -/
inductive JsonRpcType (value : Bytes) : Prop
  | bare {media : Bytes} (padded : Padded value media) (type : Caseless media "application/vscode-jsonrpc")
  | charset {first second third media name charset : Bytes} (parts : value = first ++ 59 :: (second ++ 61 :: third))
      (padded : Padded first media) (type : Caseless media "application/vscode-jsonrpc")
      (left : Padded second name) (parameter : Caseless name "charset")
      (right : Padded third charset) (encoding : Caseless charset "utf-8" ∨ Caseless charset "utf8")

def FieldLine.isLength (line : FieldLine) : Bool := eqIgnoreAsciiCase line.name (utf8Bytes "Content-Length")

def FieldLine.isType (line : FieldLine) : Bool := eqIgnoreAsciiCase line.name (utf8Bytes "Content-Type")

/-- Lines between terminators. -/
def joinLines (lines : List Bytes) : Bytes := List.intercalate [13, 10] lines

/-- The headers that state a length. -/
def HeaderStates (header : Bytes) (number : ℕ) : Prop :=
  ∃ lines : List FieldLine, lines ≠ [] ∧ header = joinLines (lines.map FieldLine.text) ++ terminator ∧
    (∃ line, lines.filter FieldLine.isLength = [line] ∧ Denotes line.value number) ∧ number ≤ usizeMax ∧
    (lines.filter FieldLine.isType).length ≤ 1 ∧ ∀ line ∈ lines, line.isType → JsonRpcType line.value

/-! ## Blanks -/

private theorem dropWhile_blanks {front rest : Bytes} (blank : ∀ byte ∈ front, isBlank byte)
    (solid : ∀ byte ∈ rest.head?, isBlank byte = false) : (front ++ rest).dropWhile isBlank = rest := by
  rw [List.dropWhile_append_of_pos blank]
  cases rest with
  | nil => rfl
  | cons byte rest => exact List.dropWhile_cons_of_neg (by rw [solid byte rfl]; exact Bool.false_ne_true)

private theorem rdropWhile_blanks {front rest : Bytes} (blank : ∀ byte ∈ rest, isBlank byte)
    (solid : ∀ byte ∈ front.getLast?, isBlank byte = false) : (front ++ rest).rdropWhile isBlank = front := by
  rw [List.rdropWhile, List.reverse_append, dropWhile_blanks, List.reverse_reverse]
  · exact fun byte member => blank byte (List.mem_reverse.mp member)
  · rw [List.head?_reverse]
    exact solid

/-- A text whose ends are no blanks is what remains of it between blanks. -/
theorem trim_of_ends {front core back : Bytes} (before : ∀ byte ∈ front, isBlank byte) (after : ∀ byte ∈ back, isBlank byte)
    (first : ∀ byte ∈ core.head?, isBlank byte = false) (last : ∀ byte ∈ core.getLast?, isBlank byte = false) :
    trimAsciiWhitespace (front ++ (core ++ back)) = core := by
  rw [trimAsciiWhitespace]
  cases core with
  | nil =>
    have blank : ∀ byte ∈ front ++ ([] ++ back), isBlank byte := by
      intro byte member
      rcases List.mem_append.mp member with left | right
      · exact before byte left
      · exact after byte right
    rw [List.dropWhile_eq_nil_iff.mpr blank]
    rfl
  | cons byte rest =>
    have started : ∀ next ∈ (byte :: rest ++ back).head?, isBlank next = false := first
    rw [dropWhile_blanks before started]
    exact rdropWhile_blanks after last

theorem padded_trim (text : Bytes) : Padded text (trimAsciiWhitespace text) := by
  refine ⟨text.takeWhile isBlank, (text.dropWhile isBlank).rtakeWhile isBlank, ?_, fun byte member => List.mem_takeWhile_imp member,
    fun byte member => ?_⟩
  · rw [trimAsciiWhitespace, List.rdropWhile_append_rtakeWhile, List.takeWhile_append_dropWhile]
  · exact List.mem_rtakeWhile_imp member

theorem Padded.trim {text core : Bytes} (padded : Padded text core) (solid : ∀ byte ∈ core, isBlank byte = false) :
    trimAsciiWhitespace text = core := by
  obtain ⟨front, back, rfl, before, after⟩ := padded
  exact trim_of_ends before after (fun byte member => solid byte (List.mem_of_mem_head? member))
    fun byte member => solid byte (List.mem_of_mem_getLast? member)

/-- More blanks before a text. -/
theorem Padded.after {text core front : Bytes} (padded : Padded text core) (before : ∀ byte ∈ front, isBlank byte) :
    Padded (front ++ text) core := by
  obtain ⟨left, right, rfl, blank, blank'⟩ := padded
  exact ⟨front ++ left, right, (List.append_assoc ..).symm, List.forall_mem_append.mpr ⟨before, blank⟩, blank'⟩

theorem Padded.before {text core back : Bytes} (padded : Padded text core) (after : ∀ byte ∈ back, isBlank byte) :
    Padded (text ++ back) core := by
  obtain ⟨left, right, rfl, blank, blank'⟩ := padded
  exact ⟨left, right ++ back, by simp, blank, List.forall_mem_append.mpr ⟨blank', after⟩⟩

/-! ## Words without case -/

/-- A character that has no other case is in a word if it is in the text. -/
private theorem Caseless.mem {text : Bytes} {word : String} (same : Caseless text word) {byte : UInt8} (member : byte ∈ text)
    (uncased : toAsciiLowercase byte = byte) : byte ∈ (utf8Bytes word).map toAsciiLowercase := by
  rw [Caseless, eqIgnoreAsciiCase, decide_eq_true_iff] at same
  rw [← same, ← uncased]
  exact List.mem_map_of_mem member

private theorem Caseless.solid {text : Bytes} {word : String} (same : Caseless text word)
    (spaceless : (32 : UInt8) ∉ (utf8Bytes word).map toAsciiLowercase) (tabless : (9 : UInt8) ∉ (utf8Bytes word).map toAsciiLowercase) :
    ∀ byte ∈ text, isBlank byte = false := by
  intro byte member
  rw [isBlank, Bool.or_eq_false_iff, decide_eq_false_iff_not, decide_eq_false_iff_not]
  constructor
  · rintro rfl
    exact spaceless (same.mem member rfl)
  · rintro rfl
    exact tabless (same.mem member rfl)

private theorem Caseless.ne_nil {text : Bytes} {word : String} (same : Caseless text word) (letters : utf8Bytes word ≠ []) : text ≠ [] := by
  rintro rfl
  rw [Caseless, eqIgnoreAsciiCase, decide_eq_true_iff, List.map_nil, eq_comm, List.map_eq_nil_iff] at same
  exact letters same

/-! ## Lengths -/

private theorem isAsciiDigit_iff {byte : UInt8} : isAsciiDigit byte = true ↔ 48 ≤ byte.toNat ∧ byte.toNat ≤ 57 := by
  rw [isAsciiDigit, Bool.and_eq_true, decide_eq_true_iff, decide_eq_true_iff, UInt8.le_iff_toNat_le, UInt8.le_iff_toNat_le]
  exact Iff.rfl

private theorem decimalValue_concat (digits : Bytes) (digit : UInt8) :
    decimalValue (digits ++ [digit]) = decimalValue digits * 10 + (digit.toNat - 48) := by
  rw [decimalValue, decimalValue, List.map_append, List.reverse_append, List.map_singleton, List.reverse_singleton,
    List.singleton_append, Nat.ofDigits_cons]
  omega

private theorem decimalValue_le_append (digits rest : Bytes) : decimalValue digits ≤ decimalValue (digits ++ rest) := by
  induction rest using List.reverseRecOn with
  | nil => rw [List.append_nil]
  | append_singleton rest digit ih =>
    rw [← List.append_assoc, decimalValue_concat]
    omega

/-- The fold over digits computes their value, unless it does not fit. -/
private theorem foldlM_decimal {done digits : Bytes} (fits : decimalValue done ≤ usizeMax)
    (decimal_ : ∀ byte ∈ digits, isAsciiDigit byte) :
    digits.foldlM (fun (length : ℕ) (digit : UInt8) =>
      if length * 10 + (digit - 48).toNat ≤ usizeMax then Except.ok (length * 10 + (digit - 48).toNat)
      else .error JsonRpcError.contentLengthOverflow) (decimalValue done) =
        if decimalValue (done ++ digits) ≤ usizeMax then .ok (decimalValue (done ++ digits)) else .error .contentLengthOverflow := by
  induction digits generalizing done with
  | nil =>
    rw [List.append_nil, if_pos fits]
    rfl
  | cons digit digits ih =>
    obtain ⟨first, others⟩ := List.forall_mem_cons.mp decimal_
    have low : (48 : UInt8) ≤ digit := UInt8.le_iff_toNat_le.mpr (isAsciiDigit_iff.mp first).1
    have next : decimalValue done * 10 + (digit - 48).toNat = decimalValue (done ++ [digit]) := by
      rw [decimalValue_concat, UInt8.toNat_sub_of_le _ _ low]
      rfl
    have shape : done ++ digit :: digits = done ++ [digit] ++ digits := by rw [List.append_assoc, List.singleton_append]
    have grows := decimalValue_le_append (done ++ [digit]) digits
    rw [List.foldlM_cons, next, shape]
    by_cases more : decimalValue (done ++ [digit]) ≤ usizeMax
    · rw [if_pos more, Except.ok_bind, ih more others]
    · rw [if_neg more, if_neg (by omega)]
      rfl

/-- A length is read from its digits, as far as it fits. -/
theorem parseContentLength_eq {digits : Bytes} (nonempty : digits ≠ []) (decimal_ : ∀ byte ∈ digits, isAsciiDigit byte) :
    parseContentLength digits = if decimalValue digits ≤ usizeMax then .ok (decimalValue digits) else .error .contentLengthOverflow := by
  have accepted : ¬(digits = [] ∨ !digits.all isAsciiDigit) := by
    rw [List.all_eq_true.mpr decimal_]
    simpa using nonempty
  have folded := foldlM_decimal (show decimalValue [] ≤ usizeMax from Nat.zero_le _) decimal_
  rw [parseContentLength, rejectFrame, if_neg accepted, Except.ok_bind]
  exact folded

private theorem digits_solid {digits : Bytes} (decimal_ : ∀ byte ∈ digits, isAsciiDigit byte) :
    ∀ byte ∈ digits, isBlank byte = false := by
  intro byte member
  have range := isAsciiDigit_iff.mp (decimal_ byte member)
  rw [isBlank, Bool.or_eq_false_iff, decide_eq_false_iff_not, decide_eq_false_iff_not]
  constructor <;>
  · rintro rfl
    exact absurd range.1 (by decide)

theorem parseContentLength_eq_ok {value : Bytes} {number : ℕ} :
    parseContentLength (trimAsciiWhitespace value) = .ok number ↔ Denotes value number ∧ number ≤ usizeMax := by
  constructor
  · intro parsed
    have kept := parsed
    rw [parseContentLength] at kept
    obtain ⟨_, checked, -⟩ := Except.bind_eq_ok.mp kept
    rw [rejectFrame] at checked
    split_ifs at checked with invalid
    rw [not_or, Bool.not_eq_true, Bool.not_eq_false'] at invalid
    have digits := List.all_eq_true.mp invalid.2
    rw [parseContentLength_eq invalid.1 digits] at parsed
    split_ifs at parsed with fits
    obtain rfl := Except.ok.inj parsed
    exact ⟨⟨_, padded_trim value, invalid.1, digits, rfl⟩, fits⟩
  · rintro ⟨⟨digits, padded, nonempty, decimal_, rfl⟩, fits⟩
    rw [padded.trim (digits_solid decimal_), parseContentLength_eq nonempty decimal_, if_pos fits]

/-! ## Content types -/

private theorem idxOf?_eq_some {bytes : Bytes} {byte : UInt8} {index : ℕ} : bytes.idxOf? byte = some index ↔
    ∃ front back, bytes = front ++ byte :: back ∧ front.length = index ∧ byte ∉ front := by
  induction bytes generalizing index with
  | nil => simp
  | cons next rest ih =>
    rw [List.idxOf?_cons]
    by_cases same : next = byte
    · subst same
      rw [beq_self_eq_true, if_pos rfl, Option.some.injEq]
      constructor
      · rintro rfl
        exact ⟨[], rest, rfl, rfl, List.not_mem_nil⟩
      · rintro ⟨_ | ⟨first, front⟩, back, shape, rfl, absent⟩
        · rfl
        · obtain ⟨rfl, -⟩ := List.cons.inj shape
          exact absurd List.mem_cons_self absent
    · rw [beq_eq_false_iff_ne.mpr same, if_neg Bool.false_ne_true, Option.map_eq_some_iff]
      constructor
      · rintro ⟨before, found, rfl⟩
        obtain ⟨front, back, rfl, rfl, absent⟩ := ih.mp found
        exact ⟨next :: front, back, rfl, rfl, by simp [absent, Ne.symm same]⟩
      · rintro ⟨_ | ⟨first, front⟩, back, shape, rfl, absent⟩
        · exact absurd (List.cons.inj shape).1 same
        · obtain ⟨rfl, rfl⟩ := List.cons.inj shape
          exact ⟨front.length, ih.mpr ⟨front, back, rfl, rfl, fun member => absent (List.mem_cons_of_mem _ member)⟩, rfl⟩

/-- Trimming a text of two padded parts. -/
private theorem trim_between {first last left right : Bytes} (middle : Bytes) (before : Padded first left) (after : Padded last right)
    (solid : ∀ byte ∈ left, isBlank byte = false) (nonempty : left ≠ []) (solid' : ∀ byte ∈ right, isBlank byte = false)
    (nonempty' : right ≠ []) : ∃ inner inner', (∀ byte ∈ inner, isBlank byte) ∧ (∀ byte ∈ inner', isBlank byte) ∧
      trimAsciiWhitespace (first ++ (middle ++ last)) = left ++ inner ++ (middle ++ (inner' ++ right)) := by
  obtain ⟨outer, inner, rfl, blank, blank'⟩ := before
  obtain ⟨inner', outer', rfl, blank'', blank'''⟩ := after
  refine ⟨inner, inner', blank', blank'', ?_⟩
  have shape : outer ++ (left ++ inner) ++ (middle ++ (inner' ++ (right ++ outer'))) =
      outer ++ ((left ++ inner ++ (middle ++ (inner' ++ right))) ++ outer') := by simp
  rw [shape]
  refine trim_of_ends blank blank''' ?_ ?_
  · obtain ⟨byte, rest, rfl⟩ := List.exists_cons_of_ne_nil nonempty
    intro next member
    obtain rfl : byte = next := Option.some.inj member
    exact solid byte List.mem_cons_self
  · intro byte member
    rw [← List.append_assoc middle, ← List.append_assoc, List.getLast?_append_of_ne_nil _ nonempty'] at member
    exact solid' byte (List.mem_of_mem_getLast? member)

private theorem charset_letters : (32 : UInt8) ∉ (utf8Bytes "charset").map toAsciiLowercase ∧
    (9 : UInt8) ∉ (utf8Bytes "charset").map toAsciiLowercase ∧ (61 : UInt8) ∉ (utf8Bytes "charset").map toAsciiLowercase ∧
    (59 : UInt8) ∉ (utf8Bytes "charset").map toAsciiLowercase ∧ utf8Bytes "charset" ≠ [] := by decide

private theorem encoding_letters {charset : Bytes} (encoding : Caseless charset "utf-8" ∨ Caseless charset "utf8") :
    (∀ byte ∈ charset, isBlank byte = false) ∧ charset ≠ [] ∧ (59 : UInt8) ∉ charset := by
  rcases encoding with same | same
  · exact ⟨same.solid (by decide) (by decide), same.ne_nil (by decide),
      fun member => absurd (same.mem member rfl) (by decide)⟩
  · exact ⟨same.solid (by decide) (by decide), same.ne_nil (by decide),
      fun member => absurd (same.mem member rfl) (by decide)⟩

/-- A parameter that is accepted is the first charset. -/
theorem validateParameter_eq_ok {sawCharset saw : Bool} {component : Bytes} :
    validateParameter sawCharset component = .ok saw ↔ sawCharset = false ∧ saw = true ∧ ∃ second third name charset,
      component = second ++ 61 :: third ∧ Padded second name ∧ Caseless name "charset" ∧ Padded third charset ∧
        (Caseless charset "utf-8" ∨ Caseless charset "utf8") := by
  constructor
  · intro accepted
    rw [validateParameter] at accepted
    cases found : (trimAsciiWhitespace component).idxOf? 61 with
    | none =>
      rw [found] at accepted
      cases accepted
    | some equals =>
      rw [found] at accepted
      obtain ⟨second, third, parts, rfl, -⟩ := idxOf?_eq_some.mp found
      dsimp only at accepted
      rw [parts, List.take_left, List.drop_length_add_append, List.drop_one, List.tail_cons] at accepted
      split_ifs at accepted with other unknown
      obtain ⟨front, back, shape, before, after⟩ := padded_trim component
      rw [not_or, Bool.not_eq_true, Bool.not_eq_false', Bool.not_eq_true] at other
      refine ⟨other.2, (Except.ok.inj accepted).symm, front ++ second, third ++ back, trimAsciiWhitespace second,
        trimAsciiWhitespace third, ?_, (padded_trim second).after before, other.1, (padded_trim third).before after, ?_⟩
      · rw [shape, parts]
        simp
      · rw [not_and_or] at unknown
        simpa [Caseless] using unknown
  · rintro ⟨rfl, rfl, second, third, name, charset, rfl, left, parameter, right, encoding⟩
    obtain ⟨spaceless, tabless, equalsless, -, letters⟩ := charset_letters
    obtain ⟨solid, nonempty, -⟩ := encoding_letters encoding
    have solidName := parameter.solid spaceless tabless
    obtain ⟨inner, inner', blank, blank', trimmed⟩ :=
      trim_between [61] left right solidName (parameter.ne_nil letters) solid nonempty
    have absent : (61 : UInt8) ∉ name ++ inner := by
      intro member
      rcases List.mem_append.mp member with word | space
      · exact equalsless (parameter.mem word rfl)
      · exact absurd (blank 61 space) (by decide)
    have found : (trimAsciiWhitespace (second ++ 61 :: third)).idxOf? 61 = some (name ++ inner).length :=
      idxOf?_eq_some.mpr ⟨name ++ inner, inner' ++ charset, trimmed, rfl, absent⟩
    have word : trimAsciiWhitespace (name ++ inner) = name :=
      Padded.trim ⟨[], inner, rfl, fun _ member => absurd member List.not_mem_nil, blank⟩ solidName
    have value : trimAsciiWhitespace (inner' ++ charset) = charset :=
      Padded.trim ⟨inner', [], by rw [List.append_nil], blank', fun _ member => absurd member List.not_mem_nil⟩ solid
    rw [validateParameter, found]
    dsimp only
    rw [show trimAsciiWhitespace (second ++ 61 :: third) = name ++ inner ++ 61 :: (inner' ++ charset) from trimmed,
      List.take_left, List.drop_length_add_append, List.drop_one, List.tail_cons, word, value, if_neg, if_neg]
    · rcases encoding with same | same <;> rw [Caseless] at same <;> simp [same]
    · rw [Caseless] at parameter
      simp [parameter]

private theorem media_letters {media : Bytes} (type : Caseless media "application/vscode-jsonrpc") :
    (∀ byte ∈ media, isBlank byte = false) ∧ media ≠ [] ∧ (59 : UInt8) ∉ media :=
  ⟨type.solid (by decide) (by decide), type.ne_nil (by decide),
    fun member => absurd (type.mem member rfl) (by decide)⟩

private theorem not_mem_of_blank {bytes : Bytes} (blank : ∀ byte ∈ bytes, isBlank byte) : (59 : UInt8) ∉ bytes :=
  fun member => absurd (blank 59 member) (by decide)

/-- A checked type is its media type, alone or with one parameter. -/
private theorem validateContentType_parts {value : Bytes} : validateContentType value = .ok () ↔
    ∃ media rest, value.splitOn 59 = media :: rest ∧ Caseless (trimAsciiWhitespace media) "application/vscode-jsonrpc" ∧
      (rest = [] ∨ ∃ component, rest = [component] ∧ validateParameter false component = .ok true) := by
  rw [validateContentType]
  cases parts : value.splitOn 59 with
  | nil => exact absurd parts (List.splitOn_ne_nil 59 value)
  | cons media rest =>
    change (do
      rejectFrame (!eqIgnoreAsciiCase (trimAsciiWhitespace media) (utf8Bytes "application/vscode-jsonrpc")) .unsupportedContentType
      let _ ← rest.foldlM validateParameter false) = _ ↔ _
    constructor
    · intro accepted
      obtain ⟨_, checked, folded⟩ := Except.bind_eq_ok.mp accepted
      rw [rejectFrame] at checked
      split_ifs at checked with other
      refine ⟨media, rest, rfl, by simpa [Caseless] using other, ?_⟩
      obtain ⟨final, parameters, -⟩ := Except.bind_eq_ok.mp folded
      rcases rest with _ | ⟨component, _ | ⟨second, others⟩⟩
      · exact .inl rfl
      · rw [List.foldlM_cons] at parameters
        obtain ⟨saw, first, -⟩ := Except.bind_eq_ok.mp parameters
        obtain rfl : saw = true := (validateParameter_eq_ok.mp first).2.1
        exact .inr ⟨component, rfl, first⟩
      -- A second parameter would be another charset.
      · rw [List.foldlM_cons] at parameters
        obtain ⟨saw, first, later⟩ := Except.bind_eq_ok.mp parameters
        obtain rfl : saw = true := (validateParameter_eq_ok.mp first).2.1
        rw [List.foldlM_cons] at later
        obtain ⟨_, again, -⟩ := Except.bind_eq_ok.mp later
        cases (validateParameter_eq_ok.mp again).1
    · rintro ⟨_, _, same, type, parameters⟩
      obtain ⟨rfl, rfl⟩ := List.cons.inj same
      have checked : rejectFrame (!eqIgnoreAsciiCase (trimAsciiWhitespace media) (utf8Bytes "application/vscode-jsonrpc"))
          .unsupportedContentType = .ok () := if_neg (by rw [Caseless] at type; simp [type])
      rw [checked, Except.ok_bind]
      rcases parameters with rfl | ⟨component, rfl, accepted⟩
      · rfl
      · rw [List.foldlM_cons, accepted]
        rfl

/-- Content types are checked part by part. -/
theorem validateContentType_eq_ok {value : Bytes} : validateContentType (trimAsciiWhitespace value) = .ok () ↔ JsonRpcType value := by
  rw [validateContentType_parts]
  constructor
  · rintro ⟨media, rest, parts, type, parameters⟩
    obtain ⟨front, back, shape, before, after⟩ := padded_trim value
    have whole : [59].intercalate ((trimAsciiWhitespace value).splitOn 59) = trimAsciiWhitespace value := List.intercalate_splitOn 59
    rw [parts] at whole
    rcases parameters with rfl | ⟨component, rfl, accepted⟩
    · rw [List.intercalate_singleton] at whole
      rw [← whole] at shape
      exact .bare (shape ▸ ((padded_trim media).before after).after before) type
    · obtain ⟨-, -, second, third, name, charset, rfl, left, parameter, right, encoding⟩ := validateParameter_eq_ok.mp accepted
      rw [List.intercalate_cons_cons, List.intercalate_singleton] at whole
      refine .charset ?_ ((padded_trim media).after before) type left parameter (right.before after) encoding
      rw [shape, ← whole]
      simp
  · intro stated
    cases stated with
    | @bare media padded type =>
      obtain ⟨solid, -, undivided⟩ := media_letters type
      have trimmed : trimAsciiWhitespace media = media :=
        Padded.trim ⟨[], [], by simp, fun _ member => absurd member List.not_mem_nil, fun _ member => absurd member List.not_mem_nil⟩ solid
      rw [padded.trim solid]
      exact ⟨media, [], List.splitOn_eq_singleton undivided, trimmed.symm ▸ type, .inl rfl⟩
    | @charset first second third media name charset parts padded type left parameter right encoding =>
      obtain ⟨solid, nonempty, undivided⟩ := media_letters type
      obtain ⟨solid', nonempty', undivided'⟩ := encoding_letters encoding
      obtain ⟨spaceless, tabless, -, dividerless, -⟩ := charset_letters
      obtain ⟨inner, inner', blank, blank', trimmed⟩ :=
        trim_between (59 :: (second ++ [61])) padded right solid nonempty solid' nonempty'
      have shape : first ++ (59 :: (second ++ [61]) ++ third) = value := by
        rw [parts]
        simp
      rw [shape] at trimmed
      have whole : trimAsciiWhitespace value = [59].intercalate [media ++ inner, second ++ 61 :: (inner' ++ charset)] := by
        rw [trimmed, List.intercalate_cons_cons, List.intercalate_singleton]
        simp
      have clean : ∀ part ∈ [media ++ inner, second ++ 61 :: (inner' ++ charset)], (59 : UInt8) ∉ part := by
        obtain ⟨before, after, rfl, blank'', blank'''⟩ := left
        intro part member
        rcases List.mem_pair.mp member with rfl | rfl
        · exact List.not_mem_append undivided (not_mem_of_blank blank)
        · refine List.not_mem_append (List.not_mem_append (not_mem_of_blank blank'') (List.not_mem_append (fun found =>
            dividerless (parameter.mem found rfl)) (not_mem_of_blank blank'''))) ?_
          exact List.not_mem_cons_of_ne_of_not_mem (by decide) (List.not_mem_append (not_mem_of_blank blank') undivided')
      have split := List.splitOn_intercalate (59 : UInt8) clean (List.cons_ne_nil _ _)
      have word : trimAsciiWhitespace (media ++ inner) = media :=
        Padded.trim ⟨[], inner, rfl, fun _ member => absurd member List.not_mem_nil, blank⟩ solid
      have value' : Padded (inner' ++ charset) charset :=
        ⟨inner', [], by rw [List.append_nil], blank', fun _ member => absurd member List.not_mem_nil⟩
      refine ⟨media ++ inner, _, whole ▸ split, word.symm ▸ type, .inr ⟨_, rfl, ?_⟩⟩
      exact validateParameter_eq_ok.mpr ⟨rfl, rfl, second, inner' ++ charset, name, charset, rfl, left, parameter, value', encoding⟩

/-! ## Field lines -/

private theorem token_printed {byte : UInt8} (token : isHeaderNameByte byte) : 32 ≤ byte.toNat ∧ byte.toNat ≤ 126 := by
  rw [isHeaderNameByte, Bool.or_eq_true, isAsciiAlphanumeric, Bool.or_eq_true, Bool.or_eq_true, isAsciiDigit_iff, Bool.and_eq_true,
    Bool.and_eq_true, decide_eq_true_iff, decide_eq_true_iff, decide_eq_true_iff, decide_eq_true_iff, UInt8.le_iff_toNat_le,
    UInt8.le_iff_toNat_le, UInt8.le_iff_toNat_le, UInt8.le_iff_toNat_le, List.contains_iff_mem] at token
  rcases token with ((digit | upper) | lower) | sign
  · exact ⟨le_trans (by decide) digit.1, le_trans digit.2 (by decide)⟩
  · exact ⟨le_trans (by decide) upper.1, le_trans upper.2 (by decide)⟩
  · exact ⟨le_trans (by decide) lower.1, le_trans lower.2 (by decide)⟩
  · have signs : ∀ byte ∈ utf8Bytes "!#$%&'*+-.^_\x60|~", 32 ≤ byte.toNat ∧ byte.toNat ≤ 126 := by decide +kernel
    exact signs byte sign

private theorem blank_printed {byte : UInt8} (blank : isBlank byte) : byte = 9 ∨ 32 ≤ byte ∧ byte ≤ 126 := by
  rw [isBlank, Bool.or_eq_true, decide_eq_true_iff, decide_eq_true_iff] at blank
  rcases blank with rfl | rfl
  · exact .inr (by decide)
  · exact .inl rfl

namespace FieldLine

def record (fields : HeaderFields) (line : FieldLine) : Except JsonRpcError HeaderFields :=
  recordField fields line.name (trimAsciiWhitespace line.value)

variable {fields final : HeaderFields} {line : FieldLine}

/-- The bytes of a line are printable or tabs. -/
theorem text_printed (line : FieldLine) : ∀ byte ∈ line.text, byte = 9 ∨ 32 ≤ byte.toNat ∧ byte.toNat ≤ 126 := by
  intro byte member
  rw [text, List.mem_append, List.mem_cons] at member
  rcases member with name | rfl | value
  · exact .inr (token_printed (line.token byte name))
  · exact .inr (by decide)
  · rcases line.printed byte value with tab | ⟨low, high⟩
    · exact .inl tab
    · exact .inr ⟨UInt8.le_iff_toNat_le.mp low, UInt8.le_iff_toNat_le.mp high⟩

theorem not_mem_text (line : FieldLine) : (13 : UInt8) ∉ line.text ∧ (10 : UInt8) ∉ line.text := by
  constructor
  · intro member
    rcases line.text_printed 13 member with tab | printed
    · exact absurd tab (by decide)
    · exact absurd printed.1 (by decide)
  · intro member
    rcases line.text_printed 10 member with tab | printed
    · exact absurd tab (by decide)
    · exact absurd printed.1 (by decide)

theorem parseLine_text (fields : HeaderFields) (line : FieldLine) : parseLine fields line.text = line.record fields := by
  have single : ¬(line.text.any fun byte => byte = 13 || byte = 10) = true := by
    obtain ⟨return_, feed⟩ := line.not_mem_text
    intro found
    obtain ⟨byte, member, broken⟩ := List.any_eq_true.mp found
    rw [Bool.or_eq_true, decide_eq_true_iff, decide_eq_true_iff] at broken
    rcases broken with rfl | rfl
    · exact return_ member
    · exact feed member
  have undivided : (58 : UInt8) ∉ line.name := fun member => absurd (line.token 58 member) (by decide)
  have found : line.text.idxOf? 58 = some line.name.length := idxOf?_eq_some.mpr ⟨_, _, rfl, rfl, undivided⟩
  obtain ⟨front, back, shape, -, -⟩ := padded_trim line.value
  have wellFormed : ¬(line.name = [] ∨ !line.name.all isHeaderNameByte ∨
      !(trimAsciiWhitespace line.value).all fun byte => byte = 9 || (32 ≤ byte && byte ≤ 126)) := by
    have inner : ∀ byte ∈ trimAsciiWhitespace line.value, byte ∈ line.value := by
      intro byte member
      rw [shape]
      exact List.mem_append_right _ (List.mem_append_left _ member)
    rw [List.all_eq_true.mpr line.token, not_or, not_or]
    refine ⟨line.named, by simp, ?_⟩
    rw [Bool.not_eq_true, Bool.not_eq_false', List.all_eq_true]
    intro byte member
    simpa using line.printed byte (inner byte member)
  rw [parseLine, rejectFrame, if_neg single, Except.ok_bind, found]
  dsimp only
  rw [text, List.take_left, List.drop_length_add_append, List.drop_one, List.tail_cons, rejectFrame, if_neg wellFormed, Except.ok_bind]
  rfl

/-- Whatever is parsed is a field line. -/
theorem of_parseLine {text : Bytes} (parsed : parseLine fields text = .ok final) : ∃ line : FieldLine, line.text = text := by
  rw [parseLine] at parsed
  obtain ⟨_, -, parsed⟩ := Except.bind_eq_ok.mp parsed
  cases found : text.idxOf? 58 with
  | none =>
    rw [found] at parsed
    cases parsed
  | some colon =>
    rw [found] at parsed
    obtain ⟨_, checked, -⟩ := Except.bind_eq_ok.mp parsed
    obtain ⟨name, value, rfl, rfl, -⟩ := idxOf?_eq_some.mp found
    rw [List.take_left, List.drop_length_add_append, List.drop_one, List.tail_cons, rejectFrame] at checked
    split_ifs at checked with malformed
    rw [not_or, not_or, Bool.not_eq_true, Bool.not_eq_false', Bool.not_eq_true, Bool.not_eq_false', List.all_eq_true,
      List.all_eq_true] at malformed
    obtain ⟨named, token, printed⟩ := malformed
    obtain ⟨front, back, shape, before, after⟩ := padded_trim value
    refine ⟨⟨name, value, named, token, ?_⟩, rfl⟩
    intro byte member
    rw [shape, List.mem_append, List.mem_append] at member
    rcases member with left | middle | right
    · exact blank_printed (before byte left)
    · simpa using printed byte middle
    · exact blank_printed (after byte right)

/-- A length or a type is recorded once, anything else is ignored. -/
theorem record_eq_ok : line.record fields = .ok final ↔
    (line.isLength = true ∧ fields.contentLength = none ∧ (∃ number, Denotes line.value number ∧ number ≤ usizeMax ∧
      final = ⟨some number, fields.sawContentType⟩)) ∨
    (line.isType = true ∧ fields.sawContentType = false ∧ JsonRpcType line.value ∧ final = ⟨fields.contentLength, true⟩) ∨
    (line.isLength = false ∧ line.isType = false ∧ final = fields) := by
  have apart : line.isLength = true → line.isType = false := by
    intro length
    rw [isLength, eqIgnoreAsciiCase, decide_eq_true_iff] at length
    rw [isType, eqIgnoreAsciiCase, length]
    decide
  rw [record, recordField, ← isLength, ← isType]
  cases length : line.isLength with
  | true =>
    rw [if_pos rfl, apart length]
    constructor
    · intro recorded
      obtain ⟨_, checked, recorded⟩ := Except.bind_eq_ok.mp recorded
      obtain ⟨number, parsed, recorded⟩ := Except.bind_eq_ok.mp recorded
      obtain ⟨denotes, fits⟩ := parseContentLength_eq_ok.mp parsed
      rw [rejectFrame] at checked
      split_ifs at checked with twice
      exact .inl ⟨rfl, by simpa using twice, number, denotes, fits, (Except.pure_eq_ok.mp recorded).symm⟩
    · rintro (⟨-, first, number, denotes, fits, rfl⟩ | ⟨impossible, -⟩ | ⟨impossible, -⟩)
      · have checked : rejectFrame fields.contentLength.isSome .duplicateContentLength = .ok () := if_neg (by simp [first])
        rw [checked, Except.ok_bind, parseContentLength_eq_ok.mpr ⟨denotes, fits⟩]
        rfl
      · cases impossible
      · cases impossible
  | false =>
    rw [if_neg Bool.false_ne_true]
    cases type : line.isType with
    | true =>
      rw [if_pos rfl]
      constructor
      · intro recorded
        obtain ⟨_, checked, recorded⟩ := Except.bind_eq_ok.mp recorded
        obtain ⟨_, valid, recorded⟩ := Except.bind_eq_ok.mp recorded
        rw [rejectFrame] at checked
        split_ifs at checked with twice
        exact .inr (.inl ⟨rfl, by simpa using twice, validateContentType_eq_ok.mp valid, (Except.pure_eq_ok.mp recorded).symm⟩)
      · rintro (⟨impossible, -⟩ | ⟨-, first, stated, rfl⟩ | ⟨-, impossible, -⟩)
        · cases impossible
        · have checked : rejectFrame fields.sawContentType .duplicateContentType = .ok () := if_neg (by simp [first])
          rw [checked, Except.ok_bind, validateContentType_eq_ok.mpr stated]
          rfl
        · cases impossible
    | false =>
      rw [if_neg Bool.false_ne_true, Except.ok.injEq]
      constructor
      · rintro rfl
        exact .inr (.inr ⟨rfl, rfl, rfl⟩)
      · rintro (⟨impossible, -⟩ | ⟨impossible, -⟩ | ⟨-, -, rfl⟩)
        · cases impossible
        · cases impossible
        · rfl

theorem not_isType_of_isLength (length : line.isLength = true) : line.isType = false := by
  rw [isLength, eqIgnoreAsciiCase, decide_eq_true_iff] at length
  rw [isType, eqIgnoreAsciiCase, length]
  decide

/-- What a sequence of lines records, when it is accepted. -/
structure Records (fields : HeaderFields) (lines : List FieldLine) (final : HeaderFields) : Prop where
  length : lines.filter isLength = [] ∧ final.contentLength = fields.contentLength ∨
    ∃ line number, lines.filter isLength = [line] ∧ fields.contentLength = none ∧ Denotes line.value number ∧ number ≤ usizeMax ∧
      final.contentLength = some number
  type : lines.filter isType = [] ∧ final.sawContentType = fields.sawContentType ∨
    ∃ line, lines.filter isType = [line] ∧ fields.sawContentType = false ∧ JsonRpcType line.value ∧ final.sawContentType = true

/-- One more line before others. -/
theorem records_cons {lines : List FieldLine} : Records fields (line :: lines) final ↔
    ∃ next, line.record fields = .ok next ∧ Records next lines final := by
  constructor
  · intro records
    cases length : line.isLength with
    | true =>
      have other := not_isType_of_isLength length
      rcases records.length with ⟨none_, -⟩ | ⟨found, number, single, first, denotes, fits, stated⟩
      · rw [List.filter_cons_of_pos length] at none_
        cases none_
      · rw [List.filter_cons_of_pos length] at single
        obtain ⟨rfl, later⟩ := List.cons.inj single
        refine ⟨⟨some number, fields.sawContentType⟩, record_eq_ok.mpr (.inl ⟨length, first, number, denotes, fits, rfl⟩),
          .inl ⟨later, stated⟩, ?_⟩
        have type := records.type
        rw [List.filter_cons_of_neg (by rw [other]; exact Bool.false_ne_true)] at type
        exact type
    | false =>
      have lengths := records.length
      rw [List.filter_cons_of_neg (by rw [length]; exact Bool.false_ne_true)] at lengths
      cases type : line.isType with
      | true =>
        rcases records.type with ⟨none_, -⟩ | ⟨found, single, first, stated, seen⟩
        · rw [List.filter_cons_of_pos type] at none_
          cases none_
        · rw [List.filter_cons_of_pos type] at single
          obtain ⟨rfl, later⟩ := List.cons.inj single
          exact ⟨⟨fields.contentLength, true⟩, record_eq_ok.mpr (.inr (.inl ⟨type, first, stated, rfl⟩)), lengths, .inl ⟨later, seen⟩⟩
      | false =>
        have types := records.type
        rw [List.filter_cons_of_neg (by rw [type]; exact Bool.false_ne_true)] at types
        exact ⟨fields, record_eq_ok.mpr (.inr (.inr ⟨length, type, rfl⟩)), lengths, types⟩
  · rintro ⟨next, recorded, later⟩
    rcases record_eq_ok.mp recorded with ⟨length, first, number, denotes, fits, rfl⟩ | ⟨type, first, stated, rfl⟩ | ⟨length, type, rfl⟩
    · have other := not_isType_of_isLength length
      refine ⟨?_, ?_⟩
      · rw [List.filter_cons_of_pos length]
        rcases later.length with ⟨none_, kept⟩ | ⟨_, _, _, impossible, -⟩
        · exact .inr ⟨line, number, by rw [none_], first, denotes, fits, kept⟩
        · cases impossible
      · rw [List.filter_cons_of_neg (by rw [other]; exact Bool.false_ne_true)]
        exact later.type
    · have other : line.isLength = false := by
        by_contra length
        rw [not_isType_of_isLength (Bool.not_eq_false _ ▸ length)] at type
        cases type
      refine ⟨?_, ?_⟩
      · rw [List.filter_cons_of_neg (by rw [other]; exact Bool.false_ne_true)]
        exact later.length
      · rw [List.filter_cons_of_pos type]
        rcases later.type with ⟨none_, kept⟩ | ⟨_, _, impossible, -⟩
        · exact .inr ⟨line, by rw [none_], first, stated, kept⟩
        · cases impossible
    · refine ⟨?_, ?_⟩
      · rw [List.filter_cons_of_neg (by rw [length]; exact Bool.false_ne_true)]
        exact later.length
      · rw [List.filter_cons_of_neg (by rw [type]; exact Bool.false_ne_true)]
        exact later.type

theorem foldlM_record {lines : List FieldLine} : lines.foldlM record fields = .ok final ↔ Records fields lines final := by
  induction lines generalizing fields with
  | nil =>
    rw [List.foldlM_nil, Except.pure_eq_ok]
    constructor
    · rintro rfl
      exact ⟨.inl ⟨rfl, rfl⟩, .inl ⟨rfl, rfl⟩⟩
    · rintro ⟨⟨-, length⟩ | ⟨_, _, impossible, -⟩, ⟨-, type⟩ | ⟨_, impossible', -⟩⟩
      · cases fields
        cases final
        congr 1 <;> exact Eq.symm ‹_›
      · cases impossible'
      · cases impossible
      · cases impossible
  | cons line lines ih =>
    rw [List.foldlM_cons, records_cons]
    constructor
    · intro folded
      obtain ⟨next, recorded, folded⟩ := Except.bind_eq_ok.mp folded
      exact ⟨next, recorded, ih.mp folded⟩
    · rintro ⟨next, recorded, later⟩
      rw [recorded, Except.ok_bind]
      exact ih.mpr later

/-- The field lines of a text are recorded as they are parsed. -/
theorem foldlM_parseLine_text (lines : List FieldLine) : (lines.map text).foldlM parseLine fields = lines.foldlM record fields := by
  induction lines generalizing fields with
  | nil => rfl
  | cons line lines ih =>
    rw [List.map_cons, List.foldlM_cons, List.foldlM_cons, parseLine_text]
    cases line.record fields with
    | error failure => rfl
    | ok next => exact ih

/-- Accepted texts are field lines. -/
theorem of_foldlM_parseLine {texts : List Bytes} (parsed : texts.foldlM parseLine fields = .ok final) :
    ∃ lines : List FieldLine, lines.map text = texts := by
  induction texts generalizing fields with
  | nil => exact ⟨[], rfl⟩
  | cons first texts ih =>
    rw [List.foldlM_cons] at parsed
    obtain ⟨next, accepted, later⟩ := Except.bind_eq_ok.mp parsed
    obtain ⟨line, rfl⟩ := of_parseLine accepted
    obtain ⟨lines, rfl⟩ := ih later
    exact ⟨line :: lines, rfl⟩

end FieldLine

/-! ## Lines -/

theorem splitLines_ne_nil (bytes : Bytes) : splitLines bytes ≠ [] := by
  induction bytes using splitLines.induct with
  | case1 => exact List.cons_ne_nil _ _
  | case2 rest ih => exact List.cons_ne_nil _ _
  | case3 byte rest other ih =>
    rw [splitLines.eq_3 _ _ other]
    obtain ⟨first, others, shape⟩ := List.exists_cons_of_ne_nil ih
    rw [shape]
    exact List.cons_ne_nil _ _

/-- Splitting loses nothing. -/
theorem joinLines_splitLines (bytes : Bytes) : joinLines (splitLines bytes) = bytes := by
  induction bytes using splitLines.induct with
  | case1 => rfl
  | case2 rest ih =>
    obtain ⟨first, others, shape⟩ := List.exists_cons_of_ne_nil (splitLines_ne_nil rest)
    rw [splitLines, joinLines, shape, List.intercalate_cons_cons, ← shape]
    exact congrArg (fun tail => 13 :: 10 :: tail) ih
  | case3 byte rest other ih =>
    obtain ⟨first, others, shape⟩ := List.exists_cons_of_ne_nil (splitLines_ne_nil rest)
    rw [splitLines.eq_3 _ _ other, shape, List.modifyHead_cons]
    rw [joinLines, shape] at ih
    cases others with
    | nil =>
      rw [List.intercalate_singleton] at ih
      rw [joinLines, List.intercalate_singleton, ih]
    | cons second others =>
      rw [List.intercalate_cons_cons] at ih
      rw [joinLines, List.intercalate_cons_cons, List.cons_append, List.cons_append, ih]

private theorem splitLines_append {line : Bytes} (rest : Bytes) (silent : (13 : UInt8) ∉ line) :
    splitLines (line ++ ([13, 10] ++ rest)) = line :: splitLines rest := by
  induction line with
  | nil => rfl
  | cons byte line ih =>
    obtain ⟨other, later⟩ := not_or.mp (List.mem_cons.not.mp silent)
    rw [List.cons_append, splitLines.eq_3]
    · rw [ih later]
      rfl
    · rintro _ rfl -
      exact other rfl

/-- Lines without returns are found again. -/
theorem splitLines_joinLines {lines : List Bytes} (nonempty : lines ≠ []) (silent : ∀ line ∈ lines, (13 : UInt8) ∉ line) :
    splitLines (joinLines lines) = lines := by
  induction lines with
  | nil => exact absurd rfl nonempty
  | cons line lines ih =>
    obtain ⟨first, others⟩ := List.forall_mem_cons.mp silent
    cases lines with
    | nil =>
      rw [joinLines, List.intercalate_singleton]
      exact splitLines_of_no_return first
    | cons second lines =>
      rw [joinLines, List.intercalate_cons_cons, List.append_assoc, splitLines_append _ first]
      exact congrArg (line :: ·) (ih (List.cons_ne_nil _ _) others)

/-! ## Headers -/

namespace FieldLine

theorem silent_text {lines : List FieldLine} : ∀ bytes ∈ lines.map text, (13 : UInt8) ∉ bytes := by
  intro bytes member
  obtain ⟨line, -, rfl⟩ := List.mem_map.mp member
  exact line.not_mem_text.1

/-- Field lines and what is between them are ASCII. -/
theorem joinLines_ascii (lines : List FieldLine) : ∀ byte ∈ joinLines (lines.map text), byte.toNat < 128 := by
  intro byte member
  induction lines with
  | nil => cases member
  | cons line lines ih =>
    have printed : ∀ byte ∈ line.text, byte.toNat < 128 := by
      intro byte member
      rcases line.text_printed byte member with rfl | ⟨-, high⟩
      · decide
      · exact Nat.lt_of_le_of_lt high (by decide)
    cases lines with
    | nil =>
      rw [List.map_singleton, joinLines, List.intercalate_singleton] at member
      exact printed byte member
    | cons second lines =>
      rw [List.map_cons, List.map_cons, joinLines, List.intercalate_cons_cons, List.mem_append, List.mem_append] at member
      rcases member with (first | between) | later
      · exact printed byte first
      · have feeds : ∀ byte ∈ ([13, 10] : Bytes), byte.toNat < 128 := by simp
        exact feeds byte between
      · exact ih later

end FieldLine

/-- A header is its payload before the terminator. -/
private theorem parseHeader_append (payload : Bytes) : parseHeader (payload ++ terminator) = (do
    rejectFrame (Utf8.decode payload).isNone .nonAsciiHeader
    let fields ← (splitLines payload).foldlM parseLine {}
    fields.contentLength.elim (.error .missingContentLength) .ok) := by
  have ended : terminator.isSuffixOf (payload ++ terminator) = true := by
    rw [List.isSuffixOf_iff_suffix]
    exact List.suffix_append _ _
  have rest : (payload ++ terminator).take ((payload ++ terminator).length - terminator.length) = payload := by
    rw [List.length_append, Nat.add_sub_cancel, List.take_left]
  rw [parseHeader, ended, if_neg (by decide)]
  dsimp only
  rw [rest]
  congr 1
  funext _
  congr 1
  funext fields
  cases fields.contentLength <;> rfl

theorem parseHeader_eq_ok {header : Bytes} {number : ℕ} : parseHeader header = .ok number ↔ HeaderStates header number := by
  constructor
  · intro parsed
    have ended : terminator <:+ header := by
      rw [parseHeader] at parsed
      split_ifs at parsed with open_
      rw [← List.isSuffixOf_iff_suffix]
      simpa using open_
    obtain ⟨payload, rfl⟩ := ended
    rw [parseHeader_append] at parsed
    obtain ⟨_, -, parsed⟩ := Except.bind_eq_ok.mp parsed
    obtain ⟨fields, folded, parsed⟩ := Except.bind_eq_ok.mp parsed
    obtain ⟨lines, texts⟩ := FieldLine.of_foldlM_parseLine folded
    rw [← texts, FieldLine.foldlM_parseLine_text] at folded
    have records := FieldLine.foldlM_record.mp folded
    have stated : fields.contentLength = some number := by
      cases length : fields.contentLength with
      | none =>
        rw [length] at parsed
        cases parsed
      | some found =>
        rw [length] at parsed
        exact congrArg some (Except.ok.inj parsed)
    rcases records.length with ⟨-, none_⟩ | ⟨line, found, single, -, denotes, fits, same⟩
    · rw [stated] at none_
      cases none_
    · obtain rfl : number = found := Option.some.inj (stated.symm.trans same)
      refine ⟨lines, ?_, ?_, ⟨line, single, denotes⟩, fits, ?_, ?_⟩
      · rintro rfl
        exact splitLines_ne_nil payload texts.symm
      · rw [texts, joinLines_splitLines]
      · rcases records.type with ⟨none_, -⟩ | ⟨type, one, -⟩
        · rw [none_]
          exact Nat.zero_le _
        · rw [one]
          exact le_rfl
      · intro line member type
        have kept := List.mem_filter.mpr ⟨member, type⟩
        rcases records.type with ⟨none_, -⟩ | ⟨only, one, -, valid, -⟩
        · rw [none_] at kept
          cases kept
        · rw [one, List.mem_singleton] at kept
          exact kept ▸ valid
  · rintro ⟨lines, nonempty, rfl, ⟨line, single, denotes⟩, fits, types, valid⟩
    have text : ¬(Utf8.decode (joinLines (lines.map FieldLine.text))).isNone := by
      rw [Option.isNone_iff_eq_none, ← Option.not_isSome_iff_eq_none, not_not]
      exact Utf8.decode_ascii (FieldLine.joinLines_ascii lines)
    have folded : ∃ seen, lines.foldlM FieldLine.record {} = .ok ⟨some number, seen⟩ := by
      cases found : lines.filter FieldLine.isType with
      | nil => exact ⟨false, FieldLine.foldlM_record.mpr ⟨.inr ⟨line, number, single, rfl, denotes, fits, rfl⟩, .inl ⟨found, rfl⟩⟩⟩
      | cons type others =>
        obtain rfl : others = [] := by
          rw [found, List.length_cons] at types
          exact List.eq_nil_of_length_eq_zero (by omega)
        obtain ⟨member, same⟩ := List.mem_filter.mp (found ▸ List.mem_cons_self : type ∈ lines.filter FieldLine.isType)
        exact ⟨true, FieldLine.foldlM_record.mpr ⟨.inr ⟨line, number, single, rfl, denotes, fits, rfl⟩,
          .inr ⟨type, found, rfl, valid type member same, rfl⟩⟩⟩
    obtain ⟨seen, folded⟩ := folded
    rw [parseHeader_append, rejectFrame, if_neg text, Except.ok_bind,
      splitLines_joinLines (fun empty => nonempty (List.map_eq_nil_iff.mp empty)) FieldLine.silent_text,
      FieldLine.foldlM_parseLine_text, folded]
    rfl

/-- A length that does not fit stops the parser where it is met. -/
theorem parseHeader_overflow {payload : Bytes} {accepted : List FieldLine} {line : FieldLine} {rest : List Bytes} {fields : HeaderFields}
    (text : (Utf8.decode payload).isSome) (shape : splitLines payload = accepted.map FieldLine.text ++ line.text :: rest)
    (records : FieldLine.Records {} accepted fields) (first : fields.contentLength = none) (length : line.isLength = true)
    {number : ℕ} (denotes : Denotes line.value number) (large : usizeMax < number) :
    parseHeader (payload ++ terminator) = .error .contentLengthOverflow := by
  have decoded : ¬(Utf8.decode payload).isNone := by
    rw [Option.isNone_iff_eq_none, ← Option.not_isSome_iff_eq_none, not_not]
    exact text
  have checked : rejectFrame fields.contentLength.isSome .duplicateContentLength = .ok () := if_neg (by simp [first])
  have overflows : line.record fields = .error .contentLengthOverflow := by
    obtain ⟨digits, padded, nonempty, decimal_, rfl⟩ := denotes
    rw [FieldLine.isLength] at length
    rw [FieldLine.record, recordField, if_pos length, checked, Except.ok_bind, padded.trim (digits_solid decimal_),
      parseContentLength_eq nonempty decimal_, if_neg (by omega)]
    rfl
  rw [parseHeader_append, rejectFrame, if_neg decoded, Except.ok_bind, shape, List.foldlM_append,
    FieldLine.foldlM_parseLine_text, FieldLine.foldlM_record.mpr records, Except.ok_bind, List.foldlM_cons, FieldLine.parseLine_text,
    overflows]
  rfl

/-- The parser accepts its grammar, and a length that does not fit is reported where it is met. -/
theorem header_grammar (header : Bytes) :
    (∀ number, parseHeader header = .ok number ↔ HeaderStates header number) ∧
    ∀ (payload : Bytes) (accepted : List FieldLine) (line : FieldLine) (rest : List Bytes) (fields : HeaderFields) (number : ℕ),
      header = payload ++ terminator → (Utf8.decode payload).isSome →
      splitLines payload = accepted.map FieldLine.text ++ line.text :: rest →
      FieldLine.Records {} accepted fields → fields.contentLength = none → line.isLength →
      Denotes line.value number → usizeMax < number → parseHeader header = .error .contentLengthOverflow := by
  refine ⟨fun number => parseHeader_eq_ok, ?_⟩
  rintro payload accepted line rest fields number rfl text shape records first length denotes large
  exact parseHeader_overflow text shape records first length denotes large

/-- The field of a body that is one byte too long for any address space. -/
private def largeLine : FieldLine where
  name := utf8Bytes "content-length"
  value := utf8Bytes "\t18446744073709551616 "
  named := by decide
  token := by decide +kernel
  printed := by decide +kernel

private theorem denotes_large : Denotes largeLine.value (usizeMax + 1) :=
  ⟨utf8Bytes "18446744073709551616", ⟨[9], [32], by decide +kernel, by simp [isBlank], by simp [isBlank]⟩, by decide +kernel, by decide +kernel,
    by decide +kernel⟩

theorem header_grammar_example : HeaderStates (frameHeader 7) 7 ∧
    parseHeader (largeLine.text ++ terminator) = .error .contentLengthOverflow := by
  refine ⟨((header_grammar _).1 7).mp (parseHeader_frameHeader (by decide)), ?_⟩
  have split : splitLines largeLine.text = [].map FieldLine.text ++ largeLine.text :: [] :=
    splitLines_of_no_return largeLine.not_mem_text.1
  have text : (Utf8.decode largeLine.text).isSome := Utf8.decode_ascii (FieldLine.joinLines_ascii [largeLine])
  exact (header_grammar _).2 _ [] largeLine [] {} _ rfl text split (FieldLine.foldlM_record.mp rfl) rfl (by decide) denotes_large
    (Nat.lt_succ_self _)

end Srcmv.Lsp
