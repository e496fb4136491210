import Srcmv.Model.Fs.Control

/-! # Names in a transaction directory

The engine creates six kinds of entries. Their names are distinct, and the parsers of the scan
recover the kind and the number an entry was named with.
-/

namespace Srcmv.Fs

/-- What the engine creates in a transaction directory. -/
inductive Entry where
  | manifest
  | manifestTemporary
  | record (sequence : ℕ)
  | temporary (sequence : ℕ)
  | candidate (index : ℕ)
  | backup (index : ℕ)
deriving DecidableEq

def Entry.name : Entry → String
  | manifest => "manifest.rec"
  | manifestTemporary => "manifest.tmp"
  | record sequence => stateName sequence "rec"
  | temporary sequence => stateName sequence "tmp"
  | candidate index => generatedName "candidate" index
  | backup index => generatedName "backup" index

section Digits

theorem ofDigitChars_eightDigits (number : ℕ) : Nat.ofDigitChars 10 (eightDigits number) 0 = number := by
  simp [eightDigits, Nat.ofDigitChars_append, Nat.ofDigitChars_replicate_zero, Nat.ofDigitChars_ten_toDigits]

theorem eightDigits_injective : Function.Injective eightDigits := by
  intro left right equal
  rw [← ofDigitChars_eightDigits left, equal, ofDigitChars_eightDigits]

theorem eightDigits_isDigit (number : ℕ) : (eightDigits number).all Char.isDigit = true := by
  rw [List.all_eq_true]
  intro char member
  rcases List.mem_append.mp member with padding | digit
  · rw [List.eq_of_mem_replicate padding]; decide
  · exact Nat.isDigit_of_mem_toDigits (by decide) (by decide) digit

theorem eightDigits_length {number : ℕ} (small : number < 10 ^ 8) : (eightDigits number).length = 8 := by
  have short : (Nat.toDigits 10 number).length ≤ 8 :=
    (Nat.length_toDigits_le_iff (by decide) (by decide)).mpr small
  simp only [eightDigits, List.length_append, List.length_replicate]
  omega

theorem eightDigitsBelow_eightDigits {bound number : ℕ} (below : number < bound) (small : bound ≤ 10 ^ 8) :
    eightDigitsBelow bound (eightDigits number) = some number := by
  unfold eightDigitsBelow
  rw [ofDigitChars_eightDigits,
    if_pos ⟨eightDigits_length (below.trans_le small), eightDigits_isDigit number, below⟩]

private theorem digit_bounds {char : Char} (digit : char.isDigit = true) : 48 ≤ char.toNat ∧ char.toNat ≤ 57 := by
  unfold Char.isDigit at digit
  rw [Bool.and_eq_true, decide_eq_true_iff, decide_eq_true_iff] at digit
  exact digit

private theorem digitChar_value {char : Char} (digit : char.isDigit = true) :
    Nat.digitChar (char.toNat - '0'.toNat) = char := by
  have bounds := digit_bounds digit
  obtain ⟨offset, small, rfl⟩ : ∃ offset, offset < 10 ∧ char = Char.ofNat (48 + offset) := by
    refine ⟨char.toNat - 48, by omega, ?_⟩
    rw [show 48 + (char.toNat - 48) = char.toNat by omega, Char.ofNat_toNat]
  interval_cases offset <;> rfl

/-- Digits are determined by their value and their number. -/
private theorem digits_unique : ∀ {left right : List Char}, left.length = right.length →
    left.all Char.isDigit = true → right.all Char.isDigit = true →
    Nat.ofDigitChars 10 left 0 = Nat.ofDigitChars 10 right 0 → left = right := by
  intro left
  induction left using List.reverseRecOn with
  | nil => exact fun lengths _ _ _ => (List.length_eq_zero_iff.mp lengths.symm).symm
  | append_singleton left last ih =>
    intro right lengths leftDigits rightDigits values
    cases right using List.reverseRecOn with
    | nil => simp at lengths
    | append_singleton right final =>
      simp only [List.length_append, List.length_singleton, Nat.add_right_cancel_iff] at lengths
      simp only [List.all_append, List.all_cons, List.all_nil, Bool.and_true, Bool.and_eq_true] at leftDigits rightDigits
      simp only [Nat.ofDigitChars_append, Nat.ofDigitChars_cons, Nat.ofDigitChars_nil] at values
      have lastBounds := digit_bounds leftDigits.2
      have finalBounds := digit_bounds rightDigits.2
      have zero : '0'.toNat = 48 := rfl
      rw [zero] at values
      rw [ih lengths leftDigits.1 rightDigits.1 (by omega)]
      rw [← digitChar_value leftDigits.2, ← digitChar_value rightDigits.2, zero,
        show last.toNat - 48 = final.toNat - 48 by omega]

theorem eightDigits_of_eightDigitsBelow {bound number : ℕ} {digits : List Char} (small : bound ≤ 10 ^ 8)
    (parsed : eightDigitsBelow bound digits = some number) : digits = eightDigits number ∧ number < bound := by
  unfold eightDigitsBelow at parsed
  split at parsed
  · next valid =>
    cases parsed
    refine ⟨digits_unique ?_ valid.2.1 (eightDigits_isDigit _) (ofDigitChars_eightDigits _).symm, valid.2.2⟩
    rw [valid.1, eightDigits_length (valid.2.2.trans_le small)]
  · cases parsed

end Digits

section Parsing

theorem stripPrefix_append (start rest : List Char) : stripPrefix start (start ++ rest) = some rest := by
  simp [stripPrefix]

theorem stripSuffix_append (rest ending : List Char) : stripSuffix ending (rest ++ ending) = some rest := by
  simp [stripSuffix]

theorem eq_append_of_stripPrefix {start chars rest : List Char} (stripped : stripPrefix start chars = some rest) :
    chars = start ++ rest := by
  unfold stripPrefix at stripped
  split at stripped
  · next isStart =>
    obtain ⟨tail, rfl⟩ := List.isPrefixOf_iff_prefix.mp isStart
    cases stripped
    simp
  · cases stripped

theorem eq_append_of_stripSuffix {ending chars rest : List Char} (stripped : stripSuffix ending chars = some rest) :
    chars = rest ++ ending := by
  unfold stripSuffix at stripped
  split at stripped
  · next isEnding =>
    obtain ⟨head, rfl⟩ := List.isSuffixOf_iff_suffix.mp isEnding
    cases stripped
    simp
  · cases stripped

theorem toList_stateName (sequence : ℕ) (extension : String) :
    (stateName sequence extension).toList =
      "state-".toList ++ (eightDigits sequence ++ '.' :: extension.toList) := by
  unfold stateName
  rw [String.toList_ofList, List.append_assoc]

theorem parseStateName_stateName {sequence : ℕ} (extension : String) (below : sequence < maxStateRecords) :
    parseStateName (stateName sequence extension) extension = some sequence := by
  unfold parseStateName
  rw [toList_stateName, stripPrefix_append]
  change (stripSuffix ('.' :: extension.toList) (eightDigits sequence ++ '.' :: extension.toList)).bind
    (eightDigitsBelow maxStateRecords) = some sequence
  have small : maxStateRecords ≤ 10 ^ 8 := by norm_num [maxStateRecords]
  rw [stripSuffix_append, Option.bind_some, eightDigitsBelow_eightDigits below small]

theorem stateName_of_parseStateName {name extension : String} {sequence : ℕ}
    (parsed : parseStateName name extension = some sequence) :
    name = stateName sequence extension ∧ sequence < maxStateRecords := by
  unfold parseStateName at parsed
  simp only [Option.bind_eq_bind, Option.bind_eq_some_iff] at parsed
  obtain ⟨rest, stripped, digits, ended, parsed⟩ := parsed
  obtain ⟨rfl, below⟩ := eightDigits_of_eightDigitsBelow (by norm_num [maxStateRecords]) parsed
  refine ⟨String.toList_injective ?_, below⟩
  rw [eq_append_of_stripPrefix stripped, eq_append_of_stripSuffix ended, toList_stateName]

theorem parseStateName_eq_some {name extension : String} {sequence : ℕ} :
    parseStateName name extension = some sequence ↔
      name = stateName sequence extension ∧ sequence < maxStateRecords := by
  constructor
  · exact stateName_of_parseStateName
  · rintro ⟨rfl, below⟩
    exact parseStateName_stateName extension below

theorem stateName_injective {left right : ℕ} {leftExtension rightExtension : String}
    (lengths : leftExtension.toList.length = rightExtension.toList.length)
    (equal : stateName left leftExtension = stateName right rightExtension) :
    left = right ∧ leftExtension = rightExtension := by
  have lists := congrArg String.toList equal
  rw [toList_stateName, toList_stateName] at lists
  obtain ⟨digits, extensions⟩ := List.append_inj' (List.append_cancel_left lists) (by simp [lengths])
  exact ⟨eightDigits_injective digits, String.toList_injective (List.cons_injective extensions)⟩

theorem stateName_sequence {left right : ℕ} {extension : String}
    (equal : stateName left extension = stateName right extension) : left = right :=
  (stateName_injective rfl equal).1

/-- A record and a temporary never share a name. -/
theorem stateName_rec_ne_tmp (left right : ℕ) : stateName left "rec" ≠ stateName right "tmp" := by
  intro equal
  have lengths : "rec".toList.length = "tmp".toList.length := by decide
  have extensions : "rec" ≠ "tmp" := by decide
  exact extensions (stateName_injective lengths equal).2

theorem toList_generatedName (kind : String) (index : ℕ) :
    (generatedName kind index).toList = kind.toList ++ ['-'] ++ eightDigits index := by
  simp [generatedName]

theorem generatedName_injective {kind : String} {left right : ℕ}
    (equal : generatedName kind left = generatedName kind right) : left = right := by
  have lists := congrArg String.toList equal
  rw [toList_generatedName, toList_generatedName] at lists
  exact eightDigits_injective (List.append_cancel_left lists)

theorem isArtifactName_generatedName {index : ℕ} (kind : String) (below : index < maxTransactionTargets) :
    isArtifactName (generatedName kind index) kind = true := by
  unfold isArtifactName
  have small : maxTransactionTargets ≤ 10 ^ 8 := by norm_num [maxTransactionTargets]
  rw [toList_generatedName, stripPrefix_append, Option.bind_some, eightDigitsBelow_eightDigits below small]
  rfl

end Parsing

namespace Entry

/-- The character a name begins with. -/
private theorem head_name (entry : Entry) : entry.name.toList.head? =
    some (match entry with
      | manifest | manifestTemporary => 'm'
      | record _ | temporary _ => 's'
      | candidate _ => 'c'
      | backup _ => 'b') := by
  cases entry <;> simp [name, toList_stateName, toList_generatedName]

theorem name_injective : Function.Injective name := by
  intro left right equal
  have heads := congrArg (fun text => text.toList.head?) equal
  simp only [head_name] at heads
  have manifests : manifest.name ≠ manifestTemporary.name := by decide
  cases left <;> cases right <;> simp only [Option.some.injEq, Char.reduceEq] at heads
  · rfl
  · exact absurd equal manifests
  · exact absurd equal.symm manifests
  · rfl
  · rw [stateName_sequence equal]
  · exact absurd equal (stateName_rec_ne_tmp _ _)
  · exact absurd equal.symm (stateName_rec_ne_tmp _ _)
  · rw [stateName_sequence equal]
  · rw [generatedName_injective equal]
  · rw [generatedName_injective equal]

@[simp] theorem name_inj {left right : Entry} : left.name = right.name ↔ left = right := name_injective.eq_iff

theorem parseStateName_rec_name {entry : Entry} {sequence : ℕ} :
    parseStateName entry.name "rec" = some sequence ↔ entry = record sequence ∧ sequence < maxStateRecords := by
  rw [parseStateName_eq_some, show stateName sequence "rec" = (record sequence).name from rfl, name_inj]

theorem parseStateName_tmp_name {entry : Entry} {sequence : ℕ} :
    parseStateName entry.name "tmp" = some sequence ↔ entry = temporary sequence ∧ sequence < maxStateRecords := by
  rw [parseStateName_eq_some, show stateName sequence "tmp" = (temporary sequence).name from rfl, name_inj]

end Entry

section Order

/-- Digits after a digit make less than one more of it. -/
private theorem ofDigitChars_lt {digits : List Char} (all : ∀ char ∈ digits, char.isDigit = true) : ∀ start : ℕ,
    Nat.ofDigitChars 10 digits start < (start + 1) * 10 ^ digits.length := by
  induction digits with
  | nil => intro start; simp
  | cons char rest ih =>
    intro start
    have digit : char.toNat - '0'.toNat ≤ 9 := by
      have isDigit := all char List.mem_cons_self
      simp only [Char.isDigit, Bool.and_eq_true, decide_eq_true_eq] at isDigit
      have upper : char.toNat ≤ 57 := isDigit.2
      change char.toNat - 48 ≤ 9
      omega
    have below := ih (fun other member => all other (List.mem_cons_of_mem _ member)) (10 * start + (char.toNat - '0'.toNat))
    rw [Nat.ofDigitChars_cons, List.length_cons, Nat.pow_succ']
    refine below.trans_le ?_
    rw [← Nat.mul_assoc]
    exact Nat.mul_le_mul_right _ (by omega)

private theorem ofDigitChars_ge (digits : List Char) : ∀ start : ℕ,
    start * 10 ^ digits.length ≤ Nat.ofDigitChars 10 digits start := by
  induction digits with
  | nil => intro start; simp
  | cons char rest ih =>
    intro start
    have above := ih (10 * start + (char.toNat - '0'.toNat))
    rw [Nat.ofDigitChars_cons, List.length_cons, Nat.pow_succ']
    refine Nat.le_trans ?_ above
    rw [← Nat.mul_assoc]
    exact Nat.mul_le_mul_right _ (by omega)

/-- Digits of one length are ordered as the numbers they spell. -/
private theorem ofDigitChars_lt_of_lt {left right : List Char} (leftDigits : ∀ char ∈ left, char.isDigit = true)
    (rightDigits : ∀ char ∈ right, char.isDigit = true) (same : left.length = right.length) (less : left < right) :
    ∀ start : ℕ, Nat.ofDigitChars 10 left start < Nat.ofDigitChars 10 right start := by
  induction left generalizing right with
  | nil =>
    intro start
    cases right with
    | nil => exact absurd less (lt_irrefl _)
    | cons _ _ => cases same
  | cons char rest ih =>
    intro start
    cases right with
    | nil => cases same
    | cons other others =>
      rw [Nat.ofDigitChars_cons, Nat.ofDigitChars_cons]
      rcases List.cons_lt_cons_iff.mp less with smaller | ⟨rfl, later⟩
      · have below := ofDigitChars_lt (fun char member => leftDigits char (List.mem_cons_of_mem _ member)) (10 * start + (char.toNat - '0'.toNat))
        have above := ofDigitChars_ge others (10 * start + (other.toNat - '0'.toNat))
        have step : char.toNat - '0'.toNat + 1 ≤ other.toNat - '0'.toNat := by
          have lower := leftDigits char List.mem_cons_self
          simp only [Char.isDigit, Bool.and_eq_true, decide_eq_true_eq] at lower
          have atLeast : 48 ≤ char.toNat := lower.1
          have strictly : char.toNat < other.toNat := smaller
          change char.toNat - 48 + 1 ≤ other.toNat - 48
          omega
        have lengths : rest.length = others.length := Nat.succ.inj same
        rw [lengths] at below
        refine below.trans_le (le_trans (Nat.mul_le_mul_right _ ?_) above)
        omega
      · exact ih (fun char member => leftDigits char (List.mem_cons_of_mem _ member))
          (fun char member => rightDigits char (List.mem_cons_of_mem _ member)) (Nat.succ.inj same) later _

theorem eightDigits_lt {left right : ℕ} (less : left < right) (small : right < 10 ^ 8) :
    eightDigits left < eightDigits right := by
  have digits (number : ℕ) : ∀ char ∈ eightDigits number, char.isDigit = true :=
    List.all_eq_true.mp (eightDigits_isDigit number)
  have lengths : (eightDigits left).length = (eightDigits right).length := by
    rw [eightDigits_length (less.trans small), eightDigits_length small]
  rcases lt_trichotomy (eightDigits left) (eightDigits right) with ordered | same | reversed
  · exact ordered
  · exact absurd (eightDigits_injective same) less.ne
  · have back := ofDigitChars_lt_of_lt (digits right) (digits left) lengths.symm reversed 0
    rw [ofDigitChars_eightDigits, ofDigitChars_eightDigits] at back
    omega

/-- Lists of one length are ordered whatever comes after them. -/
private theorem append_lt_append {left right : List Char} (same : left.length = right.length) (less : left < right)
    (leftRest rightRest : List Char) : left ++ leftRest < right ++ rightRest := by
  induction left generalizing right with
  | nil =>
    cases right with
    | nil => exact absurd less (lt_irrefl _)
    | cons _ _ => cases same
  | cons char rest ih =>
    cases right with
    | nil => cases same
    | cons other others =>
      rw [List.cons_append, List.cons_append, List.cons_lt_cons_iff]
      exact (List.cons_lt_cons_iff.mp less).imp_right fun later => ⟨later.1, ih (Nat.succ.inj same) later.2⟩

/-- The names of the state records are ordered as their sequences. -/
theorem compare_stateName {left right : ℕ} (ending : String) (less : left < right) (small : right < 10 ^ 8) :
    compare (stateName left ending) (stateName right ending) = .lt := by
  have lengths : (eightDigits left).length = (eightDigits right).length := by
    rw [eightDigits_length (less.trans small), eightDigits_length small]
  have ordered : stateName left ending < stateName right ending := by
    rw [String.lt_iff_toList_lt, toList_stateName, toList_stateName]
    exact List.append_left_lt (append_lt_append lengths (eightDigits_lt less small) _ _)
  change compareOfLessAndEq _ _ = _
  rw [compareOfLessAndEq, if_pos ordered]

end Order

section Completed

private theorem not_committed (front : List Char) : stripSuffix "-committed".toList (front ++ "-rolledback".toList) = none := by
  rw [stripSuffix, if_neg]
  rw [List.isSuffixOf_iff_suffix]
  rintro ⟨other, same⟩
  have last := congrArg List.getLast? same
  rw [List.getLast?_append_of_ne_nil _ (by decide), List.getLast?_append_of_ne_nil _ (by decide)] at last
  exact absurd last (by decide)

theorem isSuffixOf_completedName (id : String) (committed : Bool) :
    "-committed".toList.isSuffixOf (completedName id committed).toList = committed := by
  have named (ending : String) : (id ++ ending).toList = id.toList ++ ending.toList := String.toList_append
  cases committed with
  | true =>
    rw [completedName, if_pos rfl, named, List.isSuffixOf_iff_suffix]
    exact List.suffix_append _ _
  | false =>
    have other := not_committed id.toList
    rw [stripSuffix, ite_eq_right_iff] at other
    rw [completedName, if_neg Bool.false_ne_true, named, Bool.eq_false_iff]
    exact fun has => nomatch other has

/-- The name of a completed directory tells how its transaction ended. -/
theorem parseCompletedName_completedName {id : String} (valid : validateTransactionId id = .ok ()) (committed : Bool) :
    parseCompletedName (completedName id committed) = some (id, if committed then "committed" else "rolledback") := by
  have named (ending : String) : (id ++ ending).toList = id.toList ++ ending.toList := String.toList_append
  cases committed with
  | true =>
    rw [parseCompletedName, completedName, if_pos rfl, named, List.findSome?_cons, stripSuffix_append, Option.bind_some,
      String.ofList_toList, if_pos valid]
    rfl
  | false =>
    rw [parseCompletedName, completedName, if_neg Bool.false_ne_true, named, List.findSome?_cons, not_committed, Option.bind_none,
      List.findSome?_cons, stripSuffix_append, Option.bind_some, String.ofList_toList, if_pos valid]
    rfl

end Completed

end Srcmv.Fs
