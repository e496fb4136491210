import Srcmv.Proofs.Lsp.PhysicalLines
import Srcmv.ToMathlib.ExceptState

/-! # What conversions compute

A scan that succeeds found a prefix of the line's content, whatever was left of the budget; with
enough budget it succeeds. Server and user positions therefore both name a prefix of the content,
one by its encoded units and one by its scalars.
-/

namespace Srcmv.Lsp

open Srcmv.Core

namespace Conversion

variable {α β : Type} {scanned later : ℕ}

@[simp] theorem run_pure (value : α) : run (pure value) scanned = (.ok value, scanned) := rfl

@[simp] theorem run_throw (failure : PositionError) : run (throw failure : Conversion α) scanned = (.error failure, scanned) := rfl

@[simp] theorem run_ofExcept (result : Except PositionError α) : run (ofExcept result) scanned = (result, scanned) := rfl

/-- A conversion that fails ends the sequence. -/
theorem run_bind_of_error {conversion : Conversion α} {next : α → Conversion β} {failure : PositionError}
    (failed : run conversion scanned = (.error failure, later)) :
    run (conversion >>= next) scanned = (.error failure, later) := ExceptT.runFrom_bind_of_error failed

theorem run_bind_of_ok {conversion : Conversion α} {next : α → Conversion β} {value : α}
    (converted : run conversion scanned = (.ok value, later)) : run (conversion >>= next) scanned = run (next value) later :=
  ExceptT.runFrom_bind_of_ok converted

theorem run_bind_eq_ok {conversion : Conversion α} {next : α → Conversion β} {result : β} :
    run (conversion >>= next) scanned = (.ok result, later) ↔
      ∃ value between, run conversion scanned = (.ok value, between) ∧ run (next value) between = (.ok result, later) :=
  ExceptT.runFrom_bind_eq_ok

theorem run_ofExcept_bind {result : Except PositionError α} {next : α → Conversion β} {value : α}
    (accepted : result = .ok value) : run (ofExcept result >>= next) scanned = run (next value) scanned := by
  rw [accepted]
  exact run_bind_of_ok rfl

theorem run_ofExcept_eq_ok {result : Except PositionError α} {value : α} :
    run (ofExcept result) scanned = (.ok value, later) ↔ result = .ok value ∧ scanned = later := by
  rw [run_ofExcept, Prod.mk.injEq]

end Conversion

theorem checkedSum_eq_ok {sum result : ℕ} {failure : PositionError} :
    checkedSum sum failure = .ok result ↔ sum ≤ u64Max ∧ result = sum := by
  rw [checkedSum]
  split_ifs with fits <;> simp [fits, eq_comm]

namespace PositionConverter

variable {converter : PositionConverter} {line : UInt32} {before content terminator after front back : List Char}

theorem run_chargeCodePoint {scanned later : ℕ} :
    converter.chargeCodePoint.run scanned = (.ok (), later) ↔
      later = scanned + 1 ∧ scanned + 1 ≤ min u64Max converter.limits.maximumCodePointsScanned := by
  have charged : converter.chargeCodePoint.run scanned =
      if scanned + 1 > u64Max ∨ scanned + 1 > converter.limits.maximumCodePointsScanned then
        (.error .workLimitExceeded, scanned)
      else (.ok (), scanned + 1) := by
    have read : Conversion.run get scanned = (.ok scanned, scanned) := rfl
    rw [chargeCodePoint, Conversion.run_bind_of_ok read]
    split_ifs <;> rfl
  rw [charged]
  split_ifs with exhausted
  · simp only [Prod.mk.injEq, reduceCtorEq, false_and, false_iff]
    omega
  · simp only [Prod.mk.injEq, true_and]
    omega

/-- Enough budget remains for a number of scalars. -/
def Sufficient (converter : PositionConverter) (scanned count : ℕ) : Prop :=
  scanned + count ≤ min u64Max converter.limits.maximumCodePointsScanned

instance (scanned count : ℕ) : Decidable (converter.Sufficient scanned count) := inferInstanceAs (Decidable (_ ≤ _))

/-! ## Scans for encoded units -/

section Units

variable {width : Char → ℕ} {content : List Char} {scanned later : ℕ}

/-- A prefix of the content with the units that were asked for, or all of a shorter one. -/
structure Covers (width : Char → ℕ) (content : List Char) (target : ℕ) (front back : List Char) : Prop where
  split : content = front ++ back
  units : Utf8.weight width front = min target (Utf8.weight width content)

private theorem encodedUnitsFrom_ok {target result : ℕ} {rest done : List Char} (split : content = done ++ rest)
    (reached : Utf8.weight width done ≤ target)
    (ran : (converter.encodedUnitsFrom width content target rest (Utf8.size done) (Utf8.weight width done)).run scanned =
      (.ok result, later)) :
    ∃ front back, Covers width content target front back ∧ result = Utf8.size front := by
  induction rest generalizing done scanned with
  | nil =>
    rw [encodedUnitsFrom, Conversion.run_pure, Prod.mk.injEq, Except.ok.injEq] at ran
    rw [List.append_nil] at split
    exact ⟨content, [], ⟨(List.append_nil _).symm, by rw [split]; omega⟩, ran.1.symm⟩
  | cons scalar rest ih =>
    rw [encodedUnitsFrom] at ran
    split_ifs at ran with met
    · rw [Conversion.run_pure, Prod.mk.injEq, Except.ok.injEq] at ran
      refine ⟨done, scalar :: rest, ⟨split, ?_⟩, ran.1.symm⟩
      rw [split, Utf8.weight_append]
      omega
    · obtain ⟨_, between, -, ran⟩ := Conversion.run_bind_eq_ok.mp ran
      obtain ⟨next, _, summed, ran⟩ := Conversion.run_bind_eq_ok.mp ran
      rw [Conversion.run_ofExcept_eq_ok, checkedSum_eq_ok] at summed
      obtain ⟨⟨-, rfl⟩, rfl⟩ := summed
      split_ifs at ran with past
      · rw [Conversion.run_throw] at ran
        cases ran
      · have size : Utf8.size done + scalar.utf8Size = Utf8.size (done ++ [scalar]) := by simp
        have units : Utf8.weight width done + width scalar = Utf8.weight width (done ++ [scalar]) := by simp
        rw [size, units] at ran
        exact ih (by rw [split, List.append_assoc, List.singleton_append]) (by rw [← units]; omega) ran

private theorem encodedUnitsFrom_succeeds (positive : ∀ scalar, 0 < width scalar)
    (sized : Utf8.weight width content ≤ u64Max) {target : ℕ} {front back rest done : List Char}
    (covers : Covers width content target front back) (split : content = done ++ rest)
    (reached : Utf8.weight width done ≤ target) (budget : converter.Sufficient scanned rest.length) :
    ∃ later, (converter.encodedUnitsFrom width content target rest (Utf8.size done) (Utf8.weight width done)).run scanned =
      (.ok (Utf8.size front), later) := by
  have before : front <+: content := ⟨back, covers.split.symm⟩
  induction rest generalizing done scanned with
  | nil =>
    rw [List.append_nil] at split
    have whole : front = content := by
      refine before.eq_of_length (le_antisymm before.length_le ?_)
      refine (Utf8.prefix_of_weight_le positive List.prefix_rfl before ?_).length_le
      rw [covers.units, split]
      omega
    exact ⟨scanned, by rw [encodedUnitsFrom, Conversion.run_pure, whole]⟩
  | cons scalar rest ih =>
    have within : done <+: content := ⟨scalar :: rest, split.symm⟩
    have next : done ++ [scalar] <+: content := ⟨rest, by rw [split, List.append_assoc, List.singleton_append]⟩
    have heavier : Utf8.weight width (done ++ [scalar]) ≤ Utf8.weight width content := by
      rw [split, Utf8.weight_append, Utf8.weight_append, Utf8.weight_cons, Utf8.weight_cons, Utf8.weight_nil]
      omega
    have units : Utf8.weight width (done ++ [scalar]) = Utf8.weight width done + width scalar := by simp
    have size : Utf8.size (done ++ [scalar]) = Utf8.size done + scalar.utf8Size := by simp
    have wider := positive scalar
    rw [encodedUnitsFrom]
    split_ifs with met
    · have same : front = done := by
        have weighs : Utf8.weight width front = Utf8.weight width done := by
          rw [covers.units]
          omega
        exact (Utf8.prefix_of_weight_le positive before within weighs.le).eq_of_length
          (le_antisymm (Utf8.prefix_of_weight_le positive before within weighs.le).length_le
            (Utf8.prefix_of_weight_le positive within before weighs.ge).length_le)
      exact ⟨scanned, by rw [Conversion.run_pure, same]⟩
    · rw [Sufficient, List.length_cons] at budget
      rw [Conversion.run_bind_of_ok (run_chargeCodePoint.mpr ⟨rfl, by omega⟩),
        Conversion.run_ofExcept_bind (checkedSum_eq_ok.mpr ⟨by omega, rfl⟩)]
      -- The target lies between two prefixes only if it splits a scalar.
      have whole : ¬target < Utf8.weight width done + width scalar := by
        intro past
        obtain ⟨more, rfl⟩ := Utf8.prefix_of_weight_le positive within before (by rw [covers.units]; omega)
        have units := covers.units
        cases more with
        | nil =>
          rw [List.append_nil] at units
          omega
        | cons other more =>
          have shape := covers.split
          rw [split, List.append_assoc] at shape
          obtain rfl := (List.cons.inj (List.append_cancel_left shape)).1
          rw [Utf8.weight_append, Utf8.weight_cons] at units
          omega
      rw [if_neg whole, ← size, ← units]
      exact ih (by rw [split, List.append_assoc, List.singleton_append]) (by rw [units]; omega) (by rw [Sufficient]; omega)

/-- A server character that converts names a prefix of the content. -/
theorem encodedUnitsToByte_ok {character : UInt32} {result : ℕ}
    (ran : (converter.encodedUnitsToByte content character width).run scanned = (.ok result, later)) :
    ∃ front back, Covers width content character.toNat front back ∧ result = Utf8.size front :=
  encodedUnitsFrom_ok (List.nil_append content).symm (Nat.zero_le _) ran

theorem encodedUnitsToByte_succeeds (positive : ∀ scalar, 0 < width scalar)
    (sized : Utf8.weight width content ≤ u64Max) {character : UInt32} {front back : List Char}
    (covers : Covers width content character.toNat front back) (budget : converter.Sufficient scanned content.length) :
    ∃ later, (converter.encodedUnitsToByte content character width).run scanned = (.ok (Utf8.size front), later) :=
  encodedUnitsFrom_succeeds positive sized covers (List.nil_append content).symm (Nat.zero_le _) budget

private theorem unitsBefore_ok {result : ℕ} {front back done : List Char}
    (ran : (converter.unitsBefore width (Utf8.size (done ++ front)) (front ++ back) (Utf8.size done)
      (Utf8.weight width done)).run scanned = (.ok result, later)) : result = Utf8.weight width (done ++ front) := by
  induction front generalizing done scanned with
  | nil =>
    rw [List.append_nil] at ran ⊢
    cases back with
    | nil =>
      rw [List.nil_append, unitsBefore, Conversion.run_pure, Prod.mk.injEq, Except.ok.injEq] at ran
      exact ran.1.symm
    | cons scalar back =>
      rw [List.nil_append, unitsBefore, if_pos rfl, Conversion.run_pure, Prod.mk.injEq, Except.ok.injEq] at ran
      exact ran.1.symm
  | cons scalar front ih =>
    have wider := scalar.utf8Size_pos
    have apart : ¬Utf8.size done = Utf8.size (done ++ scalar :: front) := by
      rw [Utf8.size_append, Utf8.size_cons]
      omega
    rw [List.cons_append, unitsBefore, if_neg apart] at ran
    obtain ⟨_, between, -, ran⟩ := Conversion.run_bind_eq_ok.mp ran
    obtain ⟨next, _, summed, ran⟩ := Conversion.run_bind_eq_ok.mp ran
    rw [Conversion.run_ofExcept_eq_ok, checkedSum_eq_ok] at summed
    obtain ⟨⟨-, rfl⟩, rfl⟩ := summed
    have size : Utf8.size done + scalar.utf8Size = Utf8.size (done ++ [scalar]) := by simp
    have units : Utf8.weight width done + width scalar = Utf8.weight width (done ++ [scalar]) := by simp
    have whole : done ++ scalar :: front = (done ++ [scalar]) ++ front := by simp
    rw [size, units, whole] at ran
    rw [whole]
    exact ih ran

private theorem unitsBefore_succeeds {front back done : List Char} (sized : Utf8.weight width (done ++ front) ≤ u64Max)
    (budget : converter.Sufficient scanned front.length) :
    ∃ later, (converter.unitsBefore width (Utf8.size (done ++ front)) (front ++ back) (Utf8.size done)
      (Utf8.weight width done)).run scanned = (.ok (Utf8.weight width (done ++ front)), later) := by
  induction front generalizing done scanned with
  | nil =>
    rw [List.append_nil]
    cases back with
    | nil => exact ⟨scanned, rfl⟩
    | cons scalar back => exact ⟨scanned, by rw [List.nil_append, unitsBefore, if_pos rfl, Conversion.run_pure]⟩
  | cons scalar front ih =>
    have wider := scalar.utf8Size_pos
    have apart : ¬Utf8.size done = Utf8.size (done ++ scalar :: front) := by
      rw [Utf8.size_append, Utf8.size_cons]
      omega
    have size : Utf8.size done + scalar.utf8Size = Utf8.size (done ++ [scalar]) := by simp
    have units : Utf8.weight width done + width scalar = Utf8.weight width (done ++ [scalar]) := by simp
    have whole : done ++ scalar :: front = (done ++ [scalar]) ++ front := by simp
    have fits : Utf8.weight width done + width scalar ≤ u64Max := by
      rw [Utf8.weight_append, Utf8.weight_cons] at sized
      omega
    rw [Sufficient, List.length_cons] at budget
    rw [List.cons_append, unitsBefore, if_neg apart, Conversion.run_bind_of_ok (run_chargeCodePoint.mpr ⟨rfl, by omega⟩),
      Conversion.run_ofExcept_bind (checkedSum_eq_ok.mpr ⟨fits, rfl⟩), size, units, whole]
    exact ih (whole ▸ sized) (by rw [Sufficient]; omega)

theorem byteToEncodedUnits_ok {result : UInt32} {front back : List Char} (split : content = front ++ back)
    (ran : (converter.byteToEncodedUnits content (Utf8.size front) width).run scanned = (.ok result, later)) :
    result.toNat = Utf8.weight width front := by
  obtain ⟨units, between, counted, ran⟩ := Conversion.run_bind_eq_ok.mp ran
  rw [Conversion.run_ofExcept_eq_ok, toU32_eq_ok] at ran
  rw [split] at counted
  rw [ran.1]
  exact @unitsBefore_ok _ _ _ _ _ front back [] counted

theorem byteToEncodedUnits_succeeds {result : UInt32} {front back : List Char} (split : content = front ++ back)
    (counts : result.toNat = Utf8.weight width front) (budget : converter.Sufficient scanned content.length) :
    ∃ later, (converter.byteToEncodedUnits content (Utf8.size front) width).run scanned = (.ok result, later) := by
  have small := result.toNat_lt
  have sized : Utf8.weight width ([] ++ front) ≤ u64Max := by
    rw [List.nil_append, ← counts]
    exact (small.trans (by norm_num [u64Max])).le
  have remaining : converter.Sufficient scanned front.length := by
    rw [Sufficient, split, List.length_append] at *
    omega
  obtain ⟨later, counted⟩ := @unitsBefore_succeeds _ _ _ front back [] sized remaining
  refine ⟨later, ?_⟩
  rw [byteToEncodedUnits, split]
  exact (Conversion.run_bind_of_ok counted).trans (by rw [List.nil_append, toU32_eq_ok.mpr counts]; rfl)

end Units

/-! ## Scans for scalars -/

section Scalars

variable {content : List Char} {scanned later : ℕ}

private theorem scalarUnitsFrom_ok {target result : ℕ} {rest done : List Char} (split : content = done ++ rest)
    (ran : (converter.scalarUnitsFrom content target rest (Utf8.size done) done.length).run scanned = (.ok result, later)) :
    ∃ front back, content = front ++ back ∧ front.length = target ∧ result = Utf8.size front := by
  induction rest generalizing done scanned with
  | nil =>
    rw [scalarUnitsFrom] at ran
    split_ifs at ran with met
    · rw [Conversion.run_pure, Prod.mk.injEq, Except.ok.injEq] at ran
      rw [List.append_nil] at split
      exact ⟨content, [], (List.append_nil _).symm, by rw [split, met], ran.1.symm⟩
    · rw [Conversion.run_throw] at ran
      cases ran
  | cons scalar rest ih =>
    rw [scalarUnitsFrom] at ran
    split_ifs at ran with met
    · rw [Conversion.run_pure, Prod.mk.injEq, Except.ok.injEq] at ran
      exact ⟨done, scalar :: rest, split, met, ran.1.symm⟩
    · obtain ⟨_, between, -, ran⟩ := Conversion.run_bind_eq_ok.mp ran
      obtain ⟨next, _, summed, ran⟩ := Conversion.run_bind_eq_ok.mp ran
      rw [Conversion.run_ofExcept_eq_ok, checkedSum_eq_ok] at summed
      obtain ⟨⟨-, rfl⟩, rfl⟩ := summed
      have size : Utf8.size done + scalar.utf8Size = Utf8.size (done ++ [scalar]) := by simp
      have length : done.length + 1 = (done ++ [scalar]).length := by simp
      rw [size, length] at ran
      exact ih (by rw [split, List.append_assoc, List.singleton_append]) ran

private theorem scalarUnitsFrom_succeeds {front back done : List Char} (split : content = done ++ front ++ back)
    (budget : converter.Sufficient scanned front.length) (sized : (done ++ front).length ≤ u64Max) :
    ∃ later, (converter.scalarUnitsFrom content (done ++ front).length (front ++ back) (Utf8.size done) done.length).run
      scanned = (.ok (Utf8.size (done ++ front)), later) := by
  induction front generalizing done scanned with
  | nil =>
    rw [List.append_nil] at split ⊢
    cases back with
    | nil =>
      rw [List.append_nil] at split
      exact ⟨scanned, by rw [List.nil_append, scalarUnitsFrom, if_pos rfl, Conversion.run_pure, split]⟩
    | cons scalar back => exact ⟨scanned, by rw [List.nil_append, scalarUnitsFrom, if_pos rfl, Conversion.run_pure]⟩
  | cons scalar front ih =>
    have apart : ¬done.length = (done ++ scalar :: front).length := by simp
    have size : Utf8.size done + scalar.utf8Size = Utf8.size (done ++ [scalar]) := by simp
    have length : done.length + 1 = (done ++ [scalar]).length := by simp
    have whole : done ++ scalar :: front = (done ++ [scalar]) ++ front := by simp
    have fits : done.length + 1 ≤ u64Max := by
      rw [List.length_append, List.length_cons] at sized
      omega
    rw [Sufficient, List.length_cons] at budget
    rw [List.cons_append, scalarUnitsFrom, if_neg apart, Conversion.run_bind_of_ok (run_chargeCodePoint.mpr ⟨rfl, by omega⟩),
      Conversion.run_ofExcept_bind (checkedSum_eq_ok.mpr ⟨fits, rfl⟩), size, length, whole]
    exact ih (whole ▸ split) (by rw [Sufficient]; omega) (whole ▸ sized)

/-- A user column that converts names a prefix of the content. -/
theorem scalarUnitsToByteExact_ok {target result : ℕ}
    (ran : (converter.scalarUnitsToByteExact content target).run scanned = (.ok result, later)) :
    ∃ front back, content = front ++ back ∧ front.length = target ∧ result = Utf8.size front :=
  scalarUnitsFrom_ok (List.nil_append content).symm ran

theorem scalarUnitsToByteExact_succeeds {front back : List Char} (split : content = front ++ back)
    (budget : converter.Sufficient scanned front.length) (sized : front.length ≤ u64Max) :
    ∃ later, (converter.scalarUnitsToByteExact content front.length).run scanned = (.ok (Utf8.size front), later) := by
  have walked := @scalarUnitsFrom_succeeds _ _ _ front back [] split budget sized
  rw [scalarUnitsToByteExact]
  rw [List.nil_append, ← split] at walked
  exact walked

private theorem countScalars_ok {text : List Char} {scalars result : ℕ}
    (ran : (converter.countScalars text scalars).run scanned = (.ok result, later)) : result = scalars + text.length := by
  induction text generalizing scalars scanned with
  | nil =>
    rw [countScalars, Conversion.run_pure, Prod.mk.injEq, Except.ok.injEq] at ran
    exact ran.1.symm
  | cons scalar text ih =>
    rw [countScalars] at ran
    obtain ⟨_, between, -, ran⟩ := Conversion.run_bind_eq_ok.mp ran
    obtain ⟨next, _, summed, ran⟩ := Conversion.run_bind_eq_ok.mp ran
    rw [Conversion.run_ofExcept_eq_ok, checkedSum_eq_ok] at summed
    obtain ⟨⟨-, rfl⟩, rfl⟩ := summed
    rw [ih ran, List.length_cons]
    omega

private theorem countScalars_succeeds {text : List Char} {scalars : ℕ} (sized : scalars + text.length ≤ u64Max)
    (budget : converter.Sufficient scanned text.length) :
    ∃ later, (converter.countScalars text scalars).run scanned = (.ok (scalars + text.length), later) := by
  induction text generalizing scalars scanned with
  | nil => exact ⟨scanned, rfl⟩
  | cons scalar text ih =>
    rw [Sufficient, List.length_cons] at budget
    rw [List.length_cons] at sized
    obtain ⟨later, counted⟩ : ∃ later, (converter.countScalars text (scalars + 1)).run (scanned + 1) =
        (.ok (scalars + 1 + text.length), later) := ih (by omega) (by rw [Sufficient]; omega)
    refine ⟨later, ?_⟩
    rw [countScalars, Conversion.run_bind_of_ok (run_chargeCodePoint.mpr ⟨rfl, by omega⟩),
      Conversion.run_ofExcept_bind (checkedSum_eq_ok.mpr ⟨by omega, rfl⟩), counted, List.length_cons]
    congr 2
    omega

/-- The text from the start of a line to an offset in its content. -/
private theorem LineOf.get_front {line : UInt32} {before content terminator after front back : List Char}
    (part : LineOf converter line before content terminator after) (split : content = front ++ back) :
    Utf8.get converter.text (Utf8.size before) (Utf8.size before + Utf8.size front) = some front :=
  Utf8.get_eq_some_iff.mpr ⟨before, back ++ (terminator ++ after), by rw [part.shape, split]; simp, rfl, rfl⟩

theorem LineOf.scalarColumnBefore_ok {line : UInt32} {before content terminator after front back : List Char} {column : ℕ}
    (part : LineOf converter line before content terminator after) (split : content = front ++ back)
    (ran : (converter.scalarColumnBefore ⟨line, Utf8.size before, Utf8.size before + Utf8.size content⟩
      (Utf8.size before + Utf8.size front)).run scanned = (.ok column, later)) : column = front.length + 1 := by
  rw [scalarColumnBefore, if_neg (by dsimp only; omega)] at ran
  dsimp only at ran
  rw [part.get_front split] at ran
  obtain ⟨scalars, between, counted, ran⟩ := Conversion.run_bind_eq_ok.mp ran
  rw [Conversion.run_ofExcept_eq_ok, checkedSum_eq_ok] at ran
  rw [ran.1.2, countScalars_ok counted, Nat.zero_add]

theorem LineOf.scalarColumnBefore_succeeds {line : UInt32} {before content terminator after front back : List Char}
    (part : LineOf converter line before content terminator after) (split : content = front ++ back)
    (sized : front.length + 1 ≤ u64Max) (budget : converter.Sufficient scanned front.length) :
    ∃ later, (converter.scalarColumnBefore ⟨line, Utf8.size before, Utf8.size before + Utf8.size content⟩
      (Utf8.size before + Utf8.size front)).run scanned = (.ok (front.length + 1), later) := by
  have short : 0 + front.length ≤ u64Max := by omega
  obtain ⟨later, counted⟩ := countScalars_succeeds short budget
  rw [Nat.zero_add] at counted
  refine ⟨later, ?_⟩
  rw [scalarColumnBefore, if_neg (by dsimp only; omega)]
  dsimp only
  rw [part.get_front split]
  exact (Conversion.run_bind_of_ok counted).trans (by rw [checkedSum_eq_ok.mpr ⟨sized, rfl⟩]; rfl)

end Scalars

end PositionConverter

/-! ## Server positions -/

/-- The units of a scalar. -/
def SupportedPositionEncoding.width : SupportedPositionEncoding → Char → ℕ
  | .utf8 => Char.utf8Size
  | .utf16 => lenUtf16
  | .utf32 => fun _ => 1

theorem SupportedPositionEncoding.width_pos (encoding : SupportedPositionEncoding) (scalar : Char) :
    0 < encoding.width scalar := by
  cases encoding with
  | utf8 => exact scalar.utf8Size_pos
  | utf16 =>
    change 0 < lenUtf16 scalar
    rw [lenUtf16]
    split_ifs <;> decide
  | utf32 => exact Nat.one_pos

theorem SupportedPositionEncoding.width_le_utf8Size (encoding : SupportedPositionEncoding) (scalar : Char) :
    encoding.width scalar ≤ scalar.utf8Size := by
  cases encoding with
  | utf8 => exact le_rfl
  | utf16 =>
    change lenUtf16 scalar ≤ _
    rw [lenUtf16]
    split_ifs with basic
    · exact scalar.utf8Size_pos
    · -- Only a scalar of one byte is narrower than a pair.
      by_contra narrow
      have positive := scalar.utf8Size_pos
      have single := Char.utf8Size_eq_one_iff.mp (show scalar.utf8Size = 1 by omega)
      have small := UInt32.le_iff_toNat_le.mp single
      exact basic (lt_of_le_of_lt small (by decide))
  | utf32 => exact scalar.utf8Size_pos

namespace PositionConverter

variable {converter : PositionConverter} {line : UInt32} {before content terminator after front back : List Char}

theorem LineOf.content_le (part : LineOf converter line before content terminator after) :
    Utf8.size before + Utf8.size content + Utf8.size terminator ≤ Utf8.size converter.text ∧
      content.length ≤ converter.text.length := by
  rw [part.shape]
  simp only [Utf8.size_append, List.length_append]
  omega

/-- An offset in the content of a line is on that line. -/
theorem LineOf.reaches_content (part : LineOf converter line before content terminator after) (split : content = front ++ back) :
    LineOf.Reaches before content terminator after (Utf8.size before + Utf8.size front) := by
  have within : Utf8.size front ≤ Utf8.size content := by
    rw [split, Utf8.size_append]
    exact Nat.le_add_right _ _
  refine ⟨Nat.le_add_right _ _, by omega, ?_⟩
  by_cases open_ : terminator = []
  · exact .inr (part.closed open_)
  · have closing := lt_of_lt_of_le (List.length_pos_iff.mpr open_) (Utf8.length_le_size terminator)
    exact .inl (by omega)

theorem LineOf.isCharBoundary (part : LineOf converter line before content terminator after) (split : content = front ++ back) :
    Utf8.isCharBoundary converter.text (Utf8.size before + Utf8.size front) = true :=
  Utf8.isCharBoundary_iff.mpr ⟨before ++ front, back ++ (terminator ++ after), by rw [part.shape, split]; simp, by simp⟩

/-- An offset between characters, from the start of a line to its content end, splits the content. -/
theorem LineOf.splits_content (part : LineOf converter line before content terminator after) {offset : ℕ}
    (boundary : Utf8.isCharBoundary converter.text offset = true) (begun : Utf8.size before ≤ offset)
    (inner : offset ≤ Utf8.size before + Utf8.size content) :
    ∃ front back, content = front ++ back ∧ Utf8.size before + Utf8.size front = offset := by
  obtain ⟨text, rest, split, size⟩ := Utf8.isCharBoundary_iff.mp boundary
  obtain ⟨front, rfl⟩ : before <+: text := by
    refine Utf8.prefix_of_weight_le Char.utf8Size_pos ⟨_, part.shape.symm⟩ ⟨rest, split.symm⟩ ?_
    rw [← Utf8.size_eq_weight, ← Utf8.size_eq_weight, size]
    exact begun
  rw [Utf8.size_append] at size
  rw [part.shape, List.append_assoc] at split
  have same := List.append_cancel_left split
  obtain ⟨back, rfl⟩ : front <+: content := by
    refine Utf8.prefix_of_weight_le Char.utf8Size_pos ⟨rest, same.symm⟩ (List.prefix_append _ _) ?_
    rw [← Utf8.size_eq_weight, ← Utf8.size_eq_weight]
    omega
  exact ⟨front, back, rfl, size⟩

private theorem utf8UnitsToByte_eq_ok {character : UInt32} {result : ℕ} :
    utf8UnitsToByte content character = .ok result ↔
      ∃ front back, Covers Char.utf8Size content character.toNat front back ∧ result = Utf8.size front := by
  rw [utf8UnitsToByte]
  split_ifs with oversized splits
  · constructor
    · intro same
      obtain rfl := Except.ok.inj same
      exact ⟨content, [], ⟨(List.append_nil _).symm, by rw [← Utf8.size_eq_weight]; omega⟩, rfl⟩
    · rintro ⟨front, back, covers, rfl⟩
      have units := covers.units
      rw [← Utf8.size_eq_weight, ← Utf8.size_eq_weight] at units
      rw [units, min_eq_right oversized]
  · refine ⟨fun impossible => (by cases impossible), ?_⟩
    rintro ⟨front, back, covers, rfl⟩
    have units := covers.units
    rw [← Utf8.size_eq_weight, ← Utf8.size_eq_weight] at units
    have boundary := Utf8.isCharBoundary_iff.mpr ⟨front, back, covers.split, units.trans (min_eq_left (by omega))⟩
    rw [boundary] at splits
    cases splits
  · constructor
    · intro same
      obtain rfl := Except.ok.inj same
      obtain ⟨front, back, split, size⟩ := Utf8.isCharBoundary_iff.mp (by simpa using splits)
      exact ⟨front, back, ⟨split, by rw [← Utf8.size_eq_weight, ← Utf8.size_eq_weight, size]; omega⟩, size.symm⟩
    · rintro ⟨front, back, covers, rfl⟩
      have units := covers.units
      rw [← Utf8.size_eq_weight, ← Utf8.size_eq_weight] at units
      rw [units, min_eq_left (by omega)]

private theorem characterToByte_ok {character : UInt32} {scanned later result : ℕ}
    (ran : (converter.characterToByte content character).run scanned = (.ok result, later)) :
    ∃ front back, Covers converter.encoding.width content character.toNat front back ∧ result = Utf8.size front := by
  rw [characterToByte] at ran
  cases encoding : converter.encoding with
  | utf8 =>
    rw [encoding] at ran
    exact utf8UnitsToByte_eq_ok.mp (Conversion.run_ofExcept_eq_ok.mp ran).1
  | utf16 | utf32 =>
    rw [encoding] at ran
    exact encodedUnitsToByte_ok ran

private theorem characterToByte_succeeds {character : UInt32} {scanned : ℕ} (sized : Utf8.size content ≤ u64Max)
    (covers : Covers converter.encoding.width content character.toNat front back)
    (budget : converter.Sufficient scanned content.length) :
    ∃ later, (converter.characterToByte content character).run scanned = (.ok (Utf8.size front), later) := by
  have fits := (Utf8.weight_le_size converter.encoding.width_le_utf8Size content).trans sized
  rw [characterToByte]
  cases encoding : converter.encoding with
  | utf8 =>
    rw [encoding] at covers
    exact ⟨scanned, Conversion.run_ofExcept_eq_ok.mpr ⟨utf8UnitsToByte_eq_ok.mpr ⟨front, back, covers, rfl⟩, rfl⟩⟩
  | utf16 | utf32 =>
    rw [encoding] at covers fits
    exact encodedUnitsToByte_succeeds (SupportedPositionEncoding.width_pos _) fits covers budget

private theorem byteToCharacter_ok {scanned later : ℕ} {character : UInt32} (split : content = front ++ back)
    (ran : (converter.byteToCharacter content (Utf8.size front)).run scanned = (.ok character, later)) :
    character.toNat = Utf8.weight converter.encoding.width front := by
  rw [byteToCharacter] at ran
  cases encoding : converter.encoding with
  | utf8 =>
    rw [encoding] at ran
    exact toU32_eq_ok.mp (Conversion.run_ofExcept_eq_ok.mp ran).1
  | utf16 | utf32 =>
    rw [encoding] at ran
    exact byteToEncodedUnits_ok split ran

private theorem byteToCharacter_succeeds {scanned : ℕ} {character : UInt32} (split : content = front ++ back)
    (counts : character.toNat = Utf8.weight converter.encoding.width front)
    (budget : converter.Sufficient scanned content.length) :
    ∃ later, (converter.byteToCharacter content (Utf8.size front)).run scanned = (.ok character, later) := by
  rw [byteToCharacter]
  cases encoding : converter.encoding with
  | utf8 =>
    rw [encoding] at counts
    exact ⟨scanned, Conversion.run_ofExcept_eq_ok.mpr ⟨toU32_eq_ok.mpr counts, rfl⟩⟩
  | utf16 | utf32 =>
    rw [encoding] at counts
    exact byteToEncodedUnits_succeeds split counts budget

/-- The line that a server names exists when its bounds are found. -/
theorem Indexed.lineOf_bounds (indexed : converter.Indexed) {bounds : LineBounds}
    (found : converter.lineBounds line = .ok bounds) : ∃ before content terminator after,
    LineOf converter line before content terminator after ∧
      bounds = ⟨line, Utf8.size before, Utf8.size before + Utf8.size content⟩ := by
  have inside : line.toNat < converter.lineIndex.lineCount := by
    by_contra outside
    rw [lineBounds, LineIndex.lineStart, if_pos (.inr (by omega))] at found
    cases found
  obtain ⟨before, content, terminator, after, part⟩ := indexed.lineOf inside
  exact ⟨before, content, terminator, after, part, Except.ok.inj (found.symm.trans part.bounds)⟩

/-- A server position that converts names a prefix of the content of its line. -/
theorem lspPositionToByte_ok (indexed : converter.Indexed) {position : Position} {scanned later offset : ℕ}
    (ran : (converter.lspPositionToByte position).run scanned = (.ok offset, later)) :
    ∃ before content terminator after front back, LineOf converter position.line before content terminator after ∧
      Covers converter.encoding.width content position.character.toNat front back ∧
      offset = Utf8.size before + Utf8.size front := by
  obtain ⟨bounds, _, lookup, ran⟩ := Conversion.run_bind_eq_ok.mp ran
  obtain ⟨bounded, rfl⟩ := Conversion.run_ofExcept_eq_ok.mp lookup
  obtain ⟨before, content, terminator, after, part, rfl⟩ := indexed.lineOf_bounds bounded
  obtain ⟨text, _, read, ran⟩ := Conversion.run_bind_eq_ok.mp ran
  obtain ⟨found, rfl⟩ := Conversion.run_ofExcept_eq_ok.mp read
  obtain rfl := Except.ok.inj (part.lineContent.symm.trans found)
  obtain ⟨relative, between, converted, ran⟩ := Conversion.run_bind_eq_ok.mp ran
  rw [Conversion.run_ofExcept_eq_ok, checkedSum_eq_ok] at ran
  obtain ⟨front, back, covers, rfl⟩ := characterToByte_ok converted
  exact ⟨before, content, terminator, after, front, back, part, covers, ran.1.2⟩

theorem lspPositionToByte_succeeds (indexed : converter.Indexed) {position : Position} {scanned : ℕ}
    (part : LineOf converter position.line before content terminator after)
    (covers : Covers converter.encoding.width content position.character.toNat front back)
    (budget : converter.Sufficient scanned converter.text.length) :
    ∃ later, (converter.lspPositionToByte position).run scanned = (.ok (Utf8.size before + Utf8.size front), later) := by
  obtain ⟨within, shorter⟩ := part.content_le
  have sized := indexed.sized
  have remaining : converter.Sufficient scanned content.length := by
    rw [Sufficient] at *
    omega
  have inner : Utf8.size front ≤ Utf8.size content := by
    rw [covers.split, Utf8.size_append]
    exact Nat.le_add_right _ _
  have total : Utf8.size before + Utf8.size front ≤ u64Max := by
    norm_num [u64Max]
    omega
  obtain ⟨later, converted⟩ := characterToByte_succeeds (by norm_num [u64Max]; omega) covers remaining
  refine ⟨later, ?_⟩
  rw [lspPositionToByte, Conversion.run_ofExcept_bind part.bounds, Conversion.run_ofExcept_bind part.lineContent,
    Conversion.run_bind_of_ok converted]
  exact Conversion.run_ofExcept_eq_ok.mpr ⟨checkedSum_eq_ok.mpr ⟨total, rfl⟩, rfl⟩

/-- A byte that converts lies in the content of its line, behind as many units as its character. -/
theorem byteToLspPosition_ok (indexed : converter.Indexed) {position : Position} {scanned later offset : ℕ}
    (ran : (converter.byteToLspPosition offset).run scanned = (.ok position, later)) :
    ∃ before content terminator after front back, LineOf converter position.line before content terminator after ∧
      content = front ++ back ∧ offset = Utf8.size before + Utf8.size front ∧
      position.character.toNat = Utf8.weight converter.encoding.width front := by
  obtain ⟨bounds, _, lookup, ran⟩ := Conversion.run_bind_eq_ok.mp ran
  obtain ⟨selected, rfl⟩ := Conversion.run_ofExcept_eq_ok.mp lookup
  obtain ⟨-, before, content, terminator, after, part, reaches, shape⟩ :=
    userLineForByte_ok indexed (lineForByte_ok indexed selected).1
  obtain ⟨line, start, stop⟩ := bounds
  obtain ⟨-, rfl, rfl⟩ := (LineBounds.mk.injEq .. ▸ shape : _ ∧ _ ∧ _)
  obtain ⟨text, _, read, ran⟩ := Conversion.run_bind_eq_ok.mp ran
  obtain ⟨found, rfl⟩ := Conversion.run_ofExcept_eq_ok.mp read
  obtain rfl := Except.ok.inj (part.lineContent.symm.trans found)
  have begun := reaches.begun
  dsimp only at ran begun
  rw [if_neg (by omega)] at ran
  split_ifs at ran with outside
  · rw [Conversion.run_throw] at ran
    cases ran
  · obtain ⟨front, back, split, size⟩ := Utf8.isCharBoundary_iff.mp (show Utf8.isCharBoundary content _ = true by
      simpa using (not_or.mp outside).2)
    rw [← size] at ran
    obtain ⟨character, between, counted, ran⟩ := Conversion.run_bind_eq_ok.mp ran
    rw [Conversion.run_pure, Prod.mk.injEq, Except.ok.injEq] at ran
    obtain ⟨rfl, -⟩ := ran
    exact ⟨before, content, terminator, after, front, back, part, split, by omega, byteToCharacter_ok split counted⟩

theorem byteToLspPosition_succeeds (indexed : converter.Indexed) {position : Position} {scanned : ℕ}
    (part : LineOf converter position.line before content terminator after) (split : content = front ++ back)
    (counts : position.character.toNat = Utf8.weight converter.encoding.width front)
    (budget : converter.Sufficient scanned converter.text.length) :
    ∃ later, (converter.byteToLspPosition (Utf8.size before + Utf8.size front)).run scanned = (.ok position, later) := by
  obtain ⟨-, shorter⟩ := part.content_le
  have remaining : converter.Sufficient scanned content.length := by
    rw [Sufficient] at *
    omega
  have inner : Utf8.size front ≤ Utf8.size content := by
    rw [split, Utf8.size_append]
    exact Nat.le_add_right _ _
  have boundary : Utf8.isCharBoundary content (Utf8.size front) = true := Utf8.isCharBoundary_iff.mpr ⟨front, back, split, rfl⟩
  have found := part.lineForByte indexed (part.isCharBoundary split) (part.reaches_content split) (by omega)
  obtain ⟨later, counted⟩ := byteToCharacter_succeeds split counts remaining
  refine ⟨later, ?_⟩
  rw [byteToLspPosition, Conversion.run_ofExcept_bind found, Conversion.run_ofExcept_bind part.lineContent]
  dsimp only
  rw [if_neg (by omega), Nat.add_sub_cancel_left, if_neg (by simp [boundary, inner]), Conversion.run_bind_of_ok counted]
  rfl

/-! ## User positions -/

theorem byteToUserLineScalar_ok (indexed : converter.Indexed) {number scanned later offset column : ℕ}
    (ran : (converter.byteToUserLineScalar offset).run scanned = (.ok (number, some column), later)) :
    ∃ line before content terminator after front back, LineOf converter line before content terminator after ∧
      number = line.toNat + 1 ∧ content = front ++ back ∧ offset = Utf8.size before + Utf8.size front ∧
      column = front.length + 1 := by
  obtain ⟨bounds, _, lookup, ran⟩ := Conversion.run_bind_eq_ok.mp ran
  obtain ⟨selected, rfl⟩ := Conversion.run_ofExcept_eq_ok.mp lookup
  obtain ⟨boundary, before, content, terminator, after, part, reaches, shape⟩ := userLineForByte_ok indexed selected
  obtain ⟨line, start, stop⟩ := bounds
  obtain ⟨-, rfl, rfl⟩ := (LineBounds.mk.injEq .. ▸ shape : _ ∧ _ ∧ _)
  have begun := reaches.begun
  dsimp only at ran
  split_ifs at ran with beyond
  · rw [Conversion.run_pure] at ran
    cases ran
  · obtain ⟨counted, between, scannedColumn, ran⟩ := Conversion.run_bind_eq_ok.mp ran
    rw [Conversion.run_pure, Prod.mk.injEq, Except.ok.injEq, Prod.mk.injEq, Option.some.injEq] at ran
    obtain ⟨⟨rfl, rfl⟩, -⟩ := ran
    obtain ⟨front, back, split, size⟩ := part.splits_content boundary begun (by omega)
    obtain rfl : offset = Utf8.size before + Utf8.size front := by omega
    exact ⟨line, before, content, terminator, after, front, back, part, rfl, split, rfl,
      part.scalarColumnBefore_ok split scannedColumn⟩

theorem byteToUserLineScalar_succeeds (indexed : converter.Indexed) {scanned : ℕ}
    (part : LineOf converter line before content terminator after) (split : content = front ++ back)
    (budget : converter.Sufficient scanned converter.text.length) :
    ∃ later, (converter.byteToUserLineScalar (Utf8.size before + Utf8.size front)).run scanned =
      (.ok (line.toNat + 1, some (front.length + 1)), later) := by
  obtain ⟨within, shorter⟩ := part.content_le
  have sized := indexed.sized
  have inner : Utf8.size front ≤ Utf8.size content ∧ front.length ≤ content.length := by
    rw [split, Utf8.size_append, List.length_append]
    omega
  have short := Utf8.length_le_size front
  have found := part.userLineForByte indexed (part.isCharBoundary split) (part.reaches_content split)
  have remaining : converter.Sufficient scanned front.length := by
    rw [Sufficient] at *
    omega
  obtain ⟨later, counted⟩ := part.scalarColumnBefore_succeeds split (by norm_num [u64Max]; omega) remaining
  refine ⟨later, ?_⟩
  rw [byteToUserLineScalar, Conversion.run_ofExcept_bind found]
  dsimp only
  rw [if_neg (by omega), Conversion.run_bind_of_ok counted]
  rfl

theorem userLineScalarToByte_ok (indexed : converter.Indexed) {number column scanned later offset : ℕ}
    (ran : (converter.userLineScalarToByte number column).run scanned = (.ok offset, later)) :
    ∃ line before content terminator after front back, LineOf converter line before content terminator after ∧
      number = line.toNat + 1 ∧ content = front ++ back ∧ offset = Utf8.size before + Utf8.size front ∧
      column = front.length + 1 := by
  rw [userLineScalarToByte] at ran
  split_ifs at ran with zero
  · rw [Conversion.run_throw] at ran
    cases ran
  obtain ⟨line, _, converted, ran⟩ := Conversion.run_bind_eq_ok.mp ran
  obtain ⟨small, rfl⟩ := Conversion.run_ofExcept_eq_ok.mp converted
  obtain ⟨bounds, _, lookup, ran⟩ := Conversion.run_bind_eq_ok.mp ran
  obtain ⟨mapped, rfl⟩ := Conversion.run_ofExcept_eq_ok.mp lookup
  have bounded : converter.lineBounds line = .ok bounds := by
    cases found : converter.lineBounds line with
    | error failure =>
      rw [found] at mapped
      cases mapped
    | ok result =>
      rw [found] at mapped
      exact congrArg Except.ok (Except.ok.inj mapped)
  obtain ⟨before, content, terminator, after, part, rfl⟩ := indexed.lineOf_bounds bounded
  obtain ⟨text, _, read, ran⟩ := Conversion.run_bind_eq_ok.mp ran
  obtain ⟨found, rfl⟩ := Conversion.run_ofExcept_eq_ok.mp read
  obtain rfl := Except.ok.inj (part.lineContent.symm.trans found)
  obtain ⟨relative, between, counted, ran⟩ := Conversion.run_bind_eq_ok.mp ran
  rw [Conversion.run_ofExcept_eq_ok, checkedSum_eq_ok] at ran
  obtain ⟨front, back, split, length, rfl⟩ := scalarUnitsToByteExact_ok counted
  have placed := toU32_eq_ok.mp small
  exact ⟨line, before, content, terminator, after, front, back, part, by omega, split, ran.1.2, by omega⟩

theorem userLineScalarToByte_succeeds (indexed : converter.Indexed) {scanned : ℕ}
    (part : LineOf converter line before content terminator after) (split : content = front ++ back)
    (budget : converter.Sufficient scanned converter.text.length) :
    ∃ later, (converter.userLineScalarToByte (line.toNat + 1) (front.length + 1)).run scanned =
      (.ok (Utf8.size before + Utf8.size front), later) := by
  obtain ⟨within, shorter⟩ := part.content_le
  have sized := indexed.sized
  have inner : Utf8.size front ≤ Utf8.size content ∧ front.length ≤ content.length := by
    rw [split, Utf8.size_append, List.length_append]
    omega
  have short := Utf8.length_le_size front
  have remaining : converter.Sufficient scanned front.length := by
    rw [Sufficient] at *
    omega
  obtain ⟨later, counted⟩ := scalarUnitsToByteExact_succeeds split remaining (by norm_num [u64Max]; omega)
  refine ⟨later, ?_⟩
  have number : toU32 (line.toNat + 1 - 1) .invalidUserPosition = .ok line := toU32_eq_ok.mpr rfl
  have bounded : (converter.lineBounds line).mapError (fun _ => PositionError.invalidUserPosition) = .ok
      ⟨line, Utf8.size before, Utf8.size before + Utf8.size content⟩ := by
    rw [part.bounds]
    rfl
  rw [userLineScalarToByte, if_neg (by omega), Conversion.run_ofExcept_bind number, Conversion.run_ofExcept_bind bounded,
    Conversion.run_ofExcept_bind part.lineContent, Nat.add_sub_cancel, Conversion.run_bind_of_ok counted]
  exact Conversion.run_ofExcept_eq_ok.mpr ⟨checkedSum_eq_ok.mpr ⟨by norm_num [u64Max]; omega, rfl⟩, rfl⟩

end PositionConverter

end Srcmv.Lsp
