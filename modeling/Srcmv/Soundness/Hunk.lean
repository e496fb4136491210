import Srcmv.Model.Cli.Diff
import Srcmv.Proofs.Cli.Lines

/-! # What a hunk says

The lines that two texts share at their beginnings, and then at their ends, are left out of a hunk.
What remains is written whole unless the writer is truncated, so that the hunk determines one text
from the other.
-/

namespace Srcmv.Cli

open Srcmv.Core Srcmv.Fs

namespace DiffWriter

variable {before after : List TextLine}

private theorem agreeingLines_spec (before after : List TextLine) :
    (before.take (agreeingLines before after)).map TextLine.full = (after.take (agreeingLines before after)).map TextLine.full ∧
      agreeingLines before after ≤ before.length ∧ agreeingLines before after ≤ after.length := by
  unfold agreeingLines
  induction before generalizing after with
  | nil => exact ⟨rfl, le_rfl, Nat.zero_le _⟩
  | cons left before ih =>
    cases after with
    | nil => exact ⟨rfl, Nat.zero_le _, le_rfl⟩
    | cons right after =>
      obtain ⟨same, within, within'⟩ := ih after
      rw [List.zip_cons_cons]
      by_cases agree : left.full = right.full
      · rw [List.takeWhile_cons_of_pos (by simpa using agree), List.length_cons, List.take_succ_cons, List.take_succ_cons,
          List.map_cons, List.map_cons, same, agree, List.length_cons, List.length_cons]
        exact ⟨rfl, Nat.succ_le_succ within, Nat.succ_le_succ within'⟩
      · rw [List.takeWhile_cons_of_neg (by simpa using agree)]
        exact ⟨rfl, Nat.zero_le _, Nat.zero_le _⟩

/-- The lines that agree from the end. -/
private theorem agreeingLines_reverse (before after : List TextLine) :
    (before.drop (before.length - agreeingLines before.reverse after.reverse)).map TextLine.full =
        (after.drop (after.length - agreeingLines before.reverse after.reverse)).map TextLine.full ∧
      agreeingLines before.reverse after.reverse ≤ before.length ∧
      agreeingLines before.reverse after.reverse ≤ after.length := by
  obtain ⟨same, within, within'⟩ := agreeingLines_spec before.reverse after.reverse
  rw [List.length_reverse] at within within'
  refine ⟨?_, within, within'⟩
  rw [List.take_reverse, List.take_reverse, List.map_reverse, List.map_reverse] at same
  exact List.reverse_injective same

/-- A list around its middle. -/
private theorem take_middle_drop {α : Type} (lines : List α) {front stop : ℕ} (ordered : front ≤ stop) :
    lines = lines.take front ++ (lines.take stop).drop front ++ lines.drop stop := by
  have start : lines.take front = (lines.take stop).take front := by rw [List.take_take, Nat.min_eq_left ordered]
  rw [start, List.take_append_drop, List.take_append_drop]

/-! ## Writing -/

private theorem saturatingAdd_assoc (first second third : ℕ) :
    saturatingAdd (saturatingAdd first second) third = saturatingAdd first (second + third) := by
  simp only [saturatingAdd]
  omega

private theorem saturatingAdd_mono (first : ℕ) {second third : ℕ} (le : second ≤ third) :
    saturatingAdd first second ≤ saturatingAdd first third := by
  simp only [saturatingAdd]
  omega

/-- After work of some units a text fits the work and the output that are left to a writer. -/
structure Fits (writer : DiffWriter) (units : ℕ) (value : List Char) : Prop where
  untruncated : writer.truncation = none
  work : saturatingAdd writer.workUnits (units + Utf8.size value) ≤ diffWorkUnits
  output : saturatingAdd (Utf8.size writer.text) (Utf8.size value) ≤ writer.maximumOutputBytes
  encoded : saturatingAdd writer.encodedBytes (jsonStringContentBytes value) ≤ writer.maximumOutputBytes

variable {writer later : DiffWriter} {units : ℕ} {value : List Char}

private theorem charge_truncation : (writer.charge units).truncation = none ↔
    writer.truncation = none ∧ saturatingAdd writer.workUnits units ≤ diffWorkUnits := by
  rw [charge]
  dsimp only
  split_ifs with exhausted
  · simp [exhausted]
  · constructor
    · intro untruncated
      exact ⟨untruncated, not_lt.mp fun spent => exhausted ⟨spent, untruncated⟩⟩
    · exact And.left

private theorem Fits.charged (fits : writer.Fits 0 value) : (writer.charge (Utf8.size value)).truncation = none := by
  have work := fits.work
  rw [Nat.zero_add] at work
  exact charge_truncation.mpr ⟨fits.untruncated, work⟩

/-- Work that is charged first leaves as much room as work that is charged with a text. -/
private theorem fits_charge : (writer.charge units).Fits 0 value ↔ writer.Fits units value := by
  have work : saturatingAdd (writer.charge units).workUnits (0 + Utf8.size value) =
      saturatingAdd writer.workUnits (units + Utf8.size value) := by
    rw [Nat.zero_add]
    exact saturatingAdd_assoc ..
  constructor
  · intro fits
    exact ⟨(charge_truncation.mp fits.untruncated).1, work ▸ fits.work, fits.output, fits.encoded⟩
  · intro fits
    have less := saturatingAdd_mono writer.workUnits (Nat.le_add_right units (Utf8.size value))
    exact ⟨charge_truncation.mpr ⟨fits.untruncated, less.trans fits.work⟩, work ▸ fits.work, fits.output, fits.encoded⟩

/-- A writer after a text that fits. -/
private def appended (writer : DiffWriter) (value : List Char) : DiffWriter :=
  { writer.charge (Utf8.size value) with
    text := writer.text ++ value
    encodedBytes := writer.encodedBytes + jsonStringContentBytes value }

/-- A text is pushed if it fits, and truncates the writer if it does not. -/
private theorem push_splits (writer : DiffWriter) (value : List Char) :
    (writer.Fits 0 value ∧ writer.push value = (true, writer.appended value)) ∨
      ¬writer.Fits 0 value ∧ ∃ later, writer.push value = (false, later) ∧ later.truncation ≠ none := by
  rw [push]
  split_ifs with refused
  · refine .inr ⟨fun fits => ?_, _, rfl, Option.some_ne_none _⟩
    rcases refused with truncated | long | long
    · rw [fits.charged] at truncated
      cases truncated
    · exact not_le.mpr long fits.output
    · exact not_le.mpr long fits.encoded
  · simp only [not_or, not_lt, Option.not_isSome_iff_eq_none] at refused
    obtain ⟨untruncated, output, encoded⟩ := refused
    obtain ⟨untruncated, work⟩ := charge_truncation.mp untruncated
    exact .inl ⟨⟨untruncated, by rwa [Nat.zero_add], output, encoded⟩, rfl⟩

private theorem jsonStringContentBytes_append (front back : List Char) :
    jsonStringContentBytes (front ++ back) = jsonStringContentBytes front + jsonStringContentBytes back := by
  rw [jsonStringContentBytes, Utf8.encode_append, List.map_append, List.sum_append]
  rfl

/-- A text in two parts fits if the first part does and the second does after it. -/
private theorem fits_append {rest : List Char} (fits : writer.Fits 0 value) :
    (writer.appended value).Fits 0 rest ↔ writer.Fits 0 (value ++ rest) := by
  have work : saturatingAdd (writer.charge (Utf8.size value)).workUnits (0 + Utf8.size rest) =
      saturatingAdd writer.workUnits (0 + Utf8.size (value ++ rest)) := by
    rw [Nat.zero_add, Nat.zero_add, Utf8.size_append]
    exact saturatingAdd_assoc ..
  have output : saturatingAdd (Utf8.size (writer.text ++ value)) (Utf8.size rest) =
      saturatingAdd (Utf8.size writer.text) (Utf8.size (value ++ rest)) := by
    rw [saturatingAdd, saturatingAdd, Utf8.size_append, Utf8.size_append, Nat.add_assoc]
  have encoded : saturatingAdd (writer.encodedBytes + jsonStringContentBytes value) (jsonStringContentBytes rest) =
      saturatingAdd writer.encodedBytes (jsonStringContentBytes (value ++ rest)) := by
    rw [saturatingAdd, saturatingAdd, jsonStringContentBytes_append, Nat.add_assoc]
  constructor
  · intro later
    exact ⟨fits.untruncated, work ▸ later.work, output ▸ later.output, encoded ▸ later.encoded⟩
  · intro whole
    exact ⟨fits.charged, work ▸ whole.work, output ▸ whole.output, encoded ▸ whole.encoded⟩

private theorem Fits.front {rest : List Char} (fits : writer.Fits 0 (value ++ rest)) : writer.Fits 0 value := by
  obtain ⟨untruncated, work, output, encoded⟩ := fits
  rw [Utf8.size_append] at work output
  rw [jsonStringContentBytes_append] at encoded
  exact ⟨untruncated, (saturatingAdd_mono _ (by omega)).trans work, (saturatingAdd_mono _ (by omega)).trans output,
    (saturatingAdd_mono _ (by omega)).trans encoded⟩

/-- Texts that are pushed one after the other are all written if they fit together, and truncate the
writer if they do not. -/
private theorem pushAll_spec (writer : DiffWriter) {values : List (List Char)} (nonempty : values ≠ []) :
    ∃ later, writer.pushAll values = (later.truncation.isNone, later) ∧
      (later.truncation = none ↔ writer.Fits 0 values.flatten) ∧
      (later.truncation = none → later.text = writer.text ++ values.flatten) := by
  induction values generalizing writer with
  | nil => exact absurd rfl nonempty
  | cons value rest ih =>
    rw [List.flatten_cons, pushAll]
    rcases push_splits writer value with ⟨fits, pushed⟩ | ⟨long, later, refused, truncated⟩
    · rw [pushed]
      dsimp only
      cases rest with
      | nil =>
        have untruncated : (writer.appended value).truncation = none := fits.charged
        rw [pushAll, List.flatten_nil, List.append_nil]
        exact ⟨_, by rw [untruncated]; rfl, ⟨fun _ => fits, fun _ => untruncated⟩, fun _ => rfl⟩
      | cons next rest =>
        obtain ⟨later, ran, whole, text⟩ := ih (writer.appended value) (List.cons_ne_nil _ _)
        refine ⟨later, ran, whole.trans (fits_append fits), fun untruncated => ?_⟩
        rw [text untruncated, appended, List.append_assoc]
    · rw [refused]
      refine ⟨later, ?_, ⟨fun whole => absurd whole truncated, fun fits => absurd fits.front long⟩, fun whole => absurd whole truncated⟩
      rw [Option.isNone_eq_false_iff.mpr (Option.isSome_iff_ne_none.mpr truncated)]

private theorem textLines_eq {bytes : Bytes} (text : (Utf8.decode bytes).isSome) : textLines bytes = .ok (cutLines [] bytes) := by
  have cut : textLinesFrom bytes bytes 0 0 = cutLines [] bytes :=
    textLinesFrom_eq (List.drop_zero.trans (List.nil_append _).symm) rfl
  rw [textLines, if_neg (by rw [Option.isNone_iff_eq_none]; exact Option.isSome_iff_ne_none.mp text), cut]

private theorem flatten_full (bytes : Bytes) : ((cutLines [] bytes).map TextLine.full).flatten = bytes := cutLines_flatten [] bytes

end DiffWriter

open DiffWriter

/-- The text of a hunk. -/
def hunkText (path : String) (line : ℕ) (removed added : List TextLine) : List Char :=
  beforeHeader path ++ afterHeader path ++ hunkHeader line removed.length added.length ++
    (removed.map (lineText '-')).flatten ++ (added.map (lineText '+')).flatten

/-- The texts of a hunk, in the order in which they are pushed. -/
private def hunkParts (path : String) (line : ℕ) (removed added : List TextLine) : List (List Char) :=
  [beforeHeader path, afterHeader path, hunkHeader line removed.length added.length] ++ removed.map (lineText '-') ++
    added.map (lineText '+')

private theorem hunkParts_ne_nil (path : String) (line : ℕ) (removed added : List TextLine) :
    hunkParts path line removed added ≠ [] := List.cons_ne_nil _ _

private theorem flatten_hunkParts (path : String) (line : ℕ) (removed added : List TextLine) :
    (hunkParts path line removed added).flatten = hunkText path line removed added := by
  rw [hunkParts, hunkText]
  simp only [List.flatten_append, List.flatten_cons, List.flatten_nil, List.append_nil, List.append_assoc]

/-- The removed lines at the position of a hunk, between lines that stay as they are, make up the text
before, and the added lines in their place make up the text after. -/
structure Describes (before after : Bytes) (front : List Bytes) (removed added : List TextLine) (back : List Bytes) : Prop where
  beforeLines : ∃ lines, textLines before = .ok lines ∧ lines.map TextLine.full = front ++ removed.map TextLine.full ++ back ∧
    removed = (lines.drop front.length).take removed.length
  afterLines : ∃ lines, textLines after = .ok lines ∧ lines.map TextLine.full = front ++ added.map TextLine.full ++ back ∧
    added = (lines.drop front.length).take added.length
  before : before = (front ++ removed.map TextLine.full ++ back).flatten
  after : after = (front ++ added.map TextLine.full ++ back).flatten

/-- Lines put in the place of as many others. -/
def replaceLines (bytes : Bytes) (position count : ℕ) (added : List TextLine) : Except FsError Bytes := do
  let lines ← textLines bytes
  return ((lines.take position ++ added ++ lines.drop (position + count)).map TextLine.full).flatten

theorem Describes.replaceLines {before after : Bytes} {front back : List Bytes} {removed added : List TextLine}
    (describes : Describes before after front removed added back) :
    replaceLines before front.length removed.length added = .ok after := by
  obtain ⟨lines, read, full, -⟩ := describes.beforeLines
  have start : (lines.take front.length).map TextLine.full = front := by
    rw [List.map_take, full, List.append_assoc, List.take_left]
  have rest : (lines.drop (front.length + removed.length)).map TextLine.full = back := by
    have length : front.length + removed.length = (front ++ removed.map TextLine.full).length := by
      rw [List.length_append, List.length_map]
    rw [List.map_drop, full, length, List.drop_left]
  rw [Cli.replaceLines, read, Except.ok_bind, List.map_append, List.map_append, start, rest, ← describes.after]
  rfl

private theorem describes_middle {before after : Bytes} (beforeText : (Utf8.decode before).isSome)
    (afterText : (Utf8.decode after).isSome) :
    let beforeLines := cutLines [] before
    let afterLines := cutLines [] after
    let front := agreeingLines beforeLines afterLines
    let back := agreeingLines (beforeLines.drop front).reverse (afterLines.drop front).reverse
    ∃ fronts removed added backs, (beforeLines.take (beforeLines.length - back)).drop front = removed ∧
      (afterLines.take (afterLines.length - back)).drop front = added ∧ fronts.length = front ∧
      removed.length = beforeLines.length - back - front ∧ added.length = afterLines.length - back - front ∧
      Describes before after fronts removed added backs := by
  intro beforeLines afterLines front back
  obtain ⟨sameFront, within, within'⟩ := agreeingLines_spec beforeLines afterLines
  obtain ⟨sameBack, rest, rest'⟩ := agreeingLines_reverse (beforeLines.drop front) (afterLines.drop front)
  rw [List.length_drop] at rest rest'
  have backEnd : (beforeLines.drop (beforeLines.length - back)).map TextLine.full =
      (afterLines.drop (afterLines.length - back)).map TextLine.full := by
    rw [List.drop_drop, List.drop_drop, List.length_drop, List.length_drop] at sameBack
    have stop : front + (beforeLines.length - front - back) = beforeLines.length - back := by omega
    have stop' : front + (afterLines.length - front - back) = afterLines.length - back := by omega
    rw [← stop, ← stop']
    exact sameBack
  have shape := take_middle_drop beforeLines (show front ≤ beforeLines.length - back by omega)
  have shape' := take_middle_drop afterLines (show front ≤ afterLines.length - back by omega)
  have size : ((beforeLines.take (beforeLines.length - back)).drop front).length = beforeLines.length - back - front := by
    rw [List.length_drop, List.length_take]
    omega
  have size' : ((afterLines.take (afterLines.length - back)).drop front).length = afterLines.length - back - front := by
    rw [List.length_drop, List.length_take]
    omega
  have fronts : ((beforeLines.take front).map TextLine.full).length = front := by
    rw [List.length_map, List.length_take]
    omega
  have full : beforeLines.map TextLine.full = (beforeLines.take front).map TextLine.full ++
      ((beforeLines.take (beforeLines.length - back)).drop front).map TextLine.full ++
      (beforeLines.drop (beforeLines.length - back)).map TextLine.full := by
    rw [← List.map_append, ← List.map_append, ← shape]
  have full' : afterLines.map TextLine.full = (beforeLines.take front).map TextLine.full ++
      ((afterLines.take (afterLines.length - back)).drop front).map TextLine.full ++
      (beforeLines.drop (beforeLines.length - back)).map TextLine.full := by
    rw [backEnd, show (beforeLines.take front).map TextLine.full = (afterLines.take front).map TextLine.full from sameFront,
      ← List.map_append, ← List.map_append, ← shape']
  refine ⟨_, _, _, (beforeLines.drop (beforeLines.length - back)).map TextLine.full, rfl, rfl, fronts, size, size', ?_⟩
  constructor
  · refine ⟨beforeLines, textLines_eq beforeText, full, ?_⟩
    rw [size, fronts, List.drop_take]
  · refine ⟨afterLines, textLines_eq afterText, full', ?_⟩
    rw [size', fronts, List.drop_take]
  · rw [← full, flatten_full]
  · rw [← full', flatten_full]

/-- Two texts are always diffed. The hunk describes their change, and it is written whole if and only if
it fits the writer, which is truncated otherwise. -/
theorem writeOutput_describes (writer : DiffWriter) (path : String) {before after : Bytes}
    (beforeText : (Utf8.decode before).isSome) (afterText : (Utf8.decode after).isSome) :
    ∃ front removed added back later, Describes before after front removed added back ∧
      replaceLines before front.length removed.length added = .ok after ∧
      writer.writeOutput path before after = .ok (later.truncation.isNone, later) ∧
      (later.truncation = none ↔
        writer.Fits (saturatingAdd before.length after.length) (hunkText path (front.length + 1) removed added)) ∧
      (later.truncation = none → later.text = writer.text ++ hunkText path (front.length + 1) removed added) := by
  obtain ⟨front, removed, added, back, minus, plus, position, size, size', describes⟩ := describes_middle beforeText afterText
  rw [writeOutput]
  dsimp only
  by_cases truncated : (writer.charge (saturatingAdd before.length after.length)).truncation.isSome
  · rw [if_pos truncated]
    have cut := Option.isSome_iff_ne_none.mp truncated
    refine ⟨front, removed, added, back, _, describes, describes.replaceLines, ?_, ?_, fun whole => absurd whole cut⟩
    · rw [Option.isNone_eq_false_iff.mpr truncated]
      rfl
    · exact ⟨fun whole => absurd whole cut, fun fits => absurd (fits_charge.mpr fits).untruncated cut⟩
  · rw [if_neg truncated, textLines_eq beforeText, Except.ok_bind, textLines_eq afterText, Except.ok_bind]
    rw [minus, plus, ← size, ← size', ← position]
    obtain ⟨later, pushed, whole, text⟩ := pushAll_spec (writer.charge (saturatingAdd before.length after.length))
      (hunkParts_ne_nil path (front.length + 1) removed added)
    rw [flatten_hunkParts] at whole text
    exact ⟨front, removed, added, back, later, describes, describes.replaceLines, congrArg Except.ok pushed,
      whole.trans fits_charge, text⟩

/-- One line of two is replaced by two. -/
theorem writeOutput_describes_letters : ∃ front removed added back later,
    Describes (utf8Bytes "x\ny\n") (utf8Bytes "x\nz\r\nw") front removed added back ∧
      replaceLines (utf8Bytes "x\ny\n") front.length removed.length added = .ok (utf8Bytes "x\nz\r\nw") ∧
      ({} : DiffWriter).writeOutput "a" (utf8Bytes "x\ny\n") (utf8Bytes "x\nz\r\nw") = .ok (true, later) ∧
      later.text = hunkText "a" (front.length + 1) removed added ∧
      later.text = "--- a (before)\n+++ a (after)\n@@ -2,1 +2,2 @@\n-y [LF]\n+z [CRLF]\n+w [NONE]\n".toList := by
  obtain ⟨front, removed, added, back, later, describes, replaced, wrote, -, text⟩ := @writeOutput_describes {} "a"
    (utf8Bytes "x\ny\n") (utf8Bytes "x\nz\r\nw")
    (by rw [utf8Bytes, ← Utf8.encode, Utf8.decode_encode]; rfl) (by rw [utf8Bytes, ← Utf8.encode, Utf8.decode_encode]; rfl)
  have evaluated : (({} : DiffWriter).writeOutput "a" (utf8Bytes "x\ny\n") (utf8Bytes "x\nz\r\nw")).toOption.map
      (fun result => (result.1, result.2.text)) =
      some (true, "--- a (before)\n+++ a (after)\n@@ -2,1 +2,2 @@\n-y [LF]\n+z [CRLF]\n+w [NONE]\n".toList) := by decide +kernel
  rw [wrote, Except.toOption, Option.map_some, Option.some.injEq] at evaluated
  obtain ⟨whole, written⟩ := Prod.mk.inj evaluated
  exact ⟨front, removed, added, back, later, describes, replaced, whole ▸ wrote, text (Option.isNone_iff_eq_none.mp whole), written⟩

end Srcmv.Cli
