import Srcmv.Model.Cli.Responses
import Srcmv.Soundness.PlanRecord
import Srcmv.ToMathlib.CompactJson

/-! # The budget of a diff

A preview with a summary reserves its response without the text of the diff and gives the rest to the
text, which the writer measures as it will stand in the response. What is reserved holds the longest
warning and the longest summary, so the response fits whatever the diff turns out to be.
-/

namespace Srcmv.Cli

open Srcmv.Core Srcmv.Fs Srcmv.Protocol CompactJson

section Escapes

private theorem jsonByteBytes_ascii : ∀ code < 128,
    jsonByteBytes (UInt8.ofNat code) = ((Json.escape (Char.ofNat code)).flatMap String.utf8EncodeChar).length := by
  decide

private theorem jsonByteBytes_high {byte : UInt8} (high : 128 ≤ byte.toNat) : jsonByteBytes byte = 1 := by
  have apart : ∀ code : UInt8, code.toNat < 128 → byte ≠ code := by
    rintro code low rfl
    omega
  have unlisted : byte ∉ [34, 92, 10, 13, 9, 8, 12] := by
    simp only [List.mem_cons, List.not_mem_nil, or_false, not_or]
    exact ⟨apart _ (by decide), apart _ (by decide), apart _ (by decide), apart _ (by decide), apart _ (by decide),
      apart _ (by decide), apart _ (by decide)⟩
  have printable : ¬byte ≤ 0x1f := by
    rw [UInt8.le_iff_toNat_le]
    exact not_le.mpr (lt_of_lt_of_le (by decide) high)
  rw [jsonByteBytes, if_neg unlisted, if_neg printable]

/-- The table of escape lengths agrees with the escapes, character by character. -/
private theorem jsonByteBytes_char (char : Char) :
    ((String.utf8EncodeChar char).map jsonByteBytes).sum = ((Json.escape char).flatMap String.utf8EncodeChar).length := by
  rcases Utf8.encodeChar_cases char with ⟨single, ascii⟩ | high
  · have byte : char.val.toUInt8 = UInt8.ofNat char.toNat := rfl
    have table := jsonByteBytes_ascii char.toNat ascii
    rw [Char.ofNat_toNat] at table
    rw [single, List.map_singleton, List.sum_singleton, byte, table]
  · have wide : 128 ≤ char.toNat := by
      by_contra low
      have small : char.val.toNat < 128 := not_le.mp low
      have one : char.utf8Size = 1 := Char.utf8Size_eq_one_iff.mpr (UInt32.le_iff_toNat_le.mpr (Nat.le_of_lt_succ small))
      have byte := high char.val.toUInt8 (String.utf8EncodeChar_eq_singleton one ▸ List.mem_singleton_self _)
      rw [UInt32.toNat_toUInt8] at byte
      omega
    have ones : (String.utf8EncodeChar char).map jsonByteBytes = (String.utf8EncodeChar char).map fun _ => 1 :=
      List.map_congr_left fun byte member => jsonByteBytes_high (high byte member)
    rw [ones, List.map_const', List.sum_replicate, smul_eq_mul, mul_one, escape_high wide, List.flatMap_singleton]

theorem jsonStringContentBytes_eq (value : List Char) :
    jsonStringContentBytes value = escapedLength (String.ofList value) := by
  rw [jsonStringContentBytes, escapedLength, String.toList_ofList]
  induction value with
  | nil => rfl
  | cons char rest ih =>
    rw [Utf8.encode_cons, List.map_append, List.sum_append, ih, List.flatMap_cons, List.flatMap_append, List.length_append,
      jsonByteBytes_char]

end Escapes

section Writer

/-- The values that a writer takes. -/
inductive DiffWriter.Reached (maximum : ℕ) : DiffWriter → Prop where
  | start : Reached maximum (.withMaximumOutputBytes maximum)
  | charge {writer : DiffWriter} (units : ℕ) (before : Reached maximum writer) : Reached maximum (writer.charge units)
  | push {writer : DiffWriter} (value : List Char) (before : Reached maximum writer) : Reached maximum (writer.push value).2

namespace DiffWriter

variable {maximum : ℕ} {writer later : DiffWriter} {finished : Bool}

private theorem push_cases (writer : DiffWriter) (value : List Char) :
    (∃ truncation, (writer.push value).2 = { writer.charge (Utf8.size value) with truncation := some truncation }) ∨
      saturatingAdd writer.encodedBytes (jsonStringContentBytes value) ≤ writer.maximumOutputBytes ∧
      (writer.push value).2 = { writer.charge (Utf8.size value) with
        text := writer.text ++ value, encodedBytes := writer.encodedBytes + jsonStringContentBytes value } := by
  rw [push]
  dsimp only
  split_ifs with refused
  · exact .inl ⟨_, rfl⟩
  · simp only [not_or, not_lt] at refused
    exact .inr ⟨refused.2.2, rfl⟩

/-- The measure of a writer is the size of its text between the quotes of a JSON string. -/
theorem Reached.encodedBytes_eq (reached : Reached maximum writer) :
    writer.encodedBytes = escapedLength (String.ofList writer.text) := by
  induction reached with
  | start => rfl
  | charge units _ ih => exact ih
  | push value _ ih =>
    rename_i writer _
    obtain ⟨truncation, refused⟩ | ⟨-, pushed⟩ := push_cases writer value
    · rw [refused]
      exact ih
    · rw [pushed]
      dsimp only
      rw [ih, jsonStringContentBytes_eq, escapedLength, escapedLength, escapedLength]
      simp only [String.toList_ofList, List.flatMap_append, List.length_append]

theorem Reached.within (reached : Reached maximum writer) (bounded : maximum < u64Max) :
    writer.maximumOutputBytes = maximum ∧ writer.encodedBytes ≤ maximum := by
  induction reached with
  | start => exact ⟨rfl, Nat.zero_le _⟩
  | charge units _ ih => exact ih
  | push value _ ih =>
    rename_i writer _
    obtain ⟨truncation, refused⟩ | ⟨fits, pushed⟩ := push_cases writer value
    · rw [refused]
      exact ih
    · rw [pushed]
      refine ⟨ih.1, ?_⟩
      rw [ih.1, saturatingAdd] at fits
      dsimp only
      omega

theorem Reached.pushAll {values : List (List Char)} (reached : Reached maximum writer) :
    Reached maximum (writer.pushAll values).2 := by
  induction values generalizing writer with
  | nil => exact reached
  | cons value rest ih =>
    have one := reached.push value
    rw [DiffWriter.pushAll]
    cases pushed : writer.push value with
    | mk whole next =>
      rw [pushed] at one
      cases whole with
      | true => exact ih one
      | false => exact one

theorem Reached.writeOutput {path : String} {before after : Bytes} (reached : Reached maximum writer)
    (written : writer.writeOutput path before after = .ok (finished, later)) : Reached maximum later := by
  have charged := reached.charge (saturatingAdd before.length after.length)
  rw [DiffWriter.writeOutput] at written
  dsimp only at written
  split_ifs at written
  · obtain ⟨-, rfl⟩ := Prod.mk.inj (Except.pure_eq_ok.mp written)
    exact charged
  · obtain ⟨beforeLines, -, written⟩ := Except.bind_eq_ok.mp written
    obtain ⟨afterLines, -, written⟩ := Except.bind_eq_ok.mp written
    have last : _ = later := congrArg Prod.snd (Except.pure_eq_ok.mp written)
    rw [← last]
    exact charged.pushAll

end DiffWriter

theorem writeOutputs_reached {snapshot : WorkspaceSnapshot} {files : SnapshotFileId → Option FileSnapshot} {maximum : ℕ}
    {writer later : DiffWriter} {outputs : List PlannedOutput} (reached : writer.Reached maximum)
    (written : writeOutputs snapshot files writer outputs = .ok later) : later.Reached maximum := by
  induction outputs generalizing writer with
  | nil =>
    rw [writeOutputs] at written
    exact Except.ok.inj written ▸ reached
  | cons output rest ih =>
    rw [writeOutputs] at written
    obtain ⟨after, -, written⟩ := Except.bind_eq_ok.mp written
    obtain ⟨⟨whole, next⟩, wrote, written⟩ := Except.bind_eq_ok.mp written
    have reaches := reached.writeOutput wrote
    cases whole with
    | true => exact ih reaches written
    | false => exact Except.ok.inj written ▸ reaches

end Writer

section Sizes

variable {toVec : Content → Bytes}

/-- The size of an optional warning among others. -/
private def warningsLength (toVec : Content → Bytes) (warnings : List WarningDto) : ℕ :=
  (toVec (.seq (warnings.map WarningDto.content))).length

private theorem warningsLength_concat (serializer : Content.Compact toVec) (warnings : List WarningDto) (warning : WarningDto) :
    warningsLength toVec (warnings ++ [warning]) = warningsLength toVec warnings + (if warnings = [] then 0 else 1) +
      (toVec warning.content).length := by
  rw [warningsLength, warningsLength, serializer.seq, serializer.seq, List.map_append, List.map_append, List.map_singleton,
    List.map_singleton, length_array_concat]
  cases warnings with
  | nil => rfl
  | cons first rest => rfl

/-- The size of a reason is all that tells the warnings of a truncated diff apart. -/
private theorem diffTruncatedWarning_length (serializer : Content.Compact toVec) : ∃ envelope, ∀ reason,
    (toVec (diffTruncatedWarning reason).content).length = envelope + escapedLength reason := by
  refine ⟨(toVec (diffTruncatedWarning "").content).length, fun reason => ?_⟩
  have none_ : escapedLength "" = 0 := rfl
  simp only [diffTruncatedWarning, WarningDto.content, serializer.length_map, serializer.length_string, List.map_cons,
    List.map_nil, List.sum_cons, List.sum_nil, List.length_cons, List.length_nil, none_]
  omega

private theorem insertMember_truncation (review : Content) (reason : String) :
    mergeReviewSummary (some (truncationSummary reason)) (some review) =
      .ok (some (.map [("maximum_diff_bytes", naturalContent diffOutputBytes),
        ("maximum_work_units", naturalContent diffWorkUnits), ("reason", .string reason), ("review", review)])) := by
  have first : ¬"review" < "maximum_diff_bytes" := by decide
  have second : ¬"review" < "maximum_work_units" := by decide
  have third : ¬"review" < "reason" := by decide
  simp [mergeReviewSummary, truncationSummary, insertMember, first, second, third]

/-- The size of a summary with a review, which is longer with the reason of a truncation. -/
private theorem summaries_length (serializer : Content.Compact toVec) (review : Content) : ∃ envelope, ∀ reason summary,
    mergeReviewSummary (some (truncationSummary reason)) (some review) = .ok (some summary) →
      (toVec summary).length = envelope + escapedLength reason ∧
        (toVec (reviewOnlySummaryValue review)).length + 5 ≤ envelope := by
  refine ⟨(toVec (.map [("maximum_diff_bytes", naturalContent diffOutputBytes),
    ("maximum_work_units", naturalContent diffWorkUnits), ("reason", .string ""), ("review", review)])).length, ?_⟩
  intro reason summary merged
  rw [insertMember_truncation] at merged
  obtain rfl := Option.some.inj (Except.ok.inj merged)
  have none_ : escapedLength "" = 0 := rfl
  have names : namesLength ["maximum_diff_bytes", "maximum_work_units", "reason", "review"] =
      namesLength ["maximum_diff_bytes", "maximum_work_units", "reason"] + namesLength ["review"] := rfl
  have long : 5 ≤ namesLength ["maximum_diff_bytes", "maximum_work_units", "reason"] := by decide
  constructor
  · simp only [serializer.length_map, serializer.length_string, List.map_cons, List.map_nil, List.sum_cons, List.sum_nil,
      List.length_cons, List.length_nil, none_]
    omega
  · simp only [reviewOnlySummaryValue, insertMember, serializer.length_map, serializer.length_string, List.map_cons,
      List.map_nil, List.sum_cons, List.sum_nil, List.length_cons, List.length_nil, names]
    omega

variable {context : ResponseBudgetContext}

/-- The size of the line of a preview, apart from its diff and its warnings. -/
private theorem previewLine_length (serializer : Content.Compact toVec) (context : ResponseBudgetContext) : ∃ envelope,
    ∀ diff warnings, (toJsonLine toVec (context.response diff warnings).content).length =
      envelope + (toVec diff.content).length + warningsLength toVec warnings := by
  refine ⟨(toJsonLine toVec (context.response .omitted []).content).length - (toVec DiffResponse.omitted.content).length -
    warningsLength toVec [], fun diff warnings => ?_⟩
  simp only [toJsonLine, PreviewResponse.content, ResponseBudgetContext.response, PreviewResponse.create, warningsLength,
    List.length_append, serializer.length_map, List.map_cons, List.map_nil, List.sum_cons, List.sum_nil, List.length_cons,
    List.length_nil]
  omega

private theorem diffContent_length (serializer : Content.Compact toVec) : ∃ envelope, ∀ text summary,
    (toVec (DiffResponse.ofText (some text) (some summary)).content).length =
      envelope + escapedLength text + (toVec summary).length ∧
    (toVec (DiffResponse.omittedWithSummary summary).content).length ≤ envelope + (toVec summary).length + 5 := by
  refine ⟨(toVec (DiffResponse.ofText (some "") (some .null)).content).length - (toVec .null).length, fun text summary => ?_⟩
  have none_ : escapedLength "" = 0 := rfl
  have kinds : escapedLength "omitted" = escapedLength "text" + 3 := by decide
  have null : (toVec .null).length = 4 := by rw [serializer.null]; rfl
  constructor
  · simp only [DiffResponse.content, DiffResponse.ofText, optionContent, Option.elim_some, Option.getD_some, serializer.length_map,
      serializer.length_string, List.map_cons, List.map_nil, List.sum_cons, List.sum_nil, List.length_cons, List.length_nil, none_]
    omega
  · simp only [DiffResponse.content, DiffResponse.ofText, DiffResponse.omittedWithSummary, optionContent, Option.elim_some,
      Option.elim_none, Option.getD_some, serializer.length_map, serializer.length_string, List.map_cons, List.map_nil,
      List.sum_cons, List.sum_nil, List.length_cons, List.length_nil, none_, kinds, null]
    omega

/-- The diffs that a preview of text outputs may carry: without a warning they are no longer than the
empty text with the review, and a truncated one has the longer summary. -/
private theorem reserved_suffices (serializer : Content.Compact toVec) {review : Content} {budget : ℕ}
    (reserved : responseAwareDiffBudget toVec context review = .ok budget) :
    (toJsonLine toVec (context.response (.omittedWithSummary (reviewOnlySummaryValue review)) context.warnings).content).length ≤
        maxResponseBytes ∧
      budget ≤ diffOutputBytes ∧
      ∀ text, escapedLength text ≤ budget →
        (toJsonLine toVec (context.response (.ofText (some text) (some (reviewOnlySummaryValue review)))
          context.warnings).content).length ≤ maxResponseBytes ∧
        ∀ reason summary, escapedLength reason ≤ escapedLength "response_budget" →
          mergeReviewSummary (some (truncationSummary reason)) (some review) = .ok (some summary) →
          (toJsonLine toVec (context.response (.ofText (some text) (some summary))
            (context.warnings ++ [diffTruncatedWarning reason])).content).length ≤ maxResponseBytes := by
  obtain ⟨lineSize, lines⟩ := previewLine_length serializer context
  obtain ⟨diffSize, diffs⟩ := diffContent_length serializer
  obtain ⟨summarySize, summaries⟩ := summaries_length serializer review
  obtain ⟨warningSize, warnings⟩ := diffTruncatedWarning_length serializer
  have none_ : escapedLength "" = 0 := rfl
  rw [responseAwareDiffBudget, insertMember_truncation, Except.ok_bind] at reserved
  dsimp only at reserved
  split_ifs at reserved with exceeds
  obtain ⟨longest, shortest⟩ := summaries _ _ (insertMember_truncation review "response_budget")
  rw [lines, (diffs _ _).1, longest, warningsLength_concat serializer, warnings, none_] at reserved exceeds
  have whole := Except.ok.inj reserved
  refine ⟨?_, by omega, ?_⟩
  · have omitted := (diffs "" (reviewOnlySummaryValue review)).2
    rw [lines]
    omega
  · intro text fits
    constructor
    · rw [lines, (diffs _ _).1]
      omega
    · intro reason summary short merged
      obtain ⟨long, -⟩ := summaries _ _ merged
      rw [lines, (diffs _ _).1, long, warningsLength_concat serializer, warnings]
      omega

end Sizes

section Previews

variable {toVec : Content → Bytes} {snapshot : WorkspaceSnapshot} {plan : EditPlan} {hash : Sha256Digest}
  {warnings : List WarningDto} {noDiff : Bool}

private theorem textDiff_shape {files : SnapshotFileId → Option FileSnapshot} {changed : List PlannedOutput}
    {review : Content} {budget : ℕ} {diff : BuiltDiff} (bounded : budget ≤ diffOutputBytes)
    (built : textDiff snapshot files changed (some review) budget = .ok diff) :
    ∃ text, escapedLength text ≤ budget ∧
      (diff = ⟨.ofText (some text) (some (reviewOnlySummaryValue review)), none⟩ ∨
        ∃ reason summary, escapedLength reason ≤ escapedLength "response_budget" ∧
          mergeReviewSummary (some (truncationSummary reason)) (some review) = .ok (some summary) ∧
          diff = ⟨.ofText (some text) (some summary), some (diffTruncatedWarning reason)⟩) := by
  rw [textDiff] at built
  obtain ⟨writer, written, built⟩ := Except.bind_eq_ok.mp built
  have reached := writeOutputs_reached .start written
  have small : budget < u64Max := lt_of_le_of_lt bounded (by decide)
  have within := (reached.within small).2
  rw [reached.encodedBytes_eq] at within
  refine ⟨_, within, ?_⟩
  cases truncation : writer.truncation with
  | none =>
    rw [truncation] at built
    exact .inl (Except.ok.inj built).symm
  | some cause =>
    rw [truncation] at built
    obtain ⟨summary, merged, built⟩ := Except.bind_eq_ok.mp built
    have merged' := merged
    rw [Option.map_some, Option.map_some, insertMember_truncation] at merged'
    obtain rfl := Except.ok.inj merged'
    refine .inr ⟨_, _, ?_, insertMember_truncation review _, (Except.ok.inj built).symm⟩
    rw [diffTruncationReason]
    split_ifs
    · exact le_rfl
    · decide +kernel

private theorem buildDiff_shape {files : SnapshotFileId → Option FileSnapshot} {context : ResponseBudgetContext}
    {review : Content} {budget : ℕ} {diff : BuiltDiff}
    (short : detailedInputLimited snapshot (changedOutputs plan) = false)
    (text : anyBinary snapshot files (changedOutputs plan) = .ok false)
    (reserved : responseAwareDiffBudget toVec context review = .ok budget)
    (built : buildDiff toVec snapshot plan files noDiff (some review) (some context) = .ok diff) :
    diff = ⟨.omittedWithSummary (reviewOnlySummaryValue review), none⟩ ∨
      diff = ⟨.ofText (some "") (some (reviewOnlySummaryValue review)), none⟩ ∨
      textDiff snapshot files (changedOutputs plan) (some review) budget = .ok diff := by
  rw [buildDiff] at built
  split_ifs at built with omitted
  · exact .inl (Except.ok.inj built).symm
  · dsimp only at built
    split_ifs at built with unchanged limited
    · exact .inr (.inl (Except.ok.inj built).symm)
    · rw [short] at limited
      cases limited
    · rw [text, Except.ok_bind, if_neg Bool.false_ne_true] at built
      rw [reserved, Except.ok_bind] at built
      exact .inr (.inr built)

private theorem previewResponse_fits (serializer : Content.Compact toVec) {review : ReviewSummaryResponse} {budget : ℕ}
    {response : PreviewResponse} (reviewed : buildReviewSummary snapshot plan (filesById snapshot) = .ok review)
    (short : detailedInputLimited snapshot (changedOutputs plan) = false)
    (text : anyBinary snapshot (filesById snapshot) (changedOutputs plan) = .ok false)
    (reserved : responseAwareDiffBudget toVec (previewContext snapshot plan hash warnings) review.toValue = .ok budget)
    (previewed : previewResponse toVec snapshot plan hash noDiff true warnings = .ok response) :
    (toJsonLine toVec response.content).length ≤ maxResponseBytes := by
  obtain ⟨omitted, bounded, texts⟩ := reserved_suffices serializer reserved
  rw [previewResponse, if_pos rfl, reviewed] at previewed
  obtain ⟨_, summarized, previewed⟩ := Except.bind_eq_ok.mp previewed
  obtain rfl := Except.ok.inj summarized
  obtain ⟨diff, built, previewed⟩ := Except.bind_eq_ok.mp previewed
  obtain rfl := Except.pure_eq_ok.mp previewed
  obtain rfl | rfl | built := buildDiff_shape short text reserved built
  · rw [Option.toList_none, List.append_nil]
    exact omitted
  · rw [Option.toList_none, List.append_nil]
    exact (texts "" (Nat.zero_le _)).1
  · obtain ⟨written, within, rfl | ⟨reason, summary, brief, merged, rfl⟩⟩ := textDiff_shape bounded built
    · rw [Option.toList_none, List.append_nil]
      exact (texts written within).1
    · exact (texts written within).2 reason summary brief merged

/-- A preview of text outputs whose diff budget was granted fits its response limit, whatever becomes of the
diff; the measure of a writer is the size of its text in the response. -/
theorem diff_budget_sufficient (toVec : Content → Bytes) (serializer : Content.Compact toVec) :
    (∀ (snapshot : WorkspaceSnapshot) (plan : EditPlan) (hash : Sha256Digest) (noDiff : Bool) (warnings : List WarningDto)
        (review : ReviewSummaryResponse) (budget : ℕ) (response : PreviewResponse),
      buildReviewSummary snapshot plan (filesById snapshot) = .ok review →
      detailedInputLimited snapshot (changedOutputs plan) = false →
      anyBinary snapshot (filesById snapshot) (changedOutputs plan) = .ok false →
      responseAwareDiffBudget toVec (previewContext snapshot plan hash warnings) review.toValue = .ok budget →
      previewResponse toVec snapshot plan hash noDiff true warnings = .ok response →
      (toJsonLine toVec response.content).length ≤ maxResponseBytes ∧
        buildPreview toVec snapshot plan hash noDiff true warnings = .ok response) ∧
    (∀ maximum (writer : DiffWriter), writer.Reached maximum →
      (toVec (.string (String.ofList writer.text))).length = writer.encodedBytes + 2) ∧
    ∀ (snapshot : WorkspaceSnapshot) (files : SnapshotFileId → Option FileSnapshot) maximum (writer : DiffWriter) outputs,
      writeOutputs snapshot files (.withMaximumOutputBytes maximum) outputs = .ok writer → writer.Reached maximum := by
  refine ⟨?_, ?_, fun _ _ _ _ _ written => writeOutputs_reached .start written⟩
  · intro snapshot plan hash noDiff warnings review budget response reviewed short text reserved previewed
    have fits := previewResponse_fits serializer reviewed short text reserved previewed
    refine ⟨fits, ?_⟩
    rw [buildPreview, previewed, Except.ok_bind, if_pos rfl, enforceCompleteSummaryResponse]
    dsimp only
    rw [if_neg (not_lt.mpr fits)]
    rfl
  · intro maximum writer reached
    rw [serializer.length_string, reached.encodedBytes_eq]

end Previews

section Example

/-- The review of the plan of one letter. -/
def recordedReview : ReviewSummaryResponse := .v1 recordedPlan.digest [⟨0, 1, 1⟩] [⟨0, none, 1, [⟨0, [0]⟩]⟩]

private theorem recorded_reserved : responseAwareDiffBudget Content.compact
    (previewContext recordedSnapshot recordedPlan zeroDigest []) recordedReview.toValue = .ok diffOutputBytes := by
  decide +kernel

private theorem recorded_built : ∃ diff, buildDiff Content.compact recordedSnapshot recordedPlan (filesById recordedSnapshot)
    false (some recordedReview.toValue) (some (previewContext recordedSnapshot recordedPlan zeroDigest [])) = .ok diff := by
  have changed : ¬changedOutputs recordedPlan = [] := by decide
  have short : ¬detailedInputLimited recordedSnapshot (changedOutputs recordedPlan) = true := by decide +kernel
  have text : anyBinary recordedSnapshot (filesById recordedSnapshot) (changedOutputs recordedPlan) = .ok false := by
    decide
  rw [buildDiff, if_neg Bool.false_ne_true]
  dsimp only
  rw [if_neg changed, if_neg short, text, Except.ok_bind, if_neg Bool.false_ne_true, recorded_reserved, Except.ok_bind]
  cases built : textDiff recordedSnapshot (filesById recordedSnapshot) (changedOutputs recordedPlan) (some recordedReview.toValue)
      diffOutputBytes with
  | ok diff => exact ⟨diff, rfl⟩
  | error failure =>
    have accepted : (textDiff recordedSnapshot (filesById recordedSnapshot) (changedOutputs recordedPlan)
      (some recordedReview.toValue) diffOutputBytes).isOk = true := by decide
    rw [built] at accepted
    cases accepted

/-- A new file of one letter is previewed with the whole budget for its diff. -/
theorem diff_budget_sufficient_example : ∃ response,
    buildPreview Content.compact recordedSnapshot recordedPlan zeroDigest false true [] = .ok response ∧
      (toJsonLine Content.compact response.content).length ≤ maxResponseBytes := by
  have reviewed : buildReviewSummary recordedSnapshot recordedPlan (filesById recordedSnapshot) = .ok recordedReview := by
    decide
  obtain ⟨diff, built⟩ := recorded_built
  obtain ⟨fits, accepted⟩ := (diff_budget_sufficient Content.compact Content.compact_compact).1 recordedSnapshot recordedPlan
    zeroDigest false [] recordedReview diffOutputBytes _ reviewed (by decide) (by decide) recorded_reserved (by
      rw [previewResponse, if_pos rfl, reviewed]
      exact Except.bind_eq_ok.mpr ⟨_, rfl, Except.bind_eq_ok.mpr ⟨diff, built, rfl⟩⟩)
  exact ⟨_, accepted, fits⟩

end Example

end Srcmv.Cli
