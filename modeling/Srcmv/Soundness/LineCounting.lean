import Srcmv.Model.Cli.Preview
import Srcmv.Proofs.Core.Metrics
import Srcmv.Proofs.Core.PlannedOutputs
import Srcmv.Soundness.PlanRecord

/-! # Counting lines by segments

The review counts the lines of an output without materializing it. Each segment is summarized from
the index of its file, and the summaries are appended in order; whatever pair of CR and LF an edge
cuts or a seam joins, the sum is the summary of the concatenated bytes.
-/

namespace Srcmv.Core

/-- A range into a file whose line index was built from its bytes. -/
structure IndexedPart where
  bytes : Bytes
  index : LineIndex
  range : ByteRange

namespace IndexedPart

structure Valid (part : IndexedPart) : Prop where
  built : ∃ maximumLines maximumMemoryBytes,
    LineIndex.fromBytesWithLimits part.bytes maximumLines maximumMemoryBytes = .ok part.index
  ordered : part.range.start ≤ part.range.stop
  inside : part.range.stop ≤ part.bytes.length

def slice (part : IndexedPart) : Bytes := (part.bytes.drop part.range.start).take (part.range.stop - part.range.start)

/-- Summarize a part and append its summary. -/
def append (metrics : LineMetrics) (part : IndexedPart) : Except CoreError LineMetrics := do
  metrics.tryAppend (← part.index.metricsForRange part.bytes part.range)

private theorem append_eq {done : Bytes} {part : IndexedPart} (valid : part.Valid)
    (fits : (done ++ part.slice).length ≤ u64Max) : append (metricsOf done) part = .ok (metricsOf (done ++ part.slice)) := by
  obtain ⟨_, _, built⟩ := valid.built
  have sliced : slice? part.bytes part.range = some part.slice := slice?_of_le valid.ordered valid.inside
  have bounded : part.slice.length ≤ u64Max := by
    rw [List.length_append] at fits
    omega
  rw [append, LineIndex.metricsForRange_eq built sliced bounded, Except.ok_bind, LineMetrics.tryAppend_eq fits]

private theorem foldlM_append {parts : List IndexedPart} (valid : ∀ part ∈ parts, part.Valid) (done : Bytes)
    (fits : (done ++ parts.flatMap slice).length ≤ u64Max) :
    parts.foldlM append (metricsOf done) = .ok (metricsOf (done ++ parts.flatMap slice)) := by
  induction parts generalizing done with
  | nil => rw [List.flatMap_nil, List.append_nil]; rfl
  | cons part rest ih =>
    rw [List.flatMap_cons, ← List.append_assoc] at fits ⊢
    have bounded : (done ++ part.slice).length ≤ u64Max := by
      rw [List.length_append] at fits
      omega
    rw [List.foldlM_cons, append_eq (valid part List.mem_cons_self) bounded, Except.ok_bind]
    exact ih (fun other member => valid other (List.mem_cons_of_mem _ member)) _ fits

end IndexedPart

/-- A query that succeeds had a valid range. -/
private theorem LineIndex.metricsForRange_inside {index : LineIndex} {bytes : Bytes} {range : ByteRange}
    {metrics : LineMetrics} (summarized : index.metricsForRange bytes range = .ok metrics) :
    range.start ≤ range.stop ∧ range.stop ≤ bytes.length := by
  rw [metricsForRange] at summarized
  split_ifs at summarized <;> omega

/-- Summaries that append have a representable sum. -/
private theorem LineMetrics.tryAppend_fits {front back : Bytes} {metrics : LineMetrics} (frontFits : front.length ≤ u64Max)
    (backFits : back.length ≤ u64Max) (appended : (metricsOf front).tryAppend (metricsOf back) = .ok metrics) :
    (front ++ back).length ≤ u64Max := by
  rw [List.length_append]
  rw [tryAppend] at appended
  split_ifs at appended with noBack noFront
  · have none : back.length = 0 := noBack
    omega
  · have none : front.length = 0 := noFront
    omega
  · obtain ⟨_, added, -⟩ := Except.bind_eq_ok.mp appended
    rw [checkedLineAdd] at added
    split_ifs at added with fits
    exact fits

end Srcmv.Core

namespace Srcmv.Cli

open Srcmv.Core Srcmv.Fs

variable {snapshot : WorkspaceSnapshot} {plan : EditPlan} {output : PlannedOutput}

/-- What acquisition promises of the files in memory: each is indexed and has an identifier of its own. -/
structure Addressable (snapshot : WorkspaceSnapshot) : Prop where
  indexed : snapshot.Indexed
  distinct : snapshot.files.Pairwise fun left right => left.id ≠ right.id
  sized : ∀ file ∈ snapshot.files, file.bytes.length ≤ u64Max

theorem ofCore_eq_ok {α : Type} {result : Except CoreError α} {value : α} : ofCore result = .ok value ↔ result = .ok value := by
  cases result <;> simp [ofCore]

/-- With one file for each identifier, it does not matter which is found first. -/
private theorem find?_reverse {files : List FileSnapshot} (ids : (files.map FileSnapshot.id).Nodup) (fileId : SnapshotFileId) :
    (files.reverse.find? fun file => file.id = fileId) = files.find? fun file => file.id = fileId := by
  induction files with
  | nil => rfl
  | cons file rest ih =>
    rw [List.map_cons, List.nodup_cons] at ids
    rw [List.reverse_cons, List.find?_append, ih ids.2, List.find?_cons]
    by_cases named : file.id = fileId
    · have absent : (rest.find? fun other => other.id = fileId) = none := by
        rw [List.find?_eq_none]
        intro other member same
        exact ids.1 (List.mem_map.mpr ⟨other, member, (of_decide_eq_true same).trans named.symm⟩)
      rw [absent, decide_eq_true named, Option.none_or]
      simp [named]
    · rw [decide_eq_false named]
      simp [named]

theorem filesById_eq (ids : (snapshot.files.map FileSnapshot.id).Nodup) (fileId : SnapshotFileId) :
    filesById snapshot fileId = snapshot.fileById? fileId := find?_reverse ids fileId

private theorem fileById?_of_filesById {fileId : SnapshotFileId} {file : FileSnapshot} (addressable : Addressable snapshot)
    (found : filesById snapshot fileId = some file) : file ∈ snapshot.files ∧ snapshot.fileById? fileId = some file := by
  refine ⟨List.mem_reverse.mp (List.mem_of_find?_eq_some found), ?_⟩
  rw [← filesById_eq (List.pairwise_map.mpr addressable.distinct), found]

/-- The review has summarized the segments so far. -/
private structure Summarized (snapshot : WorkspaceSnapshot) (done : List OutputSegment)
    (progress : LineMetrics × List InsertionGroup) : Prop where
  read : ∀ segment ∈ done, segmentBytes? snapshot segment = some (segmentBytes snapshot segment)
  fits : (done.flatMap (segmentBytes snapshot)).length ≤ u64Max
  metrics : progress.1 = metricsOf (done.flatMap (segmentBytes snapshot))

private theorem summarized_step (addressable : Addressable snapshot) (done : List OutputSegment) (segment : OutputSegment)
    (current next : LineMetrics × List InsertionGroup) (summarized : Summarized snapshot done current)
    (stepped : reviewSegment (filesById snapshot) plan output current segment = .ok next) :
    Summarized snapshot (done ++ [segment]) next := by
  rw [reviewSegment] at stepped
  cases found : filesById snapshot segment.fileId with
  | none =>
    rw [found] at stepped
    cases stepped
  | some file =>
    rw [found] at stepped
    obtain ⟨metrics, queried, stepped⟩ := Except.bind_eq_ok.mp stepped
    obtain ⟨after, appended, stepped⟩ := Except.bind_eq_ok.mp stepped
    obtain ⟨groups, -, stepped⟩ := Except.bind_eq_ok.mp stepped
    obtain rfl := Except.pure_eq_ok.mp stepped
    rw [ofCore_eq_ok] at queried appended
    obtain ⟨member, byId⟩ := fileById?_of_filesById addressable found
    obtain ⟨_, _, built⟩ := addressable.indexed file member
    obtain ⟨ordered, inside⟩ := LineIndex.metricsForRange_inside queried
    have sliced := slice?_of_le ordered inside
    have read : segmentBytes? snapshot segment = some (segmentBytes snapshot segment) := by
      rw [segmentBytes, segmentBytes?, byId, Option.bind_eq_bind, Option.bind_some, sliced, Option.getD_some]
    have slice : slice? file.bytes segment.range = some (segmentBytes snapshot segment) := by
      rw [segmentBytes?, byId] at read
      exact read
    have bounded : (segmentBytes snapshot segment).length ≤ u64Max := by
      have sized := addressable.sized file member
      rw [← Option.some.inj (sliced.symm.trans slice), List.length_take, List.length_drop]
      omega
    rw [LineIndex.metricsForRange_eq built slice bounded] at queried
    obtain rfl := Except.ok.inj queried
    rw [summarized.metrics] at appended
    have fits := LineMetrics.tryAppend_fits summarized.fits bounded appended
    rw [LineMetrics.tryAppend_eq fits] at appended
    have whole : (done ++ [segment]).flatMap (segmentBytes snapshot) =
        done.flatMap (segmentBytes snapshot) ++ segmentBytes snapshot segment := by
      rw [List.flatMap_append, List.flatMap_singleton]
    refine ⟨fun other listed => ?_, whole ▸ fits, by rw [whole]; exact (Except.ok.inj appended).symm⟩
    rcases List.mem_append.mp listed with earlier | last
    · exact summarized.read other earlier
    · rw [List.mem_singleton.mp last]
      exact read

private theorem mapM_segmentBytes {segments : List OutputSegment}
    (read : ∀ segment ∈ segments, segmentBytes? snapshot segment = some (segmentBytes snapshot segment)) :
    segments.mapM (segmentBytes? snapshot) = some (segments.map (segmentBytes snapshot)) := by
  induction segments with
  | nil => rfl
  | cons segment rest ih =>
    obtain ⟨first, later⟩ := List.forall_mem_cons.mp read
    simp [List.mapM_cons, first, ih later]

/-- The review of an output counts the lines of the bytes it names. -/
private theorem buildReviewOutput_counts {outputIndex : ℕ} {review : ReviewOutput} (addressable : Addressable snapshot)
    (reviewed : buildReviewOutput outputIndex output snapshot plan (filesById snapshot) = .ok review) :
    ∃ bytes, output.bytes? snapshot = some bytes ∧ bytes.length ≤ u64Max ∧
      review.afterLogicalLineCount = (metricsOf bytes).lineCount := by
  rw [buildReviewOutput] at reviewed
  obtain ⟨⟨after, groups⟩, folded, reviewed⟩ := Except.bind_eq_ok.mp reviewed
  have whole := List.foldlM_ok_induction (summarized_step addressable) output.segments
    (show Summarized snapshot [] ({}, []) from ⟨by simp, by simp, rfl⟩) folded
  rw [List.nil_append] at whole
  have accepted : after.byteCount = output.resultingLength := by
    by_contra different
    dsimp only at reviewed
    rw [if_pos different] at reviewed
    cases reviewed
  dsimp only at reviewed
  rw [if_neg (not_not.mpr accepted)] at reviewed
  obtain rfl := Except.pure_eq_ok.mp reviewed
  refine ⟨_, ?_, whole.fits, congrArg LineMetrics.lineCount whole.metrics⟩
  rw [PlannedOutput.bytes?, mapM_segmentBytes whole.read, Option.map_some, List.flatMap]

end Srcmv.Cli
