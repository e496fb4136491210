import Srcmv.Model.Core.LineIndex

/-! # Line metrics

Allocation-free summaries of a byte sequence. A summary of a range is read off the line index and
the edge bytes of the range; summaries of consecutive ranges are appended, merging a CR and an LF
that meet at the seam.
-/

namespace Srcmv.Core

/-- Metrics of a byte sequence; the empty sequence has the default ones. -/
structure LineMetrics where
  byteCount : ℕ := 0
  terminatorCount : ℕ := 0
  firstByte : Option UInt8 := none
  lastByte : Option UInt8 := none
deriving DecidableEq

def lineLimitOverflow (resource : String) : CoreError := .resourceLimitExceeded resource u64Max (u64Max - 1)

/-- `u64::checked_add` with the line error. -/
def checkedLineAdd (left right : ℕ) (resource : String) : Except CoreError ℕ :=
  if left + right ≤ u64Max then .ok (left + right) else .error (lineLimitOverflow resource)

/-- `checked_sub(1)` with the error of a malformed summary or index. -/
def checkedLineDecrement (count : ℕ) (field : String) : Except CoreError ℕ :=
  if 1 ≤ count then .ok (count - 1) else .error (.invalidDomainValue field)

/-- `slice::partition_point`: the number of leading items that satisfy the predicate. -/
def partitionPoint (holds : ℕ → Bool) (items : List ℕ) : ℕ := (items.takeWhile holds).length

namespace LineMetrics

/-- The loop over `next_terminator_end`, counting with overflow checks. -/
def countTerminators (ends : List ℕ) : Except CoreError ℕ :=
  ends.foldlM (fun count _ => checkedLineAdd count 1 "line_count") 0

/-- Scan one byte slice. -/
def tryFromBytes (bytes : Bytes) : Except CoreError LineMetrics :=
  if bytes = [] then .ok {}
  else do
    let terminatorCount ← countTerminators (terminatorEnds bytes 0)
    return { byteCount := bytes.length, terminatorCount, firstByte := bytes.head?, lastByte := bytes.getLast? }

/-- Logical lines; an unterminated suffix is one. -/
def lineCount (metrics : LineMetrics) : ℕ :=
  let unterminatedSuffix := metrics.lastByte.any fun byte => !isTerminatorByte byte
  min (metrics.terminatorCount + unterminatedSuffix.toNat) u64Max

/-- The terminators that following bytes add; an LF after a CR adds none. -/
def followingTerminators (metrics following : LineMetrics) : Except CoreError ℕ :=
  if metrics.lastByte = some 13 ∧ following.firstByte = some 10 then
    checkedLineDecrement following.terminatorCount "line_metrics_summary"
  else .ok following.terminatorCount

/-- Append the summary of the bytes that follow. -/
def tryAppend (metrics following : LineMetrics) : Except CoreError LineMetrics :=
  if following.byteCount = 0 then .ok metrics
  else if metrics.byteCount = 0 then .ok following
  else do
    let byteCount ← checkedLineAdd metrics.byteCount following.byteCount "line_metric_bytes"
    let terminatorCount ← checkedLineAdd metrics.terminatorCount (← metrics.followingTerminators following) "line_count"
    return { metrics with byteCount, terminatorCount, lastByte := following.lastByte }

end LineMetrics

namespace LineIndex

def indexedByteLength (index : LineIndex) : ℕ := index.boundaries.getLast?.getD 0

/-- The boundary at the end of the bytes closes an unterminated line, which has no terminator. -/
def withoutOpenLine (bytes : Bytes) (stop terminatorCount : ℕ) : Except CoreError ℕ :=
  if stop = bytes.length ∧ bytes[stop - 1]?.any (fun byte => !isTerminatorByte byte) then
    checkedLineDecrement terminatorCount "line_metrics_index"
  else .ok terminatorCount

/-- A CR that the right edge cuts off from its LF terminates the range on its own. -/
def withCutPair (bytes : Bytes) (stop terminatorCount : ℕ) : Except CoreError ℕ :=
  if stop < bytes.length ∧ bytes[stop - 1]? = some 13 ∧ bytes[stop]? = some 10 then
    checkedLineAdd terminatorCount 1 "line_count"
  else .ok terminatorCount

/-- Metrics of a range, whose bytes are interpreted on their own. -/
def metricsForRange (index : LineIndex) (bytes : Bytes) (range : ByteRange) : Except CoreError LineMetrics :=
  if index.indexedByteLength ≠ bytes.length then .error (.invalidDomainValue "line_metrics_indexed_bytes")
  else if range.start > range.stop ∨ range.stop > bytes.length then .error (.invalidDomainValue "line_metrics_range")
  else if range.start = range.stop then .ok {}
  else do
    let firstBoundary := partitionPoint (fun boundary => boundary ≤ range.start) index.boundaries
    let finalBoundary := partitionPoint (fun boundary => boundary ≤ range.stop) index.boundaries
    let terminated ← withoutOpenLine bytes range.stop (finalBoundary - firstBoundary)
    let terminatorCount ← withCutPair bytes range.stop terminated
    return {
      byteCount := range.stop - range.start
      terminatorCount
      firstByte := bytes[range.start]?
      lastByte := bytes[range.stop - 1]? }

end LineIndex

end Srcmv.Core
