import Srcmv.Model.Cli.Samples
import Srcmv.Soundness.Composition
import Srcmv.Soundness.LineCounting
import Srcmv.ToMathlib.Base64

/-! # Samples of an output

The sampler sees an output in chunks and never holds it whole. After every chunk its head and tail are
those of the bytes seen so far, however these were cut, so its samples are those of the materialized
output. What is reported of them in base 64 is read back.
-/

namespace Srcmv.Cli

open Srcmv.Core Srcmv.Fs

section Encoding

private theorem value_alphabet : ∀ index < 64, Base64.value? (base64Alphabet (UInt8.ofNat index)) = some index := by
  decide +kernel

private theorem sextet_parts : ∀ value < 256, UInt8.ofNat value >>> 2 = UInt8.ofNat (value / 4) ∧
    UInt8.ofNat value &&& 0x03 = UInt8.ofNat (value % 4) ∧ UInt8.ofNat value >>> 4 = UInt8.ofNat (value / 16) ∧
    UInt8.ofNat value &&& 0x0f = UInt8.ofNat (value % 16) ∧ UInt8.ofNat value >>> 6 = UInt8.ofNat (value / 64) ∧
    UInt8.ofNat value &&& 0x3f = UInt8.ofNat (value % 64) := by
  decide +kernel

private theorem join_second : ∀ high < 4, ∀ low < 16,
    UInt8.ofNat high <<< 4 ||| UInt8.ofNat low = UInt8.ofNat (high * 16 + low) := by
  decide

private theorem join_third : ∀ high < 16, ∀ low < 4,
    UInt8.ofNat high <<< 2 ||| UInt8.ofNat low = UInt8.ofNat (high * 4 + low) := by
  decide

private theorem value_first (first : UInt8) : Base64.value? (base64Alphabet (first >>> 2)) = some (first.toNat / 4) := by
  have bound := first.toNat_lt
  have parts := (sextet_parts first.toNat bound).1
  rw [UInt8.ofNat_toNat] at parts
  rw [parts]
  exact value_alphabet _ (by omega)

private theorem value_second (first second : UInt8) :
    Base64.value? (base64Alphabet ((first &&& 0x03) <<< 4 ||| second >>> 4)) =
      some (first.toNat % 4 * 16 + second.toNat / 16) := by
  have bound := second.toNat_lt
  have left := (sextet_parts first.toNat first.toNat_lt).2.1
  have right := (sextet_parts second.toNat bound).2.2.1
  rw [UInt8.ofNat_toNat] at left right
  rw [left, right, join_second _ (Nat.mod_lt _ (by decide)) _ (by omega)]
  exact value_alphabet _ (by omega)

private theorem value_third (second third : UInt8) :
    Base64.value? (base64Alphabet ((second &&& 0x0f) <<< 2 ||| third >>> 6)) =
      some (second.toNat % 16 * 4 + third.toNat / 64) := by
  have bound := third.toNat_lt
  have left := (sextet_parts second.toNat second.toNat_lt).2.2.2.1
  have right := (sextet_parts third.toNat bound).2.2.2.2.1
  rw [UInt8.ofNat_toNat] at left right
  rw [left, right, join_third _ (Nat.mod_lt _ (by decide)) _ (by omega)]
  exact value_alphabet _ (by omega)

private theorem value_fourth (third : UInt8) :
    Base64.value? (base64Alphabet (third &&& 0x3f)) = some (third.toNat % 64) := by
  have parts := (sextet_parts third.toNat third.toNat_lt).2.2.2.2.2
  rw [UInt8.ofNat_toNat] at parts
  rw [parts]
  exact value_alphabet _ (by omega)

private theorem firstByte_eq (first second : UInt8) :
    Base64.firstByte (first.toNat / 4) (first.toNat % 4 * 16 + second.toNat / 16) = first := by
  have bound := second.toNat_lt
  have same : first.toNat / 4 * 4 + (first.toNat % 4 * 16 + second.toNat / 16) / 16 = first.toNat := by omega
  rw [Base64.firstByte, same, UInt8.ofNat_toNat]

private theorem secondByte_eq (first second third : UInt8) :
    Base64.secondByte (first.toNat % 4 * 16 + second.toNat / 16) (second.toNat % 16 * 4 + third.toNat / 64) = second := by
  have bound := second.toNat_lt
  have bound' := third.toNat_lt
  have same : (first.toNat % 4 * 16 + second.toNat / 16) % 16 * 16 + (second.toNat % 16 * 4 + third.toNat / 64) / 4 =
      second.toNat := by omega
  rw [Base64.secondByte, same, UInt8.ofNat_toNat]

private theorem thirdByte_eq (second third : UInt8) :
    Base64.thirdByte (second.toNat % 16 * 4 + third.toNat / 64) (third.toNat % 64) = third := by
  have bound := third.toNat_lt
  have same : (second.toNat % 16 * 4 + third.toNat / 64) % 4 * 64 + third.toNat % 64 = third.toNat := by omega
  rw [Base64.thirdByte, same, UInt8.ofNat_toNat]

/-- The last group has three shapes; each is read back. -/
theorem decode_base64Encode (bytes : Bytes) : Base64.decode (base64Encode bytes) = some bytes := by
  induction bytes using base64Encode.induct with
  | case1 => rfl
  | case2 first =>
    have zero : (first.toNat % 4 * 16 + (0 : UInt8).toNat / 16) % 16 = 0 := by
      rw [UInt8.toNat_zero]
      omega
    have decoded := Base64.decode_one (value_first first) (value_second first 0) zero
    rw [firstByte_eq] at decoded
    exact decoded
  | case3 first second =>
    have zero : (second.toNat % 16 * 4 + (0 : UInt8).toNat / 64) % 4 = 0 := by
      rw [UInt8.toNat_zero]
      omega
    have decoded := Base64.decode_two (value_first first) (value_second first second) (value_third second 0) zero
    rw [firstByte_eq, secondByte_eq] at decoded
    exact decoded
  | case4 first second third rest ih =>
    have decoded := Base64.decode_three (value_first first) (value_second first second) (value_third second third)
      (value_fourth third) ih
    rw [firstByte_eq, secondByte_eq, thirdByte_eq] at decoded
    exact decoded

end Encoding

section Streaming

/-- The last bytes. -/
private def lastBytes (bytes : Bytes) : Bytes := bytes.drop (bytes.length - sampleBytes)

/-- The state of the sampler after these bytes. -/
private def stateAfter (bytes : Bytes) : SampleState := ⟨bytes.take sampleBytes, lastBytes bytes⟩

private theorem pushTail_lastBytes (seen : Bytes) (byte : UInt8) : pushTail (lastBytes seen) byte = lastBytes (seen ++ [byte]) := by
  have length : (lastBytes seen).length = min seen.length sampleBytes := by
    rw [lastBytes, List.length_drop]
    omega
  rw [pushTail, length]
  split_ifs with full
  · -- The ring is full: one byte leaves as one enters.
    have start : (seen ++ [byte]).length - sampleBytes = seen.length - sampleBytes + 1 := by
      rw [List.length_append, List.length_singleton]
      omega
    rw [lastBytes, lastBytes, start, List.tail_drop, List.drop_append_of_le_length (by unfold sampleBytes at *; omega)]
  · have short : seen.length - sampleBytes = 0 := by omega
    have short' : (seen ++ [byte]).length - sampleBytes = 0 := by
      rw [List.length_append, List.length_singleton]
      omega
    rw [lastBytes, lastBytes, short, short', List.drop_zero, List.drop_zero]

private theorem foldl_pushTail (seen chunk : Bytes) : chunk.foldl pushTail (lastBytes seen) = lastBytes (seen ++ chunk) := by
  induction chunk generalizing seen with
  | nil => rw [List.foldl_nil, List.append_nil]
  | cons byte rest ih => rw [List.foldl_cons, pushTail_lastBytes, ih, List.append_assoc, List.singleton_append]

/-- One chunk: the state is that of the bytes together. -/
private theorem visit_stateAfter (seen chunk : Bytes) : (stateAfter seen).visit chunk = stateAfter (seen ++ chunk) := by
  have head : seen.take sampleBytes ++ chunk.take (min chunk.length (sampleBytes - (seen.take sampleBytes).length)) =
      (seen ++ chunk).take sampleBytes := by
    have room : sampleBytes - (seen.take sampleBytes).length = sampleBytes - seen.length := by
      rw [List.length_take]
      omega
    rw [List.take_append, room, Nat.min_comm, ← List.take_eq_take_min]
  rw [SampleState.visit, stateAfter, stateAfter, head, foldl_pushTail]

/-! ### Chunks -/

/-- The slice that a segment names in a table of files. -/
def chunk? (files : SnapshotFileId → Option FileSnapshot) (segment : OutputSegment) : Option Bytes := do
  slice? (← files segment.fileId).bytes segment.range

private theorem segmentChunk_ok {files : SnapshotFileId → Option FileSnapshot} {segment : OutputSegment} {bytes : Bytes} :
    segmentChunk files segment = .ok bytes ↔ chunk? files segment = some bytes := by
  rw [segmentChunk, chunk?]
  cases files segment.fileId with
  | none => simp
  | some file => cases sliced : slice? file.bytes segment.range <;> simp [sliced]

variable {output : PlannedOutput} {files : SnapshotFileId → Option FileSnapshot}

/-- If all segments name slices, the visitor has seen these one after the other. -/
private theorem visitOutputChunks_ok {σ : Type} {visit : σ → Bytes → σ} {start final : σ} :
    visitOutputChunks output files visit start = .ok final ↔
      ∃ chunks, output.segments.mapM (chunk? files) = some chunks ∧ chunks.foldl visit start = final := by
  unfold visitOutputChunks
  induction output.segments generalizing start with
  | nil => simp [Except.pure_eq_ok]
  | cons segment rest ih =>
    rw [List.foldlM_cons, List.mapM_cons]
    constructor
    · intro visited
      obtain ⟨next, first, later⟩ := Except.bind_eq_ok.mp visited
      obtain ⟨bytes, named, same⟩ := Except.bind_eq_ok.mp first
      obtain rfl := Except.pure_eq_ok.mp same
      obtain ⟨chunks, named', folded⟩ := ih.mp later
      exact ⟨bytes :: chunks, by rw [segmentChunk_ok.mp named, named']; rfl, folded⟩
    · rintro ⟨chunks, named, folded⟩
      obtain ⟨bytes, first, named⟩ := Option.bind_eq_some_iff.mp named
      obtain ⟨chunks', later, same⟩ := Option.bind_eq_some_iff.mp named
      obtain rfl := Option.some.inj same
      refine Except.bind_eq_ok.mpr ⟨visit start bytes, ?_, ih.mpr ⟨chunks', later, folded⟩⟩
      rw [segmentChunk_ok.mpr first]
      rfl

private theorem foldl_visit (seen : Bytes) (chunks : List Bytes) :
    chunks.foldl SampleState.visit (stateAfter seen) = stateAfter (seen ++ chunks.flatten) := by
  induction chunks generalizing seen with
  | nil => rw [List.foldl_nil, List.flatten_nil, List.append_nil]
  | cons chunk rest ih => rw [List.foldl_cons, visit_stateAfter, ih, List.flatten_cons, List.append_assoc]

private theorem foldl_append (seen : Bytes) (chunks : List Bytes) :
    chunks.foldl (fun bytes chunk => bytes ++ chunk) seen = seen ++ chunks.flatten := by
  induction chunks generalizing seen with
  | nil => rw [List.foldl_nil, List.flatten_nil, List.append_nil]
  | cons chunk rest ih => rw [List.foldl_cons, ih, List.flatten_cons, List.append_assoc]

end Streaming

/-- The bytes that the segments of an output name in a table of files, one after the other. -/
def tableBytes? (files : SnapshotFileId → Option FileSnapshot) (output : PlannedOutput) : Option Bytes :=
  (output.segments.mapM (chunk? files)).map List.flatten

/-- With one file for each identifier, the table of a snapshot names the bytes that the snapshot does. -/
theorem tableBytes?_filesById {snapshot : WorkspaceSnapshot} (ids : (snapshot.files.map FileSnapshot.id).Nodup)
    (output : PlannedOutput) : tableBytes? (filesById snapshot) output = output.bytes? snapshot := by
  have table : filesById snapshot = snapshot.fileById? := funext (filesById_eq ids)
  rw [tableBytes?, PlannedOutput.bytes?, table]
  rfl

section Outputs

variable {output : PlannedOutput} {files : SnapshotFileId → Option FileSnapshot}

private theorem materializeOutput_ok {bytes : Bytes} : materializeOutput output files = .ok bytes ↔
    tableBytes? files output = some bytes ∧ bytes.length = output.resultingLength := by
  rw [materializeOutput, tableBytes?, Option.map_eq_some_iff]
  constructor
  · intro materialized
    obtain ⟨visited, collected, checked⟩ := Except.bind_eq_ok.mp materialized
    obtain ⟨_, accepted, returned⟩ := Except.bind_eq_ok.mp checked
    obtain rfl := Except.pure_eq_ok.mp returned
    obtain ⟨chunks, named, rfl⟩ := visitOutputChunks_ok.mp collected
    rw [foldl_append, List.nil_append] at accepted ⊢
    exact ⟨⟨chunks, named, rfl⟩, not_not.mp (Except.rejectIf_eq_ok.mp accepted)⟩
  · rintro ⟨⟨chunks, named, rfl⟩, length⟩
    refine Except.bind_eq_ok.mpr ⟨_, visitOutputChunks_ok.mpr ⟨chunks, named, foldl_append [] chunks⟩, ?_⟩
    exact Except.bind_eq_ok.mpr ⟨(), Except.rejectIf_eq_ok.mpr (not_not.mpr length), rfl⟩

private theorem encoded_stateAfter (bytes : Bytes) :
    EncodedSamples.mk (base64Encode (stateAfter bytes).head) (base64Encode (stateAfter bytes).tail) = samplesForBytes bytes := by
  have head : bytes.take sampleBytes = bytes.take (min bytes.length sampleBytes) := by
    rw [Nat.min_comm, ← List.take_eq_take_min]
  exact congrArg (fun front => EncodedSamples.mk (base64Encode front) (base64Encode (lastBytes bytes))) head

private theorem samplesForOutput_ok {samples : EncodedSamples} : samplesForOutput output files = .ok samples ↔
    ∃ bytes, tableBytes? files output = some bytes ∧ samples = samplesForBytes bytes := by
  have start : ({} : SampleState) = stateAfter [] := rfl
  rw [samplesForOutput, tableBytes?, start]
  constructor
  · intro sampled
    obtain ⟨state, visited, returned⟩ := Except.bind_eq_ok.mp sampled
    obtain rfl := Except.pure_eq_ok.mp returned
    obtain ⟨chunks, named, rfl⟩ := visitOutputChunks_ok.mp visited
    refine ⟨chunks.flatten, by rw [named]; rfl, ?_⟩
    rw [foldl_visit, encoded_stateAfter, List.nil_append]
  · rintro ⟨bytes, whole, rfl⟩
    obtain ⟨chunks, named, rfl⟩ := Option.map_eq_some_iff.mp whole
    refine Except.bind_eq_ok.mpr ⟨_, visitOutputChunks_ok.mpr ⟨chunks, named, foldl_visit [] chunks⟩, ?_⟩
    exact congrArg Except.ok (encoded_stateAfter chunks.flatten)

end Outputs

/-- Whatever the segments of an output, its samples are those of the bytes that they name, which are also
the materialized output; in base 64 they are the first and the last of these bytes. -/
theorem samplesForOutput_eq_samplesForBytes (output : PlannedOutput) (files : SnapshotFileId → Option FileSnapshot) :
    (∀ samples, samplesForOutput output files = .ok samples ↔
      ∃ bytes, tableBytes? files output = some bytes ∧ samples = samplesForBytes bytes) ∧
    (∀ bytes, materializeOutput output files = .ok bytes ↔
      tableBytes? files output = some bytes ∧ bytes.length = output.resultingLength) ∧
    (∀ snapshot : WorkspaceSnapshot, (snapshot.files.map FileSnapshot.id).Nodup →
      tableBytes? (filesById snapshot) output = output.bytes? snapshot) ∧
    (∀ bytes, Base64.decode (samplesForBytes bytes).headBase64 = some (bytes.take sampleBytes) ∧
      Base64.decode (samplesForBytes bytes).tailBase64 = some (bytes.drop (bytes.length - sampleBytes))) ∧
    ∀ bytes, Base64.decode (base64Encode bytes) = some bytes := by
  refine ⟨fun _ => samplesForOutput_ok, fun _ => materializeOutput_ok, fun _ ids => tableBytes?_filesById ids output, ?_,
    decode_base64Encode⟩
  intro bytes
  have head : bytes.take (min bytes.length sampleBytes) = bytes.take sampleBytes := by
    rw [Nat.min_comm, ← List.take_eq_take_min]
  constructor
  · rw [samplesForBytes, head, decode_base64Encode]
  · exact decode_base64Encode _

section Example

/-- Two files, one of the lower-case letters and digits and one of the upper-case letters. -/
def sampledSnapshot : WorkspaceSnapshot where
  workspaceIdentity := ⟨1, 1⟩
  files := [exampleFile 0 "a" (utf8Bytes "abcdefghijklmnopqrstuvwxyz0123456789"),
    exampleFile 1 "b" (utf8Bytes "ABCDEFGHIJKLMNOPQRSTUVWXYZ")]
  absentPaths := []

/-- The second file within the first, of which nothing is left out. -/
def sampledOutput : PlannedOutput where
  path := ⟨"a"⟩
  originalDigest := none
  change := .modifiedExisting
  resultingLength := 62
  resultingDigest := sha256Digest (utf8Bytes "abcdefghijklmnopqrstuvwxyzABCDEFGHIJKLMNOPQRSTUVWXYZ0123456789")
  segments := [.originalSlice 0 ⟨0, 26⟩, .payloadSlice 0 1 ⟨0, 26⟩ (sha256Digest (utf8Bytes "ABCDEFGHIJKLMNOPQRSTUVWXYZ")),
    .originalSlice 0 ⟨26, 36⟩]

/-- An output of three segments is longer than a sample, so that its head and its tail overlap. -/
theorem samplesForOutput_eq_samplesForBytes_segments : ∃ samples,
    samplesForOutput sampledOutput (filesById sampledSnapshot) = .ok samples ∧
    Base64.decode samples.headBase64 = some (utf8Bytes "abcdefghijklmnopqrstuvwxyzABCDEFGHIJKLMNOPQRSTUV") ∧
    Base64.decode samples.tailBase64 = some (utf8Bytes "opqrstuvwxyzABCDEFGHIJKLMNOPQRSTUVWXYZ0123456789") ∧
    ∃ bytes, sampledOutput.bytes? sampledSnapshot = some bytes ∧
      materializeOutput sampledOutput (filesById sampledSnapshot) = .ok bytes ∧ samples = samplesForBytes bytes := by
  obtain ⟨sampled, materialized, table, ends, -⟩ := samplesForOutput_eq_samplesForBytes sampledOutput (filesById sampledSnapshot)
  have named := table sampledSnapshot (by decide)
  have bytes : sampledOutput.bytes? sampledSnapshot =
      some (utf8Bytes "abcdefghijklmnopqrstuvwxyzABCDEFGHIJKLMNOPQRSTUVWXYZ0123456789") := by decide +kernel
  rw [bytes] at named
  have head : (utf8Bytes "abcdefghijklmnopqrstuvwxyzABCDEFGHIJKLMNOPQRSTUVWXYZ0123456789").take sampleBytes =
      utf8Bytes "abcdefghijklmnopqrstuvwxyzABCDEFGHIJKLMNOPQRSTUV" := by decide +kernel
  have tail : (utf8Bytes "abcdefghijklmnopqrstuvwxyzABCDEFGHIJKLMNOPQRSTUVWXYZ0123456789").drop
      ((utf8Bytes "abcdefghijklmnopqrstuvwxyzABCDEFGHIJKLMNOPQRSTUVWXYZ0123456789").length - sampleBytes) =
      utf8Bytes "opqrstuvwxyzABCDEFGHIJKLMNOPQRSTUVWXYZ0123456789" := by decide +kernel
  refine ⟨_, (sampled _).mpr ⟨_, named, rfl⟩, ?_, ?_, _, bytes, (materialized _).mpr ⟨named, by decide +kernel⟩, rfl⟩
  · rw [(ends _).1, head]
  · rw [(ends _).2, tail]

end Example

end Srcmv.Cli
