import Srcmv.Model.Cli.Preview
import Srcmv.ToMathlib.Except

/-! # The bytes of an output, chunk by chunk

An output is visited segment by segment, each a slice of a file. It is materialized by collecting the
chunks, and sampled by keeping its first and last bytes, which are reported in base 64.
-/

namespace Srcmv.Cli

open Srcmv.Core Srcmv.Fs

def sampleBytes : ℕ := 48

/-- The bytes a segment names, or why there are none. -/
def segmentChunk (files : SnapshotFileId → Option FileSnapshot) (segment : OutputSegment) : Except FsError Bytes :=
  match files segment.fileId with
  | none => .error (.internalInvariant "preview_segment_snapshot_file")
  | some file =>
      match slice? file.bytes segment.range with
      | none => .error (.internalInvariant "preview_segment_range")
      | some chunk => .ok chunk

/-- What the visitor has gathered after all chunks. -/
def visitOutputChunks {σ : Type} (output : PlannedOutput) (files : SnapshotFileId → Option FileSnapshot)
    (visit : σ → Bytes → σ) (start : σ) : Except FsError σ :=
  output.segments.foldlM (fun state segment => do return visit state (← segmentChunk files segment)) start

def materializeOutput (output : PlannedOutput) (files : SnapshotFileId → Option FileSnapshot) : Except FsError Bytes := do
  let bytes ← visitOutputChunks output files (fun bytes chunk => bytes ++ chunk) []
  Except.rejectIf (bytes.length ≠ output.resultingLength) (.internalInvariant "preview_output_recipe_length")
  return bytes

/-! ## Base 64 -/

/-- The character at an index below 64. -/
def base64Alphabet (index : UInt8) : Char :=
  "ABCDEFGHIJKLMNOPQRSTUVWXYZabcdefghijklmnopqrstuvwxyz0123456789+/".toList.getD index.toNat '='

/-- The characters of a chunk of one to three bytes. -/
def base64Chunk (first : UInt8) (others : Bytes) : List Char :=
  let second := others[0]?.getD 0
  let third := others[1]?.getD 0
  [base64Alphabet (first >>> 2), base64Alphabet ((first &&& 0x03) <<< 4 ||| second >>> 4),
    if others.length > 0 then base64Alphabet ((second &&& 0x0f) <<< 2 ||| third >>> 6) else '=',
    if others.length > 1 then base64Alphabet (third &&& 0x3f) else '=']

def base64Encode : Bytes → List Char
  | [] => []
  | [first] => base64Chunk first []
  | [first, second] => base64Chunk first [second]
  | first :: second :: third :: rest => base64Chunk first [second, third] ++ base64Encode rest

/-! ## Samples -/

structure EncodedSamples where
  headBase64 : List Char
  tailBase64 : List Char
deriving DecidableEq

def samplesForBytes (bytes : Bytes) : EncodedSamples where
  headBase64 := base64Encode (bytes.take (min bytes.length sampleBytes))
  tailBase64 := base64Encode (bytes.drop (bytes.length - sampleBytes))

/-- The first and the last bytes seen. -/
structure SampleState where
  head : Bytes := []
  tail : Bytes := []

/-- A full tail loses its first byte. -/
def pushTail (tail : Bytes) (byte : UInt8) : Bytes := (if tail.length = sampleBytes then tail.tail else tail) ++ [byte]

def SampleState.visit (state : SampleState) (chunk : Bytes) : SampleState where
  head := state.head ++ chunk.take (min chunk.length (sampleBytes - state.head.length))
  tail := chunk.foldl pushTail state.tail

def samplesForOutput (output : PlannedOutput) (files : SnapshotFileId → Option FileSnapshot) : Except FsError EncodedSamples := do
  let state ← visitOutputChunks output files SampleState.visit {}
  return ⟨base64Encode state.head, base64Encode state.tail⟩

end Srcmv.Cli
