import Srcmv.Model.Core.LineIndex
import Srcmv.ToMathlib.Sha256

/-! # Immutable snapshots

One planning attempt sees existing files with their bytes, digest, link count and line index, and
validated absent paths. `Snapshot.Indexed` is the acquisition promise the planner relies on: every
line index was built from the bytes beside it.
-/

namespace Srcmv.Core

/-- Exact UTF-8 bytes of a string. -/
def utf8Bytes (text : String) : Bytes := text.toList.flatMap String.utf8EncodeChar

/-- The digest the code computes; results about digests hold for any function in its place. -/
def sha256Digest (bytes : Bytes) : Sha256Digest := ⟨Sha256.hash bytes, Sha256.hash_length bytes⟩

structure FileSnapshot where
  id : SnapshotFileId
  path : WorkspaceRelativePath
  parentIdentity : FileIdentity
  parentIdentities : List FileIdentity
  identity : FileIdentity
  linkCount : ℕ
  bytes : Bytes
  digest : Sha256Digest
  lineIndex : LineIndex
deriving DecidableEq

structure AbsentPathSnapshot where
  path : WorkspaceRelativePath
  parentIdentity : FileIdentity
  parentIdentities : List FileIdentity
  basename : String
deriving DecidableEq

structure WorkspaceSnapshot where
  workspaceIdentity : FileIdentity
  files : List FileSnapshot
  absentPaths : List AbsentPathSnapshot
deriving DecidableEq

/-- Every line index of the snapshot was built from the bytes of its own file. -/
def WorkspaceSnapshot.Indexed (snapshot : WorkspaceSnapshot) : Prop :=
  ∀ file ∈ snapshot.files, ∃ maximumLines maximumMemoryBytes,
    LineIndex.fromBytesWithLimits file.bytes maximumLines maximumMemoryBytes = .ok file.lineIndex

/-- The bytes of `start..stop`, when the range is valid. -/
def slice? (bytes : Bytes) (range : ByteRange) : Option Bytes :=
  if range.start ≤ range.stop ∧ range.stop ≤ bytes.length then
    some ((bytes.drop range.start).take (range.stop - range.start))
  else none

def sliceRange (bytes : Bytes) (range : ByteRange) : Except CoreError Bytes :=
  match slice? bytes range with
  | some slice => .ok slice
  | none => .error (.invalidDomainValue "segment_range")

theorem sliceRange_ok {bytes slice : Bytes} {range : ByteRange}
    (sliced : sliceRange bytes range = .ok slice) : slice? bytes range = some slice := by
  unfold sliceRange at sliced
  split at sliced
  · next found => rw [found, Except.ok.inj sliced]
  · contradiction

theorem slice?_of_le {bytes : Bytes} {range : ByteRange} (ordered : range.start ≤ range.stop)
    (bounded : range.stop ≤ bytes.length) :
    slice? bytes range = some ((bytes.drop range.start).take (range.stop - range.start)) :=
  if_pos ⟨ordered, bounded⟩

end Srcmv.Core
