import Srcmv.Model.Fs.Journal

/-! # Decoding a record on machine words

`decode_record` with the slices and the `usize` additions of the machine: a slice out of range and an
addition that overflows are panics, apart from the values and errors the function returns.
-/

namespace Srcmv.Fs

open Srcmv.Core

/-- A computation that panics, or returns a value or an error. -/
abbrev Panicking (α : Type) : Type := ExceptT FsError Option α

namespace Panicking

def returns {α : Type} (result : Except FsError α) : Panicking α := ExceptT.mk (some result)

/-- `&bytes[start..stop]`. -/
def slice (bytes : Bytes) (start stop : ℕ) : Panicking Bytes :=
  ExceptT.mk (if start ≤ stop ∧ stop ≤ bytes.length then some (.ok ((bytes.drop start).take (stop - start))) else none)

/-- `left + right` in a type whose largest value is `most`. -/
def add (most left right : ℕ) : Panicking ℕ :=
  ExceptT.mk (if left + right ≤ most then some (.ok (left + right)) else none)

end Panicking

/-- A word of a supported machine: the largest `usize`. -/
structure WordSize where
  usizeMax : ℕ
  least : 65535 ≤ usizeMax
  most : usizeMax ≤ u64Max

variable (crates : Crates)

def decodeRecordOnWords {α : Type} (word : WordSize) (read : Bytes → Option (α × Bytes)) (bytes magic : Bytes)
    (transactionId : Option String) (limits : TransactionLimits) : Panicking (DecodedRecord α) := do
  let actual := min bytes.length u64Max
  Panicking.returns (Except.rejectIf (actual > limits.recordBytes) (corrupt transactionId "record_oversized"))
  Panicking.returns
    (Except.rejectIf (magic.length + 12 > word.usizeMax) (corrupt transactionId "record_length_overflow"))
  let header := magic.length + 12
  let least ← Panicking.add word.usizeMax header 32
  Panicking.returns (Except.rejectIf (bytes.length < least ∨ magic.isPrefixOf bytes = false)
    (corrupt transactionId "record_magic_or_truncation"))
  let versionEnd ← Panicking.add word.usizeMax magic.length 4
  let version ← Panicking.slice bytes magic.length versionEnd
  Panicking.returns (Except.rejectIf (version.length ≠ 4) (corrupt transactionId "record_version_truncated"))
  Panicking.returns (Except.rejectIf (ofBigEndian version ≠ recordFormatVersion)
    (corrupt transactionId "record_version_unsupported"))
  let lengthStart ← Panicking.add word.usizeMax magic.length 4
  let lengthField ← Panicking.slice bytes lengthStart header
  Panicking.returns (Except.rejectIf (lengthField.length ≠ 8) (corrupt transactionId "record_length_truncated"))
  let payloadLength := ofBigEndian lengthField
  Panicking.returns (Except.rejectIf (min header u64Max + payloadLength + 32 > u64Max)
    (corrupt transactionId "record_length_overflow"))
  Panicking.returns (Except.rejectIf (actual ≠ min header u64Max + payloadLength + 32)
    (corrupt transactionId "record_length_mismatch"))
  Panicking.returns (Except.rejectIf (payloadLength > word.usizeMax)
    (corrupt transactionId "record_length_unrepresentable"))
  let payloadEnd ← Panicking.add word.usizeMax header payloadLength
  let hashed ← Panicking.slice bytes 0 payloadEnd
  let expectedChecksum := crates.sha256 hashed
  let trailer ← Panicking.slice bytes payloadEnd bytes.length
  Panicking.returns (Except.rejectIf (trailer ≠ expectedChecksum.bytes)
    (corrupt transactionId "record_checksum_invalid"))
  let payload ← Panicking.slice bytes header payloadEnd
  match read payload with
  | none => Panicking.returns (.error (corrupt transactionId "record_payload_invalid"))
  | some (payload, rest) => do
      Panicking.returns
        (Except.rejectIf (rest.all isJsonSpace = false) (corrupt transactionId "record_payload_trailing_data"))
      return ⟨payload, expectedChecksum⟩

end Srcmv.Fs
