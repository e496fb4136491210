import Srcmv.Model.Fs.Journal
import Srcmv.Model.Protocol.Request

/-! # The readers of digests, byte by byte

A `str` is its bytes: lengths are counted in bytes, pairs are cut from bytes, and a digit is a byte. The
request parser, the transaction engine and the record validator each read the spelling of a digest in
their own way.
-/

namespace Srcmv.DigestText

open Srcmv.Core Srcmv.Fs Srcmv.Protocol

/-- `strip_prefix("sha256:")`. -/
def stripDigestPrefix (value : String) : Option Bytes :=
  if (utf8Bytes "sha256:").isPrefixOf (utf8Bytes value) then some ((utf8Bytes value).drop (utf8Bytes "sha256:").length) else none

/-- `chunks_exact(2)`. -/
def pairs : Bytes → List (UInt8 × UInt8)
  | high :: low :: rest => (high, low) :: pairs rest
  | _ => []

theorem length_pairs (hex : Bytes) : (pairs hex).length = hex.length / 2 := by
  induction hex using pairs.induct with
  | case1 high low rest ih =>
    rw [pairs, List.length_cons, ih, List.length_cons, List.length_cons]
    omega
  | case2 hex other =>
    rcases hex with _ | ⟨high, _ | ⟨low, rest⟩⟩
    · rfl
    · rw [pairs, List.length_singleton, List.length_nil]
      exact other
    · exact absurd rfl (other high low rest)

/-- `byte.is_ascii_digit() || (b'a'..=b'f').contains(&byte)`. -/
def isLowerHexByte (byte : UInt8) : Bool := 48 ≤ byte && byte ≤ 57 || 97 ≤ byte && byte ≤ 102

/-! ## The parser of requests -/

def hexNibble (byte : UInt8) : UInt8 :=
  if 48 ≤ byte ∧ byte ≤ 57 then byte - 48
  else if 97 ≤ byte ∧ byte ≤ 102 then byte - 97 + 10
  else 0

def parseSha256 (value field : String) : Except ProtocolError Sha256Digest :=
  match stripDigestPrefix value with
  | none => .error (.invalidDigest field)
  | some hex =>
      if exact_ : hex.length = 64 ∧ hex.all isLowerHexByte then
        .ok ⟨(pairs hex).map fun pair => hexNibble pair.1 <<< 4 ||| hexNibble pair.2, by
          rw [List.length_map, length_pairs, exact_.1]⟩
      else .error (.invalidDigest field)

/-! ## The parser of transactions -/

def hexDigit (byte : UInt8) : Option UInt8 :=
  if 48 ≤ byte ∧ byte ≤ 57 then some (byte - 48)
  else if 97 ≤ byte ∧ byte ≤ 102 then some (byte - 97 + 10)
  else none

def parsePair (pair : UInt8 × UInt8) : Option UInt8 := do
  let high ← hexDigit pair.1
  let low ← hexDigit pair.2
  return high <<< 4 ||| low

/-- The array of a digest is filled by as many pairs as it has room for. -/
def digestOf (bytes : Bytes) : Except FsError Sha256Digest :=
  if size : bytes.length = 32 then .ok ⟨bytes, size⟩ else .error (corrupt none "record_digest_invalid")

def parseDigest (value : String) : Except FsError Sha256Digest :=
  match stripDigestPrefix value with
  | none => .error (corrupt none "record_digest_invalid")
  | some hex =>
      if hex.length ≠ 64 then .error (corrupt none "record_digest_invalid")
      else
        match (pairs hex).mapM parsePair with
        | none => .error (corrupt none "record_digest_invalid")
        | some bytes => digestOf bytes

/-! ## The validator of records -/

def validateDigest (value : String) (id : Option String) : Except FsError Unit :=
  match stripDigestPrefix value with
  | none => .error (corrupt id "record_digest_invalid")
  | some hex => if hex.length = 64 ∧ hex.all isLowerHexByte then .ok () else .error (corrupt id "record_digest_invalid")

end Srcmv.DigestText
