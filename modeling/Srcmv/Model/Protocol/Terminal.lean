import Mathlib.Data.Nat.Digits.Defs
import Srcmv.Model.Core.Snapshot

/-! # Text for a terminal

Control characters and those that change the direction of a text are shown by their code.
-/

namespace Srcmv.Protocol

/-- `char::is_control`. -/
def isControl (char : Char) : Bool := char.toNat < 32 || 127 ≤ char.toNat && char.toNat < 160

def isBidiControl (char : Char) : Bool :=
  char.toNat = 0x061c || char.toNat = 0x200e || char.toNat = 0x200f ||
    0x202a ≤ char.toNat && char.toNat ≤ 0x202e || 0x2066 ≤ char.toNat && char.toNat ≤ 0x2069

/-- `char::escape_unicode`. -/
def escapeUnicode (char : Char) : List Char := ['\\', 'u', '\x7b'] ++ Nat.toDigits 16 char.toNat ++ ['\x7d']

def escapeTerminalText (text : List Char) : List Char :=
  text.flatMap fun char => if isControl char || isBidiControl char then escapeUnicode char else [char]

end Srcmv.Protocol
