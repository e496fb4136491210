import Mathlib.Data.List.Basic
import Mathlib.Tactic

/-! # Reading base 64

Each character of the alphabet stands for six bits, and four characters for three bytes. A last group
of two or three characters is filled up with padding and stands for one or two bytes.
-/

namespace Base64

/-- The six bits of a character. -/
def value? (char : Char) : Option ℕ :=
  if 'A' ≤ char ∧ char ≤ 'Z' then some (char.toNat - 65)
  else if 'a' ≤ char ∧ char ≤ 'z' then some (char.toNat - 97 + 26)
  else if '0' ≤ char ∧ char ≤ '9' then some (char.toNat - 48 + 52)
  else if char = '+' then some 62
  else if char = '/' then some 63
  else none

def firstByte (first second : ℕ) : UInt8 := UInt8.ofNat (first * 4 + second / 16)

def secondByte (second third : ℕ) : UInt8 := UInt8.ofNat (second % 16 * 16 + third / 4)

def thirdByte (third fourth : ℕ) : UInt8 := UInt8.ofNat (third % 4 * 64 + fourth)

/-- The bytes of a text; bits that fill up a last group have to be zero. -/
def decode : List Char → Option (List UInt8)
  | [] => some []
  | [first, second, '=', '='] => do
      let first ← value? first
      let second ← value? second
      if second % 16 = 0 then some [firstByte first second] else none
  | [first, second, third, '='] => do
      let first ← value? first
      let second ← value? second
      let third ← value? third
      if third % 4 = 0 then some [firstByte first second, secondByte second third] else none
  | first :: second :: third :: fourth :: rest => do
      let first ← value? first
      let second ← value? second
      let third ← value? third
      let fourth ← value? fourth
      let bytes ← decode rest
      return firstByte first second :: secondByte second third :: thirdByte third fourth :: bytes
  | _ => none

variable {first second third fourth : Char} {rest : List Char} {a b c d : ℕ}

/-- Padding is no character of the alphabet. -/
theorem ne_padding {char : Char} {value : ℕ} (known : value? char = some value) : char ≠ '=' := by
  rintro rfl
  cases known

theorem decode_one (firstValue : value? first = some a) (secondValue : value? second = some b) (zero : b % 16 = 0) :
    decode [first, second, '=', '='] = some [firstByte a b] := by
  rw [decode, firstValue, secondValue]
  exact if_pos zero

theorem decode_two (firstValue : value? first = some a) (secondValue : value? second = some b)
    (thirdValue : value? third = some c) (zero : c % 4 = 0) :
    decode [first, second, third, '='] = some [firstByte a b, secondByte b c] := by
  rw [decode.eq_3 _ _ _ (ne_padding thirdValue), firstValue, secondValue, thirdValue]
  exact if_pos zero

theorem decode_three (firstValue : value? first = some a) (secondValue : value? second = some b)
    (thirdValue : value? third = some c) (fourthValue : value? fourth = some d) {bytes : List UInt8}
    (later : decode rest = some bytes) :
    decode (first :: second :: third :: fourth :: rest) = some (firstByte a b :: secondByte b c :: thirdByte c d :: bytes) := by
  have full := ne_padding fourthValue
  rw [decode.eq_4 _ _ _ _ _ (fun _ same _ => full same) (fun same _ => full same), firstValue, secondValue, thirdValue,
    fourthValue, later]
  rfl

end Base64
