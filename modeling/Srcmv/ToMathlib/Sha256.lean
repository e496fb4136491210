import Mathlib.Tactic

/-! # SHA-256 over byte lists

An executable SHA-256 on naturals below `2 ^ 32`, for evaluating what a digest parameter stands for
on concrete inputs. Results about digests take the function as a parameter and never unfold this
one.
-/

namespace Sha256

def word (value : ℕ) : ℕ := value % 2 ^ 32

def rotateRight (count value : ℕ) : ℕ :=
  (value >>> count) ||| word (value <<< (32 - count))

def roundConstants : List ℕ := [
  0x428a2f98, 0x71374491, 0xb5c0fbcf, 0xe9b5dba5, 0x3956c25b, 0x59f111f1, 0x923f82a4, 0xab1c5ed5,
  0xd807aa98, 0x12835b01, 0x243185be, 0x550c7dc3, 0x72be5d74, 0x80deb1fe, 0x9bdc06a7, 0xc19bf174,
  0xe49b69c1, 0xefbe4786, 0x0fc19dc6, 0x240ca1cc, 0x2de92c6f, 0x4a7484aa, 0x5cb0a9dc, 0x76f988da,
  0x983e5152, 0xa831c66d, 0xb00327c8, 0xbf597fc7, 0xc6e00bf3, 0xd5a79147, 0x06ca6351, 0x14292967,
  0x27b70a85, 0x2e1b2138, 0x4d2c6dfc, 0x53380d13, 0x650a7354, 0x766a0abb, 0x81c2c92e, 0x92722c85,
  0xa2bfe8a1, 0xa81a664b, 0xc24b8b70, 0xc76c51a3, 0xd192e819, 0xd6990624, 0xf40e3585, 0x106aa070,
  0x19a4c116, 0x1e376c08, 0x2748774c, 0x34b0bcb5, 0x391c0cb3, 0x4ed8aa4a, 0x5b9cca4f, 0x682e6ff3,
  0x748f82ee, 0x78a5636f, 0x84c87814, 0x8cc70208, 0x90befffa, 0xa4506ceb, 0xbef9a3f7, 0xc67178f2]

/-- The eight working variables. -/
structure State where
  a : ℕ
  b : ℕ
  c : ℕ
  d : ℕ
  e : ℕ
  f : ℕ
  g : ℕ
  h : ℕ

def initial : State :=
  ⟨0x6a09e667, 0xbb67ae85, 0x3c6ef372, 0xa54ff53a, 0x510e527f, 0x9b05688c, 0x1f83d9ab, 0x5be0cd19⟩

/-- One compression round with its constant and schedule word. -/
def State.round (state : State) (input : ℕ × ℕ) : State :=
  let upper := (rotateRight 6 state.e) ^^^ (rotateRight 11 state.e) ^^^ (rotateRight 25 state.e)
  let choice := (state.e &&& state.f) ^^^ ((2 ^ 32 - 1 - state.e) &&& state.g)
  let first := state.h + upper + choice + input.1 + input.2
  let lower := (rotateRight 2 state.a) ^^^ (rotateRight 13 state.a) ^^^ (rotateRight 22 state.a)
  let majority := (state.a &&& state.b) ^^^ (state.a &&& state.c) ^^^ (state.b &&& state.c)
  ⟨word (first + lower + majority), state.a, state.b, state.c, word (state.d + first), state.e, state.f,
    state.g⟩

def State.add (left right : State) : State :=
  ⟨word (left.a + right.a), word (left.b + right.b), word (left.c + right.c), word (left.d + right.d),
    word (left.e + right.e), word (left.f + right.f), word (left.g + right.g), word (left.h + right.h)⟩

/-- Extend the schedule, kept in reverse, by one word. -/
def extend (schedule : List ℕ) : List ℕ :=
  let at_ (back : ℕ) := schedule.getD (back - 1) 0
  let small (first second shift value : ℕ) :=
    (rotateRight first value) ^^^ (rotateRight second value) ^^^ (value >>> shift)
  word (at_ 16 + small 7 18 3 (at_ 15) + at_ 7 + small 17 19 10 (at_ 2)) :: schedule

def schedule (block : List ℕ) : List ℕ :=
  ((List.range 48).foldl (fun words _ => extend words) block.reverse).reverse

def State.compress (state : State) (block : List ℕ) : State :=
  state.add ((roundConstants.zip (schedule block)).foldl State.round state)

def bigEndian (width value : ℕ) : List UInt8 :=
  (List.range width).map fun index => UInt8.ofNat (value >>> (8 * (width - 1 - index)))

def padded (bytes : List UInt8) : List UInt8 :=
  bytes ++ [0x80] ++ List.replicate ((119 - bytes.length % 64) % 64) 0 ++ bigEndian 8 (8 * bytes.length)

/-- Big-endian words of a byte list whose length is a multiple of four. -/
def wordsOf : List UInt8 → List ℕ
  | a :: b :: c :: d :: rest =>
      (((a.toNat * 256 + b.toNat) * 256 + c.toNat) * 256 + d.toNat) :: wordsOf rest
  | _ => []

/-- Compress `count` blocks of sixteen words. -/
def compressBlocks : ℕ → List ℕ → State → State
  | 0, _, state => state
  | count + 1, words, state => compressBlocks count (words.drop 16) (state.compress (words.take 16))

def State.bytes (state : State) : List UInt8 :=
  [state.a, state.b, state.c, state.d, state.e, state.f, state.g, state.h].flatMap (bigEndian 4)

theorem State.bytes_length (state : State) : state.bytes.length = 32 := by
  simp [State.bytes, bigEndian]

def hash (bytes : List UInt8) : List UInt8 :=
  let message := padded bytes
  (compressBlocks (message.length / 64) (wordsOf message) initial).bytes

theorem hash_length (bytes : List UInt8) : (hash bytes).length = 32 := State.bytes_length _

end Sha256
