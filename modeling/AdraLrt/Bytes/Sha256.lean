import Mathlib.Data.List.Basic

/-!
# SHA-256

The hash function on byte strings, in a form that evaluates: the message schedule is a window of the
sixteen words that the following ones depend on, so that a round takes the first word of the window
and appends a new last one.
-/

set_option autoImplicit false

namespace Bytes.Sha256

/-- The eight working variables, and likewise the eight words of a hash value. -/
structure Words where
  a : UInt32
  b : UInt32
  c : UInt32
  d : UInt32
  e : UInt32
  f : UInt32
  g : UInt32
  h : UInt32

/-- The first bits of the fractional parts of the square roots of the first eight primes. -/
def initial : Words :=
  ⟨0x6a09e667, 0xbb67ae85, 0x3c6ef372, 0xa54ff53a, 0x510e527f, 0x9b05688c, 0x1f83d9ab, 0x5be0cd19⟩

/-- The first bits of the fractional parts of the cube roots of the first sixty-four primes. -/
def roundConstants : List UInt32 := [
  0x428a2f98, 0x71374491, 0xb5c0fbcf, 0xe9b5dba5, 0x3956c25b, 0x59f111f1, 0x923f82a4, 0xab1c5ed5,
  0xd807aa98, 0x12835b01, 0x243185be, 0x550c7dc3, 0x72be5d74, 0x80deb1fe, 0x9bdc06a7, 0xc19bf174,
  0xe49b69c1, 0xefbe4786, 0x0fc19dc6, 0x240ca1cc, 0x2de92c6f, 0x4a7484aa, 0x5cb0a9dc, 0x76f988da,
  0x983e5152, 0xa831c66d, 0xb00327c8, 0xbf597fc7, 0xc6e00bf3, 0xd5a79147, 0x06ca6351, 0x14292967,
  0x27b70a85, 0x2e1b2138, 0x4d2c6dfc, 0x53380d13, 0x650a7354, 0x766a0abb, 0x81c2c92e, 0x92722c85,
  0xa2bfe8a1, 0xa81a664b, 0xc24b8b70, 0xc76c51a3, 0xd192e819, 0xd6990624, 0xf40e3585, 0x106aa070,
  0x19a4c116, 0x1e376c08, 0x2748774c, 0x34b0bcb5, 0x391c0cb3, 0x4ed8aa4a, 0x5b9cca4f, 0x682e6ff3,
  0x748f82ee, 0x78a5636f, 0x84c87814, 0x8cc70208, 0x90befffa, 0xa4506ceb, 0xbef9a3f7, 0xc67178f2]

def rotateRight (x n : UInt32) : UInt32 := (x >>> n) ||| (x <<< (32 - n))

/-- One round, with the round constant and the schedule word added up. -/
def round (s : Words) (kw : UInt32) : Words :=
  let sum1 := rotateRight s.e 6 ^^^ rotateRight s.e 11 ^^^ rotateRight s.e 25
  let choice := (s.e &&& s.f) ^^^ (~~~ s.e &&& s.g)
  let t1 := s.h + sum1 + choice + kw
  let sum0 := rotateRight s.a 2 ^^^ rotateRight s.a 13 ^^^ rotateRight s.a 22
  let majority := (s.a &&& s.b) ^^^ (s.a &&& s.c) ^^^ (s.b &&& s.c)
  ⟨t1 + (sum0 + majority), s.a, s.b, s.c, s.d + t1, s.e, s.f, s.g⟩

/-- The rounds for the given constants; the window holds the next sixteen schedule words. -/
def rounds : List UInt32 → List UInt32 → Words → Words
  | [], _, s => s
  | k :: ks, [w₀, w₁, w₂, w₃, w₄, w₅, w₆, w₇, w₈, w₉, w₁₀, w₁₁, w₁₂, w₁₃, w₁₄, w₁₅], s =>
      let low := rotateRight w₁ 7 ^^^ rotateRight w₁ 18 ^^^ (w₁ >>> 3)
      let high := rotateRight w₁₄ 17 ^^^ rotateRight w₁₄ 19 ^^^ (w₁₄ >>> 10)
      rounds ks [w₁, w₂, w₃, w₄, w₅, w₆, w₇, w₈, w₉, w₁₀, w₁₁, w₁₂, w₁₃, w₁₄, w₁₅,
        w₀ + low + w₉ + high] (round s (k + w₀))
  | _ :: _, _, s => s

/-- Process one block of sixteen words. -/
def compress (s : Words) (block : List UInt32) : Words :=
  let t := rounds roundConstants block s
  ⟨s.a + t.a, s.b + t.b, s.c + t.c, s.d + t.d, s.e + t.e, s.f + t.f, s.g + t.g, s.h + t.h⟩

/-- The word that four bytes stand for, the highest byte first. -/
def word (b₃ b₂ b₁ b₀ : UInt8) : UInt32 :=
  (b₃.toUInt32 <<< 24) ||| (b₂.toUInt32 <<< 16) ||| (b₁.toUInt32 <<< 8) ||| b₀.toUInt32

def words : List UInt8 → List UInt32
  | b₃ :: b₂ :: b₁ :: b₀ :: bs => word b₃ b₂ b₁ b₀ :: words bs
  | _ => []

def toBytes (x : UInt32) : List UInt8 :=
  [(x >>> 24).toUInt8, (x >>> 16).toUInt8, (x >>> 8).toUInt8, x.toUInt8]

/-- The message with a one bit, zeros up to a multiple of the block size, and its length in bits. -/
def pad (m : List UInt8) : List UInt8 :=
  let bits : UInt64 := UInt64.ofNat (8 * m.length)
  let zeros : List UInt8 := List.replicate ((119 - m.length % 64) % 64) 0
  m ++ 0x80 :: zeros ++ toBytes (bits >>> 32).toUInt32 ++ toBytes bits.toUInt32

/-- Process so many blocks. -/
def blocks : Nat → List UInt32 → Words → Words
  | 0, _, s => s
  | n + 1, ws, s => blocks n (ws.drop 16) (compress s (ws.take 16))

/-- The hash of a message. -/
def hash (m : List UInt8) : List UInt8 :=
  let padded := pad m
  let s := blocks (padded.length / 64) (words padded) initial
  toBytes s.a ++ toBytes s.b ++ toBytes s.c ++ toBytes s.d ++ toBytes s.e ++ toBytes s.f ++
    toBytes s.g ++ toBytes s.h

theorem length_hash (m : List UInt8) : (hash m).length = 32 := by
  simp only [hash, toBytes, List.length_append, List.length_cons, List.length_nil]

/-- A message of two blocks. -/
example : (hash ("abcdbcdecdefdefgefghfghighijhijkijkljklmklmnlmnomnopnopq".toUTF8.toList)).take 8 =
    [0x24, 0x8d, 0x6a, 0x61, 0xd2, 0x06, 0x38, 0xb8] := by
  decide +kernel

end Bytes.Sha256
