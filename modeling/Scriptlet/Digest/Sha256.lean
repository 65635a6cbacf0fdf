import Scriptlet.Text.Bytes

/-!
# Sha256: a fingerprint of a text

The digest of a text is computed over its padded form, cut into blocks of sixteen 32-bit words.
Each block is stretched to sixty-four words that are mixed one by one into eight running words.
-/

namespace Scriptlet.Sha256

/-- The fractional parts of the cube roots of the first sixty-four primes. -/
def roundConstants : List UInt32 := [
  0x428a2f98, 0x71374491, 0xb5c0fbcf, 0xe9b5dba5, 0x3956c25b, 0x59f111f1, 0x923f82a4, 0xab1c5ed5,
  0xd807aa98, 0x12835b01, 0x243185be, 0x550c7dc3, 0x72be5d74, 0x80deb1fe, 0x9bdc06a7, 0xc19bf174,
  0xe49b69c1, 0xefbe4786, 0x0fc19dc6, 0x240ca1cc, 0x2de92c6f, 0x4a7484aa, 0x5cb0a9dc, 0x76f988da,
  0x983e5152, 0xa831c66d, 0xb00327c8, 0xbf597fc7, 0xc6e00bf3, 0xd5a79147, 0x06ca6351, 0x14292967,
  0x27b70a85, 0x2e1b2138, 0x4d2c6dfc, 0x53380d13, 0x650a7354, 0x766a0abb, 0x81c2c92e, 0x92722c85,
  0xa2bfe8a1, 0xa81a664b, 0xc24b8b70, 0xc76c51a3, 0xd192e819, 0xd6990624, 0xf40e3585, 0x106aa070,
  0x19a4c116, 0x1e376c08, 0x2748774c, 0x34b0bcb5, 0x391c0cb3, 0x4ed8aa4a, 0x5b9cca4f, 0x682e6ff3,
  0x748f82ee, 0x78a5636f, 0x84c87814, 0x8cc70208, 0x90befffa, 0xa4506ceb, 0xbef9a3f7, 0xc67178f2]

/-- The eight running words. -/
structure Chain where
  a : UInt32
  b : UInt32
  c : UInt32
  d : UInt32
  e : UInt32
  f : UInt32
  g : UInt32
  h : UInt32

/-- The fractional parts of the square roots of the first eight primes. -/
def Chain.initial : Chain :=
  ⟨0x6a09e667, 0xbb67ae85, 0x3c6ef372, 0xa54ff53a, 0x510e527f, 0x9b05688c, 0x1f83d9ab, 0x5be0cd19⟩

/-- Wordwise addition. -/
def Chain.add (x y : Chain) : Chain :=
  ⟨x.a + y.a, x.b + y.b, x.c + y.c, x.d + y.d, x.e + y.e, x.f + y.f, x.g + y.g, x.h + y.h⟩

/-- The word rotated right by `n` bits, `0 < n < 32`. -/
def rotate (w : UInt32) (n : UInt32) : UInt32 := (w >>> n) ||| (w <<< (32 - n))

/-- Mixes one word and its round constant into the chain. -/
def Chain.mix (s : Chain) (k w : UInt32) : Chain :=
  let choice := (s.e &&& s.f) ^^^ (~~~s.e &&& s.g)
  let majority := (s.a &&& s.b) ^^^ (s.a &&& s.c) ^^^ (s.b &&& s.c)
  let high := rotate s.e 6 ^^^ rotate s.e 11 ^^^ rotate s.e 25
  let low := rotate s.a 2 ^^^ rotate s.a 13 ^^^ rotate s.a 22
  let t := s.h + high + choice + k + w
  ⟨t + (low + majority), s.a, s.b, s.c, s.d + t, s.e, s.f, s.g⟩

/-- Stretches the words of a block, newest first, by `n` more words. -/
def stretch : Nat → List UInt32 → List UInt32
  | 0, ws => ws
  | n + 1, ws =>
    let at_ (i : Nat) : UInt32 := ws.getD i 0
    let w2 := at_ 1
    let w15 := at_ 14
    let s0 := rotate w15 7 ^^^ rotate w15 18 ^^^ (w15 >>> 3)
    let s1 := rotate w2 17 ^^^ rotate w2 19 ^^^ (w2 >>> 10)
    stretch n ((at_ 15 + s0 + at_ 6 + s1) :: ws)

/-- The chain after a block of sixteen words. -/
def Chain.block (s : Chain) (words : List UInt32) : Chain :=
  let schedule := (stretch 48 words.reverse).reverse
  s.add ((roundConstants.zip schedule).foldl (fun t (k, w) => t.mix k w) s)

/-- Bytes as big-endian words; a rest of fewer than four bytes is dropped. -/
def words : Bytes → List UInt32
  | b₀ :: b₁ :: b₂ :: b₃ :: rest =>
    ((b₀.toUInt32 <<< 24) ||| (b₁.toUInt32 <<< 16) ||| (b₂.toUInt32 <<< 8) ||| b₃.toUInt32)
      :: words rest
  | _ => []

/-- A number as `n` big-endian bytes. -/
def bigEndian (n value : Nat) : Bytes :=
  ((List.range n).map fun i => (value / Nat.pow 256 i % 256).toUInt8).reverse

/-- The text, a set bit, zeros, and its length in bits: a whole number of blocks. -/
def padded (s : Bytes) : Bytes :=
  s ++ 0x80 :: List.replicate ((119 - s.length % 64) % 64) 0 ++ bigEndian 8 (8 * s.length)

/-- The chain after `n` blocks of sixteen words. -/
def Chain.blocks : Nat → Chain → List UInt32 → Chain
  | 0, s, _ => s
  | n + 1, s, ws => Chain.blocks n (s.block (ws.take 16)) (ws.drop 16)

/-- The words of a text's digest. -/
def digestWords (s : Bytes) : List UInt32 :=
  let ws := words (padded s)
  let t := Chain.blocks (ws.length / 16) .initial ws
  [t.a, t.b, t.c, t.d, t.e, t.f, t.g, t.h]

/-- The digest of a text in hexadecimal. -/
def hexDigest (s : Bytes) : Bytes := (digestWords s).flatMap fun w => Bytes.hex 8 w.toNat

end Scriptlet.Sha256
