import SealedDownload.Octets

/-! The hash function SHA-256. A hasher takes one byte after the other, so a text may be fed in pieces
    of any length. -/

namespace SealedDownload.Sha256

/-- The eight words that a hasher carries from block to block. -/
structure Chain where
  a : UInt32
  b : UInt32
  c : UInt32
  d : UInt32
  e : UInt32
  f : UInt32
  g : UInt32
  h : UInt32
deriving DecidableEq

namespace Chain

/-- The chain before any block. -/
def initial : Chain :=
  ⟨0x6a09e667, 0xbb67ae85, 0x3c6ef372, 0xa54ff53a,
   0x510e527f, 0x9b05688c, 0x1f83d9ab, 0x5be0cd19⟩

/-- The sum of two chains, word by word. -/
def add (x y : Chain) : Chain :=
  ⟨x.a + y.a, x.b + y.b, x.c + y.c, x.d + y.d, x.e + y.e, x.f + y.f, x.g + y.g, x.h + y.h⟩

/-- The bytes of a chain. -/
def toOctets (x : Chain) : Octets :=
  [x.a, x.b, x.c, x.d, x.e, x.f, x.g, x.h].flatMap fun w => Octets.ofNat 4 w.toNat

end Chain

/-- The constants of the rounds. -/
def constants : List UInt32 :=
  [0x428a2f98, 0x71374491, 0xb5c0fbcf, 0xe9b5dba5, 0x3956c25b, 0x59f111f1, 0x923f82a4, 0xab1c5ed5,
   0xd807aa98, 0x12835b01, 0x243185be, 0x550c7dc3, 0x72be5d74, 0x80deb1fe, 0x9bdc06a7, 0xc19bf174,
   0xe49b69c1, 0xefbe4786, 0x0fc19dc6, 0x240ca1cc, 0x2de92c6f, 0x4a7484aa, 0x5cb0a9dc, 0x76f988da,
   0x983e5152, 0xa831c66d, 0xb00327c8, 0xbf597fc7, 0xc6e00bf3, 0xd5a79147, 0x06ca6351, 0x14292967,
   0x27b70a85, 0x2e1b2138, 0x4d2c6dfc, 0x53380d13, 0x650a7354, 0x766a0abb, 0x81c2c92e, 0x92722c85,
   0xa2bfe8a1, 0xa81a664b, 0xc24b8b70, 0xc76c51a3, 0xd192e819, 0xd6990624, 0xf40e3585, 0x106aa070,
   0x19a4c116, 0x1e376c08, 0x2748774c, 0x34b0bcb5, 0x391c0cb3, 0x4ed8aa4a, 0x5b9cca4f, 0x682e6ff3,
   0x748f82ee, 0x78a5636f, 0x84c87814, 0x8cc70208, 0x90befffa, 0xa4506ceb, 0xbef9a3f7, 0xc67178f2]

/-- A word with its bits moved to the right in a circle. -/
def rotate (w n : UInt32) : UInt32 := (w >>> n) ||| (w <<< (32 - n))

/-- One round, with the sum of its constant and its word. -/
def round (x : Chain) (word : UInt32) : Chain :=
  let s1 := rotate x.e 6 ^^^ rotate x.e 11 ^^^ rotate x.e 25
  let choice := (x.e &&& x.f) ^^^ (~~~x.e &&& x.g)
  let t1 := x.h + s1 + choice + word
  let s0 := rotate x.a 2 ^^^ rotate x.a 13 ^^^ rotate x.a 22
  let majority := (x.a &&& x.b) ^^^ (x.a &&& x.c) ^^^ (x.b &&& x.c)
  ⟨t1 + (s0 + majority), x.a, x.b, x.c, x.d + t1, x.e, x.f, x.g⟩

/-- The word that follows sixteen others. -/
def follow (words : List UInt32) : UInt32 :=
  let early := words.getD 1 0
  let late := words.getD 14 0
  let s0 := rotate early 7 ^^^ rotate early 18 ^^^ (early >>> 3)
  let s1 := rotate late 17 ^^^ rotate late 19 ^^^ (late >>> 10)
  s1 + words.getD 9 0 + s0 + words.headD 0

/-- All rounds; `words` are the next sixteen. -/
def rounds (words : List UInt32) (x : Chain) : (constants : List UInt32) → Chain
  | [] => x
  | k :: ks => rounds (words.drop 1 ++ [follow words]) (round x (words.headD 0 + k)) ks

/-- The words of a block. -/
def wordsOf : Octets → List UInt32
  | a :: b :: c :: d :: rest => UInt32.ofNat (Octets.toNat [a, b, c, d]) :: wordsOf rest
  | _ => []

/-- The chain after a block of 64 bytes. -/
def compress (x : Chain) (block : Octets) : Chain := x.add (rounds (wordsOf block) x constants)

/-- A hasher: the chain after all complete blocks, the bytes of the block at hand, last first, and how
    many bytes there have been. -/
structure Hasher where
  chain : Chain
  pending : Octets
  count : Nat

namespace Hasher

/-- A hasher that has been given nothing. -/
def start : Hasher := ⟨.initial, [], 0⟩

/-- The hasher after one more byte. -/
def push (h : Hasher) (b : UInt8) : Hasher :=
  if h.count % 64 = 63 then ⟨compress h.chain (b :: h.pending).reverse, [], h.count + 1⟩
  else ⟨h.chain, b :: h.pending, h.count + 1⟩

/-- The hasher after more bytes. -/
def feed (h : Hasher) (bytes : Octets) : Hasher := bytes.foldl push h

/-- What follows the last byte: a mark, zeros up to the end of a block, and the count in bits. -/
def trailer (count : Nat) : Octets :=
  128 :: List.replicate ((119 - count % 64) % 64) 0 ++ Octets.ofNat 8 (8 * count)

/-- The digest of all bytes so far. -/
def finish (h : Hasher) : Octets := (h.feed (trailer h.count)).chain.toOctets

end Hasher

/-- The digest of a byte string. -/
def digest (bytes : Octets) : Octets := (Hasher.start.feed bytes).finish

end SealedDownload.Sha256
