import SealedDownload.Octets

/-! The block cipher AES with keys of 256 bits. A block is four columns of four bytes; a round
    substitutes the bytes, shifts the rows, mixes the columns and adds a key. Reading undoes the steps
    in the opposite order. -/

namespace SealedDownload.Aes

/-! ### Bytes -/

/-- The value that a byte is replaced by. -/
def substitutes : Array UInt8 :=
  #[99, 124, 119, 123, 242, 107, 111, 197, 48, 1, 103, 43, 254, 215, 171, 118,
    202, 130, 201, 125, 250, 89, 71, 240, 173, 212, 162, 175, 156, 164, 114, 192,
    183, 253, 147, 38, 54, 63, 247, 204, 52, 165, 229, 241, 113, 216, 49, 21,
    4, 199, 35, 195, 24, 150, 5, 154, 7, 18, 128, 226, 235, 39, 178, 117,
    9, 131, 44, 26, 27, 110, 90, 160, 82, 59, 214, 179, 41, 227, 47, 132,
    83, 209, 0, 237, 32, 252, 177, 91, 106, 203, 190, 57, 74, 76, 88, 207,
    208, 239, 170, 251, 67, 77, 51, 133, 69, 249, 2, 127, 80, 60, 159, 168,
    81, 163, 64, 143, 146, 157, 56, 245, 188, 182, 218, 33, 16, 255, 243, 210,
    205, 12, 19, 236, 95, 151, 68, 23, 196, 167, 126, 61, 100, 93, 25, 115,
    96, 129, 79, 220, 34, 42, 144, 136, 70, 238, 184, 20, 222, 94, 11, 219,
    224, 50, 58, 10, 73, 6, 36, 92, 194, 211, 172, 98, 145, 149, 228, 121,
    231, 200, 55, 109, 141, 213, 78, 169, 108, 86, 244, 234, 101, 122, 174, 8,
    186, 120, 37, 46, 28, 166, 180, 198, 232, 221, 116, 31, 75, 189, 139, 138,
    112, 62, 181, 102, 72, 3, 246, 14, 97, 53, 87, 185, 134, 193, 29, 158,
    225, 248, 152, 17, 105, 217, 142, 148, 155, 30, 135, 233, 206, 85, 40, 223,
    140, 161, 137, 13, 191, 230, 66, 104, 65, 153, 45, 15, 176, 84, 187, 22]

/-- The byte that each value has replaced. -/
def preimages : Array UInt8 :=
  #[82, 9, 106, 213, 48, 54, 165, 56, 191, 64, 163, 158, 129, 243, 215, 251,
    124, 227, 57, 130, 155, 47, 255, 135, 52, 142, 67, 68, 196, 222, 233, 203,
    84, 123, 148, 50, 166, 194, 35, 61, 238, 76, 149, 11, 66, 250, 195, 78,
    8, 46, 161, 102, 40, 217, 36, 178, 118, 91, 162, 73, 109, 139, 209, 37,
    114, 248, 246, 100, 134, 104, 152, 22, 212, 164, 92, 204, 93, 101, 182, 146,
    108, 112, 72, 80, 253, 237, 185, 218, 94, 21, 70, 87, 167, 141, 157, 132,
    144, 216, 171, 0, 140, 188, 211, 10, 247, 228, 88, 5, 184, 179, 69, 6,
    208, 44, 30, 143, 202, 63, 15, 2, 193, 175, 189, 3, 1, 19, 138, 107,
    58, 145, 17, 65, 79, 103, 220, 234, 151, 242, 207, 206, 240, 180, 230, 115,
    150, 172, 116, 34, 231, 173, 53, 133, 226, 249, 55, 232, 28, 117, 223, 110,
    71, 241, 26, 113, 29, 41, 197, 137, 111, 183, 98, 14, 170, 24, 190, 27,
    252, 86, 62, 75, 198, 210, 121, 32, 154, 219, 192, 254, 120, 205, 90, 244,
    31, 221, 168, 51, 136, 7, 199, 49, 177, 18, 16, 89, 39, 128, 236, 95,
    96, 81, 127, 169, 25, 181, 74, 13, 45, 229, 122, 159, 147, 201, 156, 239,
    160, 224, 59, 77, 174, 42, 245, 176, 200, 235, 187, 60, 131, 83, 153, 97,
    23, 43, 4, 126, 186, 119, 214, 38, 225, 105, 20, 99, 85, 33, 12, 125]

/-- Replaces a byte. -/
def sub (b : UInt8) : UInt8 := substitutes.getD b.toNat 0

/-- Undoes the replacement of a byte. -/
def unsub (b : UInt8) : UInt8 := preimages.getD b.toNat 0

/-- A byte times two, in the field of 256 elements. -/
def double (b : UInt8) : UInt8 := if 128 ≤ b then (b <<< 1) ^^^ 27 else b <<< 1

/-- A byte times three. -/
def triple (b : UInt8) : UInt8 := double b ^^^ b

/-- A byte times eight. -/
def eightfold (b : UInt8) : UInt8 := double (double (double b))

/-- A byte times nine. -/
def times9 (b : UInt8) : UInt8 := eightfold b ^^^ b

/-- A byte times eleven. -/
def times11 (b : UInt8) : UInt8 := eightfold b ^^^ double b ^^^ b

/-- A byte times thirteen. -/
def times13 (b : UInt8) : UInt8 := eightfold b ^^^ double (double b) ^^^ b

/-- A byte times fourteen. -/
def times14 (b : UInt8) : UInt8 := eightfold b ^^^ double (double b) ^^^ double b

/-! ### Columns -/

/-- Four bytes. -/
structure Column where
  a : UInt8
  b : UInt8
  c : UInt8
  d : UInt8
deriving DecidableEq, Inhabited

namespace Column

/-- The sum of two columns. -/
def add (x y : Column) : Column := ⟨x.a ^^^ y.a, x.b ^^^ y.b, x.c ^^^ y.c, x.d ^^^ y.d⟩

/-- Applies a function to each byte. -/
def map (f : UInt8 → UInt8) (x : Column) : Column := ⟨f x.a, f x.b, f x.c, f x.d⟩

/-- The bytes moved up by one, the first one to the end. -/
def rotate (x : Column) : Column := ⟨x.b, x.c, x.d, x.a⟩

/-- The product of a column with the matrix of the cipher. -/
def mix (x : Column) : Column :=
  ⟨double x.a ^^^ triple x.b ^^^ x.c ^^^ x.d, x.a ^^^ double x.b ^^^ triple x.c ^^^ x.d,
   x.a ^^^ x.b ^^^ double x.c ^^^ triple x.d, triple x.a ^^^ x.b ^^^ x.c ^^^ double x.d⟩

/-- The product of a column with the inverse of that matrix. -/
def unmix (x : Column) : Column :=
  ⟨times14 x.a ^^^ times11 x.b ^^^ times13 x.c ^^^ times9 x.d,
   times9 x.a ^^^ times14 x.b ^^^ times11 x.c ^^^ times13 x.d,
   times13 x.a ^^^ times9 x.b ^^^ times14 x.c ^^^ times11 x.d,
   times11 x.a ^^^ times13 x.b ^^^ times9 x.c ^^^ times14 x.d⟩

end Column

/-! ### Blocks -/

/-- Sixteen bytes, column by column. -/
structure Block where
  p : Column
  q : Column
  r : Column
  s : Column
deriving DecidableEq, Inhabited

namespace Block

/-- The sum of two blocks. -/
def add (x y : Block) : Block := ⟨x.p.add y.p, x.q.add y.q, x.r.add y.r, x.s.add y.s⟩

/-- Applies a function to each column. -/
def map (f : Column → Column) (x : Block) : Block := ⟨f x.p, f x.q, f x.r, f x.s⟩

/-- Moves each row to the left by its index. -/
def shift (x : Block) : Block :=
  ⟨⟨x.p.a, x.q.b, x.r.c, x.s.d⟩, ⟨x.q.a, x.r.b, x.s.c, x.p.d⟩,
   ⟨x.r.a, x.s.b, x.p.c, x.q.d⟩, ⟨x.s.a, x.p.b, x.q.c, x.r.d⟩⟩

/-- Moves each row to the right by its index. -/
def unshift (x : Block) : Block :=
  ⟨⟨x.p.a, x.s.b, x.r.c, x.q.d⟩, ⟨x.q.a, x.p.b, x.s.c, x.r.d⟩,
   ⟨x.r.a, x.q.b, x.p.c, x.s.d⟩, ⟨x.s.a, x.r.b, x.q.c, x.p.d⟩⟩

/-- Replaces every byte and shifts the rows. -/
def scramble (x : Block) : Block := (x.map (Column.map sub)).shift

/-- Undoes `scramble`. -/
def unscramble (x : Block) : Block := x.unshift.map (Column.map unsub)

/-- The column of four bytes of a list; bytes that are missing are zero. -/
def columnAt (bytes : Octets) (start : Nat) : Column :=
  ⟨bytes.getD start 0, bytes.getD (start + 1) 0, bytes.getD (start + 2) 0, bytes.getD (start + 3) 0⟩

/-- The block of the first sixteen bytes of a list. -/
def ofOctets (bytes : Octets) : Block :=
  ⟨columnAt bytes 0, columnAt bytes 4, columnAt bytes 8, columnAt bytes 12⟩

/-- The sixteen bytes of a block. -/
def toOctets (x : Block) : Octets :=
  [x.p.a, x.p.b, x.p.c, x.p.d, x.q.a, x.q.b, x.q.c, x.q.d,
   x.r.a, x.r.b, x.r.c, x.r.d, x.s.a, x.s.b, x.s.c, x.s.d]

end Block

/-! ### Keys -/

/-- The two blocks of a key, and of each step of its expansion. -/
structure KeyPair where
  low : Block
  high : Block

namespace KeyPair

/-- The pair after another one. -/
def next (k : KeyPair) (constant : UInt8) : KeyPair :=
  let p := (k.low.p.add (k.high.s.rotate.map sub)).add ⟨constant, 0, 0, 0⟩
  let q := k.low.q.add p
  let r := k.low.r.add q
  let s := k.low.s.add r
  let p' := k.high.p.add (s.map sub)
  let q' := k.high.q.add p'
  let r' := k.high.r.add q'
  ⟨⟨p, q, r, s⟩, ⟨p', q', r', k.high.s.add r'⟩⟩

/-- The blocks of a pair and of those after it, one more pair for each doubling of the constant. -/
def expand (k : KeyPair) (constant : UInt8) : (steps : Nat) → List Block
  | 0 => [k.low, k.high]
  | steps + 1 => k.low :: k.high :: (k.next constant).expand (double constant) steps

end KeyPair

/-- The key of each round: fifteen blocks from 32 bytes. -/
def roundKeys (key : Octets) : List Block :=
  ((KeyPair.mk (.ofOctets (key.take 16)) (.ofOctets (key.drop 16))).expand 1 7).take 15

/-! ### Rounds -/

/-- The rounds after the first key has been added; the last one does not mix. -/
def encryptRounds : List Block → Block → Block
  | [], x => x
  | [last], x => x.scramble.add last
  | key :: keys, x => encryptRounds keys ((x.scramble.map Column.mix).add key)

/-- Undoes `encryptRounds`. -/
def decryptRounds : List Block → Block → Block
  | [], x => x
  | [last], x => (x.add last).unscramble
  | key :: keys, x => (((decryptRounds keys x).add key).map Column.unmix).unscramble

/-- Encrypts a block with the keys of all rounds. -/
def encrypt (keys : List Block) (x : Block) : Block :=
  match keys with
  | [] => x
  | key :: keys => encryptRounds keys (x.add key)

/-- Decrypts a block with the keys of all rounds. -/
def decrypt (keys : List Block) (x : Block) : Block :=
  match keys with
  | [] => x
  | key :: keys => (decryptRounds keys x).add key

end SealedDownload.Aes
