import SealedDownload.Sealing.Aes
import SealedDownload.Sealing.Hmac
import SealedDownload.Request

/-! The format of a sealed attachment: an initial vector of 16 bytes, the blocks of the padded
    plaintext, each chained to the one before, and the code of both. Opening checks lengths, code and
    digest before it decrypts anything. -/

namespace SealedDownload.Envelope

/-- The length of a block and of the initial vector. -/
def blockLength : Nat := 16

/-- The length of the code. -/
def macLength : Nat := 32

/-- The bytes of a file that are not body. -/
def overhead : Nat := blockLength + macLength

/-- The least length of a file, which has a body of one block. -/
def minLength : Nat := overhead + blockLength

/-- A byte string cut into pieces of a size, which counts as one if it is zero; the last piece may be
    shorter. -/
def pieces (size : Nat) : Octets → List Octets
  | [] => []
  | b :: rest => (b :: rest.take (size - 1)) :: pieces size (rest.drop (size - 1))
termination_by bytes => bytes.length
decreasing_by simp only [List.length_drop, List.length_cons]; omega

/-- The blocks of a byte string. -/
def blocks (bytes : Octets) : List Aes.Block := (pieces blockLength bytes).map Aes.Block.ofOctets

/-! ### Parts of a file -/

/-- The initial vector. -/
def vector (file : Octets) : Octets := file.take blockLength

/-- All but the code. -/
def signed (file : Octets) : Octets := file.take (file.length - macLength)

/-- The code. -/
def mac (file : Octets) : Octets := file.drop (file.length - macLength)

/-- The blocks between the vector and the code. -/
def body (file : Octets) : Octets := (signed file).drop blockLength

/-! ### Padding -/

/-- Fills the last block, or adds one: each byte added tells how many there are. -/
def pad (plain : Octets) : Octets :=
  let count := blockLength - plain.length % blockLength
  plain ++ List.replicate count (UInt8.ofNat count)

/-- How many bytes of padding a block says that it has. -/
def paddingCount (block : Octets) : Nat := (block.getD (blockLength - 1) 0).toNat

/-- Takes the padding away, if there is any. -/
def unpad? (plain : Octets) : Option Octets :=
  let count := (plain.getLastD 0).toNat
  let rest := plain.length - count
  if count = 0 ∨ blockLength < count ∨ plain.length < count then none
  else if (plain.drop rest).all fun b => b.toNat = count then some (plain.take rest)
  else none

/-! ### Chaining -/

/-- Encrypts blocks; each is first added to the encrypted one before it. -/
def chain (keys : List Aes.Block) (previous : Aes.Block) : List Aes.Block → List Aes.Block
  | [] => []
  | block :: rest =>
    let sealed := Aes.encrypt keys (block.add previous)
    sealed :: chain keys sealed rest

/-- Decrypts blocks, and adds to each the encrypted one before it. -/
def unchain (keys : List Aes.Block) (vector : Aes.Block) (sealed : List Aes.Block) : List Aes.Block :=
  List.zipWith (fun block previous => (Aes.decrypt keys block).add previous) sealed
    (vector :: sealed)

/-- The bytes of blocks. -/
def bytesOf (blocks : List Aes.Block) : Octets := blocks.flatMap Aes.Block.toOctets

/-! ### Sealing and opening -/

/-- The file that a sender makes of a plaintext. -/
def sealWith (key : Key) (vector plain : Octets) : Octets :=
  let keys := Aes.roundKeys key.cipherHalf
  let signed := vector ++ bytesOf (chain keys (.ofOctets vector) (blocks (pad plain)))
  signed ++ Hmac.code key.macHalf signed

/-- The padded plaintext of a file. -/
def decrypted (key : Key) (file : Octets) : Octets :=
  bytesOf (unchain (Aes.roundKeys key.cipherHalf) (.ofOctets (vector file)) (blocks (body file)))

/-- Whether a file is one that the holder of the key has made, and the one that the digest names. -/
def verify (key : Key) (digest : Option Octets) (file : Octets) : Except SealFault Unit :=
  if file.length < minLength then .error (.tooShort file.length)
  else if (file.length - overhead) % blockLength ≠ 0 then .error (.misaligned (file.length - overhead))
  else if Hmac.code key.macHalf (signed file) ≠ mac file then .error .badMac
  else match digest with
    | some expected => if Sha256.digest file = expected then .ok () else .error .digestMismatch
    | none => .ok ()

/-- A plaintext cut to its declared length, which must not exceed its own. -/
def cutTo (declared : Option Nat) (plain : Octets) : Except SealFault Octets :=
  match declared with
  | none => .ok plain
  | some length =>
    if plain.length < length then .error (.plaintextLengthMismatch length plain.length)
    else .ok (plain.take length)

/-- The plaintext of a file. -/
def openWith (key : Key) (digest : Option Octets) (declared : Option Nat) (file : Octets) :
    Except SealFault Octets := do
  verify key digest file
  match unpad? (decrypted key file) with
  | none => .error .invalidPadding
  | some plain => cutTo declared plain

end SealedDownload.Envelope
