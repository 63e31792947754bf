import SealedDownload.Sealing.Envelope
import SealedDownload.Checked
import SealedDownload.Files

/-! Opening a sealed file piece by piece. A first pass checks code and digest; a second one decrypts
    and writes. The last block of each piece is held back until more follows, because it may be the one
    with the padding, and the writer drops what exceeds the declared length. -/

namespace SealedDownload.Envelope

open Checked

/-- The length of the buffer that a piece is read into, a multiple of the length of a block. -/
def pieceLength : Nat := 65536

/-! ### Writing up to a limit -/

/-- What has been written, how much it is, and the limit from which on bytes are dropped. -/
structure Writer where
  limit : Option Nat
  written : Octets
  count : Nat

/-- A computation that writes; what has been written before it is halted stays written. -/
abbrev Writing := EStateM Halt Writer

/-- How many of some bytes still fit. -/
def Writer.room (w : Writer) (size : Nat) : Nat :=
  match w.limit with
  | none => size
  | some limit => min (limit - w.count) size

/-- Writes the bytes that fit. -/
def write (bytes : Octets) : Writing Unit := do
  let w ← get
  let allowed := w.room bytes.length
  require (allowed ≤ bytes.length)
  set { w with written := w.written ++ bytes.take allowed, count := w.count + allowed }

/-! ### The first pass -/

/-- The hashers of both checks. -/
structure Checker where
  code : Sha256.Hasher
  digest : Sha256.Hasher

/-- The checker after one more piece. -/
def Checker.feed (c : Checker) (piece : Octets) : Checker :=
  ⟨c.code.feed piece, c.digest.feed piece⟩

/-- The checker after the next bytes of a file, as many as remain to be fed, and what the file has left
    then. -/
def Checker.feedNext (c : Checker) (remaining : Nat) (left : Octets) : Checked (Checker × Octets) :=
  if remaining = 0 then pure (c, left)
  else do
    let count := min remaining pieceLength
    require (count ≤ pieceLength)
    let (piece, left) ← read count left
    require (count ≤ remaining)
    (c.feed piece).feedNext (remaining - count) left
termination_by remaining
decreasing_by simp only [pieceLength]; omega

/-- Checks code and digest of a file. -/
def authenticate (key : Key) (digest : Option Octets) (file : Octets) : Checked Unit := do
  require (macLength ≤ file.length)
  let (c, left) ← Checker.feedNext ⟨Hmac.start key.macHalf, .start⟩ (file.length - macLength) file
  let (code, _) ← read macLength left
  if Hmac.finish key.macHalf c.code ≠ code then fail (.decryption .badMac)
  else match digest with
    | some expected =>
      if (c.digest.feed code).finish = expected then pure () else fail (.decryption .digestMismatch)
    | none => pure ()

/-! ### The second pass -/

/-- What is carried from piece to piece: what the file has left, the last encrypted block, and the last
    decrypted one, which is not written yet. Before the first piece there is none to write. -/
structure Opener where
  left : Octets
  previous : Aes.Block
  held : Octets
  holding : Bool

/-- Decrypts blocks one by one; with them comes the last encrypted one. -/
def decryptBlocks (keys : List Aes.Block) (previous : Aes.Block) :
    List Aes.Block → List Aes.Block × Aes.Block
  | [] => ([], previous)
  | block :: rest =>
    let (plain, last) := decryptBlocks keys block rest
    ((Aes.decrypt keys block).add previous :: plain, last)

/-- Decrypts the complete blocks of a piece; what follows them stays as it is. -/
def decryptPiece (keys : List Aes.Block) (previous : Aes.Block) (piece : Octets) : Octets × Aes.Block :=
  let whole := piece.length / blockLength * blockLength
  let (plain, last) := decryptBlocks keys previous (blocks (piece.take whole))
  (bytesOf plain ++ piece.drop whole, last)

namespace Opener

/-- Writes the block that is held back, if there is one. -/
def writeHeld (o : Opener) : Writing Unit := if o.holding then write o.held else pure ()

/-- Reads a piece, decrypts it, and writes all but its last block, behind the one held back before. -/
def turn (keys : List Aes.Block) (count : Nat) (o : Opener) : Writing Opener := do
  require (count ≤ pieceLength)
  let (piece, left) ← read count o.left
  let (plain, previous) := decryptPiece keys o.previous piece
  o.writeHeld
  require (blockLength ≤ count ∧ count - blockLength ≤ plain.length)
  let (body, last) := plain.splitAt (count - blockLength)
  write body
  require (last.length = blockLength)
  return ⟨left, previous, last, true⟩

/-- One piece after the other, until nothing remains. -/
def turns (keys : List Aes.Block) (remaining : Nat) (o : Opener) : Writing Opener :=
  if remaining = 0 then pure o
  else do
    let count := min remaining pieceLength
    let o ← o.turn keys count
    require (count ≤ remaining)
    o.turns keys (remaining - count)
termination_by remaining
decreasing_by simp only [pieceLength]; omega

/-- Takes the padding off the block that is held back, writes the rest of it, and compares the length of
    all with the declared one. -/
def finish (declared : Option Nat) (length : Nat) (o : Opener) : Writing Nat := do
  require (blockLength - 1 < o.held.length)
  let count := paddingCount o.held
  if count = 0 ∨ blockLength < count then fail (.decryption .invalidPadding)
  else do
    require (blockLength - count ≤ o.held.length)
    let (rest, padding) := o.held.splitAt (blockLength - count)
    if ¬padding.all fun b => b.toNat = count then fail (.decryption .invalidPadding)
    else do
      write rest
      require (count ≤ length)
      match declared with
      | some declared =>
        if length - count < declared then
          fail (.decryption (.plaintextLengthMismatch declared (length - count)))
        else return (← get).count
      | none => return (← get).count

end Opener

/-! ### Both passes -/

/-- All that is done before the output is begun: the checks, and reading the initial vector. -/
def begin (key : Key) (digest : Option Octets) (file : Octets) : Checked Opener := do
  if file.length < minLength then fail (.decryption (.tooShort file.length))
  else do
    require (overhead ≤ file.length)
    if (file.length - overhead) % blockLength ≠ 0 then
      fail (.decryption (.misaligned (file.length - overhead)))
    else do
      authenticate key digest file
      let (vector, left) ← read blockLength file
      if key.cipherHalf.length ≠ 32 then fail (.decryption .invalidKey)
      else return ⟨left, .ofOctets vector, List.replicate blockLength 0, false⟩

/-- Decrypts what is between vector and code, as many bytes as `length` says. -/
def decryptLeft (key : Key) (declared : Option Nat) (length : Nat) (o : Opener) : Writing Nat := do
  let o ← o.turns (Aes.roundKeys key.cipherHalf) length
  o.finish declared length

/-- Opens the file at one path into the file at another; the number of bytes written is returned. An
    output that is the input is emptied when it is begun, and leaves nothing to read. -/
def openFile (files : Files) (input : Path) (key : Key) (digest : Option Octets)
    (declared : Option Nat) (output : Path) : Checked Nat × Files :=
  match files.get? input with
  | none => (fail (.io .notFound none), files)
  | some file =>
    match begin key digest file with
    | .error halt => (.error halt, files)
    | .ok o =>
      let o := if input = output then { o with left := [] } else o
      match (decryptLeft key declared (file.length - overhead) o).run ⟨declared, [], 0⟩ with
      | .ok count w => (.ok count, files.write output w.written)
      | .error halt w => (.error halt, files.write output w.written)

end SealedDownload.Envelope
