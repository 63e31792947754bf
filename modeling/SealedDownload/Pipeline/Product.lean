import SealedDownload.Sealing.Opening

/-! What comes of a ciphertext: a plaintext file, or an attachment that has been found good; and the
    two works that make them. -/

namespace SealedDownload

/-- An attachment that has been found good and waits to be stored. -/
structure Pending where
  path : Path
  mimeType : String
  byteCount : Nat
deriving DecidableEq, Inhabited

/-- The result of opening a ciphertext. -/
inductive Product where
  | plaintext (path : Path)
  | attachment (pending : Pending)
deriving DecidableEq, Inhabited

namespace Product

/-- The file that a result owns. -/
def path : Product → Path
  | .plaintext path => path
  | .attachment pending => pending.path

/-- The files without the one that a result owns. -/
def discard (product : Product) (files : Files) : Files := files.erase product.path

end Product

/-! ### Validators -/

/-- What decides whether a ciphertext holds a good attachment. On success it owns the ciphertext. -/
abbrev Validator := Metadata → Files → Path → Checked Pending × Files

namespace Validator

/-- Opens the ciphertext into a file drawn in a folder. On success the ciphertext is gone, and on a failure the new
    file; an empty attachment is not good. -/
def decrypting (folder : Path) : Validator := fun metadata files ciphertext =>
  match files.makeFolder folder with
  | .error failure => (.error (.failed failure), files)
  | .ok files =>
    let output := files.nextPath folder "plaintext"
    let (opened, files) := Envelope.openFile files.draw ciphertext metadata.key metadata.digest
      (metadata.plaintextLength.map UInt32.toNat) output
    match opened with
    | .error .crashed => (.error .crashed, files)
    | .error (.failed failure) => (.error (.failed failure), files.erase output)
    | .ok count =>
      if count = 0 then (Checked.fail (.validation "attachment is empty"), files.erase output)
      else (.ok ⟨output, metadata.mimeType, count⟩, files.erase ciphertext)

/-- Finds every ciphertext good and hands it on as it is. -/
def keeping : Validator := fun metadata files ciphertext =>
  match files.get? ciphertext with
  | some bytes => (.ok ⟨ciphertext, metadata.mimeType, bytes.length⟩, files)
  | none => (Checked.fail (.io .notFound none), files)

/-- Finds no ciphertext good. -/
def rejecting : Validator := fun metadata files _ =>
  (Checked.fail (.validation ("rejected " ++ metadata.mimeType)), files)

end Validator

/-! ### Works -/

/-- How a work ends: with a result, or not at all. -/
inductive Outcome where
  | returned (result : Except Failure Product)
  | crashed

/-- How a work ends whose result is computed in this way. -/
def Outcome.ofChecked : Checked Product → Outcome
  | .ok product => .returned (.ok product)
  | .error (.failed failure) => .returned (.error failure)
  | .error .crashed => .crashed

/-- What is done with a ciphertext. -/
abbrev Work := Files → Path → Outcome × Files

namespace Work

/-- Opens the ciphertext into a file drawn in a folder. On success the ciphertext is gone, and on a failure the new
    file. -/
def decrypt (folder : Path) (metadata : Metadata) : Work := fun files ciphertext =>
  match files.makeFolder folder with
  | .error failure => (.returned (.error failure), files)
  | .ok files =>
    let output := files.nextPath folder "plaintext"
    let (opened, files) := Envelope.openFile files.draw ciphertext metadata.key metadata.digest
      (metadata.plaintextLength.map UInt32.toNat) output
    match opened with
    | .error .crashed => (.crashed, files)
    | .error (.failed failure) => (.returned (.error failure), files.erase output)
    | .ok _ => (.returned (.ok (.plaintext output)), files.erase ciphertext)

/-- Hands the ciphertext to a validator. -/
def validate (validator : Validator) (metadata : Metadata) : Work := fun files ciphertext =>
  let (found, files) := validator metadata files ciphertext
  (.ofChecked (found.map .attachment), files)

end Work
end SealedDownload
