/-! The sizes that senders pad to. A plaintext grows to the next power of 1.05, so that the length of
    its ciphertext tells little about it. -/

namespace SealedDownload

/-- The least size that a plaintext is padded to. -/
def minPaddedSize : Nat := 541

/-- The size that a plaintext is padded to: the whole part of the least power of 1.05 with a whole
    exponent that is not below its size, as far as doubles tell. -/
def paddedSize (size : Nat) : Nat :=
  if size ≤ 1 then minPaddedSize
  else
    let exponent := ((UInt64.ofNat size).toFloat.log / (1.05 : Float).log).ceil
    max minPaddedSize ((1.05 : Float).pow exponent).floor.toUInt64.toNat

/-- The size of the ciphertext of a plaintext that has been padded: the padding of the last block, one
    vector and one code are added. -/
def sealedSize (padded : Nat) : Nat := padded + (16 - padded % 16) + 48

/-- The size of the ciphertext that is expected for the size of a plaintext. -/
def estimatedSize (size : Nat) : Nat := sealedSize (paddedSize size)

end SealedDownload
