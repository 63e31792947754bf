import SealedDownload.Sealing.Sha256

/-! Message authentication with SHA-256: the digest of the message behind one form of the key, and the
    digest of that behind another. -/

namespace SealedDownload.Hmac

open Sha256

/-- A key brought to the length of a block. -/
def blockKey (key : Octets) : Octets :=
  let key := if 64 < key.length then digest key else key
  key ++ List.replicate (64 - key.length) 0

/-- A key with a mask on each byte. -/
def masked (key : Octets) (mask : UInt8) : Octets := (blockKey key).map (· ^^^ mask)

/-- The hasher of the message, before the message. -/
def start (key : Octets) : Hasher := Hasher.start.feed (masked key 54)

/-- The code, once the hasher has been given the message. -/
def finish (key : Octets) (h : Hasher) : Octets := digest (masked key 92 ++ h.finish)

/-- The code of a message. -/
def code (key message : Octets) : Octets := finish key ((start key).feed message)

end SealedDownload.Hmac
