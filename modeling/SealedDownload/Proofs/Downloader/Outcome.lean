import SealedDownload.Proofs.Downloader.CutOff
import SealedDownload.Proofs.Downloader.Contents
import SealedDownload.Proofs.Sealing.Authentication

/-! What has come of an attachment when its caller is told. It has been opened, and then every check has been made on
    the very bytes that the product was decrypted from; or it has failed, and then nothing of it is left. -/

namespace SealedDownload

namespace Downloader

variable {d₀ d d' : Downloader} {action : Action} {actions : List Action} {i : Nat} {x : Download}
  {request : Request} {ceiling : Nat}

/-! ### When a download was asked for -/

/-- The call of a download has been accepted in a run, at a moment when `ceiling` was that of attachments. -/
def Asked (d₀ : Downloader) (actions : List Action) (i : Nat) (request : Request) (ceiling : Nat) : Prop :=
  ∃ earlier later caller e e', actions = earlier ++ .ask request caller :: later ∧ d₀.run? earlier = some e ∧
    e.ask request caller = .ok e' ∧ e.downloads.length = i ∧ e.ceiling = ceiling

theorem Asked.append (h : d₀.Asked actions i request ceiling) (later : List Action) :
    d₀.Asked (actions ++ later) i request ceiling := by
  obtain ⟨before, after, caller, e, e', rfl, hr, ha, hi, hc⟩ := h
  exact ⟨before, after ++ later, caller, e, e', by simp, hr, ha, hi, hc⟩

/-- What is true of an attachment whose caller has been given a product. -/
structure Received (d₀ : Downloader) (actions : List Action) (d : Downloader) (i : Nat) (request : Request)
    (product : Product) (metadata : Metadata) (path : Path) (bytes whole plain : Octets) : Prop where
  described : request.metadata? = some metadata
  /-- the last ciphertext that the transport has handed over for it is the one that has been opened -/
  handed : (handedTo i actions).getLast? = some (path, bytes)
  small : ∃ ceiling, d₀.Asked actions i request ceiling ∧ bytes.length ≤ ceiling
  authentic : Hmac.code metadata.key.macHalf (Envelope.signed bytes) = Envelope.mac bytes
  matching : ∀ digest, metadata.digest = some digest → Sha256.digest bytes = digest
  deciphered : Envelope.unpad? (Envelope.decrypted metadata.key bytes) = some whole
  cut : Envelope.cutTo (metadata.plaintextLength.map UInt32.toNat) whole = .ok plain
  filled : request.kind = .attachment → plain ≠ []
  /-- the product names its file, and that of an attachment its type and the length of the plaintext -/
  shaped : product = request.product product.path plain.length
  stored : d.shared.files.get? product.path = some plain
  bare : Bare d.shared.files (handedTo i actions)

/-- What is true of an attachment that has failed: none of its ciphertexts is there, the work has left no new file,
    and every token has gone into the next call or been given up. -/
structure Cleared (d₀ : Downloader) (actions : List Action) (d : Downloader) (i : Nat) (start : Transfer) : Prop where
  bare : Bare d.shared.files (handedTo i actions)
  unwritten : d₀.written i actions = []
  dealt : start.dealings (d₀.inputs i actions) = Transfer.ledger none (start.answers (d₀.inputs i actions))
  discarded : ∀ token, ((start.answers (d₀.inputs i actions)).getLast?.bind Transfer.tokenOf) = some token →
    .discard token ∈ d.demands

theorem Whole.received {limit : Nat} {product : Product} {metadata : Metadata} {path : Path} {bytes plain : Octets}
    (h : Whole d.shared.files (handedTo i actions) request limit product metadata path bytes plain)
    (ha : d₀.Asked actions i request limit) :
    ∃ whole, d₀.Received actions d i request product metadata path bytes whole plain := by
  obtain ⟨hcode, hdigest, whole, hwhole, hcut⟩ := Envelope.checks_of_openWith h.opened
  exact ⟨whole, h.described, h.last, ⟨limit, ha, h.small⟩, hcode, hdigest, hwhole, hcut, h.filled, h.shaped, h.stored,
    h.bare⟩

end Downloader
end SealedDownload
