import SealedDownload.Proofs.Downloader.Shutdown
import SealedDownload.Proofs.Sealing.RoundTrip
import SealedDownload.Proofs.Transfer.Ceiling

/-! The size that is estimated for an attachment, and the file that its sender makes. The estimate is the length of that
    file, whatever the padded size is, so that a request is refused just where its file would be found too large once
    it has come; and the file of a request that is not refused opens to the plaintext. -/

namespace SealedDownload

namespace Envelope

variable {key : Key} {first plain : Octets} {digest : Option Octets} {files : Files} {input output : Path}

/-- A plaintext with zeros behind it, up to the size that senders pad to. -/
def filled (plain : Octets) : Octets := plain ++ List.replicate (paddedSize plain.length - plain.length) 0

/-- The file that a sender makes of a plaintext. -/
def sentFile (key : Key) (first plain : Octets) : Octets := sealWith key first (filled plain)

theorem length_filled (h : plain.length ≤ paddedSize plain.length) : (filled plain).length = paddedSize plain.length := by
  rw [filled, List.length_append, List.length_replicate, Nat.add_sub_cancel' h]

theorem cutTo_filled : cutTo (some plain.length) (filled plain) = .ok plain := by
  have hl : plain.length ≤ (filled plain).length := by
    rw [filled, List.length_append]
    exact Nat.le_add_right _ _
  rw [cutTo_of_le hl, filled, List.take_left]

/-- The size of a sealed file, of which the last block is filled, or one is added. -/
theorem sealedSize_eq_length (hv : first.length = blockLength) :
    sealedSize plain.length = (sealWith key first plain).length := by
  have hm : plain.length % 16 < 16 := Nat.mod_lt _ (by decide)
  have hp : (pad plain).length = plain.length + (16 - plain.length % 16) := by
    rw [pad, List.length_append, List.length_replicate, blockLength]
  rw [length_sealWith key plain hv, hp, sealedSize, overhead, blockLength, macLength]
  omega

theorem estimatedSize_eq_length (hv : first.length = blockLength) (hp : plain.length ≤ paddedSize plain.length) :
    estimatedSize plain.length = (sentFile key first plain).length := by
  rw [estimatedSize, ← length_filled hp, sentFile, sealedSize_eq_length hv]

theorem openFile_sentFile (hv : first.length = blockLength) (hf : files.get? input = some (sentFile key first plain))
    (hio : input ≠ output) (hd : digest = none ∨ digest = some (Sha256.digest (sentFile key first plain))) :
    openFile files input key digest (some plain.length) output = (.ok plain.length, files.write output plain) := by
  have hown : ∀ expected, digest = some expected → Sha256.digest (sentFile key first plain) = expected := by
    rintro expected rfl
    rcases hd with hd | hd
    · cases hd
    · exact (Option.some.inj hd).symm
  exact openFile_sealWith_of_ok hv hf hio hown cutTo_filled

end Envelope

namespace Downloader

open Envelope

variable {d : Downloader} {request : Request} {metadata : Metadata} {length : UInt32} {first plain : Octets} {limit : Nat}

/-- How the estimate for a request agrees with a file of which a plaintext has the declared length. -/
structure Estimated (d : Downloader) (request : Request) (metadata : Metadata) (plain file : Octets) : Prop where
  /-- the estimate is the size of the file -/
  size : estimatedSize plain.length = file.length
  /-- the request is refused if and only if the file is above the ceiling -/
  refused : (∃ limit observed, d.limitFor request = .error (.oversize limit observed)) ↔ d.ceiling < file.length
  /-- and in no other way -/
  accepted : d.limitFor request = .ok d.ceiling ↔ file.length ≤ d.ceiling
  /-- a request that is not refused has a ceiling below which no part of the file counts as too large -/
  reported : ∀ limit, d.limitFor request = .ok limit → ∀ completed total, completed ≤ file.length →
    (∀ size ∈ total, size ≤ file.length) → Transfer.excess? limit completed total = none
  /-- nor does the file, once it has come -/
  measured : ∀ limit, d.limitFor request = .ok limit → ∀ (e : Downloader) (t : Transfer) path draw,
    e.shared.files.get? path = some file → t.phase = .measuring path → t.limit = limit →
      t.step (.measure (e.sizeOf path) draw) =
        (t.finish (.ok path), [.emit (.transferComplete t.id (UInt64.ofNat file.length))])
  /-- and it opens to the plaintext, with its own digest or without one -/
  opened : ∀ (files : Files) input output digest, files.get? input = some file → input ≠ output →
    digest = none ∨ digest = some (Sha256.digest file) →
      openFile files input metadata.key digest (metadata.plaintextLength.map UInt32.toNat) output =
        (.ok plain.length, files.write output plain)

theorem step_measuring {t : Transfer} {e : Downloader} {path : Path} {file : Octets} (hf : e.shared.files.get? path = some file)
    (hp : t.phase = .measuring path) (hl : file.length ≤ t.limit) (draw : Float) :
    t.step (.measure (e.sizeOf path) draw) =
      (t.finish (.ok path), [.emit (.transferComplete t.id (UInt64.ofNat file.length))]) := by
  have hs : e.sizeOf path = .ok file.length := by
    unfold sizeOf
    rw [hf]
  rw [hs]
  simp only [Transfer.step, hp, Transfer.measure, if_neg (Nat.not_lt.mpr hl)]

theorem limitFor_of_length (hm : request.metadata? = some metadata) (hl : metadata.plaintextLength = some length) :
    d.limitFor request =
      if d.ceiling < estimatedSize length.toNat then .error (.oversize d.ceiling (estimatedSize length.toNat))
      else .ok d.ceiling := by
  simp only [limitFor, hm, hl]

theorem limitFor_eq_ok_iff (hm : request.metadata? = some metadata) (hl : metadata.plaintextLength = some length) :
    d.limitFor request = .ok limit ↔ limit = d.ceiling ∧ estimatedSize length.toNat ≤ d.ceiling := by
  rw [limitFor_of_length hm hl]
  split
  · rename_i hlt
    refine iff_of_false (fun h => ?_) fun h => absurd h.2 (Nat.not_le.mpr hlt)
    cases h
  · rename_i hle
    exact ⟨fun h => ⟨(Except.ok.inj h).symm, Nat.le_of_not_lt hle⟩, fun h => by rw [h.1]⟩

theorem limitFor_oversize_iff (hm : request.metadata? = some metadata) (hl : metadata.plaintextLength = some length) :
    (∃ limit observed, d.limitFor request = .error (.oversize limit observed)) ↔
      d.ceiling < estimatedSize length.toNat := by
  rw [limitFor_of_length hm hl]
  split
  · rename_i hlt
    exact iff_of_true ⟨_, _, rfl⟩ hlt
  · rename_i hle
    refine iff_of_false ?_ hle
    rintro ⟨limit, observed, h⟩
    cases h

/-- The estimate for a declared length agrees with the file that a sender makes of any plaintext of that length. -/
theorem estimated_of_sent (hm : request.metadata? = some metadata) (hl : metadata.plaintextLength = some length)
    (hn : plain.length = length.toNat) (hv : first.length = blockLength)
    (hp : length.toNat ≤ paddedSize length.toNat) :
    d.Estimated request metadata plain (sentFile metadata.key first plain) := by
  have hsize : estimatedSize plain.length = (sentFile metadata.key first plain).length :=
    estimatedSize_eq_length hv (hn ▸ hp)
  have hok : ∀ limit, d.limitFor request = .ok limit ↔
      limit = d.ceiling ∧ (sentFile metadata.key first plain).length ≤ d.ceiling := by
    intro limit
    rw [limitFor_eq_ok_iff hm hl, ← hn, hsize]
  refine ⟨hsize, ?_, ?_, ?_, ?_, ?_⟩
  · rw [limitFor_oversize_iff hm hl, ← hn, hsize]
  · rw [hok]
    exact and_iff_right rfl
  · intro limit h completed total hc ht
    obtain ⟨rfl, hle⟩ := (hok limit).mp h
    exact Transfer.excess?_eq_none_iff.mpr ⟨Nat.le_trans hc hle, fun size hs => Nat.le_trans (ht size hs) hle⟩
  · intro limit h e t path draw hf hph htl
    obtain ⟨rfl, hle⟩ := (hok limit).mp h
    exact step_measuring hf hph (htl ▸ hle) draw
  · intro files input output digest hf hio hd
    rw [hl, Option.map_some, ← hn]
    exact openFile_sentFile hv hf hio hd

/-- One byte, which is filled up to 541 and sealed: the request for it is refused below 592 bytes, and not at 592. -/
theorem estimated_of_sent_byte :
    let metadata : Metadata := ⟨"image/jpeg", 2, "abc", ⟨List.replicate 64 0, by decide⟩, none, some 1⟩
    let file := sentFile metadata.key (List.replicate 16 3) [104]
    file.length = 592 ∧
      (∃ limit observed, (withCancelled.setCeiling 591).limitFor (.transient metadata) =
        .error (.oversize limit observed)) ∧
      (withCancelled.setCeiling 592).limitFor (.transient metadata) = .ok 592 ∧
      openFile (Files.empty.write "sealed" file) "sealed" metadata.key none (some 1) "plain" =
        (.ok 1, (Files.empty.write "sealed" file).write "plain" [104]) := by
  intro metadata file
  have hp : (1 : UInt32).toNat ≤ paddedSize (1 : UInt32).toNat := by decide
  have hsmall : (withCancelled.setCeiling 591).Estimated (.transient metadata) metadata [104] file :=
    estimated_of_sent rfl rfl rfl rfl hp
  have hlarge : (withCancelled.setCeiling 592).Estimated (.transient metadata) metadata [104] file :=
    estimated_of_sent rfl rfl rfl rfl hp
  have hl : file.length = 592 := hsmall.size.symm
  have hlt : (withCancelled.setCeiling 591).ceiling < file.length := by
    rw [hl]
    decide
  refine ⟨hl, hsmall.refused.mpr hlt, hlarge.accepted.mpr (Nat.le_of_eq hl), ?_⟩
  exact hlarge.opened _ "sealed" "plain" none (Files.get?_write _ _ _) (by decide) (Or.inl rfl)

end Downloader
end SealedDownload
