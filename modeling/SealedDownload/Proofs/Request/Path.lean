import SealedDownload.Request
import SealedDownload.Proofs.Text.Percent

/-! Where an attachment lies. The path is the key of the attachment behind a folder name, with everything escaped in it
    that is no plain character of a path; so the key can be read off the path again. -/

namespace SealedDownload.Request

variable {request other : Request} {metadata : Metadata} {path key : String}

theorem path_of_metadata? {metadata : Metadata} (hm : request.metadata? = some metadata) :
    request.path = attachmentPath metadata.cdnKey := by
  cases request with
  | backup => cases hm
  | transient | attachment =>
    cases hm
    rfl

theorem eq_of_attachmentPath (h : attachmentPath key = .ok path) :
    path = "attachments" ++ "/" ++ Percent.encode Percent.objectKey key := by
  unfold attachmentPath at h
  split at h <;> cases h
  rfl

theorem attachmentPath_of_ne (hk : key ≠ "") :
    attachmentPath key = .ok ("attachments/" ++ Percent.encode Percent.objectKey key) := by
  have he : key.isEmpty = false := by simpa using hk
  unfold attachmentPath
  rw [he]
  rfl

theorem attachmentPath_injective : Function.Injective attachmentPath := by
  intro key other h
  by_cases hk : key = "" <;> by_cases ho : other = ""
  · rw [hk, ho]
  · rw [hk, attachmentPath_of_ne ho] at h
    cases h
  · rw [ho, attachmentPath_of_ne hk] at h
    cases h
  · rw [attachmentPath_of_ne hk, attachmentPath_of_ne ho] at h
    exact Percent.encode_injective rfl (String.append_right_inj _ |>.mp (Except.ok.inj h))

/-- The path of an attachment is an exact picture of its key: the text behind the folder has no characters but plain
    ones and escapes, decoding it gives the key, it is the key itself where nothing is to be escaped and only there, and
    attachments lie at the same place only if they have the same key. -/
theorem path_spells_key (hm : request.metadata? = some metadata) (hk : metadata.cdnKey ≠ "") :
    ∃ text, request.path = .ok ("attachments/" ++ text) ∧
      (∀ c ∈ text.toList, Percent.isKeyChar c = true) ∧
      (∀ front rest, text.toList = front ++ '%' :: rest → ∃ hi lo behind, rest = hi :: lo :: behind ∧
        Percent.isUpperHexDigit hi = true ∧ Percent.isUpperHexDigit lo = true) ∧
      Percent.decode (Octets.ofText text) = Octets.ofText metadata.cdnKey ∧
      (text = metadata.cdnKey ↔ ∀ c ∈ metadata.cdnKey.toList, Percent.isKeyChar c = true ∧ c ≠ '%') ∧
      ∀ (other : Request) (own : Metadata), other.metadata? = some own →
        (other.path = request.path ↔ own.cdnKey = metadata.cdnKey) := by
  refine ⟨Percent.encode Percent.objectKey metadata.cdnKey, ?_, fun c hc => Percent.isKeyChar_of_mem_encode hc,
    fun front rest h => Percent.escape_of_mem_encode rfl h, Percent.decode_encode rfl _,
    Percent.encode_objectKey_eq_self_iff, fun other own ho => ?_⟩
  · rw [path_of_metadata? hm, attachmentPath_of_ne hk]
  · rw [path_of_metadata? hm, path_of_metadata? ho]
    exact attachmentPath_injective.eq_iff

/-- A key with marks, a percent sign and a letter outside ASCII, and one without anything to escape. -/
theorem path_spells_key_marks :
    let metadata : Metadata := ⟨"", 2, "x?y#z%é", ⟨List.replicate 64 0, rfl⟩, none, none⟩
    let plain := { metadata with cdnKey := "abc/def+g=" }
    (Request.transient metadata).metadata? = some metadata ∧ metadata.cdnKey ≠ "" ∧
      (Request.transient metadata).path = .ok "attachments/x%3Fy%23z%25%C3%A9" ∧
      Percent.decode (Octets.ofText "x%3Fy%23z%25%C3%A9") = Octets.ofText metadata.cdnKey ∧
      (Request.attachment plain ⟨1⟩).path = .ok "attachments/abc/def+g=" ∧
      (Request.attachment plain ⟨1⟩).path ≠ (Request.transient metadata).path := by
  intro metadata plain
  have hne : metadata.cdnKey ≠ "" := by decide
  have hmarks : (Request.transient metadata).metadata? = some metadata := rfl
  have hplain : (Request.attachment plain ⟨1⟩).metadata? = some plain := rfl
  obtain ⟨text, hpath, -, -, hdecode, -, hsame⟩ := path_spells_key hmarks hne
  obtain ⟨own, hown, -, -, -, hself, -⟩ := path_spells_key hplain (by decide)
  have hencode : Percent.encode Percent.objectKey metadata.cdnKey = "x%3Fy%23z%25%C3%A9" := by decide +kernel
  have hx : (Request.transient metadata).path = .ok ("attachments/" ++ "x%3Fy%23z%25%C3%A9") :=
    hencode ▸ attachmentPath_of_ne hne
  have ht : text = "x%3Fy%23z%25%C3%A9" := (String.append_right_inj _).mp (Except.ok.inj (hpath.symm.trans hx))
  have hchars : ∀ c ∈ plain.cdnKey.toList, Percent.isKeyChar c = true ∧ c ≠ '%' := by
    have hall : (plain.cdnKey.toList.all fun c => Percent.isKeyChar c ∧ c ≠ '%') = true := by decide
    exact fun c hc => of_decide_eq_true (List.all_eq_true.mp hall c hc)
  refine ⟨rfl, hne, hx, ht ▸ hdecode, ?_, fun h => absurd ((hsame _ _ rfl).mp h) (by decide)⟩
  rw [hown, hself.mpr hchars]
  rfl

end SealedDownload.Request
