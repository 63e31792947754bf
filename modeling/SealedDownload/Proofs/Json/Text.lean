import Mathlib.Data.List.Basic
import SealedDownload.Json.Text
import SealedDownload.Json.Token

/-! A text that is written as a string literal is read back, and the scanner takes the literal as one token. -/

namespace SealedDownload.Json

variable {c : Char} {b : UInt8} {text : String} {tokens : List Token} {read rest : Octets}

/-! ### UTF-8 -/

theorem ofText_eq (text : String) : Octets.ofText text = text.toList.flatMap String.utf8EncodeChar := by
  have he : text.toUTF8 = text.toByteArray := rfl
  unfold Octets.ofText
  rw [he, ← String.utf8Encode_toList, List.utf8Encode, List.data_toByteArray]

theorem text?_utf8 (text : String) : Octets.text? (text.toList.flatMap String.utf8EncodeChar) = some text := by
  have he : (⟨(text.toList.flatMap String.utf8EncodeChar).toArray⟩ : ByteArray) = text.toByteArray := by
    rw [← String.utf8Encode_toList]
    exact ByteArray.ext List.data_toByteArray.symm
  unfold Octets.text? String.fromUTF8?
  rw [he, dif_pos text.isValidUTF8]
  rfl

theorem utf8EncodeChar_of_lt (h : c.toNat < 128) : String.utf8EncodeChar c = [UInt8.ofNat c.toNat] := by
  have hle : c.val.toNat ≤ 127 := Nat.le_of_lt_succ h
  unfold String.utf8EncodeChar
  rw [if_pos hle]
  rfl

/-- Characters of ASCII are written as one byte each. -/
theorem ofText_ofList_of_lt {chars : List Char} (h : ∀ c ∈ chars, c.toNat < 128) :
    Octets.ofText (String.ofList chars) = chars.map fun c => UInt8.ofNat c.toNat := by
  rw [ofText_eq, String.toList_ofList]
  induction chars with
  | nil => rfl
  | cons c chars ih =>
    rw [List.flatMap_cons, utf8EncodeChar_of_lt (h c List.mem_cons_self), ih fun c hc => h c (List.mem_cons_of_mem _ hc)]
    rfl

theorem le_of_mem_utf8EncodeChar (hc : 128 ≤ c.toNat) (h : b ∈ String.utf8EncodeChar c) : 128 ≤ b.toNat := by
  have hle : ¬c.val.toNat ≤ 127 := fun hle => Nat.not_lt.mpr hc (Nat.lt_succ_of_le hle)
  unfold String.utf8EncodeChar at h
  rw [if_neg hle] at h
  split at h
  · simp only [List.mem_cons, List.not_mem_nil, or_false] at h
    rcases h with rfl | rfl <;> simp only [UInt8.toNat_ofNat'] <;> omega
  · split at h <;> simp only [List.mem_cons, List.not_mem_nil, or_false] at h
    · rcases h with rfl | rfl | rfl <;> simp only [UInt8.toNat_ofNat'] <;> omega
    · rcases h with rfl | rfl | rfl | rfl <;> simp only [UInt8.toNat_ofNat'] <;> omega

/-- A byte of ASCII is all that its character is written as. -/
theorem toNat_of_mem_utf8EncodeChar (hb : b.toNat < 128) (h : b ∈ String.utf8EncodeChar c) : c.toNat = b.toNat := by
  by_cases hlt : c.toNat < 128
  · rw [utf8EncodeChar_of_lt hlt, List.mem_singleton] at h
    rw [h, UInt8.toNat_ofNat_of_lt' (Nat.lt_trans hlt (by decide))]
  · exact absurd (le_of_mem_utf8EncodeChar (Nat.le_of_not_lt hlt) h) (Nat.not_le.mpr hb)

/-! ### One character -/

/-- A byte that stands for itself inside quotes. -/
def IsBare (b : UInt8) : Prop := b ≠ quote ∧ b ≠ backslash ∧ ¬b < 32

theorem isBare_of_mem_utf8EncodeChar (hc : 32 ≤ c.toNat) (hq : c.toNat ≠ 34) (hs : c.toNat ≠ 92)
    (h : b ∈ String.utf8EncodeChar c) : IsBare b := by
  have hb : 32 ≤ b.toNat ∧ b.toNat ≠ 34 ∧ b.toNat ≠ 92 := by
    by_cases hlt : c.toNat < 128
    · rw [utf8EncodeChar_of_lt hlt, List.mem_singleton] at h
      rw [h, UInt8.toNat_ofNat', Nat.mod_eq_of_lt (Nat.lt_trans hlt (by decide))]
      exact ⟨hc, hq, hs⟩
    · have hle := le_of_mem_utf8EncodeChar (Nat.le_of_not_lt hlt) h
      omega
  refine ⟨fun he => hb.2.1 ?_, fun he => hb.2.2 ?_, fun hlt => Nat.not_lt.mpr hb.1 ?_⟩
  · rw [he]
    rfl
  · rw [he]
    rfl
  · exact UInt8.lt_iff_toNat_lt.mp hlt

theorem isHexDigit_hexDigit : ∀ n < 16, isHexDigit (UInt8.ofNat (Octets.hexDigit n).toNat) = true := by
  decide

theorem unitOf?_hexDigits : ∀ n < 32, unitOf? [UInt8.ofNat (Octets.hexDigit (n % 16)).toNat,
    UInt8.ofNat (Octets.hexDigit (n / 16)).toNat, 48, 48] = some n := by
  decide

/-- A character is written as a short escape, by its code, or as it is. -/
theorem escapeChar_cases (c : Char) :
    (∃ b, escapeChar c = [backslash, b] ∧ b ≠ 117 ∧ isShortEscape b = true ∧
      shortEscape? b = some (UInt8.ofNat c.toNat) ∧ c.toNat < 128) ∨
    (∃ x y, escapeChar c = [backslash, 117, 48, 48, x, y] ∧ isHexDigit x = true ∧ isHexDigit y = true ∧
      unitOf? [y, x, 48, 48] = some c.toNat ∧ c.toNat < 32) ∨
    (escapeChar c = String.utf8EncodeChar c ∧ ∀ b ∈ String.utf8EncodeChar c, IsBare b) := by
  unfold escapeChar
  split
  · rename_i h
    exact Or.inl ⟨quote, rfl, by decide, by decide, by rw [h]; rfl, by omega⟩
  · rename_i h
    exact Or.inl ⟨backslash, rfl, by decide, by decide, by rw [h]; rfl, by omega⟩
  · rename_i h
    exact Or.inl ⟨98, rfl, by decide, by decide, by rw [h]; rfl, by omega⟩
  · rename_i h
    exact Or.inl ⟨116, rfl, by decide, by decide, by rw [h]; rfl, by omega⟩
  · rename_i h
    exact Or.inl ⟨110, rfl, by decide, by decide, by rw [h]; rfl, by omega⟩
  · rename_i h
    exact Or.inl ⟨102, rfl, by decide, by decide, by rw [h]; rfl, by omega⟩
  · rename_i h
    exact Or.inl ⟨114, rfl, by decide, by decide, by rw [h]; rfl, by omega⟩
  · rename_i hq hs _ _ _ _ _
    right
    split
    · rename_i hlt
      refine Or.inl ⟨_, _, rfl, isHexDigit_hexDigit _ (by omega), isHexDigit_hexDigit _ (by omega),
        unitOf?_hexDigits _ hlt, hlt⟩
    · rename_i hlt
      refine Or.inr ⟨rfl, fun b hb => isBare_of_mem_utf8EncodeChar (Nat.le_of_not_lt hlt) hq hs hb⟩

theorem escapeChar_of_plain {c : Char} (h : 32 ≤ c.toNat) (hq : c.toNat ≠ 34) (hs : c.toNat ≠ 92) :
    escapeChar c = String.utf8EncodeChar c := by
  unfold escapeChar
  split
  · exact absurd ‹_› hq
  · exact absurd ‹_› hs
  · omega
  · omega
  · omega
  · omega
  · omega
  · rw [if_neg (Nat.not_lt.mpr h)]

/-- A text without quotes, backslashes and control characters is written as it is. -/
theorem escape_of_plain {text : String} (h : ∀ c ∈ text.toList, 32 ≤ c.toNat ∧ c.toNat ≠ 34 ∧ c.toNat ≠ 92) :
    escape text = Octets.ofText text := by
  rw [ofText_eq]
  exact List.flatMap_congr fun c hc => escapeChar_of_plain (h c hc).1 (h c hc).2.1 (h c hc).2.2

/-! ### Reading a literal -/

theorem unescape?_bare {bytes : Octets} (h : ∀ b ∈ bytes, IsBare b) :
    unescape? .none read (bytes ++ rest) = unescape? .none (bytes.reverse ++ read) rest := by
  induction bytes generalizing read with
  | nil => rfl
  | cons b bytes ih =>
    obtain ⟨-, hs, hlt⟩ := h b List.mem_cons_self
    rw [List.cons_append, unescape?, if_neg hs, if_neg hlt, ih fun b hb => h b (List.mem_cons_of_mem _ hb)]
    simp

theorem unescape?_escapeChar (c : Char) : unescape? .none read (escapeChar c ++ rest) =
    unescape? .none ((String.utf8EncodeChar c).reverse ++ read) rest := by
  rcases escapeChar_cases c with ⟨b, he, hb, -, hv, hc⟩ | ⟨x, y, he, -, -, hu, hc⟩ | ⟨he, hbare⟩
  · rw [he, utf8EncodeChar_of_lt hc]
    simp [unescape?, hb, hv]
  · have hn : Char.ofNat c.toNat = c := Char.ofNat_toNat c
    rw [he]
    simp [unescape?, hu, hn, Nat.not_le.mpr (Nat.lt_trans hc (by decide : 32 < 55296)),
      Nat.not_le.mpr (Nat.lt_trans hc (by decide : 32 < 56320))]
  · rw [he, unescape?_bare hbare]

theorem unescape?_escape (chars : List Char) : unescape? .none read (chars.flatMap escapeChar) =
    some (read.reverse ++ chars.flatMap String.utf8EncodeChar) := by
  induction chars generalizing read with
  | nil => simp [unescape?]
  | cons c chars ih =>
    rw [List.flatMap_cons, unescape?_escapeChar, ih]
    simp

/-- A text that has been written as a literal is read back. -/
@[simp] theorem textOf?_escape (text : String) : textOf? (escape text) = some text := by
  have h : unescape? .none [] (escape text) = some (text.toList.flatMap String.utf8EncodeChar) :=
    unescape?_escape text.toList
  unfold textOf?
  rw [h]
  exact text?_utf8 text

@[simp] theorem text?_ofText (text : String) : (ofText text).text? = some text := textOf?_escape text

/-! ### Scanning a literal -/

theorem run_bare {bytes : Octets} (h : ∀ b ∈ bytes, IsBare b) :
    Scan.run tokens (.string read) (bytes ++ rest) = Scan.run tokens (.string (bytes.reverse ++ read)) rest := by
  induction bytes generalizing read with
  | nil => rfl
  | cons b bytes ih =>
    obtain ⟨hq, hs, hlt⟩ := h b List.mem_cons_self
    rw [List.cons_append, Scan.run, Scan.step, if_neg hq, if_neg hs, if_neg hlt]
    simp [ih fun b hb => h b (List.mem_cons_of_mem _ hb)]

theorem run_escapeChar (c : Char) : Scan.run tokens (.string read) (escapeChar c ++ rest) =
    Scan.run tokens (.string ((escapeChar c).reverse ++ read)) rest := by
  rcases escapeChar_cases c with ⟨b, he, hb, hs, -⟩ | ⟨x, y, he, hx, hy, -⟩ | ⟨he, hbare⟩
  · rw [he]
    have hq : backslash ≠ quote := by decide
    simp [Scan.run, Scan.step, hb, hs, hq]
  · rw [he]
    have hq : backslash ≠ quote := by decide
    have h0 : isHexDigit 48 = true := by decide
    simp [Scan.run, Scan.step, hx, hy, hq, h0]
  · rw [he, run_bare hbare]

/-- The literal of a text is one token. -/
theorem run_escape (text : String) : Scan.run tokens (.string []) (escape text ++ quote :: rest) =
    Scan.run (.string (escape text) :: tokens) .between rest := by
  have h : ∀ (chars : List Char) (read : Octets),
      Scan.run tokens (.string read) (chars.flatMap escapeChar ++ quote :: rest) =
        Scan.run (.string (read.reverse ++ chars.flatMap escapeChar) :: tokens) .between rest := by
    intro chars
    induction chars with
    | nil =>
      intro read
      simp [Scan.run, Scan.step]
    | cons c chars ih =>
      intro read
      rw [List.flatMap_cons, List.append_assoc, run_escapeChar, ih]
      simp
  exact h text.toList []

end SealedDownload.Json
