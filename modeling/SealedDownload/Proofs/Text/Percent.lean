import SealedDownload.Text.Percent
import SealedDownload.Url.Path
import SealedDownload.Proofs.Json.Text

/-! Percent-encoded texts. A text is encoded character by character, and one that holds no character of the escape set,
    such as an object key that has been encoded before, stays as it is. Where `%` itself is escaped, every `%` of the
    encoded text begins an escape, and decoding gives the text back. -/

namespace SealedDownload.Percent

/-- A character of an encoded object key: a printable one of ASCII that is no blank and delimits nothing but segments. -/
def isKeyChar (c : Char) : Bool :=
  32 < c.toNat && c.toNat < 127 && !"\"#<>?[\\]^`\x7b|\x7d".toList.contains c

variable {escaped : UInt8 → Bool} {text key : String} {c : Char} {b : UInt8}

/-- What is checked for all 256 values holds of every byte. -/
theorem forall_byte {P : UInt8 → Prop} (h : ∀ n : Fin 256, P (UInt8.ofNat n)) (b : UInt8) : P b := by
  have hb := h ⟨b.toNat, b.toNat_lt⟩
  rwa [UInt8.ofNat_toNat] at hb

/-! ### Character by character -/

theorem toNat_ofNat_toNat (hc : c.toNat < 128) : (UInt8.ofNat c.toNat).toNat = c.toNat :=
  UInt8.toNat_ofNat_of_lt' (Nat.lt_trans hc (by decide))

theorem toList_encode (escaped : UInt8 → Bool) (text : String) :
    (encode escaped text).toList = text.toList.flatMap (encodeChar escaped) := by
  unfold encode encodeOctets
  rw [String.toList_ofList, Json.ofText_eq, List.flatMap_assoc]
  rfl

theorem encodeChar_ne_nil (escaped : UInt8 → Bool) (c : Char) : encodeChar escaped c ≠ [] := by
  obtain ⟨b, bytes, hbytes⟩ := List.exists_cons_of_ne_nil (String.utf8EncodeChar_ne_nil (c := c))
  unfold encodeChar encodeOctets encodeByte
  rw [hbytes, List.flatMap_cons]
  split <;> exact List.cons_ne_nil _ _

/-- A character of ASCII that is not escaped stands for itself. -/
theorem encodeChar_self (hc : c.toNat < 128) (he : escaped (UInt8.ofNat c.toNat) = false) :
    encodeChar escaped c = [c] := by
  have hn := toNat_ofNat_toNat hc
  have hb : ¬128 ≤ UInt8.ofNat c.toNat := by
    rw [UInt8.le_iff_toNat_le, hn]
    exact Nat.not_le.mpr hc
  unfold encodeChar encodeOctets
  rw [Json.utf8EncodeChar_of_lt hc, List.flatMap_singleton, encodeByte, he, Bool.false_or, if_neg (by simpa using hb), hn,
    Char.ofNat_toNat]

/-- A list stays as it is if each of its members is replaced by itself alone, and only then where each is replaced by
    something. -/
theorem flatMap_eq_self_iff {α : Type} {f : α → List α} (hf : ∀ x, f x ≠ []) (xs : List α) :
    xs.flatMap f = xs ↔ ∀ x ∈ xs, f x = [x] := by
  have hle : ∀ xs : List α, xs.length ≤ (xs.flatMap f).length := by
    intro xs
    induction xs with
    | nil => exact Nat.le_refl _
    | cons x xs ih =>
      have hx : 0 < (f x).length := List.length_pos_iff.mpr (hf x)
      rw [List.flatMap_cons, List.length_append, List.length_cons]
      omega
  induction xs with
  | nil => simp
  | cons x xs ih =>
    rw [List.flatMap_cons, List.forall_mem_cons]
    constructor
    · intro h
      have hlen : (f x).length = [x].length := by
        have hx : 0 < (f x).length := List.length_pos_iff.mpr (hf x)
        have hxs := hle xs
        have hall := congrArg List.length h
        rw [List.length_append, List.length_cons] at hall
        rw [List.length_singleton]
        omega
      obtain ⟨hx, hxs⟩ := List.append_inj h hlen
      exact ⟨hx, ih.mp hxs⟩
    · rintro ⟨hx, hxs⟩
      rw [hx, ih.mpr hxs]
      rfl

theorem encode_eq_self_iff : encode escaped text = text ↔ ∀ c ∈ text.toList, encodeChar escaped c = [c] := by
  rw [← String.toList_inj, toList_encode]
  exact flatMap_eq_self_iff (encodeChar_ne_nil escaped) text.toList

/-- A text without escaped characters stays as it is. -/
theorem encode_self (h : ∀ c ∈ text.toList, c.toNat < 128 ∧ escaped (UInt8.ofNat c.toNat) = false) :
    encode escaped text = text :=
  encode_eq_self_iff.mpr fun c hc => encodeChar_self (h c hc).1 (h c hc).2

/-! ### Decoding -/

/-- A digit as escapes have it. -/
def isUpperHexDigit (c : Char) : Bool := ('0' ≤ c && c ≤ '9') || ('A' ≤ c && c ≤ 'F')

theorem lt_of_isUpperHexDigit (h : isUpperHexDigit c = true) : c.toNat < 128 := by
  have hle : ('0' ≤ c ∧ c ≤ '9') ∨ 'A' ≤ c ∧ c ≤ 'F' := by simpa [isUpperHexDigit] using h
  rcases hle with ⟨-, hc⟩ | ⟨-, hc⟩
  · exact Nat.lt_of_le_of_lt (Char.le_def.mp hc) (by decide)
  · exact Nat.lt_of_le_of_lt (Char.le_def.mp hc) (by decide)

theorem ne_percent_of_isUpperHexDigit (h : isUpperHexDigit c = true) : c ≠ '%' := by
  rintro rfl
  exact absurd h (by decide)

theorem digit?_upperHexDigit : ∀ n < 16, isUpperHexDigit (Octets.upperHexDigit n) = true ∧
    digit? (UInt8.ofNat (Octets.upperHexDigit n).toNat) = some n := by
  decide

/-- A byte is escaped by two digits, or stands for itself. -/
theorem encodeByte_cases (escaped : UInt8 → Bool) (b : UInt8) :
    (∃ hi lo, encodeByte escaped b = ['%', hi, lo] ∧ isUpperHexDigit hi = true ∧ isUpperHexDigit lo = true ∧
      byte? (UInt8.ofNat hi.toNat) (UInt8.ofNat lo.toNat) = some b) ∨
    ∃ c, encodeByte escaped b = [c] ∧ escaped b = false ∧ c.toNat < 128 ∧ UInt8.ofNat c.toNat = b := by
  unfold encodeByte
  split
  · have hb : b.toNat < 256 := b.toNat_lt
    obtain ⟨hhi, hhigh⟩ := digit?_upperHexDigit (b.toNat / 16) (by omega)
    obtain ⟨hlo, hlow⟩ := digit?_upperHexDigit (b.toNat % 16) (by omega)
    refine Or.inl ⟨_, _, rfl, hhi, hlo, ?_⟩
    simp only [byte?, hhigh, hlow, Nat.div_add_mod, UInt8.ofNat_toNat]
  · rename_i h
    rw [Bool.or_eq_true, not_or, Bool.not_eq_true, decide_eq_true_eq, UInt8.le_iff_toNat_le] at h
    have hlt : b.toNat < 128 := Nat.not_le.mp h.2
    have hn : (Char.ofNat b.toNat).toNat = b.toNat := by
      rw [Char.ofNat, dif_pos (Or.inl (Nat.lt_trans hlt (by decide)))]
      rfl
    exact Or.inr ⟨_, rfl, h.1, by rwa [hn], by rw [hn, UInt8.ofNat_toNat]⟩

theorem mem_encodeByte (h : c ∈ encodeByte escaped b) :
    c = '%' ∨ isUpperHexDigit c = true ∨ escaped b = false ∧ c.toNat < 128 ∧ UInt8.ofNat c.toNat = b := by
  rcases encodeByte_cases escaped b with ⟨hi, lo, he, hhi, hlo, -⟩ | ⟨own, he, hown⟩
  · rw [he] at h
    simp only [List.mem_cons, List.not_mem_nil, or_false] at h
    rcases h with rfl | rfl | rfl
    · exact Or.inl rfl
    · exact Or.inr (Or.inl hhi)
    · exact Or.inr (Or.inl hlo)
  · rw [he, List.mem_singleton] at h
    exact Or.inr (Or.inr (h ▸ hown))

theorem lt_of_mem_encodeOctets {bytes : Octets} (h : c ∈ encodeOctets escaped bytes) : c.toNat < 128 := by
  obtain ⟨b, -, hb⟩ := List.mem_flatMap.mp h
  rcases mem_encodeByte hb with rfl | hdigit | ⟨-, hlt, -⟩
  · decide
  · exact lt_of_isUpperHexDigit hdigit
  · exact hlt

theorem decode_cons_of_ne (hb : b ≠ 37) (rest : Octets) : decode (b :: rest) = b :: decode rest := by
  match rest with
  | [] => rfl
  | [_] => rfl
  | _ :: _ :: _ => rw [decode, if_neg hb]

/-- Decoding gives a byte back, whatever follows. -/
theorem decode_encodeByte (he : escaped 37 = true) (b : UInt8) (rest : Octets) :
    decode ((encodeByte escaped b).map (fun c => UInt8.ofNat c.toNat) ++ rest) = b :: decode rest := by
  rcases encodeByte_cases escaped b with ⟨hi, lo, hb, -, -, hv⟩ | ⟨c, hb, hn, -, hv⟩
  · have hmark : UInt8.ofNat '%'.toNat = 37 := rfl
    rw [hb, List.map_cons, List.map_cons, List.map_cons, List.map_nil, hmark]
    simp only [List.cons_append, List.nil_append, decode, if_pos, hv]
  · have hne : b ≠ 37 := by
      rintro rfl
      rw [he] at hn
      cases hn
    rw [hb, List.map_singleton, List.singleton_append, hv, decode_cons_of_ne hne]

/-- Decoding an encoded text gives its bytes back. -/
theorem decode_encode (he : escaped 37 = true) (text : String) :
    decode (Octets.ofText (encode escaped text)) = Octets.ofText text := by
  have hall : ∀ bytes : Octets,
      decode ((encodeOctets escaped bytes).map fun c => UInt8.ofNat c.toNat) = bytes := by
    intro bytes
    induction bytes with
    | nil => rfl
    | cons b bytes ih =>
      rw [encodeOctets, List.flatMap_cons, List.map_append, decode_encodeByte he]
      exact congrArg _ ih
  unfold encode
  rw [Json.ofText_ofList_of_lt fun c hc => lt_of_mem_encodeOctets hc]
  exact hall (Octets.ofText text)

/-- Texts that are encoded alike are the same. -/
theorem encode_injective (he : escaped 37 = true) : Function.Injective (encode escaped) := by
  intro text other h
  have hbytes : Octets.ofText text = Octets.ofText other := by
    rw [← decode_encode he text, ← decode_encode he other, h]
  rw [Json.ofText_eq, Json.ofText_eq] at hbytes
  have hread := congrArg Octets.text? hbytes
  rw [Json.text?_utf8, Json.text?_utf8] at hread
  exact Option.some.inj hread

/-- Every `%` of an encoded text is followed by two digits. -/
theorem escape_of_mem_encode (he : escaped 37 = true) {front rest : List Char}
    (h : (encode escaped text).toList = front ++ '%' :: rest) :
    ∃ hi lo behind, rest = hi :: lo :: behind ∧ isUpperHexDigit hi = true ∧ isUpperHexDigit lo = true := by
  have hall : ∀ (bytes : Octets) (front : List Char), encodeOctets escaped bytes = front ++ '%' :: rest →
      ∃ hi lo behind, rest = hi :: lo :: behind ∧ isUpperHexDigit hi = true ∧ isUpperHexDigit lo = true := by
    intro bytes
    induction bytes with
    | nil =>
      intro front h
      cases front <;> cases h
    | cons b bytes ih =>
      intro front h
      rw [encodeOctets, List.flatMap_cons] at h
      -- The mark begins the escape of this byte, or it stands behind it: the digits are no marks.
      rcases encodeByte_cases escaped b with ⟨hi, lo, hb, hhi, hlo, -⟩ | ⟨c, hb, hn, -, hv⟩
      · rw [hb] at h
        match front, h with
        | [], h =>
          cases h
          exact ⟨hi, lo, _, rfl, hhi, hlo⟩
        | [_], h =>
          cases h
          exact absurd rfl (ne_percent_of_isUpperHexDigit hhi)
        | [_, _], h =>
          cases h
          exact absurd rfl (ne_percent_of_isUpperHexDigit hlo)
        | _ :: _ :: _ :: front, h => exact ih front (by injections)
      · rw [hb] at h
        match front, h with
        | [], h =>
          cases h
          rw [← hv] at hn
          cases he.symm.trans hn
        | _ :: front, h => exact ih front (List.cons.inj h).2
  unfold encode at h
  rw [String.toList_ofList] at h
  exact hall _ front h

/-! ### Object keys -/

theorem lt_of_isKeyChar (h : isKeyChar c = true) : c.toNat < 128 := by
  simp only [isKeyChar, Bool.and_eq_true, decide_eq_true_eq] at h
  omega

theorem isKeyChar_of_isUpperHexDigit (h : isUpperHexDigit c = true) : isKeyChar c = true := by
  have hle : (48 ≤ c.toNat ∧ c.toNat ≤ 57) ∨ 65 ≤ c.toNat ∧ c.toNat ≤ 70 := by
    simpa [isUpperHexDigit, Char.le_def, UInt32.le_iff_toNat_le] using h
  have hrange : 32 < c.toNat ∧ c.toNat < 127 := by omega
  simp only [isKeyChar, hrange, Bool.and_eq_true, decide_eq_true_eq, true_and]
  simp
  and_intros <;> rintro rfl <;> exact absurd h (by decide)

theorem isOneOf_ofNat (hc : c.toNat < 128) (marks : String) :
    isOneOf marks (UInt8.ofNat c.toNat) = marks.toList.contains c := by
  have hn := toNat_ofNat_toNat hc
  have hlt : UInt8.ofNat c.toNat < 128 := by rwa [UInt8.lt_iff_toNat_lt, hn]
  rw [isOneOf, decide_eq_true hlt, Bool.true_and, hn, Char.ofNat_toNat]

theorem isControl_ofNat (hc : c.toNat < 128) :
    isControl (UInt8.ofNat c.toNat) = (c.toNat < 32 || c.toNat = 127) := by
  have hn := toNat_ofNat_toNat hc
  simp only [isControl, ← UInt8.toNat_inj, UInt8.lt_iff_toNat_lt, hn]
  rfl

/-- The characters of ASCII that a key keeps are those of an encoded one, without the mark of an escape. -/
theorem objectKey_eq_false_iff (hc : c.toNat < 128) :
    objectKey (UInt8.ofNat c.toNat) = false ↔ isKeyChar c = true ∧ c ≠ '%' := by
  have hblank : c = ' ' ↔ c.toNat = 32 := Char.toNat_inj.symm
  rw [objectKey, isControl_ofNat hc, isOneOf_ofNat hc]
  simp [isKeyChar, hblank]
  grind

theorem isKeyChar_of_mem_encode (h : c ∈ (encode objectKey key).toList) : isKeyChar c = true := by
  unfold encode encodeOctets at h
  rw [String.toList_ofList] at h
  obtain ⟨b, -, hb⟩ := List.mem_flatMap.mp h
  rcases mem_encodeByte hb with rfl | hdigit | ⟨hn, hlt, rfl⟩
  · decide
  · exact isKeyChar_of_isUpperHexDigit hdigit
  · exact ((objectKey_eq_false_iff hlt).mp hn).1

/-- A key stays as it is if none of its characters is escaped, and only then. -/
theorem encode_objectKey_eq_self_iff :
    encode objectKey key = key ↔ ∀ c ∈ key.toList, isKeyChar c = true ∧ c ≠ '%' := by
  constructor
  · intro h c hc
    have hself := encode_eq_self_iff.mp h c hc
    have hmem : c ∈ (encode objectKey key).toList := by rwa [h]
    refine ⟨isKeyChar_of_mem_encode hmem, ?_⟩
    rintro rfl
    exact absurd hself (by decide)
  · intro h
    refine encode_self fun c hc => ?_
    have hlt := lt_of_isKeyChar (h c hc).1
    exact ⟨hlt, (objectKey_eq_false_iff hlt).mpr (h c hc)⟩

/-- In a path a character of an encoded object key stands for itself. -/
theorem segmentMarks_of_isKeyChar (h : isKeyChar c = true) :
    c.toNat < 128 ∧ UrlPath.segmentMarks (UInt8.ofNat c.toNat) = false := by
  have hc := lt_of_isKeyChar h
  have hblank : c = ' ' ↔ c.toNat = 32 := Char.toNat_inj.symm
  refine ⟨hc, ?_⟩
  rw [UrlPath.segmentMarks, UrlPath.fragmentMarks, isControl_ofNat hc, isOneOf_ofNat hc, isOneOf_ofNat hc]
  simp [isKeyChar] at h
  simp [hblank, h]
  omega

end SealedDownload.Percent
