import Mathlib.Data.List.Basic
import Mathlib.Data.List.TakeWhile
import SealedDownload.Proofs.Json.Text
import SealedDownload.Json.Number

/-! The literal of a natural number spells that number. -/

namespace SealedDownload.Json

variable {n : Nat} {chars : List Char}

theorem head?_toDigits (h : (Nat.toDigits 10 n).head? = some '0') : n = 0 := by
  induction n using Nat.strongRecOn with
  | ind n ih =>
    by_cases hn : n < 10
    · rw [Nat.toDigits_of_lt_base hn, List.head?_cons, Option.some.injEq, Nat.digitChar_eq_zero] at h
      exact h
    · have hle : 10 ≤ n := Nat.le_of_not_lt hn
      rw [Nat.toDigits_of_base_le (by decide) hle, List.head?_append_of_ne_nil _ Nat.toDigits_ne_nil] at h
      have hz := ih (n / 10) (Nat.div_lt_self (by omega) (by decide)) h
      omega

/-- The byte of a digit. -/
def byteOf (c : Char) : UInt8 := UInt8.ofNat c.toNat

theorem toNat_byteOf {c : Char} (h : c.isDigit = true) : 48 ≤ (byteOf c).toNat ∧ (byteOf c).toNat ≤ 57 ∧
    (byteOf c).toNat = c.toNat := by
  have hd : 48 ≤ c.toNat ∧ c.toNat ≤ 57 := Char.isDigit_iff_toNat.mp h
  unfold byteOf
  rw [UInt8.toNat_ofNat', Nat.mod_eq_of_lt (by omega)]
  exact ⟨hd.1, hd.2, rfl⟩

theorem isDigit_byteOf {c : Char} (h : c.isDigit = true) : isDigit (byteOf c) = true := by
  obtain ⟨hl, hu, -⟩ := toNat_byteOf h
  unfold isDigit
  rw [Bool.and_eq_true, decide_eq_true_eq, decide_eq_true_eq]
  exact ⟨UInt8.le_iff_toNat_le.mpr hl, UInt8.le_iff_toNat_le.mpr hu⟩

/-- The name of a number is its literal. -/
theorem escape_toString (n : Nat) : escape (toString n) = Octets.ofText (toString n) := by
  refine escape_of_plain fun c hc => ?_
  rw [Nat.toString_eq_ofList_toDigits, String.toList_ofList] at hc
  have hd : 48 ≤ c.toNat ∧ c.toNat ≤ 57 :=
    Char.isDigit_iff_toNat.mp (Nat.isDigit_of_mem_toDigits (by decide) (by decide) hc)
  omega

/-- The bytes of a number. -/
theorem ofText_toString (n : Nat) : Octets.ofText (toString n) = (Nat.toDigits 10 n).map byteOf := by
  rw [Nat.toString_eq_ofList_toDigits, ofText_ofList_of_lt]
  · rfl
  · intro c hc
    have hd := Char.isDigit_iff_toNat.mp (Nat.isDigit_of_mem_toDigits (by decide) (by decide) hc)
    exact Nat.lt_of_le_of_lt hd.2 (by decide)

theorem all_isDigit (n : Nat) : ∀ b ∈ (Nat.toDigits 10 n).map byteOf, isDigit b = true := by
  intro b hb
  obtain ⟨c, hc, rfl⟩ := List.mem_map.mp hb
  exact isDigit_byteOf (Nat.isDigit_of_mem_toDigits (by decide) (by decide) hc)

theorem digitsValue_toDigits (n : Nat) : digitsValue ((Nat.toDigits 10 n).map byteOf) = n := by
  have hf : ∀ (chars : List Char) (init : Nat), (∀ c ∈ chars, c.isDigit = true) →
      (chars.map byteOf).foldl (fun n d => 10 * n + digitValue d) init = Nat.ofDigitChars 10 chars init := by
    intro chars
    induction chars with
    | nil => exact fun _ _ => Nat.ofDigitChars_nil.symm
    | cons c chars ih =>
      intro init h
      have hv : digitValue (byteOf c) = c.toNat - '0'.toNat := by
        unfold digitValue
        rw [(toNat_byteOf (h c List.mem_cons_self)).2.2]
        rfl
      rw [List.map_cons, List.foldl_cons, hv, Nat.ofDigitChars_cons]
      exact ih _ fun c hc => h c (List.mem_cons_of_mem _ hc)
  unfold digitsValue
  rw [hf _ _ fun c h => Nat.isDigit_of_mem_toDigits (by decide) (by decide) h]
  exact Nat.ofDigitChars_ten_toDigits

/-- The literal of a natural number has digits only. -/
theorem numberParts?_ofText (n : Nat) :
    numberParts? (Octets.ofText (toString n)) = some ⟨false, (Nat.toDigits 10 n).map byteOf, none, none⟩ := by
  have hall := all_isDigit n
  have ht : ((Nat.toDigits 10 n).map byteOf).takeWhile isDigit = (Nat.toDigits 10 n).map byteOf :=
    List.takeWhile_eq_self_iff.mpr hall
  have hd : ((Nat.toDigits 10 n).map byteOf).dropWhile isDigit = [] := List.dropWhile_eq_nil_iff.mpr hall
  have hz : ((Nat.toDigits 10 n).map byteOf).head? = some 48 → ¬1 < ((Nat.toDigits 10 n).map byteOf).length := by
    intro hh
    obtain ⟨c, hc, he⟩ := Option.map_eq_some_iff.mp (List.head?_map.symm.trans hh)
    have hdig : c.isDigit = true := Nat.isDigit_of_mem_toDigits (by decide) (by decide) (List.mem_of_head? hc)
    have h48 : c.toNat = 48 := (toNat_byteOf hdig).2.2.symm.trans (congrArg UInt8.toNat he)
    have hc0 : c = '0' := Char.toNat_inj.mp h48
    rw [hc0] at hc
    rw [head?_toDigits hc]
    decide
  cases hb : (Nat.toDigits 10 n).map byteOf with
  | nil => exact absurd (List.map_eq_nil_iff.mp hb) Nat.toDigits_ne_nil
  | cons b bytes =>
    rw [hb] at hall ht hd hz
    have hm : b ≠ 45 := by
      rintro rfl
      exact absurd (hall 45 List.mem_cons_self) (by decide)
    rw [ofText_toString, hb]
    unfold numberParts?
    split
    rename_i negative text he
    split at he
    · rename_i h
      cases h
      exact absurd rfl hm
    · cases he
      simp only [ht, hd]
      rw [if_neg]
      · rfl
      · simpa using hz

@[simp] theorem integer?_ofNat (n : Nat) : (ofNat n).integer? = some (n : Int) := by
  have hi : (ofNat n).integer? = (numberParts? (Octets.ofText (toString n))).bind (·.integer?) := rfl
  rw [hi, numberParts?_ofText]
  exact congrArg (fun n : Nat => some (n : Int)) (digitsValue_toDigits n)

theorem natBelow?_ofNat {bound : Nat} (h : n < bound) : (ofNat n).natBelow? bound = some n := by
  unfold natBelow?
  rw [integer?_ofNat]
  simp [h]

end SealedDownload.Json
