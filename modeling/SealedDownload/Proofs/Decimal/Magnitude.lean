import SealedDownload.Decimal.Shortest
import SealedDownload.Proofs.Double.Arithmetic

/-! The magnitude of a double has the mantissa and the exponent that the double is unpacked to. -/

namespace SealedDownload.Decimal

open Float.Model (UnpackedFloat)
open Float.Model.UnpackedFloat (unpack unpackExponent unpackMantissa)

theorem Ratio.den_scale_pos (m : ℕ) (e : ℤ) : 0 < (Ratio.scale m 2 e).den := by
  cases e with
  | ofNat n => exact Nat.one_pos
  | negSucc n => exact Nat.two_pow_pos (n + 1)

theorem Ratio.scale_eq (m : ℕ) (e : ℤ) : ((Ratio.scale m 2 e).num : ℚ) / (Ratio.scale m 2 e).den = m * 2 ^ e := by
  cases e with
  | ofNat n =>
    have hnum : (Ratio.scale m 2 (.ofNat n)).num = m * 2 ^ n := rfl
    have hden : (Ratio.scale m 2 (.ofNat n)).den = 1 := rfl
    rw [hnum, hden, Int.ofNat_eq_natCast, zpow_natCast]
    push_cast
    ring
  | negSucc n =>
    have hnum : (Ratio.scale m 2 (.negSucc n)).num = m := rfl
    have hden : (Ratio.scale m 2 (.negSucc n)).den = 2 ^ (n + 1) := rfl
    rw [hnum, hden, zpow_negSucc]
    push_cast
    ring

variable {bits : UInt64} {m : ℕ} {e : ℤ} {sign : UnpackedFloat.Sign} {hm : 0 < m}

theorem toNat_unpackMantissa (bits : UInt64) :
    (@unpackMantissa .binary64 bits.toBitVec).toNat = bits.toNat % 2 ^ 52 := by
  simp [unpackMantissa]

theorem toNat_unpackExponent (bits : UInt64) :
    (@unpackExponent .binary64 bits.toBitVec).toNat = bits.toNat / 2 ^ 52 % 2 ^ 11 := by
  simp [unpackExponent, Nat.shiftRight_eq_div_pow]

theorem Magnitude.ofBits?_eq (bits : UInt64) : Magnitude.ofBits? bits =
    if (@unpackExponent .binary64 bits.toBitVec).toNat = 2047 then none
    else if (@unpackExponent .binary64 bits.toBitVec).toNat = 0 then
      if (@unpackMantissa .binary64 bits.toBitVec).toNat = 0 then none
      else some ⟨(@unpackMantissa .binary64 bits.toBitVec).toNat, -1074, false⟩
    else some ⟨2 ^ 52 + (@unpackMantissa .binary64 bits.toBitVec).toNat,
      ((@unpackExponent .binary64 bits.toBitVec).toNat : ℤ) - 1075,
      (@unpackMantissa .binary64 bits.toBitVec).toNat = 0 ∧ 1 < (@unpackExponent .binary64 bits.toBitVec).toNat⟩ := by
  rw [toNat_unpackMantissa, toNat_unpackExponent]
  rfl

/-- A magnitude is made of the fields that a double is unpacked to. -/
theorem Magnitude.ofBits?_of_finite (h : unpack .binary64 bits.toBitVec = .finite sign m e hm) :
    ∃ power, Magnitude.ofBits? bits = some ⟨m, e, power⟩ := by
  rw [ofBits?_eq]
  rcases Double.fields_of_unpack h with ⟨hz, hmantissa, rfl⟩ | ⟨hz, hs, rfl, rfl⟩
  · rw [if_neg (by omega), if_pos hz, if_neg (by omega), hmantissa]
    exact ⟨_, rfl⟩
  · rw [if_neg hs, if_neg hz]
    exact ⟨_, rfl⟩

theorem Magnitude.ofBits?_eq_none (h : ∀ sign m e hm, unpack .binary64 bits.toBitVec ≠ .finite sign m e hm) :
    Magnitude.ofBits? bits = none := by
  rw [ofBits?_eq]
  by_cases hs : (@unpackExponent .binary64 bits.toBitVec).toNat = 2047
  · rw [if_pos hs]
  · by_cases hz : (@unpackExponent .binary64 bits.toBitVec).toNat = 0
    · rw [if_neg hs, if_pos hz, if_pos]
      by_contra hm
      exact h _ _ _ _ (Double.unpack_of_subnormal (BitVec.eq_of_toNat_eq hz) (Nat.pos_of_ne_zero hm))
    · refine absurd (Double.unpack_of_normal (fun hn => hs ?_) fun hn => hz ?_) (h _ _ _ _)
      · rw [hn]
        rfl
      · rw [hn]
        rfl

end SealedDownload.Decimal
