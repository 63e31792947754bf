import Mathlib.Data.Nat.Log
import SealedDownload.Decimal.Scaled

/-! Literals of words are doubles. The digits of a literal below `2 ^ 64` are all taken, and a word that has become a
    double is far from what is too large for one: rounding moves an exponent by a few places at most. -/

namespace SealedDownload.Double

open Float.Model (Format UnpackedFloat totalExponent)
open Float.Model.UnpackedFloat

/-- A finite double whose exponent does not exceed a bound. -/
def IsBelow (k : Int) : UnpackedFloat → Prop
  | .zero _ => True
  | .finite _ _ e _ => e ≤ k
  | _ => False

/-- A double whose mantissa has a length that can be packed. -/
def IsShort : UnpackedFloat → Prop
  | .finite _ m _ _ => m.log2 ≤ 52
  | _ => True

variable {k e : Int} {m n : Nat} {sign : Sign} {u : UnpackedFloat}

theorem isInf_of_isBelow (h : IsBelow k u) : u.isInf = false := by
  cases u with
  | zero | finite => rfl
  | infinity | notANumber => exact h.elim

theorem of_dite {P : UnpackedFloat → Prop} {c : Prop} [Decidable c] {x : c → UnpackedFloat} {y : ¬c → UnpackedFloat}
    (hx : ∀ h, P (x h)) (hy : ∀ h, P (y h)) : P (dite c x y) := by
  by_cases h : c
  · rw [dif_pos h]
    exact hx h
  · rw [dif_neg h]
    exact hy h

/-! ### Rounding -/

theorem mantissa_shiftRight_le (em : ExtendedMantissa) (n : Nat) : (em >>> n).mantissa ≤ em.mantissa := by
  induction n with
  | zero => exact Nat.le_refl _
  | succ n ih => exact Nat.le_trans (Nat.div_le_self _ 2) ih

theorem roundedMantissa_le (em : ExtendedMantissa) : em.roundedMantissa ≤ em.mantissa + 1 := by
  obtain ⟨mantissa, roundBit, stickyBit⟩ := em
  cases roundBit <;> cases stickyBit <;>
    simp only [ExtendedMantissa.roundedMantissa, ExtendedMantissa.accuracy, Accuracy.roundToNearestEven] <;> omega

theorem log2_le_of_le (h : m ≤ n) : m.log2 ≤ n.log2 := by
  rw [Nat.log2_eq_log_two, Nat.log2_eq_log_two]
  exact Nat.log_mono_right h

theorem log2_succ_le (m : Nat) : (m + 1).log2 ≤ m.log2 + 1 := by
  by_cases hm : m = 0
  · subst hm
    decide
  · rw [← Nat.log2_two_mul hm]
    exact log2_le_of_le (by omega)

theorem log2_mul_le (m n : Nat) : (m * n).log2 ≤ m.log2 + n.log2 + 1 := by
  by_cases h : m * n = 0
  · rw [h]
    exact Nat.zero_le _
  · have hlt : m * n < 2 ^ (m.log2 + 1) * 2 ^ (n.log2 + 1) :=
      Nat.mul_lt_mul_of_lt_of_lt Nat.lt_log2_self Nat.lt_log2_self
    rw [← Nat.pow_add] at hlt
    have hlog := (Nat.log2_lt h).mpr hlt
    omega

/-- Moving a mantissa to its place makes it no larger, and the exponent larger by its length at most. -/
theorem shift_le (m : Nat) (e : Int) (a : Accuracy) :
    (shiftToTargetExponent .binary64 m e a).1.mantissa ≤ m ∧
      (shiftToTargetExponent .binary64 m e a).2 ≤ max (e + m.log2) (-1074) := by
  constructor
  · refine Nat.le_trans (mantissa_shiftRight_le _ _) (Nat.le_of_eq ?_)
    rcases a with _ | _ | _ | _ <;> rfl
  · have ht : Format.binary64.targetExponent (totalExponent m e) = max ((m.log2 : Int) + 1 + e - 53) (-1074) := rfl
    simp only [shiftToTargetExponent, shiftToExponent, ht]
    omega

theorem isBelow_roundWithAccuracy (a : Accuracy) (hm : m.log2 ≤ n) (he : e + n + n + 1 ≤ k) (hk : -1073 + n ≤ k) :
    IsBelow k (roundWithAccuracy .binary64 sign m e a) := by
  obtain ⟨hsmaller, hfirst⟩ := shift_le m e a
  obtain ⟨-, hsecond⟩ := shift_le (shiftToTargetExponent .binary64 m e a).1.roundedMantissa
    (shiftToTargetExponent .binary64 m e a).2 .exact
  have hlog : (shiftToTargetExponent .binary64 m e a).1.roundedMantissa.log2 ≤ n + 1 := by
    have hrounded := Nat.le_trans (roundedMantissa_le _) (Nat.succ_le_succ hsmaller)
    exact Nat.le_trans (log2_le_of_le hrounded) (Nat.le_trans (log2_succ_le m) (Nat.succ_le_succ hm))
  unfold roundWithAccuracy
  exact of_dite (P := IsBelow k) (fun _ => trivial) fun _ => Int.le_trans hsecond (by omega)

/-! ### Words -/

theorem log2_toNat_le {w : Nat} (bits : BitVec (w + 1)) : bits.toNat.log2 ≤ w := by
  by_cases h : bits.toNat = 0
  · rw [h]
    exact Nat.zero_le _
  · exact Nat.le_of_lt_succ ((Nat.log2_lt h).mpr bits.isLt)

theorem isBelow_round (hm : m.log2 ≤ 63) : IsBelow 240 (UnpackedFloat.round .binary64 sign m 0) := by
  have ht : Format.binary64.targetExponent (totalExponent m 0) = max ((m.log2 : Int) + 1 + 0 - 53) (-1074) := rfl
  simp only [UnpackedFloat.round, decreaseExponent, ht]
  generalize hshift : (0 - max ((m.log2 : Int) + 1 + 0 - 53) (-1074)).toNat = shift
  have hlog : (m <<< shift).log2 ≤ m.log2 + shift + 1 := by
    have hmul := log2_mul_le m (2 ^ shift)
    rwa [Nat.log2_two_pow, ← Nat.shiftLeft_eq] at hmul
  have hle : shift ≤ 52 := by omega
  exact isBelow_roundWithAccuracy (n := 116) _ (by omega) (by omega) (by omega)

theorem isBelow_ofUInt64 (n : UInt64) : IsBelow 240 (ofUInt64 .binary64 n) := by
  have hlog : ((n.toNat : Int).toNat).log2 ≤ 63 := by
    rw [Int.toNat_natCast]
    exact log2_toNat_le n.toBitVec
  simp only [ofUInt64, ofNat, ofInt, UnpackedFloat.normalize]
  split
  · rename_i hn
    have hneg : (n.toNat : Int) < 0 := compare_lt_iff_lt.mp hn
    omega
  · exact trivial
  · exact isBelow_round hlog

/-! ### Packing -/

theorem isBelow_unpack {bits : BitVec 64} (hn : @unpackExponent .binary64 bits ≠ -1#_)
    (he : ((@unpackExponent .binary64 bits).toNat : Int) - 1075 ≤ k) (hk : -1074 ≤ k) :
    IsBelow k (unpack .binary64 bits) := by
  unfold unpack
  dsimp only
  rw [if_neg hn]
  refine of_dite (P := IsBelow k) (fun hz => of_dite (P := IsBelow k) (fun _ => trivial) fun _ => ?_) fun _ => he
  rw [hz]
  exact hk

theorem isBelow_unpack_packComponents {exponent : BitVec 11} (mantissa : BitVec 52) (hn : exponent ≠ -1#_)
    (he : (exponent.toNat : Int) - 1075 ≤ k) (hk : -1074 ≤ k) :
    IsBelow k (unpack .binary64 (packComponents .binary64 sign exponent mantissa)) :=
  isBelow_unpack (by rwa [unpackExponent_packComponents]) (by rwa [unpackExponent_packComponents]) hk

theorem isBelow_unpack_pack (h : IsBelow k u) (hl : -1074 ≤ k) (hk : k ≤ 970) :
    IsBelow k (unpack .binary64 (pack .binary64 u)) := by
  cases u with
  | infinity | notANumber => exact h.elim
  | zero sign => exact isBelow_unpack_packComponents 0 (by decide) (by simpa using by omega) hl
  | finite sign m e hm =>
    have he : e ≤ k := h
    generalize hb : (e + 1023 + 52).toNat = biased
    have hp : pack .binary64 (.finite sign m e hm) =
        if 2048 ≤ biased + 1 then packedInfinity .binary64 sign
        else if m.log2 + 1 = 53 then packComponents .binary64 sign (BitVec.ofNat 11 biased) (BitVec.ofNat 52 m)
        else packComponents .binary64 sign 0 (BitVec.ofNat 52 m) := by
      rw [← hb]
      rfl
    rw [hp, if_neg (by omega)]
    split
    · have hlt : (BitVec.ofNat 11 biased).toNat = biased := by
        rw [BitVec.toNat_ofNat]
        exact Nat.mod_eq_of_lt (by omega)
      refine isBelow_unpack_packComponents _ (fun hn => ?_) (by omega) hl
      rw [hn] at hlt
      have hone : (-1#11).toNat = 2047 := rfl
      omega
    · exact isBelow_unpack_packComponents _ (by decide) (by simpa using by omega) hl

theorem isShort_unpack (bits : BitVec 64) : IsShort (unpack .binary64 bits) := by
  unfold unpack
  dsimp only
  refine of_dite (P := IsShort) (fun _ => of_dite (P := IsShort) (fun _ => trivial) fun _ => trivial) fun _ => ?_
  refine of_dite (P := IsShort) (fun _ => of_dite (P := IsShort) (fun _ => trivial) fun _ => ?_) fun _ => ?_
  · exact Nat.le_trans (log2_toNat_le _) (by decide)
  · exact log2_toNat_le _

/-! ### A product that stays in range -/

/-- A word times one. -/
theorem isInf_toFloat_mul (n : UInt64) : (n.toFloat * Decimal.powerOfTen 0).isInf = false := by
  have hone : (Decimal.powerOfTen 0).toModel.unpack = .finite .positive 4503599627370496 (-52) (by decide) := rfl
  have hword : IsBelow 240 n.toFloat.toModel.unpack := isBelow_unpack_pack (isBelow_ofUInt64 n) (by decide) (by decide)
  have hshort : IsShort n.toFloat.toModel.unpack := isShort_unpack _
  have hmul : IsBelow 500 (UnpackedFloat.mul .binary64 n.toFloat.toModel.unpack (Decimal.powerOfTen 0).toModel.unpack) := by
    rw [hone]
    cases hu : n.toFloat.toModel.unpack with
    | infinity | notANumber =>
      rw [hu] at hword
      exact hword.elim
    | zero sign => exact trivial
    | finite sign m e hm =>
      rw [hu] at hword hshort
      have hlog := log2_mul_le m 4503599627370496
      have hm : m.log2 ≤ 52 := hshort
      have he : e ≤ 240 := hword
      have htwo : (4503599627370496 : Nat).log2 = 52 := by decide
      exact isBelow_roundWithAccuracy (n := 105) _ (by omega) (by omega) (by omega)
  exact isInf_of_isBelow (isBelow_unpack_pack hmul (by decide) (by decide))

end SealedDownload.Double

namespace SealedDownload.Decimal

variable {digits : List Nat} {value taken : Nat}

theorem le_foldl (digits : List Nat) (value : Nat) : value ≤ digits.foldl (fun n d => 10 * n + d) value := by
  induction digits generalizing value with
  | nil => exact Nat.le_refl value
  | cons d digits ih => exact Nat.le_trans (by omega) (ih (10 * value + d))

/-- The digits of a word are all taken. -/
theorem foldl_take (h : digits.foldl (fun n d => 10 * n + d) value < UInt64.size) :
    digits.foldl Word.take ⟨value, taken, false⟩ =
      ⟨digits.foldl (fun n d => 10 * n + d) value, taken + digits.length, false⟩ := by
  induction digits generalizing value taken with
  | nil => rfl
  | cons d digits ih =>
    have hlt : 10 * value + d < UInt64.size := Nat.lt_of_le_of_lt (le_foldl digits _) h
    have htake : Word.take ⟨value, taken, false⟩ d = ⟨10 * value + d, taken + 1, false⟩ := by
      unfold Word.take
      rw [if_neg (by simpa using hlt)]
    rw [List.foldl_cons, htake, ih h, List.length_cons, Nat.add_assoc, Nat.add_comm 1]
    rfl

/-- The literal of a word is a double. -/
theorem isSome_float? (h : digits.foldl (fun n d => 10 * n + d) 0 < UInt64.size) :
    (Literal.float? ⟨false, digits, [], 0⟩).isSome = true := by
  have hw : Literal.float? ⟨false, digits, [], 0⟩ =
      (scaleUp? (UInt64.ofNat (digits.foldl (fun n d => 10 * n + d) 0)).toFloat 0).map fun x => x := by
    simp only [Literal.float?, foldl_take h, List.foldl_nil, Nat.zero_add, Nat.sub_self]
    rfl
  rw [hw, Option.isSome_map]
  unfold scaleUp?
  simp only [Double.isInf_toFloat_mul]
  rfl

end SealedDownload.Decimal
