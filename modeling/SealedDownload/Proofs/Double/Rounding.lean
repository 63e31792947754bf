import SealedDownload.Proofs.Double.Finite
import SealedDownload.Proofs.Double.Grid

/-! Rounding to a double that is not negative. Of a number that is given by a mantissa and what is known of the bits
    behind it, a nearest point of the grid is taken, with a mantissa of full length unless the exponent is the
    smallest. -/

namespace SealedDownload.Double

open Float.Model (Format UnpackedFloat totalExponent)
open Float.Model.UnpackedFloat

/-- What a mantissa and the two bits behind it tell of a number. -/
def Shows (em : ExtendedMantissa) (w : ℚ) : Prop :=
  match em.roundBit, em.stickyBit with
  | false, false => w = em.mantissa
  | false, true => em.mantissa < w ∧ w < em.mantissa + 1 / 2
  | true, false => w = em.mantissa + 1 / 2
  | true, true => em.mantissa + 1 / 2 < w ∧ w < em.mantissa + 1

/-- A mantissa has full length, or its exponent is the smallest. -/
structure IsReduced (m : ℕ) (e : ℤ) : Prop where
  lt : m < 2 ^ 53
  exponent_le : -1074 ≤ e
  full : 2 ^ 52 ≤ m ∨ e = -1074

/-- A finite double that is not negative, and its value. -/
inductive Stands : UnpackedFloat → ℚ → Prop where
  | zero (sign : Sign) : Stands (.zero sign) 0
  | finite {m : ℕ} {e : ℤ} (hm : 0 < m) (h : IsReduced m e) : Stands (.finite .positive m e hm) (m * 2 ^ e)

variable {em : ExtendedMantissa} {a : Accuracy} {w : ℚ} {m : ℕ} {e : ℤ}

theorem Stands.isGrid {u : UnpackedFloat} {q : ℚ} (h : Stands u q) : IsGrid q := by
  cases h with
  | zero sign => exact isGrid_zero
  | @finite m e hm h => exact ⟨m, e, h.lt, h.exponent_le, rfl⟩

/-! ### The bits behind a mantissa -/

theorem shows_exact (m : ℕ) : Shows (.ofMantissaAndAccuracy m .exact) m := rfl

theorem Shows.le (h : Shows em w) : em.mantissa ≤ w := by
  obtain ⟨m, roundBit, stickyBit⟩ := em
  cases roundBit <;> cases stickyBit <;> simp only [Shows] at h ⊢ <;> linarith

theorem Shows.lt (h : Shows em w) : w < em.mantissa + 1 := by
  obtain ⟨m, roundBit, stickyBit⟩ := em
  cases roundBit <;> cases stickyBit <;> simp only [Shows] at h ⊢ <;> linarith

theorem Shows.abs_sub_le (h : Shows em w) : |em.roundedMantissa - w| ≤ 1 / 2 := by
  obtain ⟨m, roundBit, stickyBit⟩ := em
  rw [abs_le]
  cases roundBit <;> cases stickyBit <;>
    simp only [Shows, ExtendedMantissa.roundedMantissa, ExtendedMantissa.accuracy, Accuracy.roundToNearestEven] at h ⊢
  case true.false =>
    have hmod : m % 2 = 0 ∨ m % 2 = 1 := Nat.mod_two_eq_zero_or_one m
    rcases hmod with hmod | hmod <;> rw [hmod] <;> push_cast <;> constructor <;> linarith
  all_goals push_cast; constructor <;> linarith

theorem mantissa_le_roundedMantissa (em : ExtendedMantissa) : em.mantissa ≤ em.roundedMantissa := by
  obtain ⟨m, roundBit, stickyBit⟩ := em
  cases roundBit <;> cases stickyBit <;>
    simp only [ExtendedMantissa.roundedMantissa, ExtendedMantissa.accuracy, Accuracy.roundToNearestEven] <;> omega

theorem Shows.shiftRightOne (h : Shows em w) : Shows em.shiftRightOne (w / 2) := by
  obtain ⟨m, roundBit, stickyBit⟩ := em
  obtain ⟨k, rfl | rfl⟩ : ∃ k, m = 2 * k ∨ m = 2 * k + 1 := ⟨m / 2, by omega⟩
  · have hk : ExtendedMantissa.shiftRightOne ⟨2 * k, roundBit, stickyBit⟩ = ⟨k, false, roundBit || stickyBit⟩ := by
      simp [ExtendedMantissa.shiftRightOne]
    rw [hk]
    cases roundBit <;> cases stickyBit <;> simp only [Shows, Bool.or_false, Bool.or_true, Bool.or_self] at h ⊢ <;>
      push_cast at h <;> first | linarith | (constructor <;> linarith)
  · have hk : ExtendedMantissa.shiftRightOne ⟨2 * k + 1, roundBit, stickyBit⟩ = ⟨k, true, roundBit || stickyBit⟩ := by
      simp [ExtendedMantissa.shiftRightOne]
      omega
    rw [hk]
    cases roundBit <;> cases stickyBit <;> simp only [Shows, Bool.or_false, Bool.or_true, Bool.or_self] at h ⊢ <;>
      push_cast at h <;> first | linarith | (constructor <;> linarith)

theorem Shows.shiftRight (h : Shows em w) (n : ℕ) : Shows (em >>> n) (w / 2 ^ n) := by
  induction n with
  | zero =>
    rw [pow_zero, div_one]
    exact h
  | succ n ih =>
    rw [pow_succ, ← div_div]
    exact ih.shiftRightOne

theorem mantissa_shiftRight (em : ExtendedMantissa) (n : ℕ) : (em >>> n).mantissa = em.mantissa / 2 ^ n := by
  induction n with
  | zero => exact (Nat.div_one _).symm
  | succ n ih =>
    have hstep : (em >>> (n + 1)).mantissa = (em >>> n).mantissa / 2 := rfl
    rw [hstep, ih, Nat.div_div_eq_div_mul, pow_succ]

/-! ### Rounding -/

theorem targetExponent_eq (m : ℕ) (e : ℤ) :
    Format.binary64.targetExponent (totalExponent m e) = max ((m.log2 : ℤ) + 1 + e - 53) (-1074) := rfl

/-- The second shift only takes a mantissa back that has been rounded up to one bit too many. -/
theorem stands_of_shifted (hm : m ≤ 2 ^ 53) (he : -1074 ≤ e) (hfull : 2 ^ 52 ≤ m ∨ e = -1074) :
    Stands (if h : (shiftToTargetExponent .binary64 m e .exact).1.mantissa = 0 then .zero .positive
      else .finite .positive (shiftToTargetExponent .binary64 m e .exact).1.mantissa
        (shiftToTargetExponent .binary64 m e .exact).2 (Nat.pos_of_ne_zero h)) (m * 2 ^ e) := by
  rcases Nat.lt_or_eq_of_le hm with hlt | rfl
  · have hlog : m.log2 ≤ 52 := by
      by_cases hz : m = 0
      · rw [hz]
        decide
      · exact Nat.le_of_lt_succ ((Nat.log2_lt hz).mpr hlt)
    have hshift : shiftToTargetExponent .binary64 m e .exact = (⟨m, false, false⟩, e) := by
      have hzero : (max ((m.log2 : ℤ) + 1 + e - 53) (-1074) - e).toNat = 0 := by omega
      simp only [shiftToTargetExponent, shiftToExponent, targetExponent_eq, hzero]
      exact Prod.ext rfl (add_zero e)
    rw [hshift]
    refine of_dite (P := fun u => Stands u (m * 2 ^ e)) (fun h => ?_) fun h => ?_
    · have hz : m = 0 := h
      rw [hz, Nat.cast_zero, zero_mul]
      exact .zero _
    · exact .finite _ ⟨hlt, he, hfull⟩
  · have hshift : shiftToTargetExponent .binary64 (2 ^ 53) e .exact = (⟨2 ^ 52, false, false⟩, e + 1) := by
      have hone : (max (((2 ^ 53 : ℕ).log2 : ℤ) + 1 + e - 53) (-1074) - e).toNat = 1 := by
        rw [Nat.log2_two_pow]
        omega
      simp only [shiftToTargetExponent, shiftToExponent, targetExponent_eq, hone]
      rfl
    rw [hshift]
    refine of_dite (P := fun u => Stands u ((2 ^ 53 : ℕ) * 2 ^ e)) (fun h => absurd h (Nat.two_pow_pos 52).ne') fun _ => ?_
    have hvalue : ((2 ^ 53 : ℕ) : ℚ) * 2 ^ e = (2 ^ 52 : ℕ) * 2 ^ (e + 1) := by
      rw [two_zpow_add]
      push_cast
      ring
    rw [hvalue]
    exact .finite _ ⟨by norm_num, by omega, Or.inl le_rfl⟩

/-- A mantissa of which enough bits are known is rounded to the grid. -/
theorem stands_roundWithAccuracy (hs : Shows (.ofMantissaAndAccuracy m a) w) (hm : 52 ≤ m.log2 ∨ e ≤ -1074) :
    ∃ r, Rounds (w * 2 ^ e) r ∧ Stands (roundWithAccuracy .binary64 .positive m e a) r := by
  obtain ⟨k, hk⟩ : ∃ k, k = (max ((m.log2 : ℤ) + 1 + e - 53) (-1074) - e).toNat := ⟨_, rfl⟩
  have hfirst : shiftToTargetExponent .binary64 m e a = (ExtendedMantissa.ofMantissaAndAccuracy m a >>> k, e + k) := by
    rw [hk]
    rfl
  generalize hem : ExtendedMantissa.ofMantissaAndAccuracy m a >>> k = em at hfirst
  have hmantissa : em.mantissa = m / 2 ^ k := by
    rw [← hem, mantissa_shiftRight]
    rcases a with _ | _ | _ | _ <;> rfl
  have hshows : Shows em (w / 2 ^ k) := hem ▸ hs.shiftRight k
  have hlt : em.mantissa < 2 ^ 53 := by
    rw [hmantissa, Nat.div_lt_iff_lt_mul (Nat.two_pow_pos k), ← pow_add]
    exact lt_of_lt_of_le Nat.lt_log2_self (Nat.pow_le_pow_right (by decide) (by omega))
  have hfull : 2 ^ 52 ≤ em.mantissa ∨ e + k = -1074 := by
    by_cases hmin : e + k = -1074
    · exact Or.inr hmin
    · have hlog : m.log2 = 52 + k := by omega
      have hpos : m ≠ 0 := by
        rintro rfl
        have hzero : Nat.log2 0 = 0 := by decide
        omega
      refine Or.inl ?_
      rw [hmantissa, Nat.le_div_iff_mul_le (Nat.two_pow_pos k), ← pow_add, ← hlog]
      exact Nat.log2_self_le hpos
  have hw : w / 2 ^ k < 2 ^ 53 := lt_of_lt_of_le hshows.lt (by exact_mod_cast hlt)
  have hw' : 2 ^ 52 ≤ w / 2 ^ k ∨ e + k = -1074 :=
    hfull.imp_left fun h => le_trans (by exact_mod_cast h) hshows.le
  have hrounds := rounds_of_abs_sub_le hshows.abs_sub_le hw (by omega) hw'
  have hvalue : w / 2 ^ k * 2 ^ (e + k) = w * 2 ^ e := by
    rw [two_zpow_add, zpow_natCast]
    field_simp
  rw [hvalue] at hrounds
  refine ⟨_, hrounds, ?_⟩
  have hle : em.roundedMantissa ≤ 2 ^ 53 := Nat.le_trans (roundedMantissa_le em) hlt
  have hge : 2 ^ 52 ≤ em.roundedMantissa ∨ e + k = -1074 :=
    hfull.imp_left fun h => Nat.le_trans h (mantissa_le_roundedMantissa em)
  unfold roundWithAccuracy
  rw [hfirst]
  exact stands_of_shifted hle (by omega) hge

theorem stands_round (hm : m ≠ 0) (e : ℤ) :
    ∃ r, Rounds (m * 2 ^ e) r ∧ Stands (UnpackedFloat.round .binary64 .positive m e) r := by
  obtain ⟨k, hk⟩ : ∃ k, k = (e - max ((m.log2 : ℤ) + 1 + e - 53) (-1074)).toNat := ⟨_, rfl⟩
  have hround : UnpackedFloat.round .binary64 .positive m e =
      roundWithAccuracy .binary64 .positive (m * 2 ^ k) (e - k) .exact := by
    rw [← Nat.shiftLeft_eq, hk]
    rfl
  have hlog : (m * 2 ^ k).log2 = m.log2 + k := by
    rw [Nat.log2_eq_iff (Nat.mul_ne_zero hm (Nat.two_pow_pos k).ne'), pow_add, pow_add, pow_add]
    have hlow := Nat.mul_le_mul_right (2 ^ k) (Nat.log2_self_le hm)
    have hhigh := Nat.mul_lt_mul_of_pos_right (Nat.lt_log2_self (n := m)) (Nat.two_pow_pos k)
    rw [pow_succ] at hhigh
    exact ⟨hlow, by linarith⟩
  have hvalue : ((m * 2 ^ k : ℕ) : ℚ) * 2 ^ (e - k) = m * 2 ^ e := by
    have hmul := natCast_mul_two_zpow (e := e) (f := e - k) m (by omega)
    rw [hmul, show (e - (e - k)).toNat = k by omega]
  rw [hround, ← hvalue]
  exact stands_roundWithAccuracy (shows_exact _) (by rw [hlog]; omega)

theorem stands_normalize (m : ℕ) (e : ℤ) :
    ∃ r, Rounds (m * 2 ^ e) r ∧ Stands (UnpackedFloat.normalize .binary64 m e .positive) r := by
  by_cases hm : m = 0
  · subst hm
    rw [Nat.cast_zero, zero_mul]
    exact ⟨0, .refl isGrid_zero, .zero _⟩
  · have hnormalize : UnpackedFloat.normalize .binary64 m e .positive = UnpackedFloat.round .binary64 .positive m e := by
      have hgt : compare (m : ℤ) 0 = .gt := Int.compare_eq_gt.mpr (by omega)
      unfold UnpackedFloat.normalize
      rw [hgt]
      rfl
    rw [hnormalize]
    exact stands_round hm e

end SealedDownload.Double
