import Mathlib.Algebra.Order.Field.Power
import Mathlib.Algebra.Order.Round
import Mathlib.Data.Int.Log
import Mathlib.Data.Rat.Floor
import Mathlib.Tactic.Linarith
import Mathlib.Tactic.NormNum
import Mathlib.Tactic.Positivity
import Mathlib.Tactic.Ring

/-! The numbers that a double can be, as a grid of rationals that gets coarser upwards, and rounding to a point of it
    than which none is nearer. Where two points are equally near, either will do. -/

namespace SealedDownload.Double

/-- What a mantissa of 53 bits can stand for, with no exponent too large for it. -/
def IsGrid (q : ℚ) : Prop := ∃ (m : ℕ) (e : ℤ), m < 2 ^ 53 ∧ -1074 ≤ e ∧ q = m * 2 ^ e

/-- A point of the grid than which none is nearer. -/
structure Rounds (q r : ℚ) : Prop where
  isGrid : IsGrid r
  nearest : ∀ g, IsGrid g → |r - q| ≤ |g - q|

variable {q q' r r' g μ : ℚ} {m n : ℕ} {e : ℤ}

theorem two_zpow_pos (e : ℤ) : (0 : ℚ) < 2 ^ e := zpow_pos (by norm_num) e

theorem two_zpow_add (e f : ℤ) : (2 : ℚ) ^ (e + f) = 2 ^ e * 2 ^ f := zpow_add₀ (by norm_num) e f

theorem two_zpow_lt_iff {e f : ℤ} : (2 : ℚ) ^ e < 2 ^ f ↔ e < f := zpow_lt_zpow_iff_right₀ (by norm_num)

/-- A larger exponent leaves a multiple of the smaller power. -/
theorem natCast_mul_two_zpow {f : ℤ} (m : ℕ) (h : f ≤ e) :
    (m : ℚ) * 2 ^ e = (m * 2 ^ (e - f).toNat : ℕ) * 2 ^ f := by
  have hsplit : e = ((e - f).toNat : ℤ) + f := by omega
  conv_lhs => rw [hsplit, two_zpow_add, zpow_natCast]
  push_cast
  ring

theorem natCast_eq_of_abs_sub_lt (h : |(m : ℚ) - n| < 1) : m = n := by
  have hint : |(m : ℤ) - n| < 1 := by exact_mod_cast h
  have hzero := Int.abs_lt_one_iff.mp hint
  omega

/-- What a quotient has beyond its whole part, and how that compares with one half. -/
theorem exists_fraction (m : ℕ) (hn : 0 < n) : ∃ f : ℚ, (m : ℚ) / n = (m / n : ℕ) + f ∧ 0 ≤ f ∧ f < 1 ∧
    (f = 0 ↔ m % n = 0) ∧ (f < 1 / 2 ↔ 2 * (m % n) < n) ∧ (f = 1 / 2 ↔ 2 * (m % n) = n) := by
  have hpos : (0 : ℚ) < n := by exact_mod_cast hn
  refine ⟨(m % n : ℕ) / n, ?_, by positivity, ?_, ?_, ?_, ?_⟩
  · have hsum : (m : ℚ) = n * (m / n : ℕ) + (m % n : ℕ) := by exact_mod_cast (Nat.div_add_mod m n).symm
    rw [div_eq_iff hpos.ne', add_mul, div_mul_cancel₀ _ hpos.ne', mul_comm _ (n : ℚ)]
    exact hsum
  · rw [div_lt_one hpos]
    exact_mod_cast Nat.mod_lt m hn
  · rw [div_eq_zero_iff, or_iff_left hpos.ne', Nat.cast_eq_zero]
  · rw [div_lt_div_iff₀ hpos two_pos, one_mul, mul_comm]
    exact_mod_cast Iff.rfl
  · rw [div_eq_div_iff hpos.ne' two_ne_zero, one_mul, mul_comm]
    exact_mod_cast Iff.rfl

/-! ### Points of the grid -/

theorem IsGrid.nonneg (h : IsGrid q) : 0 ≤ q := by
  obtain ⟨m, e, -, -, rfl⟩ := h
  exact mul_nonneg (Nat.cast_nonneg m) (two_zpow_pos e).le

theorem isGrid_mul (hm : m ≤ 2 ^ 53) (he : -1074 ≤ e) : IsGrid (m * 2 ^ e) := by
  rcases Nat.lt_or_eq_of_le hm with hlt | rfl
  · exact ⟨m, e, hlt, he, rfl⟩
  · refine ⟨2 ^ 52, e + 1, by norm_num, by omega, ?_⟩
    rw [two_zpow_add]
    push_cast
    ring

theorem isGrid_natCast (h : n ≤ 2 ^ 53) : IsGrid n := by
  have hg : IsGrid (n * 2 ^ (0 : ℤ)) := isGrid_mul h (by norm_num)
  rwa [zpow_zero, mul_one] at hg

theorem isGrid_zero : IsGrid 0 := isGrid_natCast (n := 0) (by norm_num)

theorem isGrid_two_zpow (he : -1074 ≤ e) : IsGrid (2 ^ e) := ⟨1, e, by norm_num, he, by rw [Nat.cast_one, one_mul]⟩

/-- From `2 ^ (52 + e)` on, all points of the grid are multiples of `2 ^ e`. -/
theorem IsGrid.exists_mul (hg : IsGrid q) (h : (2 : ℚ) ^ (52 + e) ≤ q) : ∃ k : ℕ, q = k * 2 ^ e := by
  obtain ⟨m, f, hm, -, rfl⟩ := hg
  have hlt : (m : ℚ) * 2 ^ f < 2 ^ (53 + f) := by
    rw [two_zpow_add]
    exact mul_lt_mul_of_pos_right (by exact_mod_cast hm) (two_zpow_pos f)
  have hexp := two_zpow_lt_iff.mp (lt_of_le_of_lt h hlt)
  exact ⟨_, natCast_mul_two_zpow m (by omega)⟩

/-- From `2 ^ (52 + e)` on, points of the grid are `2 ^ e` apart at least. -/
theorem IsGrid.eq_of_abs_sub_lt (hq : IsGrid q) (hr : IsGrid r) (h : (2 : ℚ) ^ (52 + e) ≤ q)
    (h' : (2 : ℚ) ^ (52 + e) ≤ r) (hlt : |q - r| < 2 ^ e) : q = r := by
  obtain ⟨k, rfl⟩ := hq.exists_mul h
  obtain ⟨i, rfl⟩ := hr.exists_mul h'
  rw [← sub_mul, abs_mul, abs_of_pos (two_zpow_pos e)] at hlt
  have hone : |(k : ℚ) - i| < 1 := lt_of_mul_lt_mul_right (by rwa [one_mul]) (two_zpow_pos e).le
  rw [natCast_eq_of_abs_sub_lt hone]

/-- Below `2 ^ (53 + e)`, a point of the grid is `2 ^ e` away from it at least. -/
theorem IsGrid.add_le_of_lt (hq : IsGrid q) (h : q < 2 ^ (53 + e)) : q + 2 ^ e ≤ 2 ^ (53 + e) := by
  have hp := two_zpow_pos e
  by_cases hhalf : (2 : ℚ) ^ (52 + e) ≤ q
  · obtain ⟨k, rfl⟩ := hq.exists_mul hhalf
    have hk : k < 2 ^ 53 := by
      rw [two_zpow_add] at h
      exact_mod_cast lt_of_mul_lt_mul_right h hp.le
    have hk' : (k : ℚ) + 1 ≤ 2 ^ (53 : ℤ) := by exact_mod_cast hk
    calc (k : ℚ) * 2 ^ e + 2 ^ e = (k + 1) * 2 ^ e := by ring
      _ ≤ 2 ^ (53 : ℤ) * 2 ^ e := mul_le_mul_of_nonneg_right hk' hp.le
      _ = 2 ^ (53 + e) := (two_zpow_add 53 e).symm
  · rw [two_zpow_add] at hhalf ⊢
    norm_num at hhalf ⊢
    linarith

/-- A point of the grid that is not too small has a mantissa of full length. -/
theorem IsGrid.exists_normal (hg : IsGrid q) (h : (2 : ℚ) ^ (-1022 : ℤ) ≤ q) :
    ∃ (k : ℕ) (e : ℤ), 2 ^ 52 ≤ k ∧ k < 2 ^ 53 ∧ -1074 ≤ e ∧ q = k * 2 ^ e := by
  obtain ⟨m, f, hm, -, rfl⟩ := hg
  have hpos : m ≠ 0 := by
    rintro rfl
    rw [Nat.cast_zero, zero_mul] at h
    exact absurd h (not_le.mpr (two_zpow_pos _))
  have hlow : 2 ^ m.log2 ≤ m := Nat.log2_self_le hpos
  have hhigh : m < 2 ^ (m.log2 + 1) := Nat.lt_log2_self
  have hlog : m.log2 < 53 := (Nat.log2_lt hpos).mpr hm
  have hshift : 2 ^ 52 = 2 ^ m.log2 * 2 ^ (52 - m.log2) := by rw [← pow_add]; congr 1; omega
  have hfull : m * 2 ^ (52 - m.log2) < 2 ^ 53 := by
    have hmul := Nat.mul_lt_mul_of_pos_right hhigh (Nat.two_pow_pos (52 - m.log2))
    rwa [← pow_add, show m.log2 + 1 + (52 - m.log2) = 53 by omega] at hmul
  have heq : (m : ℚ) * 2 ^ f = (m * 2 ^ (52 - m.log2) : ℕ) * 2 ^ (f - (52 - m.log2 : ℕ)) := by
    have hmul := natCast_mul_two_zpow (e := f) (f := f - (52 - m.log2 : ℕ)) m (by omega)
    rwa [show (f - (f - (52 - m.log2 : ℕ))).toNat = 52 - m.log2 by omega] at hmul
  refine ⟨m * 2 ^ (52 - m.log2), f - (52 - m.log2 : ℕ), ?_, hfull, ?_, heq⟩
  · rw [hshift]
    exact Nat.mul_le_mul_right _ hlow
  · have hlt : (m : ℚ) * 2 ^ f < 2 ^ (53 + (f - (52 - m.log2 : ℕ))) := by
      rw [heq, two_zpow_add]
      exact mul_lt_mul_of_pos_right (by exact_mod_cast hfull) (two_zpow_pos _)
    have hexp := two_zpow_lt_iff.mp (lt_of_le_of_lt h hlt)
    omega

/-- Below a number that is not too small there is a point of the grid within one part in `2 ^ 52` of it. -/
theorem exists_isGrid_le (h : (2 : ℚ) ^ (-1022 : ℤ) ≤ q) : ∃ g, IsGrid g ∧ g ≤ q ∧ q ≤ g + q * 2 ^ (-52 : ℤ) := by
  have hq : 0 < q := lt_of_lt_of_le (two_zpow_pos _) h
  have hlow := Int.zpow_log_le_self (b := 2) (by norm_num) hq
  have hhigh := Int.lt_zpow_succ_log_self (b := 2) (by norm_num) q
  push_cast at hlow hhigh
  have hlog : -1022 < Int.log 2 q + 1 := two_zpow_lt_iff.mp (lt_of_le_of_lt h hhigh)
  obtain ⟨e, he⟩ : ∃ e, Int.log 2 q = 52 + e := ⟨Int.log 2 q - 52, by omega⟩
  rw [he] at hlow hhigh hlog
  have hp := two_zpow_pos e
  have hfloor := Nat.floor_le (div_nonneg hq.le hp.le)
  have hnext := Nat.lt_floor_add_one (q / 2 ^ e)
  have hle : (⌊q / 2 ^ e⌋₊ : ℚ) * 2 ^ e ≤ q := (le_div_iff₀ hp).mp hfloor
  have hlt : q < (⌊q / 2 ^ e⌋₊ + 1 : ℚ) * 2 ^ e := (div_lt_iff₀ hp).mp hnext
  rw [add_mul, one_mul] at hlt
  have hm : ⌊q / 2 ^ e⌋₊ < 2 ^ 53 := by
    rw [show 52 + e + 1 = 53 + e by omega, two_zpow_add] at hhigh
    have hcast := lt_of_mul_lt_mul_right (lt_of_le_of_lt hle hhigh) hp.le
    exact_mod_cast hcast
  refine ⟨_, isGrid_mul hm.le (by omega), hle, ?_⟩
  have hunit : (2 : ℚ) ^ e ≤ q * 2 ^ (-52 : ℤ) := by
    calc (2 : ℚ) ^ e = 2 ^ (52 + e) * 2 ^ (-52 : ℤ) := by rw [← two_zpow_add, add_neg_cancel_comm]
      _ ≤ q * 2 ^ (-52 : ℤ) := mul_le_mul_of_nonneg_right hlow (two_zpow_pos _).le
  exact hlt.le.trans (add_le_add_right hunit _)

/-! ### Rounding -/

theorem Rounds.refl (h : IsGrid q) : Rounds q q :=
  ⟨h, fun g _ => by rw [sub_self, abs_zero]; exact abs_nonneg _⟩

theorem Rounds.eq (h : Rounds q r) (hq : IsGrid q) : r = q := by
  have hzero := h.nearest q hq
  rw [sub_self, abs_zero] at hzero
  exact sub_eq_zero.mp (abs_nonpos_iff.mp hzero)

theorem Rounds.le (h : Rounds q r) (hg : IsGrid g) (hle : g ≤ q) : g ≤ r := by
  have hnear := h.nearest g hg
  rw [abs_of_nonpos (sub_nonpos.mpr hle)] at hnear
  linarith [(abs_le.mp hnear).1]

theorem Rounds.ge (h : Rounds q r) (hg : IsGrid g) (hle : q ≤ g) : r ≤ g := by
  have hnear := h.nearest g hg
  rw [abs_of_nonneg (sub_nonneg.mpr hle)] at hnear
  linarith [(abs_le.mp hnear).2]

/-- The point that a smaller number is rounded to is no larger: were it, the middle between the two points would not
    exceed the smaller number, and the larger one would not exceed the middle. -/
theorem Rounds.mono (h : Rounds q r) (h' : Rounds q' r') (hlt : q < q') : r ≤ r' := by
  by_contra hgt
  rw [not_le] at hgt
  have hsmall : (r - q) ^ 2 ≤ (r' - q) ^ 2 := sq_le_sq.mpr (h.nearest r' h'.isGrid)
  have hlarge : (r' - q') ^ 2 ≤ (r - q') ^ 2 := sq_le_sq.mpr (h'.nearest r h.isGrid)
  have hmiddle : r + r' ≤ 2 * q := by nlinarith
  have hmiddle' : 2 * q' ≤ r + r' := by nlinarith
  linarith

/-- Up to `2 ^ (53 + e)`, rounding moves a number by half of `2 ^ e` at most. -/
theorem Rounds.abs_sub_le (h : Rounds q r) (he : -1074 ≤ e) (h0 : 0 ≤ q) (hq : q ≤ 2 ^ (53 + e)) :
    |r - q| ≤ 2 ^ e / 2 := by
  have hp := two_zpow_pos e
  have hround := abs_le.mp (abs_sub_round (q / 2 ^ e))
  have hscaled : q / 2 ^ e ≤ 2 ^ 53 := by
    rw [div_le_iff₀ hp]
    rwa [two_zpow_add] at hq
  have h0' : 0 ≤ round (q / 2 ^ e) := by
    rw [round_eq]
    exact Int.floor_nonneg.mpr (by positivity)
  obtain ⟨k, hk⟩ := Int.eq_ofNat_of_zero_le h0'
  rw [hk] at hround
  push_cast at hround
  have hle : k ≤ 2 ^ 53 := by
    have hlt : (k : ℚ) < (2 ^ 53 + 1 : ℕ) := by push_cast; linarith
    exact Nat.le_of_lt_succ (by exact_mod_cast hlt)
  refine (h.nearest _ (isGrid_mul hle he)).trans ?_
  have hsplit : (k : ℚ) * 2 ^ e - q = (k - q / 2 ^ e) * 2 ^ e := by
    field_simp
  have hhalf : |(k : ℚ) - q / 2 ^ e| ≤ 1 / 2 := by
    rw [abs_le]
    constructor <;> linarith
  calc |(k : ℚ) * 2 ^ e - q| = |(k : ℚ) - q / 2 ^ e| * 2 ^ e := by rw [hsplit, abs_mul, abs_of_pos hp]
    _ ≤ 1 / 2 * 2 ^ e := mul_le_mul_of_nonneg_right hhalf hp.le
    _ = 2 ^ e / 2 := by ring

/-- The integer nearest to a mantissa of full length, or to any mantissa of the smallest exponent, makes the point of
    the grid nearest to the number. -/
theorem rounds_of_abs_sub_le {w : ℚ} {k : ℕ} (hk : |k - w| ≤ 1 / 2) (hw : w < 2 ^ 53) (he : -1074 ≤ e)
    (hfull : 2 ^ 52 ≤ w ∨ e = -1074) : Rounds (w * 2 ^ e) (k * 2 ^ e) := by
  have hp := two_zpow_pos e
  obtain ⟨hk1, hk2⟩ := abs_le.mp hk
  have hle : k ≤ 2 ^ 53 := by
    have hlt : (k : ℚ) < (2 ^ 53 + 1 : ℕ) := by push_cast; linarith
    exact Nat.le_of_lt_succ (by exact_mod_cast hlt)
  -- other integers are half a unit away at least
  have hint : ∀ i : ℕ, |k - w| ≤ |i - w| := by
    intro i
    rcases lt_trichotomy i k with hi | rfl | hi
    · have hi : (i : ℚ) + 1 ≤ k := by exact_mod_cast hi
      exact hk.trans (by rw [le_abs]; right; linarith)
    · exact le_rfl
    · have hi : (k : ℚ) + 1 ≤ i := by exact_mod_cast hi
      exact hk.trans (by rw [le_abs]; left; linarith)
  have hscale : ∀ x : ℚ, |x * 2 ^ e - w * 2 ^ e| = |x - w| * 2 ^ e := by
    intro x
    rw [← sub_mul, abs_mul, abs_of_pos hp]
  refine ⟨isGrid_mul hle he, fun g hg => ?_⟩
  by_cases hge : (2 : ℚ) ^ (52 + e) ≤ g ∨ e = -1074
  · have hmul : ∃ i : ℕ, g = i * 2 ^ e := by
      rcases hge with hge | rfl
      · exact hg.exists_mul hge
      · obtain ⟨m, f, -, hf, rfl⟩ := hg
        exact ⟨_, natCast_mul_two_zpow m hf⟩
    obtain ⟨i, rfl⟩ := hmul
    rw [hscale, hscale]
    exact mul_le_mul_of_nonneg_right (hint i) hp.le
  · -- a finer point lies below all mantissas of full length
    rw [not_or, not_le] at hge
    have hbelow : g < 2 ^ 52 * 2 ^ e := by
      have hlt := hge.1
      rwa [two_zpow_add] at hlt
    have hw' : 2 ^ 52 * 2 ^ e ≤ w * 2 ^ e := mul_le_mul_of_nonneg_right (hfull.resolve_right hge.2) hp.le
    have hnear := mul_le_mul_of_nonneg_right (hint (2 ^ 52)) hp.le
    rw [← hscale, ← hscale] at hnear
    push_cast at hnear
    refine hnear.trans ?_
    rw [abs_of_nonpos (by linarith), abs_of_nonpos (by linarith)]
    linarith

/-- A product with a factor above one is above the point that it starts from. -/
theorem Rounds.lt_of_mul (h : Rounds (g * μ) r) (hg : IsGrid g) (hlow : (2 : ℚ) ^ (-1022 : ℤ) ≤ g)
    (hμ : 1 + (2 : ℚ) ^ (-52 : ℤ) ≤ μ) : g < r := by
  obtain ⟨k, e, hk, hk', he, rfl⟩ := hg.exists_normal hlow
  have hp := two_zpow_pos e
  have hnext : IsGrid ((k + 1 : ℕ) * 2 ^ e) := isGrid_mul hk' he
  have hk : (2 : ℚ) ^ 52 ≤ k := by exact_mod_cast hk
  have hstep : 1 ≤ (k : ℚ) * 2 ^ (-52 : ℤ) := by
    rw [zpow_neg, ← div_eq_mul_inv, le_div_iff₀ (two_zpow_pos 52), one_mul]
    exact_mod_cast hk
  have hle : ((k + 1 : ℕ) : ℚ) * 2 ^ e ≤ k * 2 ^ e * μ := by
    calc ((k + 1 : ℕ) : ℚ) * 2 ^ e ≤ (k * (1 + 2 ^ (-52 : ℤ))) * 2 ^ e := by
          refine mul_le_mul_of_nonneg_right ?_ hp.le
          push_cast
          linarith
      _ ≤ k * μ * 2 ^ e := mul_le_mul_of_nonneg_right (mul_le_mul_of_nonneg_left hμ (Nat.cast_nonneg k)) hp.le
      _ = k * 2 ^ e * μ := by ring
  refine lt_of_lt_of_le ?_ (h.le hnext hle)
  push_cast
  linarith

end SealedDownload.Double
