import SealedDownload.Proofs.Double.Order
import SealedDownload.Proofs.Double.Rounding

/-! Arithmetic of doubles that are not negative: a sum, a product, a quotient and the double of a word is the exact result
    rounded to the grid, or infinite where that is too large. -/

namespace SealedDownload.Double

open Float.Model (Format UnpackedFloat)
open Float.Model.UnpackedFloat

/-- A double that is finite and not negative, and its value. -/
def Reads (x : Float) (q : ℚ) : Prop := Stands x.toModel.unpack q

variable {p q : ℚ} {m n : ℕ} {e : ℤ} {u v : UnpackedFloat} {x y : Float} {bits : BitVec 64}

/-! ### Packing -/

theorem sign_packComponents (sign : Sign) (exponent : BitVec 11) (mantissa : BitVec 52) :
    Sign.ofBitVec (unpackSign (packComponents .binary64 sign exponent mantissa)) = sign := by
  have hsign : unpackSign (packComponents .binary64 sign exponent mantissa) =
      (sign.toBitVec ++ exponent ++ mantissa).extractLsb' 63 1 := rfl
  rw [hsign, BitVec.extractLsb'_append_eq_of_le (by decide), BitVec.extractLsb'_append_eq_of_le (by decide)]
  cases sign <;> rfl

theorem toNat_implicit (mantissa : BitVec 52) : (1#1 ++ mantissa).toNat = 2 ^ 52 + mantissa.toNat := by
  rw [BitVec.toNat_append, ← Nat.shiftLeft_add_eq_or_of_lt mantissa.isLt]
  rfl

theorem finite_congr {sign : Sign} {f : ℤ} {hm : 0 < m} {hn : 0 < n} (h : m = n) (he : e = f) :
    UnpackedFloat.finite sign m e hm = .finite sign n f hn := by
  subst h he
  rfl

theorem unpack_of_normal (hs : @unpackExponent .binary64 bits ≠ -1#_) (hz : @unpackExponent .binary64 bits ≠ 0#_) :
    unpack .binary64 bits = .finite (Sign.ofBitVec (@unpackSign .binary64 bits))
      (2 ^ 52 + (@unpackMantissa .binary64 bits).toNat) ((@unpackExponent .binary64 bits).toNat - 1075)
      (Nat.add_pos_left (Nat.two_pow_pos 52) _) := by
  unfold unpack
  dsimp only
  rw [if_neg hs, if_neg hz]
  exact finite_congr (toNat_implicit _) rfl

theorem unpack_of_subnormal (hz : @unpackExponent .binary64 bits = 0#_) (hm : 0 < (@unpackMantissa .binary64 bits).toNat) :
    unpack .binary64 bits = .finite (Sign.ofBitVec (@unpackSign .binary64 bits))
      (@unpackMantissa .binary64 bits).toNat (-1074) hm := by
  have hm' : @unpackMantissa .binary64 bits ≠ 0#_ := by
    intro h
    rw [h] at hm
    exact absurd hm (by decide)
  unfold unpack
  dsimp only
  rw [if_neg (by rw [hz]; decide), if_pos hz, dif_neg hm']
  exact finite_congr rfl (by rw [hz]; rfl)

/-- A finite double is made of its fields: without the leading bit if the field of the exponent is zero, with it
    otherwise. -/
theorem fields_of_unpack {sign : Sign} {hm : 0 < m} (h : unpack .binary64 bits = .finite sign m e hm) :
    ((@unpackExponent .binary64 bits).toNat = 0 ∧ m = (@unpackMantissa .binary64 bits).toNat ∧ e = -1074) ∨
    ((@unpackExponent .binary64 bits).toNat ≠ 0 ∧ (@unpackExponent .binary64 bits).toNat ≠ 2047 ∧
      m = 2 ^ 52 + (@unpackMantissa .binary64 bits).toNat ∧ e = (@unpackExponent .binary64 bits).toNat - 1075) := by
  by_cases hs : @unpackExponent .binary64 bits = -1#_
  · unfold unpack at h
    dsimp only at h
    rw [if_pos hs] at h
    by_cases hnone : @unpackMantissa .binary64 bits = 0#_
    · rw [if_pos hnone] at h
      cases h
    · rw [if_neg hnone] at h
      cases h
  · by_cases hz : @unpackExponent .binary64 bits = 0#_
    · by_cases hpos : 0 < (@unpackMantissa .binary64 bits).toNat
      · rw [unpack_of_subnormal hz hpos] at h
        cases h
        exact Or.inl ⟨congrArg BitVec.toNat hz, rfl, rfl⟩
      · have hnone : @unpackMantissa .binary64 bits = 0#_ := BitVec.eq_of_toNat_eq (by simpa using hpos)
        unfold unpack at h
        dsimp only at h
        rw [if_neg hs, if_pos hz, dif_pos hnone] at h
        cases h
    · rw [unpack_of_normal hs hz] at h
      cases h
      exact Or.inr ⟨fun h => hz (BitVec.eq_of_toNat_eq h), fun h => hs (BitVec.eq_of_toNat_eq h), rfl, rfl⟩

theorem isReduced_of_unpack {sign : Sign} {hm : 0 < m} (h : unpack .binary64 bits = .finite sign m e hm) :
    IsReduced m e := by
  have hlt : (@unpackMantissa .binary64 bits).toNat < 2 ^ 52 := (@unpackMantissa .binary64 bits).isLt
  rcases fields_of_unpack h with ⟨-, rfl, rfl⟩ | ⟨hz, -, rfl, rfl⟩
  · exact ⟨by omega, le_rfl, Or.inr rfl⟩
  · exact ⟨by omega, by omega, Or.inl (Nat.le_add_right _ _)⟩

theorem pack_finite (m : ℕ) (e : ℤ) (hm : 0 < m) : pack .binary64 (.finite .positive m e hm) =
    if 2048 ≤ (e + 1023 + 52).toNat + 1 then packedInfinity .binary64 .positive
    else if m.log2 + 1 = 53 then
      packComponents .binary64 .positive (BitVec.ofNat 11 (e + 1023 + 52).toNat) (BitVec.ofNat 52 m)
    else packComponents .binary64 .positive 0 (BitVec.ofNat 52 m) := rfl

theorem unpack_pack_finite {hm : 0 < m} (h : IsReduced m e) (he : e ≤ 971) :
    unpack .binary64 (pack .binary64 (.finite .positive m e hm)) = .finite .positive m e hm := by
  have hlow := h.exponent_le
  obtain ⟨biased, hb⟩ : ∃ biased : ℕ, e = biased - 1075 := ⟨(e + 1075).toNat, by omega⟩
  have hbiased : (e + 1023 + 52).toNat = biased := by omega
  rw [pack_finite, if_neg (by omega), hbiased]
  by_cases hfull : 2 ^ 52 ≤ m
  · have hlog : m.log2 = 52 := (Nat.log2_eq_iff hm.ne').mpr ⟨hfull, h.lt⟩
    have hexponent : (BitVec.ofNat 11 biased).toNat = biased := by
      rw [BitVec.toNat_ofNat]
      exact Nat.mod_eq_of_lt (by omega)
    have hmantissa : 2 ^ 52 + (BitVec.ofNat 52 m).toNat = m := by
      have hlt := h.lt
      rw [BitVec.toNat_ofNat]
      omega
    rw [if_pos (by omega), unpack_of_normal, sign_packComponents, unpackMantissa_packComponents,
      unpackExponent_packComponents]
    · exact finite_congr hmantissa (by rw [hexponent, hb])
    · rw [unpackExponent_packComponents]
      intro hs
      rw [hs] at hexponent
      have hone : (-BitVec.ofNat Format.binary64.exponentBits 1).toNat = 2047 := rfl
      omega
    · rw [unpackExponent_packComponents]
      intro hz
      rw [hz] at hexponent
      have hzero : (BitVec.ofNat Format.binary64.exponentBits 0).toNat = 0 := rfl
      omega
  · have hmin : e = -1074 := h.full.resolve_left hfull
    have hlog : m.log2 < 52 := (Nat.log2_lt hm.ne').mpr (not_le.mp hfull)
    have hmantissa : (BitVec.ofNat 52 m).toNat = m := by
      rw [BitVec.toNat_ofNat]
      exact Nat.mod_eq_of_lt (not_le.mp hfull)
    rw [if_neg (by omega), unpack_of_subnormal, sign_packComponents]
    · exact finite_congr (by rw [unpackMantissa_packComponents, hmantissa]) hmin.symm
    · exact unpackExponent_packComponents
    · rw [unpackMantissa_packComponents, hmantissa]
      exact hm

/-- A value is kept by the 64 bits of a double, or is too large for them. -/
theorem Stands.unpack_pack (h : Stands u q) : Stands (unpack .binary64 (pack .binary64 u)) q ∨
    unpack .binary64 (pack .binary64 u) = .infinity .positive ∧ 2 ^ (1024 : ℤ) ≤ q := by
  cases h with
  | zero sign =>
    have hzero : unpack .binary64 (pack .binary64 (.zero sign)) = .zero sign := by cases sign <;> rfl
    rw [hzero]
    exact Or.inl (.zero sign)
  | @finite m e hm h =>
    by_cases he : e ≤ 971
    · rw [unpack_pack_finite h he]
      exact Or.inl (.finite hm h)
    · refine Or.inr ⟨?_, ?_⟩
      · rw [pack_finite, if_pos (by omega)]
        rfl
      · have hfull : 2 ^ 52 ≤ m := h.full.resolve_right (by omega)
        calc (2 : ℚ) ^ (1024 : ℤ) ≤ 2 ^ (52 + e) := zpow_le_zpow_right₀ (by norm_num) (by omega)
          _ = 2 ^ 52 * 2 ^ e := by rw [two_zpow_add]; norm_cast
          _ ≤ m * 2 ^ e := mul_le_mul_of_nonneg_right (by exact_mod_cast hfull) (two_zpow_pos e).le

/-! ### Arithmetic -/

theorem stands_add (hu : Stands u p) (hv : Stands v q) :
    ∃ r, Rounds (p + q) r ∧ Stands (UnpackedFloat.add .binary64 u v) r := by
  cases hu with
  | zero sign =>
    rw [zero_add]
    refine ⟨q, .refl hv.isGrid, ?_⟩
    cases hv with
    | finite hn h => exact .finite hn h
    | zero sign' => cases sign <;> cases sign' <;> exact .zero _
  | @finite m e hm h =>
    cases hv with
    | zero sign =>
      rw [add_zero]
      exact ⟨_, .refl (Stands.finite hm h).isGrid, .finite hm h⟩
    | @finite n f hn h' =>
      have hadd : UnpackedFloat.add .binary64 (.finite .positive m e hm) (.finite .positive n f hn) =
          UnpackedFloat.normalize .binary64
            ((m * 2 ^ (e - min e f).toNat + n * 2 ^ (f - min e f).toNat : ℕ) : ℤ) (min e f) .positive := by
        rw [← Nat.shiftLeft_eq, ← Nat.shiftLeft_eq]
        rfl
      rw [hadd, natCast_mul_two_zpow m (min_le_left e f), natCast_mul_two_zpow n (min_le_right e f), ← add_mul,
        ← Nat.cast_add]
      exact stands_normalize _ _

theorem stands_mul (hu : Stands u p) (hv : Stands v q) :
    ∃ r, Rounds (p * q) r ∧ Stands (UnpackedFloat.mul .binary64 u v) r := by
  cases hu with
  | zero sign =>
    rw [zero_mul]
    refine ⟨0, .refl isGrid_zero, ?_⟩
    cases hv with
    | zero | finite => exact .zero _
  | @finite m e hm h =>
    cases hv with
    | zero sign =>
      rw [mul_zero]
      exact ⟨0, .refl isGrid_zero, .zero _⟩
    | @finite n f hn h' =>
      have hpos : m * n ≠ 0 := (Nat.mul_pos hm hn).ne'
      have hbits : 52 ≤ (m * n).log2 ∨ e + f ≤ -1074 := by
        rcases h.full with hfull | he
        · exact Or.inl ((Nat.le_log2 hpos).mpr (hfull.trans (Nat.le_mul_of_pos_right m hn)))
        · rcases h'.full with hfull | hf
          · exact Or.inl ((Nat.le_log2 hpos).mpr (hfull.trans (Nat.le_mul_of_pos_left n hm)))
          · exact Or.inr (by omega)
      have hvalue : (m * 2 ^ e * (n * 2 ^ f) : ℚ) = (m * n : ℕ) * 2 ^ (e + f) := by
        rw [two_zpow_add]
        push_cast
        ring
      rw [hvalue]
      exact stands_roundWithAccuracy (shows_exact (m * n)) hbits

theorem shows_fraction (m : ℕ) (hn : 0 < n) :
    Shows (.ofMantissaAndAccuracy (m / n) (accuracyOfFraction (m % n) n)) (m / n) := by
  obtain ⟨f, hdiv, hnonneg, hone, hzero, hlow, hhalf⟩ := exists_fraction m hn
  rw [hdiv]
  unfold accuracyOfFraction
  by_cases hz : m % n = 0
  · rw [if_pos hz, hzero.mpr hz, add_zero]
    exact shows_exact (m / n)
  · have hpos : 0 < f := lt_of_le_of_ne hnonneg fun h => hz (hzero.mp h.symm)
    rw [if_neg hz]
    rcases lt_trichotomy (2 * (m % n)) n with hlt | heq | hgt
    · rw [Nat.compare_eq_lt.mpr hlt]
      exact ⟨lt_add_of_pos_right _ hpos, add_lt_add_right (hlow.mpr hlt) _⟩
    · rw [Nat.compare_eq_eq.mpr heq]
      exact congrArg (((m / n : ℕ) : ℚ) + ·) (hhalf.mpr heq)
    · have hhigh : 1 / 2 < f := lt_of_le_of_ne (not_lt.mp (mt hlow.mp hgt.not_gt)) fun h => hgt.ne' (hhalf.mp h.symm)
      rw [Nat.compare_eq_gt.mpr hgt]
      exact ⟨add_lt_add_right hhigh _, add_lt_add_right hone _⟩

theorem stands_div (hu : Stands u p) (hv : Stands v q) (hq : 0 < q) :
    ∃ r, Rounds (p / q) r ∧ Stands (UnpackedFloat.div .binary64 u v) r := by
  cases hv with
  | zero sign => exact absurd hq (lt_irrefl 0)
  | @finite n f hn h' =>
    cases hu with
    | zero sign =>
      rw [zero_div]
      exact ⟨0, .refl isGrid_zero, .zero _⟩
    | @finite m e hm h =>
      obtain ⟨t, ht⟩ : ∃ t, t = min (e - f) (max ((m.log2 : ℤ) + 1 + e - (n.log2 + 1 + f) - 53) (-1074)) := ⟨_, rfl⟩
      obtain ⟨k, hk⟩ : ∃ k, k = (e - f - t).toNat := ⟨_, rfl⟩
      have hdiv : UnpackedFloat.div .binary64 (.finite .positive m e hm) (.finite .positive n f hn) =
          roundWithAccuracy .binary64 .positive (m * 2 ^ k / n) t (accuracyOfFraction (m * 2 ^ k % n) n) := by
        rw [← Nat.shiftLeft_eq, hk, ht]
        rfl
      have hbits : 52 ≤ (m * 2 ^ k / n).log2 ∨ t ≤ -1074 := by
        by_cases hmin : t ≤ -1074
        · exact Or.inr hmin
        · have hlen : 2 ^ 52 ≤ m * 2 ^ k / n := by
            rw [Nat.le_div_iff_mul_le hn]
            calc 2 ^ 52 * n ≤ 2 ^ 52 * 2 ^ (n.log2 + 1) := Nat.mul_le_mul_left _ Nat.lt_log2_self.le
              _ = 2 ^ (52 + (n.log2 + 1)) := (pow_add _ _ _).symm
              _ ≤ 2 ^ (m.log2 + k) := Nat.pow_le_pow_right (by decide) (by omega)
              _ = 2 ^ m.log2 * 2 ^ k := pow_add _ _ _
              _ ≤ m * 2 ^ k := Nat.mul_le_mul_right _ (Nat.log2_self_le hm.ne')
          exact Or.inl ((Nat.le_log2 (by omega)).mpr hlen)
      have hvalue : (m * 2 ^ e / (n * 2 ^ f) : ℚ) = ((m * 2 ^ k : ℕ) : ℚ) / n * 2 ^ t := by
        have hpos : (n : ℚ) ≠ 0 := by exact_mod_cast hn.ne'
        have he : (2 : ℚ) ^ e = 2 ^ f * 2 ^ t * 2 ^ k := by
          rw [← zpow_natCast, ← two_zpow_add, ← two_zpow_add]
          congr 1
          omega
        have hf := (two_zpow_pos f).ne'
        rw [he]
        push_cast
        field_simp
      rw [hdiv, hvalue]
      exact stands_roundWithAccuracy (shows_fraction _ hn) hbits

/-! ### Doubles -/

theorem Reads.eq (h : Reads x p) (h' : Reads x q) : p = q := by
  unfold Reads at h h'
  generalize x.toModel.unpack = u at h h'
  cases h with
  | zero sign =>
    cases h' with
    | zero => rfl
  | finite hm h =>
    cases h' with
    | finite => rfl

theorem Reads.isGrid (h : Reads x q) : IsGrid q := Stands.isGrid h

/-- What is not too large for a double is read back from it. -/
theorem reads_of_packed {z : Float} (hz : z.toModel = Float.Model.pack u)
    (h : ∃ r, Rounds q r ∧ Stands u r) (hq : q ≤ 2 ^ (100 : ℤ)) : ∃ r, Rounds q r ∧ Reads z r := by
  obtain ⟨r, hr, hu⟩ := h
  have hle : r ≤ 2 ^ (100 : ℤ) := hr.ge ⟨1, 100, by norm_num, by norm_num, by simp⟩ hq
  rcases hu.unpack_pack with hs | ⟨-, hlarge⟩
  · unfold Reads
    rw [hz]
    exact ⟨r, hr, hs⟩
  · exact absurd (hlarge.trans hle) (not_le.mpr (two_zpow_lt_iff.mpr (by norm_num)))

theorem reads_toFloat (n : UInt64) : ∃ r, Rounds n.toNat r ∧ Reads n.toFloat r := by
  have hn : (n.toNat : ℚ) ≤ 2 ^ (100 : ℤ) := by
    have hlt : (n.toNat : ℚ) < 2 ^ (64 : ℤ) := by exact_mod_cast n.toNat_lt
    exact hlt.le.trans (zpow_le_zpow_right₀ (by norm_num) (by norm_num))
  have hs := stands_normalize n.toNat 0
  rw [zpow_zero, mul_one] at hs
  exact reads_of_packed rfl hs hn

theorem reads_add (hx : Reads x p) (hy : Reads y q) (h : p + q ≤ 2 ^ (100 : ℤ)) :
    ∃ r, Rounds (p + q) r ∧ Reads (x + y) r := reads_of_packed rfl (stands_add hx hy) h

theorem reads_div (hx : Reads x p) (hy : Reads y q) (hq : 0 < q) (h : p / q ≤ 2 ^ (100 : ℤ)) :
    ∃ r, Rounds (p / q) r ∧ Reads (x / y) r := reads_of_packed rfl (stands_div hx hy hq) h

theorem reads_mul (hx : Reads x p) (hy : Reads y q) : ∃ r, Rounds (p * q) r ∧
    (Reads (x * y) r ∨ (x * y).toModel.unpack = .infinity .positive ∧ 2 ^ (1024 : ℤ) ≤ r) := by
  obtain ⟨r, hr, hu⟩ := stands_mul hx hy
  exact ⟨r, hr, hu.unpack_pack⟩

/-! ### From one on -/

theorem order?_one_eq_some {o : Ordering} (hf : x.isFinite = true) (h : order? 1 x = some o) (ho : o ≠ .gt) :
    ∃ m e hm, x.toModel.unpack = .finite .positive m e hm ∧ o = (compare (-52) e).then (compare (2 ^ 52) m) := by
  have hf' : x.toModel.unpack.isFinite = true := hf
  have hone : order? 1 x = UnpackedFloat.compare (.finite .positive (2 ^ 52) (-52) (by decide)) x.toModel.unpack := rfl
  rw [hone] at h
  cases hu : x.toModel.unpack with
  | infinity | notANumber =>
    rw [hu] at hf'
    cases hf'
  | zero sign =>
    rw [hu] at h
    exact absurd (Option.some.inj h).symm ho
  | finite sign m e hm =>
    rw [hu] at h
    cases sign with
    | negative => exact absurd (Option.some.inj h).symm ho
    | positive => exact ⟨m, e, hm, rfl, (Option.some.inj h).symm⟩

theorem reads_of_one_lt (hf : x.isFinite = true) (h : 1 < x) : ∃ q, Reads x q ∧ 1 + 2 ^ (-52 : ℤ) ≤ q := by
  obtain ⟨m, e, hm, hu, ho⟩ := order?_one_eq_some hf (lt_iff.mp h) (by decide)
  have hr : IsReduced m e := isReduced_of_unpack hu
  have hreads : Reads x (m * 2 ^ e) := by
    unfold Reads
    rw [hu]
    exact .finite hm hr
  refine ⟨_, hreads, ?_⟩
  rcases Ordering.then_eq_lt.mp ho.symm with hlt | ⟨heq, hlt⟩
  · have he : -52 < e := Int.compare_eq_lt.mp hlt
    have hfull : (2 : ℚ) ^ 52 ≤ m := by exact_mod_cast hr.full.resolve_right (by omega)
    calc 1 + (2 : ℚ) ^ (-52 : ℤ) ≤ 2 ^ 52 * 2 ^ (-51 : ℤ) := by norm_num
      _ ≤ m * 2 ^ e := mul_le_mul hfull (zpow_le_zpow_right₀ (by norm_num) (by omega)) (two_zpow_pos _).le
        (Nat.cast_nonneg m)
  · have he : -52 = e := Int.compare_eq_eq.mp heq
    have hm' : ((2 ^ 52 + 1 : ℕ) : ℚ) ≤ m := by exact_mod_cast Nat.compare_eq_lt.mp hlt
    rw [← he]
    calc 1 + (2 : ℚ) ^ (-52 : ℤ) = (2 ^ 52 + 1 : ℕ) * 2 ^ (-52 : ℤ) := by norm_num
      _ ≤ m * 2 ^ (-52 : ℤ) := mul_le_mul_of_nonneg_right hm' (two_zpow_pos _).le

theorem beq_iff : (x == y) = true ↔ order? x y = some .eq := by
  have h : (x == y) = (order? x y == some .eq) := rfl
  rw [h, beq_iff_eq]

theorem not_lt_of_beq (h : (x == y) = true) : ¬y < x := by
  intro hlt
  have hswap := order?_swap x y
  rw [beq_iff.mp h, lt_iff.mp hlt] at hswap
  cases hswap

theorem zero_lt_of_reads (h : Reads x q) (hq : 0 < q) : 0 < x := by
  have hzero : order? 0 x = UnpackedFloat.compare (.zero .positive) x.toModel.unpack := rfl
  rw [lt_iff, hzero]
  unfold Reads at h
  generalize x.toModel.unpack = u at h
  cases h with
  | zero sign => exact absurd hq (lt_irrefl 0)
  | finite => rfl

theorem one_lt_or_beq (h : 1 ≤ x) : 1 < x ∨ (x == 1) = true := by
  refine (le_iff.mp h).imp lt_iff.mpr fun heq => beq_iff.mpr ?_
  rw [order?_swap, heq]
  rfl

theorem reads_of_beq (hf : x.isFinite = true) (h : (x == 1) = true) : Reads x 1 := by
  have heq : order? 1 x = some .eq := by
    rw [order?_swap, beq_iff.mp h]
    rfl
  obtain ⟨m, e, hm, hu, ho⟩ := order?_one_eq_some hf heq (by decide)
  obtain ⟨he, hm'⟩ := Ordering.then_eq_eq.mp ho.symm
  obtain rfl : -52 = e := Int.compare_eq_eq.mp he
  obtain rfl : 2 ^ 52 = m := Nat.compare_eq_eq.mp hm'
  have hvalue : (1 : ℚ) = (2 ^ 52 : ℕ) * 2 ^ (-52 : ℤ) := by norm_num
  unfold Reads
  rw [hu, hvalue]
  exact .finite hm (isReduced_of_unpack hu)

end SealedDownload.Double
