import SealedDownload.Span
import SealedDownload.Proofs.Decimal.Magnitude

/-! Spans in seconds. A double has fewer digits than a span: it tells the nanoseconds apart up to `2 ^ 23` seconds, and
    beyond that a span that is counted in seconds and read back is the nearest one that a double has. -/

namespace SealedDownload

namespace Span

theorem ext {s s' : Span} (h : s.nanos = s'.nanos) : s = s' := by
  cases s
  cases s'
  cases h
  rfl

theorem nanos_min (s s' : Span) : (s.min s').nanos = Min.min s.nanos s'.nanos := by
  unfold Span.min
  by_cases hle : s.nanos ≤ s'.nanos
  · rw [if_pos hle, min_eq_left hle]
  · rw [if_neg hle, min_eq_right (Nat.le_of_not_le hle)]

/-! ### The nearest nanosecond -/

/-- The integer nearest to a number, of two the even one. -/
structure IsNearest (n : ℕ) (y : ℚ) : Prop where
  abs_sub_le : |n - y| ≤ 1 / 2
  even : |n - y| = 1 / 2 → n % 2 = 0

variable {m n num den : ℕ} {y : ℚ}

theorem IsNearest.unique (h : IsNearest m y) (h' : IsNearest n y) : m = n := by
  obtain ⟨h1, h2⟩ := abs_le.mp h.abs_sub_le
  obtain ⟨h1', h2'⟩ := abs_le.mp h'.abs_sub_le
  by_contra hne
  -- two different ones are one apart, with the number in the middle
  have hnext : m = n + 1 ∨ n = m + 1 := by
    have hle : m ≤ n + 1 := by exact_mod_cast (by linarith : (m : ℚ) ≤ n + 1)
    have hle' : n ≤ m + 1 := by exact_mod_cast (by linarith : (n : ℚ) ≤ m + 1)
    omega
  have heven : m % 2 = 0 ∧ n % 2 = 0 := by
    rcases hnext with rfl | rfl <;> push_cast at h1 h2 h1' h2'
    · exact ⟨h.even (by rw [abs_of_nonneg] <;> push_cast <;> linarith),
        h'.even (by rw [abs_of_nonpos] <;> linarith)⟩
    · exact ⟨h.even (by rw [abs_of_nonpos] <;> linarith),
        h'.even (by rw [abs_of_nonneg] <;> push_cast <;> linarith)⟩
  omega

theorem IsNearest.le (h : IsNearest n y) (hm : m ≤ y) : m ≤ n := by
  have hlt : (m : ℚ) < n + 1 := by linarith [(abs_le.mp h.abs_sub_le).1]
  exact Nat.le_of_lt_succ (by exact_mod_cast hlt)

theorem IsNearest.eq (h : IsNearest n y) (hm : |y - m| < 1 / 2) : n = m := by
  obtain ⟨h1, h2⟩ := abs_le.mp h.abs_sub_le
  obtain ⟨h1', h2'⟩ := abs_lt.mp hm
  refine Double.natCast_eq_of_abs_sub_lt (abs_lt.mpr ?_)
  constructor <;> linarith

theorem isNearest_roundDiv (hden : 0 < den) : IsNearest (roundDiv num den) (num / den) := by
  obtain ⟨f, hdiv, hnonneg, hone, -, hlow, hhalf⟩ := Double.exists_fraction num hden
  have hdown : |((num / den : ℕ) : ℚ) - num / den| = f := by
    rw [hdiv, sub_add_cancel_left, abs_neg, abs_of_nonneg hnonneg]
  have hup : |((num / den + 1 : ℕ) : ℚ) - num / den| = 1 - f := by
    rw [hdiv, Nat.cast_add, Nat.cast_one, add_sub_add_left_eq_sub, abs_of_nonneg (sub_nonneg.mpr hone.le)]
  unfold roundDiv
  dsimp only
  rcases lt_trichotomy (2 * (num % den)) den with hlt | heq | hgt
  · have hf := hlow.mpr hlt
    rw [if_pos hlt]
    exact ⟨hdown.trans_le hf.le, fun h => absurd (hdown.symm.trans h) hf.ne⟩
  · have hf := hhalf.mpr heq
    rw [if_neg heq.not_lt, if_neg heq.not_gt]
    split_ifs with heven
    · exact ⟨(hdown.trans hf).le, fun _ => heven⟩
    · exact ⟨by rw [hup, hf]; norm_num, fun _ => by omega⟩
  · have hf : 1 / 2 < f := lt_of_le_of_ne (not_lt.mp (mt hlow.mp hgt.not_gt)) fun h => hgt.ne' (hhalf.mp h.symm)
    rw [if_neg hgt.not_gt, if_pos hgt]
    exact ⟨by rw [hup]; linarith, fun h => absurd (hup.symm.trans h) (by linarith)⟩

theorem exists_isNearest (hy : 0 ≤ y) : ∃ n, IsNearest n y := by
  have hnum : (y.num.toNat : ℚ) / y.den = y := by
    have hint : ((y.num.toNat : ℤ) : ℚ) = y.num := by rw [Int.toNat_of_nonneg (Rat.num_nonneg.mpr hy)]
    rw [← Int.cast_natCast, hint, Rat.num_div_den]
  exact ⟨_, hnum ▸ isNearest_roundDiv y.den_pos⟩

open Double

variable {x : Float} {q : ℚ}

/-- The span of a number of seconds is a number of nanoseconds nearest to it, unless that is too large. -/
theorem ofSeconds?_of_reads (h : Reads x q) : ∃ n, IsNearest n (q * 1000000000) ∧
    ofSeconds? x = if hn : n < UInt64.size * 1000000000 then some ⟨n, hn⟩ else none := by
  have hzero : (0 : Float).toModel.unpack = .zero .positive := rfl
  have hplain : ¬(x.isNaN || decide (x < 0)) = true := by
    have hn : x.isNaN = x.toModel.unpack.isNaN := rfl
    rw [hn, Bool.or_eq_true, decide_eq_true_eq, lt_iff, order?, hzero]
    unfold Reads at h
    generalize x.toModel.unpack = u at h
    cases h <;> exact not_or.mpr ⟨Bool.false_ne_true, by intro h; cases h⟩
  have hinf : x.isInf = x.toModel.unpack.isInf := rfl
  unfold Reads at h
  unfold ofSeconds?
  rw [if_neg hplain, hinf]
  cases hu : x.toModel.unpack with
  | infinity | notANumber =>
    rw [hu] at h
    cases h
  | zero sign =>
    have hbits : Decimal.Magnitude.ofBits? x.toBits = none :=
      Decimal.Magnitude.ofBits?_eq_none fun _ _ _ _ hf => by cases hu.symm.trans hf
    rw [hu] at h
    cases h
    rw [hbits]
    exact ⟨0, ⟨by norm_num, fun _ => rfl⟩, rfl⟩
  | finite sign m e hm =>
    obtain ⟨power, hbits⟩ : ∃ power, Decimal.Magnitude.ofBits? x.toBits = some ⟨m, e, power⟩ :=
      Decimal.Magnitude.ofBits?_of_finite hu
    rw [hu] at h
    cases h with
    | finite hm hr =>
      rw [hbits]
      have hnear : IsNearest (roundDiv ((Decimal.Ratio.scale m 2 e).num * 1000000000) (Decimal.Ratio.scale m 2 e).den) _ :=
        isNearest_roundDiv (Decimal.Ratio.den_scale_pos m e)
      rw [Nat.cast_mul, mul_div_right_comm, Decimal.Ratio.scale_eq] at hnear
      exact ⟨_, hnear, rfl⟩

theorem ofSeconds?_of_infinity (h : x.toModel.unpack = .infinity .positive) : ofSeconds? x = none := by
  have hn : x.isNaN = x.toModel.unpack.isNaN := rfl
  have hinf : x.isInf = x.toModel.unpack.isInf := rfl
  have hbits : Decimal.Magnitude.ofBits? x.toBits = none :=
    Decimal.Magnitude.ofBits?_eq_none fun _ _ _ _ hf => by cases h.symm.trans hf
  unfold ofSeconds?
  rw [hbits, hn, hinf, h]
  exact ite_self none

/-! ### Counting in seconds -/

/-- How a span is counted: the whole seconds, the rest of one, and their sum, each rounded. -/
structure Counted (s : Span) (whole rest total : ℚ) : Prop where
  reads_whole : Reads (UInt64.ofNat (s.nanos / 1000000000)).toFloat whole
  rounds_whole : Rounds (s.nanos / 1000000000 : ℕ) whole
  rounds_rest : Rounds ((s.nanos % 1000000000 : ℕ) / 1000000000) rest
  rounds_total : Rounds (whole + rest) total
  reads_total : Reads s.seconds total

theorem reads_billion : Reads 1e9 1000000000 := by
  have hu : (1e9 : Float).toModel.unpack = .finite .positive 8388608000000000 (-23) (by decide) := rfl
  have hvalue : (1000000000 : ℚ) = (8388608000000000 : ℕ) * 2 ^ (-23 : ℤ) := by norm_num
  unfold Reads
  rw [hu, hvalue]
  exact .finite _ ⟨by norm_num, by norm_num, Or.inl (by norm_num)⟩

theorem exists_counted (s : Span) : ∃ whole rest total, s.Counted whole rest total := by
  have hlt : s.nanos / 1000000000 < UInt64.size := Nat.div_lt_of_lt_mul (Nat.mul_comm _ _ ▸ s.nanos_lt)
  have hrest : s.nanos % 1000000000 < 1000000000 := Nat.mod_lt _ (by norm_num)
  obtain ⟨whole, hw, hrw⟩ := reads_toFloat (UInt64.ofNat (s.nanos / 1000000000))
  obtain ⟨nanos, hn, hrn⟩ := reads_toFloat (UInt64.ofNat (s.nanos % 1000000000))
  rw [UInt64.toNat_ofNat_of_lt' hlt] at hw
  rw [UInt64.toNat_ofNat_of_lt' (hrest.trans (by decide))] at hn
  obtain rfl := hn.eq (isGrid_natCast (by omega))
  have hpart : ((s.nanos % 1000000000 : ℕ) : ℚ) / 1000000000 ≤ 1 := by
    rw [div_le_one (by norm_num)]
    exact_mod_cast hrest.le
  obtain ⟨rest, hr, hrr⟩ := reads_div hrn reads_billion (by norm_num) (hpart.trans (by norm_num))
  have hw' : whole ≤ 2 ^ (64 : ℤ) := hw.ge (isGrid_two_zpow (by norm_num)) (by exact_mod_cast hlt.le)
  have hr' : rest ≤ 2 ^ (0 : ℤ) := hr.ge (isGrid_two_zpow (by norm_num)) (by rwa [zpow_zero])
  have hsum : whole + rest ≤ 2 ^ (100 : ℤ) := (add_le_add hw' hr').trans (by norm_num)
  obtain ⟨total, ht, hrt⟩ := reads_add hrw hrr hsum
  exact ⟨whole, rest, total, hrw, hw, hr, ht, hrt⟩

namespace Counted

variable {s s' : Span} {whole rest total whole' rest' total' z : ℚ} {n : ℕ}

theorem nanos_eq (s : Span) : (s.nanos : ℚ) = 1000000000 * (s.nanos / 1000000000 : ℕ) + (s.nanos % 1000000000 : ℕ) := by
  exact_mod_cast (Nat.div_add_mod s.nanos 1000000000).symm

theorem rest_nonneg (h : s.Counted whole rest total) : 0 ≤ rest := h.rounds_rest.isGrid.nonneg

/-- The rest of a second is exact to a sixtieth of a billionth of a nanosecond. -/
theorem abs_rest_sub_le (h : s.Counted whole rest total) :
    |rest - (s.nanos % 1000000000 : ℕ) / 1000000000| ≤ 2 ^ (-53 : ℤ) / 2 := by
  have hlt : ((s.nanos % 1000000000 : ℕ) : ℚ) ≤ 1000000000 := by exact_mod_cast (Nat.mod_lt _ (by norm_num)).le
  refine h.rounds_rest.abs_sub_le (by norm_num) (by positivity) ?_
  rw [div_le_iff₀ (by norm_num)]
  norm_num
  exact_mod_cast hlt

theorem rest_lt_one (h : s.Counted whole rest total) : rest < 1 := by
  have hle : ((s.nanos % 1000000000 : ℕ) : ℚ) ≤ 999999999 := by
    exact_mod_cast Nat.le_of_lt_succ (Nat.mod_lt s.nanos (by norm_num : 0 < 999999999 + 1))
  have herror := (abs_le.mp h.abs_rest_sub_le).2
  norm_num at herror
  linarith

theorem whole_eq (h : s.Counted whole rest total) (hs : s.nanos / 1000000000 ≤ 2 ^ 53) :
    whole = (s.nanos / 1000000000 : ℕ) := h.rounds_whole.eq (isGrid_natCast hs)

/-- From `2 ^ 53` seconds on, the rest of a second is lost. -/
theorem total_eq_whole (h : s.Counted whole rest total) (hs : 2 ^ 53 ≤ s.nanos / 1000000000) : total = whole := by
  have hw : (2 : ℚ) ^ (52 + 1 : ℤ) ≤ whole :=
    h.rounds_whole.le (isGrid_two_zpow (by norm_num)) (by norm_num; exact_mod_cast hs)
  have hle : whole ≤ total := h.rounds_total.le h.rounds_whole.isGrid (le_add_of_nonneg_right h.rest_nonneg)
  have hnear := h.rounds_total.nearest whole h.rounds_whole.isGrid
  rw [sub_add_cancel_left, abs_neg, abs_of_nonneg h.rest_nonneg] at hnear
  refine h.rounds_total.isGrid.eq_of_abs_sub_lt h.rounds_whole.isGrid (hw.trans hle) hw ?_
  rw [abs_of_nonneg (sub_nonneg.mpr hle), zpow_one]
  linarith [(abs_le.mp hnear).2, h.rest_lt_one]

/-- Below `2 ^ 23` seconds, each nanosecond is told from the others. -/
theorem near (h : s.Counted whole rest total) (hs : s.nanos < 2 ^ 23 * 1000000000) :
    |total * 1000000000 - s.nanos| < 1 / 2 := by
  have hlt : s.nanos / 1000000000 < 2 ^ 23 := Nat.div_lt_of_lt_mul (by omega)
  have hw := h.whole_eq (by omega)
  have hw' : whole ≤ 2 ^ 23 - 1 := by
    rw [hw, le_sub_iff_add_le]
    exact_mod_cast hlt
  have herror := h.rounds_total.abs_sub_le (e := -30) (by norm_num)
    (add_nonneg h.rounds_whole.isGrid.nonneg h.rest_nonneg) (by norm_num; linarith [h.rest_lt_one])
  have herror := abs_le.mp herror
  have hrest := abs_le.mp h.abs_rest_sub_le
  have hn := nanos_eq s
  rw [← hw] at hn
  norm_num at herror hrest
  rw [abs_lt]
  constructor <;> linarith

/-- A point of the grid that is not above a span is not above its count. -/
theorem le_total (h : s.Counted whole rest total) (hz : IsGrid z) (hle : z * 1000000000 ≤ s.nanos) : z ≤ total := by
  have hn := nanos_eq s
  by_cases hwhole : z ≤ (s.nanos / 1000000000 : ℕ)
  · have hw := h.rounds_whole.le hz hwhole
    exact h.rounds_total.le hz (by linarith [h.rest_nonneg])
  · -- the point lies within a second, so that it is a fraction and what it has beyond the whole seconds is one too
    rw [not_le] at hwhole
    have hpart : z - (s.nanos / 1000000000 : ℕ) ≤ (s.nanos % 1000000000 : ℕ) / 1000000000 := by
      rw [le_div_iff₀ (by norm_num)]
      linarith
    have hsecond : ((s.nanos % 1000000000 : ℕ) : ℚ) < 1000000000 := by exact_mod_cast Nat.mod_lt _ (by norm_num)
    generalize hseconds : s.nanos / 1000000000 = seconds at *
    have hnext : z < seconds + 1 := by linarith
    obtain ⟨m, e, hm, he, rfl⟩ := hz
    have hneg : e < 0 := by
      by_contra hnot
      rw [natCast_mul_two_zpow (f := 0) m (by omega), zpow_zero, mul_one] at hwhole hnext
      have hlow : seconds < m * 2 ^ (e - 0).toNat := by exact_mod_cast hwhole
      have hhigh : m * 2 ^ (e - 0).toNat < seconds + 1 := by exact_mod_cast hnext
      omega
    have hp := two_zpow_pos e
    obtain ⟨k, hk⟩ : ∃ k : ℕ, (seconds : ℚ) = k * 2 ^ e := by
      have hshift := natCast_mul_two_zpow (e := 0) (f := e) seconds hneg.le
      rw [zpow_zero, mul_one] at hshift
      exact ⟨_, hshift⟩
    have hkm : k ≤ m := by
      rw [hk] at hwhole
      exact_mod_cast (lt_of_mul_lt_mul_right hwhole hp.le).le
    have hgrid : IsGrid (m * 2 ^ e - seconds) :=
      ⟨m - k, e, by omega, he, by rw [hk, Nat.cast_sub hkm, sub_mul]⟩
    have hsmall : seconds ≤ 2 ^ 53 := by
      have hone : (2 : ℚ) ^ e ≤ 1 := zpow_le_one_of_nonpos₀ (by norm_num) hneg.le
      have hm' : (m : ℚ) ≤ 2 ^ 53 := by exact_mod_cast hm.le
      have hz : (m : ℚ) * 2 ^ e ≤ 2 ^ 53 * 1 := mul_le_mul hm' hone hp.le (by positivity)
      have hlt : (seconds : ℚ) < 2 ^ 53 := by linarith
      exact_mod_cast hlt.le
    have hrest := h.rounds_rest.le hgrid hpart
    have hw := h.whole_eq (by rw [hseconds]; exact hsmall)
    rw [hseconds] at hw
    exact h.rounds_total.le ⟨m, e, hm, he, rfl⟩ (by rw [hw]; linarith)

/-- A longer span counts no less. -/
theorem mono (h : s.Counted whole rest total) (h' : s'.Counted whole' rest' total') (hle : s.nanos ≤ s'.nanos) :
    total ≤ total' := by
  rcases Nat.eq_or_lt_of_le hle with heq | hlt
  · obtain rfl := Span.ext heq
    exact (h.reads_total.eq h'.reads_total).le
  · have hdiv : s.nanos / 1000000000 ≤ s'.nanos / 1000000000 := Nat.div_le_div_right hle
    by_cases hs' : 2 ^ 53 ≤ s'.nanos / 1000000000
    · rw [h'.total_eq_whole hs']
      by_cases hs : 2 ^ 53 ≤ s.nanos / 1000000000
      · rw [h.total_eq_whole hs]
        rcases Nat.eq_or_lt_of_le hdiv with heq | hlt
        · have hreads := h.reads_whole
          rw [heq] at hreads
          exact (hreads.eq h'.reads_whole).le
        · exact h.rounds_whole.mono h'.rounds_whole (by exact_mod_cast hlt)
      · have hw : whole + 1 ≤ (2 ^ 53 : ℕ) := by
          rw [h.whole_eq (by omega)]
          exact_mod_cast (by omega : s.nanos / 1000000000 + 1 ≤ 2 ^ 53)
        calc total ≤ (2 ^ 53 : ℕ) := h.rounds_total.ge (isGrid_natCast le_rfl) (by linarith [h.rest_lt_one])
          _ ≤ whole' := h'.rounds_whole.le (isGrid_natCast le_rfl) (by exact_mod_cast hs')
    · refine h.rounds_total.mono h'.rounds_total ?_
      rw [h.whole_eq (by omega), h'.whole_eq (by omega)]
      have hn := nanos_eq s
      have hn' := nanos_eq s'
      have hcast : (s.nanos : ℚ) + 1 ≤ s'.nanos := by exact_mod_cast hlt
      rcases Nat.eq_or_lt_of_le hdiv with heq | hlt
      · have herror := abs_le.mp h.abs_rest_sub_le
        have herror' := abs_le.mp h'.abs_rest_sub_le
        rw [heq] at hn ⊢
        norm_num at herror herror'
        linarith
      · have hstep : ((s.nanos / 1000000000 : ℕ) : ℚ) + 1 ≤ (s'.nanos / 1000000000 : ℕ) := by exact_mod_cast hlt
        linarith [h.rest_lt_one, h'.rest_nonneg]

theorem total_eq_of_large (h : s.Counted whole rest total) (hz : IsGrid z) (hn : |s.nanos - z * 1000000000| ≤ 1 / 2)
    (hlarge : (2 : ℚ) ^ (52 + 1 : ℤ) ≤ z) : total = z := by
  obtain ⟨k, hk⟩ := hz.exists_mul hlarge
  have hk : z = (2 * k : ℕ) := by
    rw [hk]
    push_cast
    ring
  have hexact : s.nanos = 2 * k * 1000000000 := by
    refine natCast_eq_of_abs_sub_lt (lt_of_le_of_lt ?_ (by norm_num : (1 / 2 : ℚ) < 1))
    rw [Nat.cast_mul (2 * k), ← hk]
    exact hn
  have hw := h.rounds_whole
  have hr := h.rounds_rest
  have ht := h.rounds_total
  rw [show s.nanos / 1000000000 = 2 * k by omega, ← hk] at hw
  rw [show s.nanos % 1000000000 = 0 by omega, Nat.cast_zero, zero_div] at hr
  rw [hw.eq hz, hr.eq isGrid_zero, add_zero] at ht
  exact ht.eq hz

/-- A span that has been read from a count of `2 ^ 23` seconds or more has that count again. -/
theorem total_eq (h : s.Counted whole rest total) (hz : IsGrid z) (hn : |s.nanos - z * 1000000000| ≤ 1 / 2)
    (hs : 2 ^ 23 * 1000000000 ≤ s.nanos) : total = z := by
  rcases le_or_gt ((2 : ℚ) ^ (52 + 1 : ℤ)) z with hlarge | hlarge
  · exact h.total_eq_of_large hz hn hlarge
  · have hs : (8388608 : ℚ) * 1000000000 ≤ s.nanos := by exact_mod_cast hs
    have hbound : (2 : ℚ) ^ (52 + -29 : ℤ) = 8388608 := by norm_num
    obtain ⟨hn1, hn2⟩ := abs_le.mp hn
    have hlow : (2 : ℚ) ^ (52 + -29 : ℤ) ≤ z := by
      by_contra hnot
      have hbelow : z < 2 ^ (53 + -30 : ℤ) := lt_of_not_ge hnot
      have hgap := hz.add_le_of_lt hbelow
      norm_num at hgap
      linarith
    have hlow' : (2 : ℚ) ^ (52 + -29 : ℤ) ≤ total :=
      h.le_total (isGrid_two_zpow (by norm_num)) (by rwa [hbound])
    have hwhole : s.nanos / 1000000000 ≤ 2 ^ 53 := by
      have hlt : (s.nanos : ℚ) < (2 ^ 53 * 1000000000 + 1 : ℕ) := by
        push_cast
        norm_num at hlarge
        linarith
      have hlt : s.nanos < 2 ^ 53 * 1000000000 + 1 := by exact_mod_cast hlt
      omega
    have hclose : |z - (whole + rest)| ≤ 51 / 100000000000 := by
      have hsum := nanos_eq s
      have hrest := abs_le.mp h.abs_rest_sub_le
      rw [← h.whole_eq hwhole] at hsum
      norm_num at hrest
      rw [abs_le]
      constructor <;> linarith
    have hclose' := abs_le.mp ((h.rounds_total.nearest z hz).trans hclose)
    have hclose := abs_le.mp hclose
    refine h.rounds_total.isGrid.eq_of_abs_sub_lt hz hlow' hlow ?_
    norm_num
    rw [abs_lt]
    constructor <;> linarith

end Counted
end Span
end SealedDownload
