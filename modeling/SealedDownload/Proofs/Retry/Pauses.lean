import SealedDownload.Retry
import SealedDownload.Proofs.Span.Seconds

/-! The pauses of a schedule with a factor of one or more. None exceeds the ceiling, and none is shorter than the one
    before it, with one exception: the factor one, which is to give pauses that are all equal, takes the first of them to
    seconds and back, and from `2 ^ 23` seconds on a double does not tell all nanoseconds apart. -/

namespace SealedDownload

namespace Backoff

open Double

variable {b : Backoff} {d e : Span} {μ : ℚ} {count : ℕ}

/-! ### One pause after another -/

theorem reads_factor (h : Reads b.multiplier μ) (hμ : 0 < μ) : Reads b.factor μ := by
  unfold factor
  rwa [if_pos (zero_lt_of_reads h hμ)]

/-- A pause is counted in seconds, multiplied, brought to nanoseconds and cut at the ceiling. -/
theorem following_spec (h : Reads b.factor μ) (d : Span) : ∃ whole rest total product nanos,
    d.Counted whole rest total ∧ Rounds (total * μ) product ∧ Span.IsNearest nanos (product * 1000000000) ∧
    (b.following d).nanos = min nanos b.maxDelay.nanos := by
  obtain ⟨whole, rest, total, hd⟩ := d.exists_counted
  obtain ⟨product, hp, hread⟩ := reads_mul hd.reads_total h
  have hmax := b.maxDelay.nanos_lt
  unfold following
  rcases hread with hread | ⟨hinf, hlarge⟩
  · obtain ⟨nanos, hn, hs⟩ := Span.ofSeconds?_of_reads hread
    refine ⟨whole, rest, total, product, nanos, hd, hp, hn, ?_⟩
    rw [hs]
    by_cases hlt : nanos < UInt64.size * 1000000000
    · rw [dif_pos hlt]
      exact Span.nanos_min ⟨nanos, hlt⟩ b.maxDelay
    · have hle : b.maxDelay.nanos ≤ nanos := by omega
      rw [dif_neg hlt]
      exact (min_eq_right hle).symm
  · obtain ⟨nanos, hn⟩ := Span.exists_isNearest (mul_nonneg hp.isGrid.nonneg (by norm_num : (0 : ℚ) ≤ 1000000000))
    refine ⟨whole, rest, total, product, nanos, hd, hp, hn, ?_⟩
    rw [Span.ofSeconds?_of_infinity hinf]
    refine (min_eq_right (hn.le ?_)).symm
    have hle : (b.maxDelay.nanos : ℚ) ≤ 2 ^ (64 : ℤ) * 1000000000 := by exact_mod_cast hmax.le
    have hpow : (2 : ℚ) ^ (64 : ℤ) ≤ 2 ^ (1024 : ℤ) := zpow_le_zpow_right₀ (by norm_num) (by norm_num)
    exact hle.trans (mul_le_mul_of_nonneg_right (hpow.trans hlarge) (by norm_num))

theorem following_le (b : Backoff) (d : Span) : (b.following d).nanos ≤ b.maxDelay.nanos := by
  unfold following
  cases Span.ofSeconds? (d.seconds * b.factor) with
  | none => exact le_rfl
  | some next => exact (Span.nanos_min next b.maxDelay).trans_le (min_le_right _ _)

/-- With a factor above one a pause does not shrink, whatever is lost in its count. -/
theorem le_following (h : Reads b.factor μ) (hμ : 1 + (2 : ℚ) ^ (-52 : ℤ) ≤ μ) (hd : d.nanos ≤ b.maxDelay.nanos) :
    d.nanos ≤ (b.following d).nanos := by
  obtain ⟨whole, rest, total, product, nanos, hc, hp, hn, he⟩ := following_spec h d
  rw [he]
  refine le_min (hn.le ?_) hd
  by_contra hlt
  rw [not_le] at hlt
  have hpos : (1 : ℚ) ≤ d.nanos := by
    have hzero : (0 : ℚ) < d.nanos :=
      lt_of_le_of_lt (mul_nonneg hp.isGrid.nonneg (by norm_num)) hlt
    exact_mod_cast hzero
  have htiny : (2 : ℚ) ^ (-30 : ℤ) ≤ total := hc.le_total (isGrid_two_zpow (by norm_num)) (by norm_num; linarith)
  have hlow : (2 : ℚ) ^ (-1022 : ℤ) ≤ total := (zpow_le_zpow_right₀ (by norm_num) (by norm_num)).trans htiny
  -- the product is above the count, and the count is not below any double that the pause is not below
  exact absurd (hc.le_total hp.isGrid hlt.le) (not_le.mpr (hp.lt_of_mul hc.reads_total.isGrid hlow hμ))

/-- With a factor of one or more a pause shrinks by one part in `2 ^ 52` and a nanosecond at most. -/
theorem le_following_add (h : Reads b.factor μ) (hμ : 1 ≤ μ) (hd : d.nanos ≤ b.maxDelay.nanos) :
    d.nanos ≤ (b.following d).nanos + d.nanos / 2 ^ 52 + 1 := by
  rcases Nat.eq_zero_or_pos d.nanos with hzero | hpos
  · omega
  · obtain ⟨whole, rest, total, product, nanos, hc, hp, hn, he⟩ := following_spec h d
    have hpos : (1 : ℚ) ≤ d.nanos := by exact_mod_cast hpos
    have htiny : (2 : ℚ) ^ (-1022 : ℤ) ≤ d.nanos / 1000000000 :=
      calc (2 : ℚ) ^ (-1022 : ℤ) ≤ 2 ^ (-30 : ℤ) := zpow_le_zpow_right₀ (by norm_num) (by norm_num)
        _ ≤ 1 / 1000000000 := by norm_num
        _ ≤ d.nanos / 1000000000 := by gcongr
    obtain ⟨g, hg, hle, hclose⟩ := exists_isGrid_le htiny
    rw [le_div_iff₀ (by norm_num)] at hle
    have htotal : g ≤ total := hc.le_total hg hle
    have hproduct : total ≤ product :=
      hp.le hc.reads_total.isGrid (le_mul_of_one_le_right hc.reads_total.isGrid.nonneg hμ)
    have hnear := (abs_le.mp hn.abs_sub_le).1
    have hfloor : (d.nanos : ℚ) < 2 ^ 52 * ((d.nanos / 2 ^ 52 : ℕ) + 1) := by
      exact_mod_cast Nat.lt_mul_div_succ d.nanos (Nat.two_pow_pos 52)
    have hlt : (d.nanos : ℚ) < (nanos + d.nanos / 2 ^ 52 + 2 : ℕ) := by
      push_cast
      norm_num at hclose hfloor ⊢
      linarith
    have hlt : d.nanos < nanos + d.nanos / 2 ^ 52 + 2 := by exact_mod_cast hlt
    omega

section One

variable (h : Reads b.factor 1)
include h

theorem following_one (d : Span) : ∃ whole rest total nanos,
    d.Counted whole rest total ∧ Span.IsNearest nanos (total * 1000000000) ∧
    (b.following d).nanos = min nanos b.maxDelay.nanos := by
  obtain ⟨whole, rest, total, product, nanos, hc, hp, hn, he⟩ := following_spec h d
  rw [mul_one] at hp
  rw [hp.eq hc.reads_total.isGrid] at hn
  exact ⟨whole, rest, total, nanos, hc, hn, he⟩

/-- The factor one leaves a pause of less than `2 ^ 23` seconds as it is. -/
theorem following_of_lt (hd : d.nanos ≤ b.maxDelay.nanos) (hlt : d.nanos < 2 ^ 23 * 1000000000) :
    b.following d = d := by
  obtain ⟨whole, rest, total, nanos, hc, hn, he⟩ := following_one h d
  refine Span.ext ?_
  rw [he, hn.eq (hc.near hlt), min_eq_left hd]

/-- Any other pause it changes once and not again. -/
theorem following_following (hd : d.nanos ≤ b.maxDelay.nanos) :
    b.following (b.following d) = b.following d := by
  obtain ⟨whole, rest, total, nanos, hc, hn, he⟩ := following_one h d
  obtain ⟨whole', rest', total', nanos', hc', hn', he'⟩ := following_one h (b.following d)
  refine Span.ext ?_
  rcases Nat.lt_or_ge b.maxDelay.nanos nanos with hcut | hfit
  · -- the pause is cut, and the ceiling counts no less than it
    rw [min_eq_right hcut.le] at he
    have hle : total * 1000000000 ≤ total' * 1000000000 :=
      mul_le_mul_of_nonneg_right (hc.mono hc' (by rw [he]; exact hd)) (by norm_num)
    have hmax : (b.maxDelay.nanos : ℚ) ≤ total' * 1000000000 := by
      have hcut : (b.maxDelay.nanos : ℚ) + 1 ≤ nanos := by exact_mod_cast hcut
      linarith [(abs_le.mp hn.abs_sub_le).2]
    rw [he', he, min_eq_right (hn'.le hmax)]
  · rw [min_eq_left hfit] at he
    rcases Nat.lt_or_ge (b.following d).nanos (2 ^ 23 * 1000000000) with hlt | hge
    · rw [following_of_lt h (b.following_le d) hlt]
    · have htotal : total' = total := hc'.total_eq hc.reads_total.isGrid (by rw [he]; exact hn.abs_sub_le) hge
      rw [htotal] at hn'
      rw [he', he, hn'.unique hn, min_eq_left hfit]

end One

/-! ### All pauses -/

theorem length_delays (b : Backoff) (count : ℕ) : (b.delays count).length = count := by
  induction count generalizing b with
  | zero => rfl
  | succ count ih => exact congrArg Nat.succ (ih b.advance)

theorem le_of_mem_delays (hb : b.delay.nanos ≤ b.maxDelay.nanos) (he : e ∈ b.delays count) :
    e.nanos ≤ b.maxDelay.nanos := by
  induction count generalizing b with
  | zero => cases he
  | succ count ih =>
    rcases List.mem_cons.mp he with rfl | he
    · exact hb
    · exact ih (b := b.advance) (b.following_le b.delay) he

/-- If no pause is followed by a shorter one, none is. -/
theorem pairwise_delays (h : ∀ d : Span, d.nanos ≤ b.maxDelay.nanos → d.nanos ≤ (b.following d).nanos)
    (hb : b.delay.nanos ≤ b.maxDelay.nanos) (count : ℕ) :
    (b.delays count).Pairwise (fun d e => d.nanos ≤ e.nanos) ∧ ∀ e ∈ b.delays count, b.delay.nanos ≤ e.nanos := by
  induction count generalizing b with
  | zero => exact ⟨.nil, fun e he => by cases he⟩
  | succ count ih =>
    obtain ⟨hrest, hlow⟩ := ih (b := b.advance) h (b.following_le b.delay)
    have hlow' : ∀ e ∈ b.advance.delays count, b.delay.nanos ≤ e.nanos :=
      fun e he => (h b.delay hb).trans (hlow e he)
    refine ⟨.cons hlow' hrest, fun e he => ?_⟩
    rcases List.mem_cons.mp he with rfl | he
    · exact le_rfl
    · exact hlow' e he

/-- A pause that is followed by itself is all there is. -/
theorem delays_eq_replicate (h : b.following b.delay = b.delay) (count : ℕ) :
    b.delays count = List.replicate count b.delay := by
  have hadvance : b.advance = b := by
    unfold advance
    rw [h]
  induction count with
  | zero => rfl
  | succ count ih =>
    rw [delays, hadvance, ih]
    rfl

/-! ### The schedule of a policy -/

/-- What the pauses of a policy keep to. -/
structure Paced (policy : RetryPolicy) (pauses : List Span) : Prop where
  /-- The first pause is the one given, or the ceiling if that is shorter. -/
  first : ∀ d ∈ pauses.head?, d.nanos = min policy.initialDelay.nanos policy.maxDelay.nanos
  capped : ∀ d ∈ pauses, d.nanos ≤ policy.maxDelay.nanos
  /-- No pause is shorter than one before it, unless the multiplier is one and the first pause is a long one. -/
  rises : 1 < policy.multiplier ∨ min policy.initialDelay.nanos policy.maxDelay.nanos < 2 ^ 23 * 1000000000 →
    pauses.Pairwise fun d e => d.nanos ≤ e.nanos
  /-- In that case too it is so from the second pause on. -/
  rises_later : pauses.tail.Pairwise fun d e => d.nanos ≤ e.nanos
  /-- And what the second pause lacks is one part in `2 ^ 52` and a nanosecond at most. -/
  rises_nearly : pauses.Pairwise fun d e => d.nanos ≤ e.nanos + d.nanos / 2 ^ 52 + 1
  /-- With the multiplier one all pauses are equal, unless the first is a long one. -/
  flat : policy.multiplier == 1 → min policy.initialDelay.nanos policy.maxDelay.nanos < 2 ^ 23 * 1000000000 →
    ∀ d ∈ pauses, ∀ e ∈ pauses, d = e
  /-- In that case too all others are. -/
  flat_later : policy.multiplier == 1 → ∀ d ∈ pauses.tail, ∀ e ∈ pauses.tail, d = e

theorem nanos_ofPolicy (policy : RetryPolicy) :
    (ofPolicy policy).delay.nanos = min policy.initialDelay.nanos policy.maxDelay.nanos :=
  Span.nanos_min policy.initialDelay policy.maxDelay

theorem eq_of_mem_head? (he : e ∈ (b.delays count).head?) : e = b.delay := by
  cases count with
  | zero => cases he
  | succ count => exact (Option.some.inj he).symm

/-- With the factor one all pauses from the second on are the second. -/
theorem tail_delays (h : Reads b.factor 1) (hb : b.delay.nanos ≤ b.maxDelay.nanos) (count : ℕ) :
    ∀ e ∈ (b.delays count).tail, e = b.following b.delay := by
  cases count with
  | zero =>
    intro e he
    cases he
  | succ count =>
    intro e he
    have hagain : b.advance.following b.advance.delay = b.advance.delay := following_following h hb
    have htail : b.advance.delays count = List.replicate count b.advance.delay := delays_eq_replicate hagain count
    have he : e ∈ b.advance.delays count := he
    rw [htail] at he
    exact List.eq_of_mem_replicate he

section Policy

variable {policy : RetryPolicy} (hf : policy.multiplier.isFinite = true)
include hf

theorem paced_of_one_lt (h : 1 < policy.multiplier) (count : ℕ) : Paced policy ((ofPolicy policy).delays count) := by
  obtain ⟨μ, hreads, hμ⟩ := reads_of_one_lt hf h
  have hpos : 0 < μ := lt_of_lt_of_le (add_pos one_pos (two_zpow_pos _)) hμ
  have hfactor : Reads (ofPolicy policy).factor μ := reads_factor hreads hpos
  have hb : (ofPolicy policy).delay.nanos ≤ (ofPolicy policy).maxDelay.nanos :=
    (nanos_ofPolicy policy).trans_le (min_le_right _ _)
  have hrises := (pairwise_delays (fun d hd => le_following hfactor hμ hd) hb count).1
  exact {
    first := fun d hd => eq_of_mem_head? hd ▸ nanos_ofPolicy policy
    capped := fun d hd => le_of_mem_delays hb hd
    rises := fun _ => hrises
    rises_later := hrises.tail
    rises_nearly := hrises.imp fun hle => by omega
    flat := fun heq => absurd h (not_lt_of_beq heq)
    flat_later := fun heq => absurd h (not_lt_of_beq heq) }

theorem paced_of_beq (h : (policy.multiplier == 1) = true) (count : ℕ) :
    Paced policy ((ofPolicy policy).delays count) := by
  have hfactor : Reads (ofPolicy policy).factor 1 := reads_factor (reads_of_beq hf h) one_pos
  have hfirst := nanos_ofPolicy policy
  have hb : (ofPolicy policy).delay.nanos ≤ (ofPolicy policy).maxDelay.nanos := hfirst.trans_le (min_le_right _ _)
  have hsecond := le_following_add hfactor le_rfl hb
  have htail := tail_delays hfactor hb count
  have hlater : ∀ d ∈ ((ofPolicy policy).delays count).tail, ∀ e ∈ ((ofPolicy policy).delays count).tail, d = e :=
    fun d hd e he => (htail d hd).trans (htail e he).symm
  have hflat : min policy.initialDelay.nanos policy.maxDelay.nanos < 2 ^ 23 * 1000000000 →
      ∀ d ∈ (ofPolicy policy).delays count, ∀ e ∈ (ofPolicy policy).delays count, d = e := by
    intro hlt d hd e he
    rw [← hfirst] at hlt
    rw [delays_eq_replicate (following_of_lt hfactor hb hlt)] at hd he
    exact (List.eq_of_mem_replicate hd).trans (List.eq_of_mem_replicate he).symm
  exact {
    first := fun d hd => eq_of_mem_head? hd ▸ hfirst
    capped := fun d hd => le_of_mem_delays hb hd
    rises := fun hor => List.pairwise_of_forall_mem_list fun d hd e he => by
      rw [hflat (hor.resolve_left (not_lt_of_beq h)) d hd e he]
    rises_later := List.pairwise_of_forall_mem_list fun d hd e he => by rw [hlater d hd e he]
    rises_nearly := by
      cases count with
      | zero => exact .nil
      | succ count =>
        refine .cons (fun e he => ?_) (List.pairwise_of_forall_mem_list fun d hd e he => ?_)
        · rw [htail e he]
          exact hsecond
        · rw [hlater d hd e he]
          omega
    flat := fun _ hlt => hflat hlt
    flat_later := fun _ => hlater }

end Policy

/-- The pauses of a policy whose multiplier is a number of one or more, before any of them is stretched. -/
theorem paced (policy : RetryPolicy) (hf : policy.multiplier.isFinite = true) (h1 : 1 ≤ policy.multiplier) (count : ℕ) :
    ((ofPolicy policy).delays count).length = count ∧ Paced policy ((ofPolicy policy).delays count) :=
  ⟨length_delays _ count, (one_lt_or_beq h1).elim (fun h => paced_of_one_lt hf h count) fun h => paced_of_beq hf h count⟩

/-- Pauses that grow until their product is no span. -/
def steep : RetryPolicy := ⟨100, .ofMillis 250, .longest, 10000, false⟩

theorem paced_steep : steep.multiplier.isFinite = true ∧ 1 ≤ steep.multiplier ∧
    ((ofPolicy steep).delays 7).map Span.nanos = [250000000, 2500000000000, 25000000000000000, 250000000000000000000,
      2500000000000000000000000, 18446744073709551615999999999, 18446744073709551615999999999] ∧
    ((ofPolicy steep).delays 7).Pairwise fun d e => d.nanos ≤ e.nanos := by
  have hf : steep.multiplier.isFinite = true := by decide
  have h1 : 1 ≤ steep.multiplier := by decide
  exact ⟨hf, h1, by decide +kernel, (paced steep hf h1 7).2.rises (Or.inl (by decide))⟩

/-- Pauses of a little more than 97 days. -/
def level : RetryPolicy := ⟨16, .ofMillis 8388608006, .ofMillis 8388608006, 1, false⟩

/-- With the multiplier one the second pause can be shorter than the first. -/
theorem level_shrinks : level.multiplier.isFinite = true ∧ 1 ≤ level.multiplier ∧ (level.multiplier == 1) = true ∧
    level.jitter = false ∧ ((ofPolicy level).delays 3).map Span.nanos =
      [8388608006000000, 8388608005999999, 8388608005999999] :=
  ⟨by decide, by decide, by decide, rfl, by decide +kernel⟩

end Backoff
end SealedDownload
