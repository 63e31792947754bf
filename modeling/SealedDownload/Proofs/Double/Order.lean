/-! The order of doubles. What is not a number cannot be compared with anything, itself included; of two others one is
    at most the other. -/

namespace SealedDownload.Double

open Float.Model (UnpackedFloat)

/-- How two doubles compare, if they can be compared. -/
def order? (a b : Float) : Option Ordering := a.toModel.unpack.compare b.toModel.unpack

variable {a b : Float}

theorem lt_iff : a < b ↔ order? a b = some .lt := by
  have h : a < b ↔ decide (a.toModel.unpack.lt b.toModel.unpack = true) = true := Iff.rfl
  rw [h, decide_eq_true_eq, UnpackedFloat.lt, beq_iff_eq]
  rfl

theorem le_iff : a ≤ b ↔ order? a b = some .lt ∨ order? a b = some .eq := by
  have h : a ≤ b ↔ decide ((order? a b).any (·.isLE) = true) = true := Iff.rfl
  rw [h, decide_eq_true_eq]
  rcases order? a b with _ | _ | _ | _ <;> simp

/-! ### Both ways round -/

theorem then_compare_swap (e f : Int) (m n : Nat) :
    (compare f e).then (compare n m) = ((compare e f).then (compare m n)).swap := by
  rw [Ordering.swap_then, Int.compare_swap, Nat.compare_swap]

theorem compare_swap (x y : UnpackedFloat) : y.compare x = (x.compare y).map .swap := by
  rcases x with ⟨_ | _⟩ | _ | _ | ⟨_ | _⟩ <;> rcases y with ⟨_ | _⟩ | _ | _ | ⟨_ | _⟩ <;> first
    | rfl
    | exact congrArg some (then_compare_swap ..)
    | exact congrArg (fun o => some o.swap) (then_compare_swap ..)

theorem compare_eq_none_iff (x y : UnpackedFloat) : x.compare y = none ↔ x = .notANumber ∨ y = .notANumber := by
  rcases x with ⟨_ | _⟩ | _ | _ | ⟨_ | _⟩ <;> rcases y with ⟨_ | _⟩ | _ | _ | ⟨_ | _⟩ <;> first
    | exact iff_of_true rfl (Or.inl rfl)
    | exact iff_of_true rfl (Or.inr rfl)
    | exact iff_of_false (Option.some_ne_none _) (by rintro (h | h) <;> cases h)

theorem order?_swap (a b : Float) : order? b a = (order? a b).map .swap := compare_swap _ _

/-- Numbers are the doubles that can be compared with themselves. -/
theorem le_self_iff : a ≤ a ↔ a.toModel.unpack ≠ .notANumber := by
  constructor
  · intro h hn
    have hnone : order? a a = none := (compare_eq_none_iff _ _).mpr (Or.inl hn)
    rcases le_iff.mp h with h | h <;> cases hnone.symm.trans h
  · intro h
    cases ho : order? a a with
    | none => exact absurd ((compare_eq_none_iff _ _).mp ho) (not_or.mpr ⟨h, h⟩)
    | some o =>
      have hswap := order?_swap a a
      rw [ho] at hswap
      cases o with
      | eq => exact le_iff.mpr (Or.inr ho)
      | lt | gt => cases hswap

/-! ### At most and less -/

theorem le_of_lt (h : a < b) : a ≤ b := le_iff.mpr (Or.inl (lt_iff.mp h))

theorem not_lt_of_le (h : a ≤ b) : ¬b < a := by
  intro hlt
  have hswap := (order?_swap a b).symm.trans (lt_iff.mp hlt)
  rcases le_iff.mp h with h | h <;> rw [h] at hswap <;> cases hswap

theorem le_self_of_lt (h : a < b) : a ≤ a := by
  refine le_self_iff.mpr fun hn => ?_
  have hnone : order? a b = none := (compare_eq_none_iff _ _).mpr (Or.inl hn)
  cases hnone.symm.trans (lt_iff.mp h)

theorem le_of_not_lt (ha : a ≤ a) (hb : b ≤ b) (h : ¬a < b) : b ≤ a := by
  cases ho : order? a b with
  | none =>
    rcases (compare_eq_none_iff _ _).mp ho with hn | hn
    · exact absurd hn (le_self_iff.mp ha)
    · exact absurd hn (le_self_iff.mp hb)
  | some o =>
    have hswap := order?_swap a b
    rw [ho] at hswap
    cases o with
    | lt => exact absurd (lt_iff.mpr ho) h
    | eq => exact le_iff.mpr (Or.inr hswap)
    | gt => exact le_iff.mpr (Or.inl hswap)

end SealedDownload.Double
