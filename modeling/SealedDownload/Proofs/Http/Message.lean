import Mathlib.Data.List.Basic
import SealedDownload.Http.Message

/-! What a response says about the part of an object that it brings is read back from its numbers. -/

namespace SealedDownload.Http

namespace Head

variable {head : Head} {text : List Char} {c : Char} {s e size : Nat} {k : UInt64}

/-- What a response says about the part that it brings: its first and its last byte, and the size of the object. -/
def contentRange (s e size : Nat) : String := s!"bytes {s}-{e}/{size}"

theorem toList_contentRange (s e size : Nat) : (contentRange s e size).toList = "bytes ".toList ++
    (Nat.toDigits 10 s ++ '-' :: (Nat.toDigits 10 e ++ '/' :: Nat.toDigits 10 size)) := by
  have ht : ∀ n : Nat, (toString n).toList = Nat.toDigits 10 n := fun n => by
    rw [Nat.toString_eq_ofList_toDigits, String.toList_ofList]
  unfold contentRange
  simp only [String.toList_append, ht, List.append_assoc]
  rfl

theorem isDigit_toDigits {n : Nat} (h : c ∈ Nat.toDigits 10 n) : c.isDigit = true :=
  Nat.isDigit_of_mem_toDigits (by decide) (by decide) h

theorem isVisible_of_isDigit (h : c.isDigit = true) : isVisible c = true := by
  have hd : 48 ≤ c.toNat ∧ c.toNat ≤ 57 := Char.isDigit_iff_toNat.mp h
  unfold isVisible
  simp only [Bool.or_eq_true, Bool.and_eq_true, decide_eq_true_eq]
  omega

theorem ne_of_isDigit {d : Char} (h : c.isDigit = true) (hd : d.isDigit = false) : c ≠ d := by
  rintro rfl
  rw [h] at hd
  cases hd

theorem isWhitespace_of_isDigit (h : c.isDigit = true) : c.isWhitespace = false := by
  unfold Char.isWhitespace
  simp [ne_of_isDigit h]

theorem usable?_contentRange : usable? (contentRange s e size) = some (contentRange s e size) := by
  unfold usable?
  refine if_pos (List.all_eq_true.mpr fun c hc => ?_)
  rw [toList_contentRange] at hc
  simp only [List.mem_append, List.mem_cons] at hc
  rcases hc with hc | hc | rfl | hc | rfl | hc
  · exact List.all_eq_true.mp (by decide : "bytes ".toList.all isVisible = true) c hc
  · exact isVisible_of_isDigit (isDigit_toDigits hc)
  · rfl
  · exact isVisible_of_isDigit (isDigit_toDigits hc)
  · rfl
  · exact isVisible_of_isDigit (isDigit_toDigits hc)

theorem trim_eq_self (hh : ∀ c ∈ text.head?, c.isWhitespace = false)
    (hl : ∀ c ∈ text.getLast?, c.isWhitespace = false) : trim text = text := by
  have hstrip : ∀ text : List Char, (∀ c ∈ text.head?, c.isWhitespace = false) →
      text.dropWhile Char.isWhitespace = text := by
    intro text h
    cases text with
    | nil => rfl
    | cons c text => exact List.dropWhile_cons_of_neg (by simp [h c rfl])
  unfold trim
  simp only [hstrip text hh]
  rw [hstrip _ (by rwa [List.head?_reverse]), List.reverse_reverse]

theorem trim_toDigits (n : Nat) : trim (Nat.toDigits 10 n) = Nat.toDigits 10 n :=
  trim_eq_self (fun _ hc => isWhitespace_of_isDigit (isDigit_toDigits (List.mem_of_head? hc)))
    fun _ hc => isWhitespace_of_isDigit (isDigit_toDigits (List.mem_of_getLast? hc))

/-- The digits of a number are read as that number, if it fits. -/
theorem word?_toDigits (n : Nat) :
    word? (Nat.toDigits 10 n) = if n < UInt64.size then some (UInt64.ofNat n) else none := by
  cases hd : Nat.toDigits 10 n with
  | nil => exact absurd hd Nat.toDigits_ne_nil
  | cons c digits =>
    have hall : ∀ d ∈ c :: digits, d.isDigit = true := fun d h => isDigit_toDigits (hd ▸ h)
    have hp : c ≠ '+' := ne_of_isDigit (hall c List.mem_cons_self) rfl
    have hv : (c :: digits).foldl (fun n c => 10 * n + (c.toNat - 48)) 0 = n := by
      rw [← hd]
      exact Nat.ofDigitChars_ten_toDigits
    have hb : ((c :: digits).isEmpty || !(c :: digits).all Char.isDigit) = false := by
      rw [List.all_eq_true.mpr hall]
      rfl
    unfold word?
    split
    · rename_i rest he
      exact absurd (List.head_eq_of_cons_eq he) hp
    · simp only [hb, hv, Bool.false_eq_true, if_false]

theorem rangeStart?_contentRange : rangeStart? (contentRange s e size).toList = word? (Nat.toDigits 10 s) := by
  have htrim : trim (contentRange s e size).toList = (contentRange s e size).toList := by
    refine trim_eq_self (fun c hc => ?_) fun c hc => ?_
    · rw [toList_contentRange] at hc
      cases hc
      rfl
    · have hne : Nat.toDigits 10 size ≠ [] := Nat.toDigits_ne_nil
      refine isWhitespace_of_isDigit (isDigit_toDigits (n := size) ?_)
      rw [toList_contentRange, List.getLast?_append_of_ne_nil _ (by simp), List.getLast?_append_of_ne_nil _ (by simp),
        List.getLast?_cons_of_ne_nil (by simp), List.getLast?_append_of_ne_nil _ (by simp),
        List.getLast?_cons_of_ne_nil hne] at hc
      exact List.mem_of_getLast? hc
  have htake : (Nat.toDigits 10 s ++ '-' :: (Nat.toDigits 10 e ++ '/' :: Nat.toDigits 10 size)).takeWhile (· ≠ '-') =
      Nat.toDigits 10 s := by
    rw [List.takeWhile_append_of_pos fun c hc => decide_eq_true (ne_of_isDigit (isDigit_toDigits hc) rfl)]
    simp
  have hdash :
      (Nat.toDigits 10 s ++ '-' :: (Nat.toDigits 10 e ++ '/' :: Nat.toDigits 10 size)).contains '-' = true := by simp
  unfold rangeStart?
  rw [htrim, toList_contentRange]
  refine (if_pos hdash).trans ?_
  exact (congrArg (fun digits => word? (trim digits)) htake).trans (congrArg word? (trim_toDigits s))

/-- The first byte that a response names, if it can be read. -/
theorem start?_of_contentRange (hc : head.header? "content-range" = some (contentRange s e size)) :
    head.start? = if s < UInt64.size then some (UInt64.ofNat s) else none := by
  unfold start?
  rw [hc, Option.bind_some, usable?_contentRange, Option.bind_some, rangeStart?_contentRange, word?_toDigits]

theorem toNat_of_start? (hc : head.header? "content-range" = some (contentRange s e size)) (hk : head.start? = some k) :
    k.toNat = s := by
  rw [start?_of_contentRange hc] at hk
  split at hk
  · rename_i hs
    cases hk
    exact UInt64.toNat_ofNat_of_lt' hs
  · cases hk

end Head
end SealedDownload.Http
