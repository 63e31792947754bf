import Mathlib.Data.List.Perm.Basic
import SealedDownload.Admission

/-! The slots of an admission, without the calls that hold them. `Balanced` ties the number of slots
    taken to the permits and tickets that are about; each operation keeps it, and its lemma says what the
    operation does to permits and tickets. -/

namespace SealedDownload.Admission

/-- The slots taken are those of the permits and those that tickets have been given; every slot is taken
    while somebody waits; and the tickets are those of the line, in order, and those with a slot. -/
structure Balanced (a : Admission) (permits : Nat) (tickets : List Nat) : Prop where
  accounted : a.inFlight = permits + a.granted.length
  within : a.inFlight ≤ a.capacity
  full : a.waiters ≠ [] → a.inFlight = a.capacity
  ordered : a.waiters.Pairwise (· < ·)
  issued : ∀ t ∈ tickets, t < a.nextTicket
  nodup : tickets.Nodup
  perm : tickets.Perm (a.waiters ++ a.granted)

variable {a : Admission} {permits : Nat} {tickets : List Nat} {t : Nat}

theorem balanced_ofCapacity (capacity : Nat) : Balanced (ofCapacity capacity) 0 [] where
  accounted := rfl
  within := Nat.zero_le _
  full h := absurd rfl h
  ordered := .nil
  issued := by simp
  nodup := .nil
  perm := .nil

/-! ### What the operations do -/

theorem release_of_nil (hw : a.waiters = []) : a.release = { a with inFlight := a.inFlight - 1 } := by
  simp only [release, hw]

theorem release_of_cons {rest : List Nat} (hw : a.waiters = t :: rest) (hpos : 0 < a.inFlight)
    (hle : a.inFlight ≤ a.capacity) :
    a.release = { a with waiters := rest, granted := t :: a.granted } := by
  have hlt : a.inFlight - 1 < a.capacity := by omega
  simp only [release, hw, if_pos hlt, Nat.sub_add_cancel hpos]

theorem capacity_release (a : Admission) : a.release.capacity = a.capacity := by
  cases hw : a.waiters with
  | nil => rw [release_of_nil hw]
  | cons t rest =>
    simp only [release, hw]
    split <;> rfl

theorem nextTicket_release (a : Admission) : a.release.nextTicket = a.nextTicket := by
  cases hw : a.waiters with
  | nil => rw [release_of_nil hw]
  | cons t rest =>
    simp only [release, hw]
    split <;> rfl

theorem mem_of_mem_release (ht : t ∈ a.release.waiters) : t ∈ a.waiters := by
  cases hw : a.waiters with
  | nil => simp [release, hw] at ht
  | cons u rest =>
    simp only [release, hw] at ht
    split at ht
    · exact List.mem_cons_of_mem _ ht
    · exact ht

/-- A slot that a ticket has been given stays with it when another slot becomes free. -/
theorem mem_granted_release (ht : t ∈ a.granted) : t ∈ a.release.granted := by
  cases hw : a.waiters with
  | nil => simpa only [release, hw] using ht
  | cons u rest =>
    simp only [release, hw]
    split
    · exact List.mem_cons_of_mem _ ht
    · exact ht

/-- Who waits when a slot becomes free still waits after it, or has been given the slot. -/
theorem mem_or_mem_release (ht : t ∈ a.waiters) : t ∈ a.release.waiters ∨ t ∈ a.release.granted := by
  cases hw : a.waiters with
  | nil => simp [hw] at ht
  | cons u rest =>
    simp only [release, hw]
    split
    · rcases List.mem_cons.mp (hw ▸ ht) with rfl | ht
      · exact Or.inr List.mem_cons_self
      · exact Or.inl ht
    · exact Or.inl (hw ▸ ht)

/-- Only the first in the line is given a slot that becomes free. -/
theorem head_of_mem_release (ht : t ∈ a.release.granted) : t ∈ a.granted ∨ a.waiters.head? = some t := by
  cases hw : a.waiters with
  | nil => exact Or.inl (by simpa only [release, hw] using ht)
  | cons u rest =>
    simp only [release, hw] at ht
    split at ht
    · rcases List.mem_cons.mp ht with rfl | ht
      · exact Or.inr rfl
      · exact Or.inl ht
    · exact Or.inl ht

theorem enter_of_free (hw : a.waiters = []) (hlt : a.inFlight < a.capacity) :
    a.enter = (.slot, { a with inFlight := a.inFlight + 1 }) := by
  simp only [enter, hw, hlt, and_self, if_true]

theorem enter_of_busy (hbusy : ¬(a.waiters = [] ∧ a.inFlight < a.capacity)) :
    a.enter = (.ticket a.nextTicket,
      { a with waiters := a.waiters ++ [a.nextTicket], nextTicket := a.nextTicket + 1 }) := by
  simp only [enter, if_neg hbusy]

namespace Balanced

theorem congr (h : Balanced a permits tickets) {others : List Nat} (hp : tickets.Perm others) :
    Balanced a permits others where
  accounted := h.accounted
  within := h.within
  full := h.full
  ordered := h.ordered
  issued t ht := h.issued t (hp.mem_iff.mpr ht)
  nodup := hp.nodup_iff.mp h.nodup
  perm := hp.symm.trans h.perm

/-! ### Tickets -/

theorem mem_iff (h : Balanced a permits tickets) : t ∈ tickets ↔ t ∈ a.waiters ∨ t ∈ a.granted := by
  rw [h.perm.mem_iff, List.mem_append]

theorem lt_of_waiting (h : Balanced a permits tickets) (ht : t ∈ a.waiters) : t < a.nextTicket :=
  h.issued t (h.mem_iff.mpr (Or.inl ht))

theorem lt_of_granted (h : Balanced a permits tickets) (ht : t ∈ a.granted) : t < a.nextTicket :=
  h.issued t (h.mem_iff.mpr (Or.inr ht))

theorem nodup_append (h : Balanced a permits tickets) : (a.waiters ++ a.granted).Nodup :=
  h.perm.nodup_iff.mp h.nodup

theorem not_granted (h : Balanced a permits tickets) (ht : t ∈ a.waiters) : t ∉ a.granted := fun hg =>
  (List.nodup_append.mp h.nodup_append).2.2 t ht t hg rfl

/-! ### Operations -/

theorem enter_slot (h : Balanced a permits tickets) (hw : a.waiters = []) (hlt : a.inFlight < a.capacity) :
    Balanced { a with inFlight := a.inFlight + 1 } (permits + 1) tickets where
  accounted := by
    have := h.accounted
    show a.inFlight + 1 = permits + 1 + a.granted.length
    omega
  within := hlt
  full hne := absurd hw hne
  ordered := h.ordered
  issued := h.issued
  nodup := h.nodup
  perm := h.perm

theorem enter_ticket (h : Balanced a permits tickets) (hbusy : ¬(a.waiters = [] ∧ a.inFlight < a.capacity)) :
    Balanced { a with waiters := a.waiters ++ [a.nextTicket], nextTicket := a.nextTicket + 1 } permits
      (a.nextTicket :: tickets) where
  accounted := h.accounted
  within := h.within
  full _ := by
    show a.inFlight = a.capacity
    by_cases hw : a.waiters = []
    · have := h.within
      have hnlt : ¬a.inFlight < a.capacity := fun hlt => hbusy ⟨hw, hlt⟩
      omega
    · exact h.full hw
  ordered := by
    refine List.pairwise_append.mpr ⟨h.ordered, List.pairwise_singleton _ _, fun t ht u hu => ?_⟩
    rw [List.mem_singleton.mp hu]
    exact h.lt_of_waiting ht
  issued t ht := by
    rcases List.mem_cons.mp ht with rfl | ht
    · exact Nat.lt_succ_self _
    · exact Nat.lt_succ_of_lt (h.issued t ht)
  nodup := List.nodup_cons.mpr ⟨fun hmem => Nat.lt_irrefl _ (h.issued _ hmem), h.nodup⟩
  perm := by
    show (a.nextTicket :: tickets).Perm (a.waiters ++ [a.nextTicket] ++ a.granted)
    rw [List.append_assoc]
    exact (h.perm.cons _).trans List.perm_middle.symm

/-- Whoever enters has a permit or a ticket. -/
theorem enter {a' : Admission} {entry : Entry} (h : Balanced a permits tickets) (he : a.enter = (entry, a')) :
    match entry with
    | .slot => Balanced a' (permits + 1) tickets
    | .ticket t => Balanced a' permits (t :: tickets) := by
  by_cases hfree : a.waiters = [] ∧ a.inFlight < a.capacity
  · rw [enter_of_free hfree.1 hfree.2] at he
    cases he
    exact h.enter_slot hfree.1 hfree.2
  · rw [enter_of_busy hfree] at he
    cases he
    exact h.enter_ticket hfree

/-- A ticket that takes its slot becomes a permit. -/
theorem claim (h : Balanced a permits (t :: tickets)) (ht : t ∈ a.granted) :
    Balanced (a.claim t) (permits + 1) tickets where
  accounted := by
    have hacc := h.accounted
    have hlen := List.length_erase_of_mem ht
    have hpos := List.length_pos_of_mem ht
    show a.inFlight = permits + 1 + (a.granted.erase t).length
    omega
  within := h.within
  full := h.full
  ordered := h.ordered
  issued u hu := h.issued u (List.mem_cons_of_mem _ hu)
  nodup := (List.nodup_cons.mp h.nodup).2
  perm := by
    have hp : (t :: tickets).Perm (t :: (a.waiters ++ a.granted.erase t)) :=
      h.perm.trans (((List.perm_cons_erase ht).append_left _).trans List.perm_middle)
    exact hp.cons_inv

theorem withdraw (h : Balanced a permits (t :: tickets)) (ht : t ∈ a.waiters) :
    Balanced (a.withdraw t) permits tickets where
  accounted := h.accounted
  within := h.within
  full _ := h.full (List.ne_nil_of_mem ht)
  ordered := h.ordered.sublist List.erase_sublist
  issued u hu := h.issued u (List.mem_cons_of_mem _ hu)
  nodup := (List.nodup_cons.mp h.nodup).2
  perm := by
    have hp : (t :: tickets).Perm (t :: (a.waiters.erase t ++ a.granted)) :=
      h.perm.trans ((List.perm_cons_erase ht).append_right _)
    exact hp.cons_inv

/-- While a permit or an untaken slot is about, the number of slots taken is not zero. -/
theorem inFlight_pos (h : Balanced a (permits + 1) tickets) : 0 < a.inFlight := by
  have := h.accounted
  omega

/-- The slot of a permit passes to the first ticket in the line, or it becomes free. -/
theorem release (h : Balanced a (permits + 1) tickets) : Balanced a.release permits tickets := by
  have hacc := h.accounted
  have hle := h.within
  cases hw : a.waiters with
  | nil =>
    rw [release_of_nil hw]
    exact
      { accounted := by show a.inFlight - 1 = permits + a.granted.length; omega
        within := by show a.inFlight - 1 ≤ a.capacity; omega
        full := fun hne => absurd hw hne
        ordered := h.ordered
        issued := h.issued
        nodup := h.nodup
        perm := h.perm }
  | cons t rest =>
    rw [release_of_cons hw h.inFlight_pos hle]
    exact
      { accounted := by
          show a.inFlight = permits + (t :: a.granted).length
          rw [List.length_cons]
          omega
        within := hle
        full := fun _ => h.full (by simp [hw])
        ordered := (List.pairwise_cons.mp (hw ▸ h.ordered)).2
        issued := h.issued
        nodup := h.nodup
        perm := by
          have hp := h.perm
          rw [hw] at hp
          exact hp.trans List.perm_middle.symm }

theorem handOn (h : Balanced a permits (t :: tickets)) (ht : t ∈ a.granted) :
    Balanced (a.handOn t) permits tickets := (h.claim ht).release

/-- A ticket is given up, in the line or with a slot. -/
theorem leave (h : Balanced a permits (t :: tickets)) : Balanced (a.leave t) permits tickets := by
  unfold Admission.leave
  split
  · rename_i hw
    exact h.withdraw (List.contains_iff_mem.mp hw)
  · rename_i hw
    rcases h.mem_iff.mp List.mem_cons_self with ht | ht
    · exact absurd (List.contains_iff_mem.mpr ht) hw
    · exact h.handOn ht

end Balanced

/-! ### Those that hold the slots -/

section Others

variable {α : Type} {all others : List α} {x : α}

/-- All but one, whatever becomes of that one. -/
theorem exists_others {i : Nat} (h : all[i]? = some x) :
    ∃ others, all.Perm (x :: others) ∧ ∀ y, (all.set i y).Perm (y :: others) := by
  obtain ⟨hi, rfl⟩ := List.getElem?_eq_some_iff.mp h
  exact ⟨all.eraseIdx i, (List.getElem_cons_eraseIdx_perm hi).symm, fun y => List.set_perm_cons_eraseIdx hi y⟩

theorem countP_others (p : α → Bool) (h : all.Perm (x :: others)) :
    all.countP p = others.countP p + if p x then 1 else 0 := by
  rw [h.countP_eq, List.countP_cons]

theorem filterMap_others (ticket? : α → Option Nat) (h : all.Perm (x :: others)) :
    (all.filterMap ticket?).Perm ((ticket? x).toList ++ others.filterMap ticket?) := by
  refine (h.filterMap _).trans ?_
  cases ht : ticket? x with
  | none => simp [ht]
  | some t => simp [ht]

end Others
end SealedDownload.Admission
