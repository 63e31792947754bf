import Mathlib.Data.List.Basic
import Mathlib.Order.Monotone.Basic
import SealedDownload.Proofs.Admission.Order

/-! A waiter that is given no slot leaves no trace. If its actions are taken out of a run, what remains is a run of
    the other calls, in which all of them are where they were. The line is only not empty while every slot is taken;
    so a newcomer that finds such a waiter in the line would not have been given a slot at once without it either. -/

namespace SealedDownload.Admission

variable {skip : Option Nat} {a a' b : Admission} {t u : Nat}

/-! ### Tickets but for one -/

/-- All tickets but the one that is left out, in order. -/
def skipping : Option Nat → Nat → Nat
  | none, t => t
  | some u, t => if t < u then t else t + 1

@[simp] theorem skipping_none : skipping none = id := rfl

theorem skipping_strictMono (skip : Option Nat) : StrictMono (skipping skip) := by
  cases skip with
  | none => exact strictMono_id
  | some u =>
    intro s t h
    simp only [skipping]
    split <;> split <;> omega

theorem skipping_injective (skip : Option Nat) : Function.Injective (skipping skip) :=
  (skipping_strictMono skip).injective

theorem ne_some_skipping (skip : Option Nat) (t : Nat) : skip ≠ some (skipping skip t) := by
  cases skip with
  | none => simp
  | some u =>
    simp only [skipping, ne_eq, Option.some.injEq]
    split <;> omega

theorem skipping_of_lt (h : t < u) : skipping (some u) t = t := if_pos h

theorem filter_erase_of_nodup {l : List Nat} (p : Nat → Bool) (h : l.Nodup) (t : Nat) :
    (l.erase t).filter p = (l.filter p).erase t := by
  have hf : (l.filter p).Nodup := h.filter p
  rw [h.erase_eq_filter, hf.erase_eq_filter, List.filter_comm]

/-- The slots and the line `b` are those of `a` without one ticket, which has no slot. -/
structure Lacks (skip : Option Nat) (a b : Admission) : Prop where
  capacity : a.capacity = b.capacity
  inFlight : a.inFlight = b.inFlight
  nextTicket : a.nextTicket = skipping skip b.nextTicket
  issued : ∀ u, skip = some u → u < a.nextTicket
  waiters : a.waiters.filter (skip ≠ some ·) = b.waiters.map (skipping skip)
  granted : a.granted = b.granted.map (skipping skip)

namespace Lacks

theorem refl (a : Admission) : Lacks none a a where
  capacity := rfl
  inFlight := rfl
  nextTicket := rfl
  issued u h := by cases h
  waiters := by simp
  granted := by simp

theorem mem_granted (h : Lacks skip a b) : skipping skip t ∈ a.granted ↔ t ∈ b.granted := by
  rw [h.granted, List.mem_map_of_injective (skipping_injective skip)]

theorem not_mem_granted (h : Lacks skip a b) (hu : skip = some u) : u ∉ a.granted := by
  rw [h.granted]
  intro hm
  obtain ⟨t, -, rfl⟩ := List.mem_map.mp hm
  exact ne_some_skipping skip t hu

theorem mem_waiters (h : Lacks skip a b) : skipping skip t ∈ a.waiters ↔ t ∈ b.waiters := by
  have hm : t ∈ b.waiters ↔ skipping skip t ∈ b.waiters.map (skipping skip) :=
    (List.mem_map_of_injective (skipping_injective skip)).symm
  rw [hm, ← h.waiters, List.mem_filter, decide_eq_true (ne_some_skipping skip t)]
  simp

theorem isGranted_eq (h : Lacks skip a b) : a.isGranted (skipping skip t) = b.isGranted t := by
  unfold isGranted
  rw [List.contains_eq_mem, List.contains_eq_mem]
  exact decide_eq_decide.mpr h.mem_granted

theorem contains_eq (h : Lacks skip a b) : a.waiters.contains (skipping skip t) = b.waiters.contains t := by
  rw [List.contains_eq_mem, List.contains_eq_mem]
  exact decide_eq_decide.mpr h.mem_waiters

/-! ### Operations -/

theorem claim (h : Lacks skip a b) (t : Nat) : Lacks skip (a.claim (skipping skip t)) (b.claim t) where
  capacity := h.capacity
  inFlight := h.inFlight
  nextTicket := h.nextTicket
  issued := h.issued
  waiters := h.waiters
  granted := by
    show a.granted.erase _ = (b.granted.erase t).map _
    rw [h.granted, List.map_erase (skipping_injective skip)]

theorem withdraw (h : Lacks skip a b) (hn : a.waiters.Nodup) (t : Nat) :
    Lacks skip (a.withdraw (skipping skip t)) (b.withdraw t) where
  capacity := h.capacity
  inFlight := h.inFlight
  nextTicket := h.nextTicket
  issued := h.issued
  waiters := by
    show (a.waiters.erase _).filter _ = (b.waiters.erase t).map _
    rw [filter_erase_of_nodup _ hn, h.waiters, List.map_erase (skipping_injective skip)]
  granted := h.granted

/-- The ticket that is left out is taken out of the line. -/
theorem withdraw_left (h : Lacks (some u) a b) (hn : a.waiters.Nodup) : Lacks (some u) (a.withdraw u) b where
  capacity := h.capacity
  inFlight := h.inFlight
  nextTicket := h.nextTicket
  issued := h.issued
  waiters := by
    show (a.waiters.erase u).filter _ = _
    rw [filter_erase_of_nodup _ hn, List.erase_of_not_mem (by simp)]
    exact h.waiters
  granted := h.granted

theorem waiters_eq_nil (h : Lacks skip a b) (hw : a.waiters = []) : b.waiters = [] := by
  have hm := h.waiters
  rw [hw] at hm
  exact List.map_eq_nil_iff.mp hm.symm

theorem release (h : Lacks skip a b) (hg : ∀ u, skip = some u → u ∉ a.release.granted) :
    Lacks skip a.release b.release := by
  have hfree : ∀ {c d : Admission}, c = { a with inFlight := a.inFlight - 1 } →
      d = { b with inFlight := b.inFlight - 1 } → Lacks skip c d := by
    rintro _ _ rfl rfl
    exact ⟨h.capacity, congrArg (· - 1) h.inFlight, h.nextTicket, h.issued, h.waiters, h.granted⟩
  cases hw : a.waiters with
  | nil => exact hfree (release_of_nil hw) (release_of_nil (h.waiters_eq_nil hw))
  | cons t rest =>
    have hm := h.waiters
    rw [hw] at hm
    have hcap := h.capacity
    have hin := h.inFlight
    by_cases hfits : a.inFlight - 1 < a.capacity
    · -- The first one in the line is given the slot, so it is not the one left out.
      have hrel : a.release = { a with inFlight := a.inFlight - 1 + 1, waiters := rest, granted := t :: a.granted } := by
        simp only [Admission.release, hw, if_pos hfits]
      have hne : skip ≠ some t := fun hs => hg t hs (by simp [hrel])
      rw [List.filter_cons_of_pos (by simpa using hne)] at hm
      obtain ⟨t', rest', hw', rfl, hrest⟩ := List.map_eq_cons_iff.mp hm.symm
      have hrel' : b.release =
          { b with inFlight := b.inFlight - 1 + 1, waiters := rest', granted := t' :: b.granted } := by
        simp only [Admission.release, hw', if_pos (show b.inFlight - 1 < b.capacity by omega)]
      rw [hrel, hrel']
      exact ⟨hcap, congrArg (· - 1 + 1) hin, h.nextTicket, h.issued, hrest.symm, congrArg (_ :: ·) h.granted⟩
    · refine hfree (by simp only [Admission.release, hw, if_neg hfits]) ?_
      cases hw' : b.waiters with
      | nil => simp only [Admission.release, hw']
      | cons t' rest' => simp only [Admission.release, hw', if_neg (show ¬b.inFlight - 1 < b.capacity by omega)]

theorem enter (h : Lacks skip a b) (hfull : a.waiters ≠ [] → a.inFlight = a.capacity) {entry : Entry}
    (he : a.enter = (entry, a')) : match entry with
      | .slot => ∃ b', b.enter = (.slot, b') ∧ Lacks skip a' b'
      | .ticket t => ∃ t' b', b.enter = (.ticket t', b') ∧ t = skipping skip t' ∧ Lacks skip a' b' := by
  have hcap := h.capacity
  have hin := h.inFlight
  by_cases hfree : a.waiters = [] ∧ a.inFlight < a.capacity
  · rw [enter_of_free hfree.1 hfree.2] at he
    cases he
    have hw := h.waiters_eq_nil hfree.1
    exact ⟨_, enter_of_free hw (by omega), hcap, congrArg (· + 1) hin, h.nextTicket, h.issued, h.waiters, h.granted⟩
  · rw [enter_of_busy hfree] at he
    cases he
    -- Who finds only the ticket left out in the line finds no slot free without it.
    have hbusy : ¬(b.waiters = [] ∧ b.inFlight < b.capacity) := by
      rintro ⟨-, hlt⟩
      refine hfree ⟨Classical.not_not.mp fun hne => ?_, by omega⟩
      have := hfull hne
      omega
    refine ⟨_, _, enter_of_busy hbusy, h.nextTicket, hcap, hin, ?_, fun u hu => ?_, ?_, h.granted⟩
    · have hlt : ∀ u, skip = some u → ¬b.nextTicket < u := fun u hu hlt => by
        have hnext := h.nextTicket
        rw [hu, skipping_of_lt hlt] at hnext
        have := h.issued u hu
        omega
      show a.nextTicket + 1 = skipping skip (b.nextTicket + 1)
      rw [h.nextTicket]
      cases skip with
      | none => rfl
      | some u =>
        have := hlt u rfl
        simp only [skipping]
        rw [if_neg this, if_neg (by omega)]
    · exact Nat.lt_succ_of_lt (h.issued u hu)
    · have hne : skip ≠ some a.nextTicket := fun hs => Nat.lt_irrefl _ (h.issued _ hs)
      show (a.waiters ++ [a.nextTicket]).filter _ = (b.waiters ++ [b.nextTicket]).map _
      rw [List.filter_append, h.waiters, List.map_append, List.filter_singleton, decide_eq_true hne, h.nextTicket]
      rfl

/-- A ticket that has just been issued is left out from now on. -/
theorem skip_next (h : Lacks none a b) (hw : ∀ t ∈ a.waiters, t < a.nextTicket) (hg : ∀ t ∈ a.granted, t < a.nextTicket) :
    Lacks (some a.nextTicket) { a with waiters := a.waiters ++ [a.nextTicket], nextTicket := a.nextTicket + 1 } b := by
  have hnext : a.nextTicket = b.nextTicket := h.nextTicket
  have hwaiters : a.waiters = b.waiters := by simpa using h.waiters
  have hgranted : a.granted = b.granted := by simpa using h.granted
  have hmap : ∀ l : List Nat, (∀ t ∈ l, t < a.nextTicket) → l.map (skipping (some a.nextTicket)) = l := fun l hl =>
    (List.map_congr_left fun t ht => skipping_of_lt (hl t ht)).trans (List.map_id l)
  refine ⟨h.capacity, h.inFlight, ?_, fun u hu => ?_, ?_, ?_⟩
  · show a.nextTicket + 1 = skipping _ b.nextTicket
    rw [← hnext]
    simp [skipping]
  · cases hu
    exact Nat.lt_succ_self _
  · show (a.waiters ++ [a.nextTicket]).filter _ = _
    rw [← hwaiters, hmap _ hw, List.filter_append, List.filter_eq_self.mpr fun t ht => ?_]
    · simp
    · have := hw t ht
      simpa using (Nat.ne_of_lt this).symm
  · show a.granted = _
    rw [← hgranted, hmap _ hg]

end Lacks

/-! ### Calls without one of them -/

/-- A stage with other names for the tickets. -/
def Stage.rename (f : Nat → Nat) : Stage → Stage
  | .waiting t => .waiting (f t)
  | .leaving t r => .leaving (f t) r
  | .returning t r => .returning (f t) r
  | s => s

/-- A call with other names for the tickets. -/
def Call.rename (f : Nat → Nat) (call : Call) : Call := { call with stage := call.stage.rename f }

section Rename

variable {f : Nat → Nat} {s : Stage} {action : Action}

@[simp] theorem hasPermit_rename : (s.rename f).hasPermit = s.hasPermit := by cases s <;> rfl

@[simp] theorem ticket?_rename : (s.rename f).ticket? = s.ticket?.map f := by cases s <;> rfl

@[simp] theorem marks_rename : (s.rename f).marks action = s.marks action := by
  cases s <;> cases action <;> rfl

theorem rename_id : ∀ call : Call, call.rename id = call
  | ⟨stage, _⟩ => by cases stage <;> rfl

theorem rename_of_lt {call : Call} (h : ∀ t, call.stage.ticket? = some t → t < u) :
    call.rename (skipping (some u)) = call := by
  obtain ⟨stage, cancelled⟩ := call
  cases stage with
  | waiting t | leaving t | returning t => simp only [Call.rename, Stage.rename, skipping_of_lt (h t rfl)]
  | _ => rfl

end Rename

namespace Lacks

theorem hasSlot_eq (h : Lacks skip a b) (s : Stage) : (s.rename (skipping skip)).hasSlot a = s.hasSlot b := by
  unfold Stage.hasSlot Stage.hasGrant
  rw [hasPermit_rename, ticket?_rename, Option.any_map]
  congr 2
  funext t
  exact h.isGranted_eq

/-- What a call can do, it can do as well without the ticket that is left out, unless that is given a slot. -/
theorem act? (h : Lacks skip a b) (hn : a.waiters.Nodup) (hfull : a.waiters ≠ [] → a.inFlight = a.capacity)
    {cancelled : Bool} {s stage : Stage} {action : Action}
    (hact : (s.rename (skipping skip)).act? a cancelled action = some (stage, a'))
    (hg : ∀ u, skip = some u → u ∉ a'.granted) :
    ∃ stage' b', s.act? b cancelled action = some (stage', b') ∧ stage = stage'.rename (skipping skip) ∧
      Lacks skip a' b' := by
  cases s with
  | fresh =>
    cases action <;> simp only [Stage.rename, Stage.act?, Option.some.injEq, Prod.mk.injEq, reduceCtorEq] at hact
    · obtain ⟨rfl, rfl⟩ := hact
      cases cancelled <;> exact ⟨_, _, rfl, rfl, h⟩
    · obtain ⟨rfl, rfl⟩ := hact
      exact ⟨_, _, rfl, rfl, h⟩
  | asking =>
    cases action <;> simp only [Stage.rename, Stage.act?, reduceCtorEq] at hact
    cases he : a.enter with
    | mk entry c =>
      have hent := h.enter hfull he
      rw [he] at hact
      cases entry with
      | slot =>
        cases hact
        obtain ⟨b', hb, hl⟩ := hent
        exact ⟨.holding, b', by simp only [Stage.act?, hb], rfl, hl⟩
      | ticket t =>
        cases hact
        obtain ⟨t', b', hb, rfl, hl⟩ := hent
        exact ⟨.waiting t', b', by simp only [Stage.act?, hb], rfl, hl⟩
  | waiting t =>
    cases action <;> simp only [Stage.rename, Stage.act?, reduceCtorEq] at hact
    · rw [h.isGranted_eq, h.contains_eq] at hact
      by_cases hgranted : b.isGranted t = true
      · rw [if_pos hgranted] at hact
        cases hact
        exact ⟨.claimed, b.claim t, by simp only [Stage.act?, if_pos hgranted], rfl, h.claim t⟩
      · rw [if_neg hgranted] at hact
        by_cases hw : b.waiters.contains t = true
        · rw [if_pos hw] at hact
          cases hact
        · rw [if_neg hw] at hact
          cases hact
          exact ⟨.ended .shuttingDown, b, by simp only [Stage.act?, if_neg hgranted, if_neg hw], rfl, h⟩
    · cases cancelled
      · cases hact
      · cases hact
        exact ⟨_, _, rfl, rfl, h⟩
    · cases hact
      exact ⟨_, _, rfl, rfl, h⟩
  | leaving t r =>
    cases action <;> simp only [Stage.rename, Stage.act?, reduceCtorEq] at hact
    rw [h.contains_eq] at hact
    by_cases hw : b.waiters.contains t = true
    · rw [if_pos hw] at hact
      cases hact
      exact ⟨.ended (.givenUp r), b.withdraw t, by simp only [Stage.act?, if_pos hw], rfl, h.withdraw hn t⟩
    · rw [if_neg hw] at hact
      cases hact
      exact ⟨.returning t r, b, by simp only [Stage.act?, if_neg hw], rfl, h⟩
  | returning t r =>
    cases action <;> simp only [Stage.rename, Stage.act?, reduceCtorEq] at hact
    cases hact
    exact ⟨_, _, rfl, rfl, (h.claim t).release hg⟩
  | claimed =>
    cases action <;> simp only [Stage.rename, Stage.act?, Option.some.injEq, Prod.mk.injEq, reduceCtorEq] at hact
    obtain ⟨rfl, rfl⟩ := hact
    cases cancelled <;> exact ⟨_, _, rfl, rfl, h⟩
  | yielding | holding =>
    cases action <;> simp only [Stage.rename, Stage.act?, reduceCtorEq] at hact
    cases hact
    exact ⟨_, _, rfl, rfl, h.release hg⟩
  | ended e => cases action <;> simp only [Stage.rename, Stage.act?, reduceCtorEq] at hact

end Lacks

/-- What an action makes of a call: its stage, and whether its token is cancelled. -/
theorem act?_eq_some_iff {call call' : Call} {action : Action} : call.act? a action = some (call', a') ↔
    (action = .cancel ∧ call' = { call with cancelled := true } ∧ a' = a) ∨
      (action ≠ .cancel ∧ call'.cancelled = call.cancelled ∧
        call.stage.act? a call.cancelled action = some (call'.stage, a')) := by
  obtain ⟨stage, cancelled⟩ := call
  obtain ⟨stage', cancelled'⟩ := call'
  cases action <;>
    simp only [Call.act?, Option.map_eq_some_iff, Option.some.injEq, Prod.mk.injEq, Prod.exists, Call.mk.injEq,
      ne_eq, reduceCtorEq, not_false_eq_true, not_true_eq_false, true_and, false_and, or_false, false_or] <;>
    grind

theorem Lacks.call_act? (h : Lacks skip a b) (hn : a.waiters.Nodup) (hfull : a.waiters ≠ [] → a.inFlight = a.capacity)
    {call call' : Call} {action : Action} (hact : (call.rename (skipping skip)).act? a action = some (call', a'))
    (hg : ∀ u, skip = some u → u ∉ a'.granted) :
    ∃ other b', call.act? b action = some (other, b') ∧ call' = other.rename (skipping skip) ∧ Lacks skip a' b' := by
  rcases act?_eq_some_iff.mp hact with ⟨rfl, rfl, rfl⟩ | ⟨hne, hc, hact⟩
  · exact ⟨{ call with cancelled := true }, b, act?_eq_some_iff.mpr (Or.inl ⟨rfl, rfl, rfl⟩), rfl, h⟩
  · obtain ⟨stage', b', hact', hs, hl⟩ := h.act? hn hfull hact hg
    refine ⟨⟨stage', call.cancelled⟩, b', act?_eq_some_iff.mpr (Or.inr ⟨hne, rfl, hact'⟩), ?_, hl⟩
    obtain ⟨stage, cancelled⟩ := call'
    obtain rfl : cancelled = call.cancelled := hc
    exact congrArg (Call.mk · call.cancelled) hs

/-- What the call that is left out does with its own ticket, as long as it is given no slot. -/
theorem Step.left_out {call : Call} {action : Action} {stage : Stage} {permits : Nat} {tickets : List Nat}
    (hs : Step a call action stage a') (h : Lacks skip a b)
    (hbal : Balanced a (permits + call.stage.permits) (call.stage.ticket?.toList ++ tickets))
    (hret : ∀ t r, call.stage = .returning t r → t ∉ a.waiters)
    (hown : ∀ t, call.stage.ticket? = some t → skip = some t) (hun : call.stage = .fresh ∨ call.stage = .asking → skip = none)
    (hbefore : call.stage.hasSlot a = false) (hafter : stage.hasSlot a' = false) :
    ∃ skip', Lacks skip' a' b ∧ (∀ t, stage.ticket? = some t → skip' = some t) ∧
      (stage = .fresh ∨ stage = .asking → skip' = none) ∧ (skip' = skip ∨ skip = none ∧ skip' = some a.nextTicket) := by
  cases hs with
  | cancel => exact ⟨skip, h, hown, hun, Or.inl rfl⟩
  | refuse hs | forget hs => exact ⟨skip, h, by simp [Stage.ticket?], by simp, Or.inl rfl⟩
  | begin hs => exact ⟨skip, h, by simp [Stage.ticket?], fun _ => hun (Or.inl hs), Or.inl rfl⟩
  | enter hs => cases hafter
  | queue hs =>
    obtain rfl := hun (Or.inr hs)
    exact ⟨some a.nextTicket, h.skip_next (fun t => hbal.lt_of_waiting) fun t => hbal.lt_of_granted,
      fun t ht => ht, by simp, Or.inr ⟨rfl, rfl⟩⟩
  | claim hs hg =>
    rw [hs, hasSlot_of_ticket rfl, decide_eq_true hg] at hbefore
    cases hbefore
  | handOn hs =>
    have hw := hret _ _ hs
    rw [hs] at hbal hbefore
    rw [hasSlot_of_ticket rfl, decide_eq_false_iff_not] at hbefore
    exact absurd (hbal.mem_iff.mp List.mem_cons_self) (not_or.mpr ⟨hw, hbefore⟩)
  | starve => exact ⟨skip, h, by simp [Stage.ticket?], by simp, Or.inl rfl⟩
  | notice hs | drop hs | miss hs =>
    rw [hs] at hown
    exact ⟨skip, h, hown, by simp, Or.inl rfl⟩
  | withdraw hs ht =>
    rw [hs] at hown
    obtain rfl := hown _ rfl
    exact ⟨_, h.withdraw_left (hbal.ordered.imp Nat.ne_of_lt), by simp [Stage.ticket?], by simp, Or.inl rfl⟩
  | doubt hs | confirm hs | yield hs | release hs =>
    rw [hs, hasSlot_of_permit rfl] at hbefore
    cases hbefore

/-! ### A run without one of its calls -/

theorem Told.hasSlot_eq_false {c : Calls} {log : List (Nat × Mark)} {w : Nat} (told : Told c log)
    (hw : (w, .given) ∉ log) : c.hasSlot w = false := by
  have hcount := told.given_eq w
  rw [List.count_eq_zero.mpr hw] at hcount
  cases hslot : c.hasSlot w
  · rfl
  · rw [hslot] at hcount
    simp at hcount

/-- The actions of all calls but one. -/
def without (w : Nat) (actions : List (Nat × Action)) : List (Nat × Action) := actions.filter (·.1 ≠ w)

/-- In `d` all is as it is in `c`, but for one call, which has not begun. -/
structure Calls.Lacks (w : Nat) (skip : Option Nat) (c d : Calls) : Prop where
  admission : Admission.Lacks skip c.admission d.admission
  length : c.calls.length = d.calls.length
  others : ∀ i, i ≠ w → c.calls[i]? = (d.calls[i]?).map (Call.rename (skipping skip))
  absent : ∀ call, d.calls[w]? = some call → call.stage = .fresh
  own : ∀ call t, c.calls[w]? = some call → call.stage.ticket? = some t → skip = some t
  unasked : ∀ call, c.calls[w]? = some call → call.stage = .fresh ∨ call.stage = .asking → skip = none

namespace Calls.Lacks

variable {w i : Nat} {skip' : Option Nat} {c c' d d' : Calls} {action : Action} {log : List (Nat × Mark)}

theorem start (w capacity count : Nat) : Lacks w none (.start capacity count) (.start capacity count) where
  admission := .refl _
  length := rfl
  others i _ := by simp [funext rename_id]
  absent call hcall := by rw [List.eq_of_mem_replicate (List.mem_of_getElem? hcall)]; rfl
  own call t hcall ht := by
    rw [List.eq_of_mem_replicate (List.mem_of_getElem? hcall)] at ht
    cases ht
  unasked _ _ _ := rfl

/-- The ticket that is left out is that of the call that is left out, and of no other one. -/
theorem ticket_ne (h : Lacks w skip c d) (hi : i ≠ w) {call : Call} (hcall : c.calls[i]? = some call)
    (hu : skip = some u) : call.stage.ticket? ≠ some u := by
  rw [h.others i hi] at hcall
  obtain ⟨other, -, rfl⟩ := Option.map_eq_some_iff.mp hcall
  intro ht
  rw [Call.rename, ticket?_rename] at ht
  obtain ⟨t, -, rfl⟩ := Option.map_eq_some_iff.mp ht
  exact ne_some_skipping skip t hu

/-- Who is in the line under the ticket that is left out. -/
theorem exists_own (h : Lacks w skip c d) (sound : Sound c) (hu : skip = some u) (hm : u ∈ c.admission.waiters) :
    ∃ call, c.calls[w]? = some call ∧ call.stage.ticket? = some u := by
  have hticket : u ∈ c.tickets := sound.balanced.mem_iff.mpr (Or.inl hm)
  obtain ⟨call, hcall, ht⟩ := List.mem_filterMap.mp hticket
  obtain ⟨i, hi⟩ := List.mem_iff_getElem?.mp hcall
  by_cases hiw : i = w
  · exact ⟨call, hiw ▸ hi, ht⟩
  · exact absurd ht (h.ticket_ne hiw hi hu)

theorem hasSlot_eq (h : Lacks w skip c d) (hi : i ≠ w) : c.hasSlot i = d.hasSlot i := by
  unfold Calls.hasSlot
  rw [h.others i hi, Option.any_map]
  congr 1
  funext call
  exact h.admission.hasSlot_eq call.stage

theorem not_hasSlot (h : Lacks w skip c d) : d.hasSlot w = false := by
  unfold Calls.hasSlot
  cases hcall : d.calls[w]? with
  | none => rfl
  | some call =>
    rw [Option.any_some, h.absent call hcall]
    rfl

/-- The others get their slots as they do without the call that is left out. -/
theorem gains_eq (h : Lacks w skip c d) (h' : Lacks w skip' c' d') : (c.gains c').filter (· ≠ w) = d.gains d' := by
  unfold gains
  rw [List.filter_filter, h.length]
  refine List.filter_congr fun i _ => ?_
  by_cases hi : i = w
  · subst hi
    simp [h'.not_hasSlot]
  · simp [hi, h.hasSlot_eq hi, h'.hasSlot_eq hi]

theorem filter_gains (h : Lacks w skip c d) (h' : Lacks w skip' c' d') :
    ((c.gains c').map (·, Mark.given)).filter (·.1 ≠ w) = (d.gains d').map (·, Mark.given) := by
  rw [List.filter_map, ← h.gains_eq h']
  rfl

/-! ### Steps -/

/-- A call that is left out and has no slot leaves the others where they are. -/
theorem step_own (h : Lacks w skip c d) (sound : Sound c) (hs : c.step? w action = some c')
    (hbefore : c.hasSlot w = false) (hafter : c'.hasSlot w = false) :
    ∃ skip', Lacks w skip' c' d ∧ (c.marks w action c').filter (·.1 ≠ w) = [] := by
  obtain ⟨call, call', a', hcall, hstep, rfl⟩ := step_of_step? hs
  obtain ⟨others, hp, -⟩ := exists_others hcall
  have hlt : w < c.calls.length := (List.getElem?_eq_some_iff.mp hcall).1
  have hcall' : (c.calls.set w call')[w]? = some call' := by simp [hlt]
  rw [Calls.hasSlot_eq hcall] at hbefore
  rw [Calls.hasSlot_eq hcall'] at hafter
  obtain ⟨skip', hl, hown, hun, hskip⟩ := hstep.left_out h.admission (sound.balanced_with hp)
    (sound.returning call (List.mem_of_getElem? hcall)) (h.own call · hcall) (h.unasked call hcall) hbefore hafter
  -- A ticket that is issued now comes after those that the others have.
  have hothers : ∀ i, i ≠ w → c.calls[i]? = (d.calls[i]?).map (Call.rename (skipping skip')) := by
    intro i hi
    rcases hskip with rfl | ⟨rfl, rfl⟩
    · exact h.others i hi
    · have hi := h.others i hi
      rw [hi]
      cases hother : d.calls[i]? with
      | none => rfl
      | some other =>
        rw [hother, Option.map_some, skipping_none, rename_id] at hi
        refine congrArg some ((rename_id other).trans (rename_of_lt fun t ht => ?_).symm)
        exact sound.balanced.issued t (List.mem_filterMap.mpr ⟨other, List.mem_of_getElem? hi, ht⟩)
  have h' : Lacks w skip' ⟨a', c.calls.set w call'⟩ d := by
    refine ⟨hl, (List.length_set ..).trans h.length, fun i hi => ?_, h.absent, fun call t hc => ?_, fun call hc => ?_⟩
    · rw [List.getElem?_set_ne (Ne.symm hi)]
      exact hothers i hi
    · obtain rfl := Option.some.inj (hcall'.symm.trans hc)
      exact hown t
    · obtain rfl := Option.some.inj (hcall'.symm.trans hc)
      exact hun
  refine ⟨skip', h', ?_⟩
  rw [marks, List.filter_append, h.filter_gains h', hcall]
  simp [gains]

/-- The ticket that is left out gets no slot from the others, as long as its call has none. -/
theorem not_granted (h : Lacks w skip c d) (sound : Sound c) {call : Call} {stage : Stage} (hi : i ≠ w)
    (hcall : c.calls[i]? = some call) (hstep : Step c.admission call action stage a')
    (hslot : ∀ own, c.calls[w]? = some own → own.stage.hasSlot a' = false) (hu : skip = some u) : u ∉ a'.granted := by
  intro hg
  rcases (hstep.passes (h.ticket_ne hi hcall hu)).first hg with hg' | hhead
  · exact h.admission.not_mem_granted hu hg'
  · obtain ⟨own, hown, ht⟩ := h.exists_own sound hu (List.mem_of_head? hhead)
    have hno := hslot own hown
    rw [hasSlot_of_ticket ht, decide_eq_true hg] at hno
    cases hno

/-- The others do what they do without the call that is left out. -/
theorem step_other (h : Lacks w skip c d) (sound : Sound c) (hi : i ≠ w) (hs : c.step? i action = some c')
    (hafter : c'.hasSlot w = false) :
    ∃ d', d.step? i action = some d' ∧ Lacks w skip c' d' ∧
      (c.marks i action c').filter (·.1 ≠ w) = d.marks i action d' := by
  obtain ⟨call, hcall, call', a', hact, rfl⟩ : ∃ call, c.calls[i]? = some call ∧ ∃ call' a',
      call.act? c.admission action = some (call', a') ∧ c' = ⟨a', c.calls.set i call'⟩ := by
    simp only [Calls.step?, Option.bind_eq_bind, Option.bind_eq_some_iff] at hs
    obtain ⟨call, hcall, ⟨call', a'⟩, hact, hs⟩ := hs
    exact ⟨call, hcall, call', a', hact, (Option.some.inj hs).symm⟩
  have hstep : Step c.admission call action call'.stage a' := by
    rcases act?_eq_some_iff.mp hact with ⟨rfl, rfl, rfl⟩ | ⟨-, -, hact⟩
    · exact .cancel
    · exact step_of_act? hact
  have hslot : ∀ own, c.calls[w]? = some own → own.stage.hasSlot a' = false := fun own hown => by
    rwa [Calls.hasSlot_eq (by simpa [hi] using hown)] at hafter
  obtain ⟨other, hother, rfl⟩ := Option.map_eq_some_iff.mp ((h.others i hi).symm.trans hcall)
  obtain ⟨other', b', hact', rfl, hl⟩ := h.admission.call_act? (sound.balanced.ordered.imp Nat.ne_of_lt)
    sound.balanced.full hact fun u hu => h.not_granted sound hi hcall hstep hslot hu
  have hlt : i < d.calls.length := (List.getElem?_eq_some_iff.mp hother).1
  have h' : Lacks w skip ⟨a', c.calls.set i (other'.rename (skipping skip))⟩ ⟨b', d.calls.set i other'⟩ := by
    refine ⟨hl, ?_, fun j hj => ?_, fun call hc => ?_, fun call t hc => ?_, fun call hc => ?_⟩
    · simp only [List.length_set, h.length]
    · by_cases hij : i = j
      · subst hij
        simp [hlt, h.length]
      · simpa [hij] using h.others j hj
    · exact h.absent call (by simpa [hi] using hc)
    · exact h.own call t (by simpa [hi] using hc)
    · exact h.unasked call (by simpa [hi] using hc)
  refine ⟨⟨b', d.calls.set i other'⟩, ?_, h', ?_⟩
  · simp only [Calls.step?, hother, hact', Option.bind_eq_bind, Option.bind_some]
    rfl
  · rw [marks, List.filter_append, h.filter_gains h', hcall, marks, hother, Option.map_some, Option.map_some]
    congr 1
    rw [Call.rename, marks_rename, Option.getD_some, List.filter_eq_self]
    simp [hi]

/-! ### Runs -/

/-- A run in which a call is given no slot goes on without the call as it does with it. -/
theorem run (h : Lacks w skip c d) (told : Told c log) {actions : List (Nat × Action)}
    (hr : c.run? actions = some c') (hw : (w, .given) ∉ log ++ c.log actions) :
    ∃ skip' d', d.run? (without w actions) = some d' ∧ Lacks w skip' c' d' ∧
      (c.log actions).filter (·.1 ≠ w) = d.log (without w actions) := by
  induction actions generalizing c d skip log with
  | nil =>
    cases hr
    exact ⟨skip, d, rfl, h, rfl⟩
  | cons entry rest ih =>
    obtain ⟨i, action⟩ := entry
    obtain ⟨e, he, hr⟩ := Option.bind_eq_some_iff.mp hr
    have hlog : c.log ((i, action) :: rest) = c.marks i action e ++ e.log rest := by rw [Calls.log, he]
    rw [hlog, ← List.append_assoc] at hw
    have told' := told.step he
    have hbefore : c.hasSlot w = false :=
      told.hasSlot_eq_false fun hm => hw (List.mem_append_left _ (List.mem_append_left _ hm))
    have hafter : e.hasSlot w = false := told'.hasSlot_eq_false fun hm => hw (List.mem_append_left _ hm)
    by_cases hi : i = w
    · subst hi
      obtain ⟨skip', h', hmarks⟩ := h.step_own told.sound he hbefore hafter
      obtain ⟨skip'', d', hrun, h'', hrest⟩ := ih h' told' hr hw
      refine ⟨skip'', d', ?_, h'', ?_⟩
      · simpa [without] using hrun
      · rw [hlog, List.filter_append, hmarks, hrest]
        simp [without]
    · obtain ⟨e', he', h', hmarks⟩ := h.step_other told.sound hi he hafter
      obtain ⟨skip'', d', hrun, h'', hrest⟩ := ih h' told' hr hw
      have hwithout : without w ((i, action) :: rest) = (i, action) :: without w rest := by simp [without, hi]
      refine ⟨skip'', d', ?_, h'', ?_⟩
      · rw [hwithout]
        exact Option.bind_eq_some_iff.mpr ⟨e', he', hrun⟩
      · rw [hlog, List.filter_append, hmarks, hrest, hwithout, Calls.log, he']

end Calls.Lacks

/-! ### As if it had never come -/

/-- The line without the ticket of one call. -/
def Calls.lineBut (c : Calls) (w : Nat) : List Nat :=
  c.admission.waiters.filter fun t => (c.calls[w]?).bind (·.stage.ticket?) ≠ some t

theorem Calls.Lacks.lineBut_eq {w : Nat} {c d : Calls} (h : Calls.Lacks w skip c d) (sound : Sound c) :
    c.lineBut w = d.admission.waiters.map (skipping skip) := by
  rw [← h.admission.waiters]
  refine List.filter_congr fun t ht => decide_eq_decide.mpr (not_congr ⟨fun hown => ?_, fun hskip => ?_⟩)
  · obtain ⟨call, hcall, ht⟩ := Option.bind_eq_some_iff.mp hown
    exact h.own call t hcall ht
  · obtain ⟨call, hcall, ht⟩ := h.exists_own sound hskip ht
    exact Option.bind_eq_some_iff.mpr ⟨call, hcall, ht⟩

theorem Calls.run?_append (c : Calls) (before after : List (Nat × Action)) :
    c.run? (before ++ after) = (c.run? before).bind (·.run? after) := by
  induction before generalizing c with
  | nil => rfl
  | cons entry rest ih =>
    simp only [List.cons_append, Calls.run?, Option.bind_assoc]
    exact congrArg _ (funext ih)

theorem Calls.log_append {c e : Calls} {before : List (Nat × Action)} (hr : c.run? before = some e)
    (after : List (Nat × Action)) : c.log (before ++ after) = c.log before ++ e.log after := by
  induction before generalizing c with
  | nil =>
    cases hr
    rfl
  | cons entry rest ih =>
    obtain ⟨f, hf, hr⟩ := Option.bind_eq_some_iff.mp hr
    rw [List.cons_append, Calls.log, Calls.log, hf]
    simp only [ih hr, List.append_assoc]

/-- A call that is given no slot in a run, as one that leaves the line from its place there, is as if it had never come.
    Without its actions the run is one of the other calls. After each action of theirs the same number of slots is
    taken; the line is the same but for the call, with other numbers on the tickets; every other call is where it is with
    it; and the others have asked, have been given slots, have been given up and have returned their slots in the
    same order. -/
theorem as_if_never_come {capacity count w : Nat} {actions before : List (Nat × Action)} {c : Calls}
    (hr : (Calls.start capacity count).run? actions = some c)
    (hw : (w, .given) ∉ (Calls.start capacity count).log actions) (hb : before <+: actions) :
    ∃ c d renamed, (Calls.start capacity count).run? before = some c ∧
      (Calls.start capacity count).run? (without w before) = some d ∧
      c.admission.inFlight = d.admission.inFlight ∧
      StrictMono renamed ∧ c.lineBut w = d.admission.waiters.map renamed ∧
      (∀ i, i ≠ w → c.calls[i]? = (d.calls[i]?).map (Call.rename renamed)) ∧
      ((Calls.start capacity count).log before).filter (·.1 ≠ w) =
        (Calls.start capacity count).log (without w before) := by
  obtain ⟨after, rfl⟩ := hb
  rw [Calls.run?_append] at hr
  obtain ⟨e, he, -⟩ := Option.bind_eq_some_iff.mp hr
  rw [Calls.log_append he] at hw
  have told : Told (Calls.start capacity count) [] := .start capacity count
  obtain ⟨skip, d, hd, h, hlog⟩ := (Calls.Lacks.start w capacity count).run told he
    fun hm => hw (List.mem_append_left _ hm)
  exact ⟨e, d, skipping skip, he, hd, h.admission.inFlight, skipping_strictMono skip,
    h.lineBut_eq (told.sound.run he), h.others, hlog⟩

/-- Three calls for one slot. The second one is dropped in the line, and the third one gets the slot. -/
theorem as_if_never_come_dropped :
    let actions : List (Nat × Action) := [(0, .begin), (0, .arrive), (1, .begin), (1, .arrive), (2, .begin),
      (2, .arrive), (1, .drop), (1, .tidy), (0, .release .succeeded)]
    ((Calls.start 1 3).run? actions).isSome ∧ (1, .given) ∉ (Calls.start 1 3).log actions ∧ actions <+: actions ∧
      ∃ c d renamed, (Calls.start 1 3).run? actions = some c ∧ (Calls.start 1 3).run? (without 1 actions) = some d ∧
        c.admission.inFlight = d.admission.inFlight ∧
        StrictMono renamed ∧ c.lineBut 1 = d.admission.waiters.map renamed ∧
        (∀ i, i ≠ 1 → c.calls[i]? = (d.calls[i]?).map (Call.rename renamed)) ∧
        ((Calls.start 1 3).log actions).filter (·.1 ≠ 1) = (Calls.start 1 3).log (without 1 actions) := by
  intro actions
  have hsome : ((Calls.start 1 3).run? actions).isSome := by decide
  have hw : (1, .given) ∉ (Calls.start 1 3).log actions := by decide
  exact ⟨hsome, hw, List.prefix_rfl, as_if_never_come (Option.some_get hsome).symm hw List.prefix_rfl⟩

/-- A call that is given up in the line may be given a slot before it leaves the line. Until it hands the slot on, the
    next one waits in the line, which would have been given the slot if the call had never come. -/
theorem given_slot_after_giving_up :
    let before : List (Nat × Action) := [(0, .begin), (0, .arrive), (1, .begin), (1, .arrive), (2, .begin),
      (2, .arrive), (1, .cancel), (1, .notice)]
    let actions := before ++ [(0, .release .succeeded)]
    ∃ b c d, (Calls.start 1 3).run? before = some b ∧ b.calls[1]? = some ⟨.leaving 0 .cancelled, true⟩ ∧
      0 ∈ b.admission.waiters ∧ (Calls.start 1 3).run? actions = some c ∧
      (Calls.start 1 3).run? (without 1 actions) = some d ∧ (¬∃ renamed, c.lineBut 1 = d.admission.waiters.map renamed) ∧
      (2, .given) ∉ (Calls.start 1 3).log actions ∧ (2, .given) ∈ (Calls.start 1 3).log (without 1 actions) := by
  intro before actions
  let first : Call := ⟨.holding, false⟩
  let served : Call := ⟨.ended (.served .succeeded), false⟩
  let leaver : Call := ⟨.leaving 0 .cancelled, true⟩
  refine ⟨⟨⟨1, 1, [0, 1], 2, []⟩, [first, leaver, ⟨.waiting 1, false⟩]⟩,
    ⟨⟨1, 1, [1], 2, [0]⟩, [served, leaver, ⟨.waiting 1, false⟩]⟩,
    ⟨⟨1, 1, [], 1, [0]⟩, [served, .fresh, ⟨.waiting 0, false⟩]⟩, by decide, by decide, by decide, by decide, by decide,
    ?_, by decide, by decide⟩
  rintro ⟨renamed, h⟩
  cases h

end SealedDownload.Admission
