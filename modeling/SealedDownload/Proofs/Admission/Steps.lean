import SealedDownload.Admission.Calls
import SealedDownload.Proofs.Admission.Slots

/-! Every step of the calls keeps the slots in balance with the permits that the calls hold and with
    their tickets. `Step` lists all that can happen to a call; `Sound` is what holds in every reachable
    state. -/

namespace SealedDownload.Admission

/-! ### The steps of a call -/

/-- All that can happen to a call, with the conditions under which it happens: the action, and the stage
    and the slots after it. -/
inductive Step (a : Admission) (call : Call) : Action → Stage → Admission → Prop where
  | cancel : Step a call .cancel call.stage a
  | refuse (hs : call.stage = .fresh) (hc : call.cancelled = true) :
      Step a call .begin (.ended (.givenUp .cancelled)) a
  | begin (hs : call.stage = .fresh) (hc : call.cancelled = false) : Step a call .begin .asking a
  | forget (hs : call.stage = .fresh) : Step a call .drop (.ended (.givenUp .dropped)) a
  | enter (hs : call.stage = .asking) (hw : a.waiters = []) (hlt : a.inFlight < a.capacity) :
      Step a call .arrive .holding { a with inFlight := a.inFlight + 1 }
  | queue (hs : call.stage = .asking) (hbusy : ¬(a.waiters = [] ∧ a.inFlight < a.capacity)) :
      Step a call .arrive (.waiting a.nextTicket)
        { a with waiters := a.waiters ++ [a.nextTicket], nextTicket := a.nextTicket + 1 }
  | claim {t : Nat} (hs : call.stage = .waiting t) (ht : t ∈ a.granted) : Step a call .claim .claimed (a.claim t)
  | starve {t : Nat} (hs : call.stage = .waiting t) (hg : t ∉ a.granted) (hw : t ∉ a.waiters) :
      Step a call .claim (.ended .shuttingDown) a
  | notice {t : Nat} (hs : call.stage = .waiting t) (hc : call.cancelled = true) :
      Step a call .notice (.leaving t .cancelled) a
  | drop {t : Nat} (hs : call.stage = .waiting t) : Step a call .drop (.leaving t .dropped) a
  | withdraw {t : Nat} {r : Reason} (hs : call.stage = .leaving t r) (ht : t ∈ a.waiters) :
      Step a call .tidy (.ended (.givenUp r)) (a.withdraw t)
  | miss {t : Nat} {r : Reason} (hs : call.stage = .leaving t r) (ht : t ∉ a.waiters) :
      Step a call .tidy (.returning t r) a
  | handOn {t : Nat} {r : Reason} (hs : call.stage = .returning t r) :
      Step a call .handOn (.ended (.givenUp r)) (a.handOn t)
  | doubt (hs : call.stage = .claimed) (hc : call.cancelled = true) : Step a call .confirm .yielding a
  | confirm (hs : call.stage = .claimed) (hc : call.cancelled = false) : Step a call .confirm .holding a
  | yield (hs : call.stage = .yielding) : Step a call .yield (.ended (.givenUp .cancelled)) a.release
  | release {w : WorkEnd} (hs : call.stage = .holding) :
      Step a call (.release w) (.ended (.served w)) a.release

theorem step_of_act? {a a' : Admission} {call : Call} {action : Action} {stage : Stage}
    (h : call.stage.act? a call.cancelled action = some (stage, a')) : Step a call action stage a' := by
  obtain ⟨s, cancelled⟩ := call
  cases s with
  | fresh =>
    cases action <;> simp only [Stage.act?, Option.some.injEq, Prod.mk.injEq, reduceCtorEq] at h
    · obtain ⟨rfl, rfl⟩ := h
      cases cancelled
      · exact .begin rfl rfl
      · exact .refuse rfl rfl
    · obtain ⟨rfl, rfl⟩ := h
      exact .forget rfl
  | asking =>
    cases action <;> simp only [Stage.act?, reduceCtorEq] at h
    by_cases hfree : a.waiters = [] ∧ a.inFlight < a.capacity
    · rw [enter_of_free hfree.1 hfree.2] at h
      cases h
      exact .enter rfl hfree.1 hfree.2
    · rw [enter_of_busy hfree] at h
      cases h
      exact .queue rfl hfree
  | waiting t =>
    cases action <;> simp only [Stage.act?, reduceCtorEq] at h
    · split at h
      · rename_i hg
        cases h
        exact .claim rfl (List.contains_iff_mem.mp hg)
      · rename_i hg
        split at h
        · cases h
        · rename_i hw
          cases h
          exact .starve rfl (fun ht => hg (List.contains_iff_mem.mpr ht)) fun ht => hw (List.contains_iff_mem.mpr ht)
    · split at h
      · rename_i hc
        cases h
        exact .notice rfl hc
      · cases h
    · cases h
      exact .drop rfl
  | leaving t r =>
    cases action <;> simp only [Stage.act?, reduceCtorEq] at h
    split at h
    · rename_i hw
      cases h
      exact .withdraw rfl (List.contains_iff_mem.mp hw)
    · rename_i hw
      cases h
      exact .miss rfl fun ht => hw (List.contains_iff_mem.mpr ht)
  | returning t r =>
    cases action <;> simp only [Stage.act?, reduceCtorEq] at h
    cases h
    exact .handOn rfl
  | claimed =>
    cases action <;> simp only [Stage.act?, Option.some.injEq, Prod.mk.injEq, reduceCtorEq] at h
    obtain ⟨rfl, rfl⟩ := h
    cases cancelled
    · exact .confirm rfl rfl
    · exact .doubt rfl rfl
  | yielding =>
    cases action <;> simp only [Stage.act?, reduceCtorEq] at h
    cases h
    exact .yield rfl
  | holding =>
    cases action <;> simp only [Stage.act?, reduceCtorEq] at h
    cases h
    exact .release rfl
  | ended e => cases action <;> simp only [Stage.act?, reduceCtorEq] at h

theorem Calls.step_of_step? {c c' : Calls} {i : Nat} {action : Action} (h : c.step? i action = some c') :
    ∃ call call' a', c.calls[i]? = some call ∧ Step c.admission call action call'.stage a' ∧
      c' = ⟨a', c.calls.set i call'⟩ := by
  simp only [Calls.step?, Option.bind_eq_bind, Option.bind_eq_some_iff] at h
  obtain ⟨call, hcall, ⟨call', a'⟩, hact, h⟩ := h
  cases h
  refine ⟨call, call', a', hcall, ?_, rfl⟩
  cases action <;> simp only [Call.act?, Option.map_eq_some_iff, Prod.mk.injEq, Prod.exists] at hact
  case cancel =>
    cases hact
    exact .cancel
  all_goals
    obtain ⟨stage, a'', hact, rfl, rfl⟩ := hact
    exact step_of_act? hact

/-! ### Permits and tickets -/

/-- Whether a call holds a slot that it knows of. -/
def Stage.hasPermit : Stage → Bool
  | .claimed => true
  | .yielding => true
  | .holding => true
  | _ => false

/-- The ticket that a call has not done with. -/
def Stage.ticket? : Stage → Option Nat
  | .waiting ticket => some ticket
  | .leaving ticket _ => some ticket
  | .returning ticket _ => some ticket
  | _ => none

/-- One for a call with a permit. -/
def Stage.permits (s : Stage) : Nat := if s.hasPermit then 1 else 0

namespace Calls

/-- How many calls hold a slot that they know of. -/
def permits (c : Calls) : Nat := c.calls.countP (·.stage.hasPermit)

/-- The tickets that calls have not done with. -/
def tickets (c : Calls) : List Nat := c.calls.filterMap (·.stage.ticket?)

end Calls

/-! ### What a step keeps -/

/-- What holds of the calls in every reachable state: the slots are in balance with them; a call that
    hands a slot on has no place in the line; and nobody has waited in vain. -/
structure Sound (c : Calls) : Prop where
  balanced : Balanced c.admission c.permits c.tickets
  returning : ∀ call ∈ c.calls, ∀ t r, call.stage = .returning t r → t ∉ c.admission.waiters
  sent : ∀ call ∈ c.calls, call.stage ≠ .ended .shuttingDown

section Step

variable {a a' : Admission} {call : Call} {action : Action} {stage : Stage} {permits : Nat} {tickets : List Nat}

theorem Step.balanced (hs : Step a call action stage a')
    (h : Balanced a (permits + call.stage.permits) (call.stage.ticket?.toList ++ tickets))
    (hret : ∀ t r, call.stage = .returning t r → t ∉ a.waiters) :
    Balanced a' (permits + stage.permits) (stage.ticket?.toList ++ tickets) := by
  cases hs with
  | cancel => exact h
  | refuse hs | begin hs | forget hs | notice hs | drop hs | miss hs | doubt hs | confirm hs => rwa [hs] at h
  | enter hs hw hlt =>
    rw [hs] at h
    exact h.enter_slot hw hlt
  | queue hs hbusy =>
    rw [hs] at h
    exact h.enter_ticket hbusy
  | claim hs ht =>
    rw [hs] at h
    exact Balanced.claim h ht
  | starve hs hg hw =>
    rw [hs] at h
    rcases h.mem_iff.mp List.mem_cons_self with ht | ht
    · exact absurd ht hw
    · exact absurd ht hg
  | withdraw hs ht =>
    rw [hs] at h
    exact Balanced.withdraw h ht
  | handOn hs =>
    have hnw := hret _ _ hs
    rw [hs] at h
    rcases h.mem_iff.mp List.mem_cons_self with ht | ht
    · exact absurd ht hnw
    · exact Balanced.handOn h ht
  | yield hs | release hs =>
    rw [hs] at h
    exact Balanced.release h

/-- Only a new ticket gets into the line. -/
theorem Step.waiters (hs : Step a call action stage a') {t : Nat} (ht : t ∈ a'.waiters) :
    t ∈ a.waiters ∨ t = a.nextTicket := by
  cases hs with
  | queue => simpa using ht
  | withdraw => exact Or.inl (List.mem_of_mem_erase ht)
  | handOn => exact Or.inl (mem_of_mem_release (a := a.claim _) ht)
  | yield | release => exact Or.inl (mem_of_mem_release ht)
  | _ => exact Or.inl ht

theorem Step.capacity (hs : Step a call action stage a') : a'.capacity = a.capacity := by
  cases hs with
  | handOn => exact capacity_release (a.claim _)
  | yield | release => exact capacity_release a
  | _ => rfl

/-- What a step means to the ticket of another call: a slot it has been given stays with it, and it
    stays in the line unless it is given a slot, which it can be only as the first one. -/
structure Passes (a a' : Admission) (u : Nat) : Prop where
  keeps : u ∈ a.granted → u ∈ a'.granted
  waits : u ∈ a.waiters → u ∈ a'.waiters ∨ u ∈ a'.granted
  first : u ∈ a'.granted → u ∈ a.granted ∨ a.waiters.head? = some u

theorem Step.passes (hs : Step a call action stage a') {u : Nat} (hu : call.stage.ticket? ≠ some u) :
    a.Passes a' u := by
  cases hs with
  | queue => exact ⟨id, fun hw => Or.inl (List.mem_append_left _ hw), Or.inl⟩
  | claim hs =>
    rw [hs] at hu
    have hne : u ≠ _ := fun h => hu (congrArg some h.symm)
    exact ⟨(List.mem_erase_of_ne hne).mpr, Or.inl, fun hg => Or.inl (List.mem_of_mem_erase hg)⟩
  | withdraw hs =>
    rw [hs] at hu
    have hne : u ≠ _ := fun h => hu (congrArg some h.symm)
    exact ⟨id, fun hw => Or.inl ((List.mem_erase_of_ne hne).mpr hw), Or.inl⟩
  | handOn hs =>
    rw [hs] at hu
    have hne : u ≠ _ := fun h => hu (congrArg some h.symm)
    refine ⟨fun hg => mem_granted_release ((List.mem_erase_of_ne hne).mpr hg), fun hw => ?_, fun hg => ?_⟩
    · exact mem_or_mem_release (a := a.claim _) hw
    · exact (head_of_mem_release hg).imp_left List.mem_of_mem_erase
  | yield | release => exact ⟨mem_granted_release, mem_or_mem_release, head_of_mem_release⟩
  | _ => exact ⟨id, Or.inl, Or.inl⟩

/-- A call is found to have no place in the line before it hands its slot on. -/
theorem Step.returning (hs : Step a call action stage a')
    (hret : ∀ t r, call.stage = .returning t r → t ∉ a.waiters) {t : Nat} {r : Reason}
    (ht : stage = .returning t r) : t ∉ a'.waiters := by
  cases hs with
  | cancel => exact hret t r ht
  | miss hs hw =>
    cases ht
    exact hw
  | _ => cases ht

/-- Nobody waits in vain: the ticket of a waiting call is in the line, or it has been given a slot. -/
theorem Step.sent (hs : Step a call action stage a')
    (h : Balanced a (permits + call.stage.permits) (call.stage.ticket?.toList ++ tickets))
    (hsent : call.stage ≠ .ended .shuttingDown) : stage ≠ .ended .shuttingDown := by
  cases hs with
  | cancel => exact hsent
  | starve hs hg hw =>
    rw [hs] at h
    rcases h.mem_iff.mp List.mem_cons_self with ht | ht
    · exact absurd ht hw
    · exact absurd ht hg
  | _ => simp

end Step

namespace Sound

variable {c c' : Calls} {i : Nat} {action : Action}

theorem start (capacity count : Nat) : Sound (.start capacity count) where
  balanced := by
    have hp : (Calls.start capacity count).permits = 0 :=
      List.countP_eq_zero.mpr fun call hcall => by rw [List.eq_of_mem_replicate hcall]; decide
    have ht : (Calls.start capacity count).tickets = [] :=
      List.filterMap_eq_nil_iff.mpr fun call hcall => by rw [List.eq_of_mem_replicate hcall]; rfl
    rw [hp, ht]
    exact balanced_ofCapacity capacity
  returning call hcall t r hs := by
    rw [List.eq_of_mem_replicate hcall] at hs
    cases hs
  sent call hcall := by
    rw [List.eq_of_mem_replicate hcall]
    decide

/-- No two calls have one ticket. -/
theorem ticket_inj (h : Sound c) {j u : Nat} {call other : Call} (hi : c.calls[i]? = some call)
    (hj : c.calls[j]? = some other) (hu : call.stage.ticket? = some u) (hu' : other.stage.ticket? = some u) :
    i = j := by
  obtain ⟨hlti, rfl⟩ := List.getElem?_eq_some_iff.mp hi
  obtain ⟨hltj, rfl⟩ := List.getElem?_eq_some_iff.mp hj
  have hne := List.pairwise_iff_getElem.mp (List.pairwise_filterMap.mp h.balanced.nodup)
  rcases Nat.lt_trichotomy i j with hij | hij | hij
  · exact absurd rfl (hne i j hlti hltj hij u hu u hu')
  · exact hij
  · exact absurd rfl (hne j i hltj hlti hij u hu' u hu)

/-- The balance with one of the calls apart. -/
theorem balanced_with (h : Sound c) {call : Call} {others : List Call} (hp : c.calls.Perm (call :: others)) :
    Balanced c.admission (others.countP (·.stage.hasPermit) + call.stage.permits)
      (call.stage.ticket?.toList ++ others.filterMap (·.stage.ticket?)) := by
  rw [Stage.permits, ← countP_others (·.stage.hasPermit) hp]
  exact h.balanced.congr (filterMap_others (fun call : Call => call.stage.ticket?) hp)

theorem step (h : Sound c) (hs : c.step? i action = some c') : Sound c' := by
  obtain ⟨call, call', a', hcall, hstep, rfl⟩ := Calls.step_of_step? hs
  obtain ⟨others, hp, hp'⟩ := exists_others hcall
  have hmem : call ∈ c.calls := List.mem_of_getElem? hcall
  have hbal := h.balanced_with hp
  have hret := h.returning call hmem
  -- The calls that do not act keep their stages; a ticket of theirs does not get into the line again.
  have hold : ∀ other ∈ others, other ∈ c.calls := fun other ho => hp.mem_iff.mpr (List.mem_cons_of_mem _ ho)
  refine ⟨?_, ?_, ?_⟩
  · unfold Calls.permits Calls.tickets
    rw [countP_others (·.stage.hasPermit) (hp' call')]
    exact (hstep.balanced hbal hret).congr (filterMap_others (fun call : Call => call.stage.ticket?) (hp' call')).symm
  · intro other ho t r hst
    rcases List.mem_cons.mp ((hp' call').mem_iff.mp ho) with rfl | ho
    · exact hstep.returning hret hst
    · intro hw
      rcases hstep.waiters hw with hw | rfl
      · exact h.returning other (hold other ho) t r hst hw
      · have hissued : c.admission.nextTicket ∈ c.tickets :=
          List.mem_filterMap.mpr ⟨other, hold other ho, by rw [hst]; rfl⟩
        exact Nat.lt_irrefl _ (h.balanced.issued _ hissued)
  · intro other ho
    rcases List.mem_cons.mp ((hp' call').mem_iff.mp ho) with rfl | ho
    · exact hstep.sent hbal (h.sent call hmem)
    · exact h.sent other (hold other ho)

theorem run (h : Sound c) {actions : List (Nat × Action)} (hr : c.run? actions = some c') : Sound c' := by
  induction actions generalizing c with
  | nil =>
    cases hr
    exact h
  | cons entry rest ih =>
    obtain ⟨i, action⟩ := entry
    obtain ⟨d, hd, hr⟩ := Option.bind_eq_some_iff.mp hr
    exact ih (h.step hd) hr

end Sound
end SealedDownload.Admission
