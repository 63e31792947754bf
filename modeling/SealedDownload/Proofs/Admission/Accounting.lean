import SealedDownload.Proofs.Admission.Marks

/-! Slot accounting. In every state that calls can reach, in whatever order their steps come, the slots
    taken are the permits and the slots given to tickets that nobody has taken yet; no slot is lost or
    given back twice, and nobody waits while a slot is free. -/

namespace SealedDownload.Admission

/-- Whether a call may still ask for a slot. -/
def Stage.mayAsk : Stage → Bool
  | .fresh => true
  | .asking => true
  | _ => false

theorem Step.nextTicket_le {a a' : Admission} {call : Call} {action : Action} {stage : Stage}
    (h : Step a call action stage a') :
    a'.nextTicket + stage.mayAsk.toNat ≤ a.nextTicket + call.stage.mayAsk.toNat := by
  cases h with
  | cancel => exact Nat.le_refl _
  | handOn hs | yield hs | release hs =>
    rw [hs]
    simp [Stage.mayAsk, Admission.handOn, Admission.claim, nextTicket_release]
  | refuse hs | begin hs | forget hs | enter hs | queue hs | claim hs | starve hs | notice hs | drop hs | withdraw hs
  | miss hs | doubt hs | confirm hs =>
    rw [hs]
    simp [Stage.mayAsk, Admission.claim, Admission.withdraw]

namespace Calls

/-- How many calls have been given a slot that they do not know of. -/
def unclaimed (c : Calls) : Nat := c.calls.countP (·.stage.hasGrant c.admission)

/-- How many calls are at their work. -/
def working (c : Calls) : Nat := c.calls.countP (·.stage = .holding)

/-- Whether no call is under way. -/
def Idle (c : Calls) : Prop := ∀ call ∈ c.calls, call.stage = .fresh ∨ ∃ ending, call.stage = .ended ending

variable {c d : Calls} {i : Nat} {action : Action}

theorem capacity_step (hs : c.step? i action = some d) : d.admission.capacity = c.admission.capacity := by
  obtain ⟨_, _, _, -, hstep, rfl⟩ := step_of_step? hs
  exact hstep.capacity

theorem capacity_run {actions : List (Nat × Action)} (hr : c.run? actions = some d) :
    d.admission.capacity = c.admission.capacity := by
  induction actions generalizing c with
  | nil =>
    cases hr
    rfl
  | cons entry rest ih =>
    obtain ⟨i, action⟩ := entry
    obtain ⟨e, he, hr⟩ := Option.bind_eq_some_iff.mp hr
    exact (ih hr).trans (capacity_step he)

/-- How many calls may still ask for a slot. -/
def early (c : Calls) : Nat := c.calls.countP (·.stage.mayAsk)

/-- Whoever is given a ticket has asked for a slot, and asks no more. -/
theorem nextTicket_step (hs : c.step? i action = some d) :
    d.admission.nextTicket + d.early ≤ c.admission.nextTicket + c.early := by
  obtain ⟨call, call', a', hcall, hstep, rfl⟩ := step_of_step? hs
  obtain ⟨others, hp, hset⟩ := exists_others hcall
  have hle := hstep.nextTicket_le
  rw [early, early, countP_others _ hp, countP_others _ (hset call')]
  cases hm : call.stage.mayAsk <;> cases hm' : call'.stage.mayAsk <;> simp [hm, hm'] at hle ⊢ <;> omega

theorem nextTicket_run {actions : List (Nat × Action)} (hr : c.run? actions = some d) :
    d.admission.nextTicket + d.early ≤ c.admission.nextTicket + c.early := by
  induction actions generalizing c with
  | nil =>
    cases hr
    exact Nat.le_refl _
  | cons entry rest ih =>
    obtain ⟨i, action⟩ := entry
    obtain ⟨e, he, hr⟩ := Option.bind_eq_some_iff.mp hr
    exact Nat.le_trans (ih hr) (nextTicket_step he)

theorem working_le_permits (c : Calls) : c.working ≤ c.permits := by
  refine List.countP_mono_left fun call _ h => ?_
  rw [of_decide_eq_true h]
  rfl

end Calls

namespace Sound

variable {c d : Calls} {i : Nat} {action : Action}

/-- The slots given to tickets are those that calls do not know of yet. -/
theorem length_granted (h : Sound c) : c.admission.granted.length = c.unclaimed := by
  have hbal := h.balanced
  have hcount : c.unclaimed = c.tickets.countP (c.admission.isGranted ·) := by
    rw [Calls.unclaimed, Calls.tickets, List.countP_filterMap]
    congr 1
    funext call
    rw [Stage.hasGrant]
    cases call.stage.ticket? <;> rfl
  have hwait : c.admission.waiters.countP (c.admission.isGranted ·) = 0 :=
    List.countP_eq_zero.mpr fun t ht hg => hbal.not_granted ht (List.contains_iff_mem.mp hg)
  have hgrant : c.admission.granted.countP (c.admission.isGranted ·) = c.admission.granted.length :=
    List.countP_eq_length.mpr fun t ht => List.contains_iff_mem.mpr ht
  rw [hcount, hbal.perm.countP_eq, List.countP_append, hwait, hgrant, Nat.zero_add]

/-- Where a slot comes back, one is taken. -/
theorem inFlight_pos (h : Sound c) (hs : c.step? i action = some d) (hm : (i, .returned) ∈ c.marks i action d) :
    0 < c.admission.inFlight := by
  obtain ⟨call, call', a', hcall, hstep, rfl⟩ := Calls.step_of_step? hs
  obtain ⟨others, hp, -⟩ := exists_others hcall
  have hbal := h.balanced_with hp
  have hm : .returned ∈ call.stage.marks action := by
    simpa [Calls.marks, hcall] using hm
  have hacc := hbal.accounted
  have permit : call.stage.permits = 1 → 0 < c.admission.inFlight := fun h1 => by
    rw [h1] at hacc
    omega
  cases hst : call.stage with
  | yielding | holding => exact permit (by rw [hst]; rfl)
  | returning t r =>
    have ht : t ∈ c.admission.granted := by
      have hw := h.returning call (List.mem_of_getElem? hcall) t r hst
      rw [hst] at hbal
      exact (hbal.mem_iff.mp List.mem_cons_self).resolve_left hw
    have := List.length_pos_of_mem ht
    omega
  | _ =>
    rw [hst] at hm
    cases action <;> simp [Stage.marks] at hm

/-- Once no call is under way, no slot is taken and nobody is in the line. -/
theorem of_idle (h : Sound c) (hi : c.Idle) : c.admission.inFlight = 0 ∧ c.admission.waiters = [] := by
  have hp : c.permits = 0 := List.countP_eq_zero.mpr fun call hcall => by
    rcases hi call hcall with hs | ⟨e, hs⟩ <;> rw [hs] <;> simp [Stage.hasPermit]
  have ht : c.tickets = [] := List.filterMap_eq_nil_iff.mpr fun call hcall => by
    rcases hi call hcall with hs | ⟨e, hs⟩ <;> rw [hs] <;> rfl
  have hperm := h.balanced.perm
  rw [ht] at hperm
  obtain ⟨hw, hg⟩ := List.append_eq_nil_iff.mp hperm.symm.eq_nil
  have hacc := h.balanced.accounted
  rw [hp, hg] at hacc
  exact ⟨hacc, hw⟩

end Sound

namespace Told

variable {c : Calls} {log : List (Nat × Mark)}

/-- A call has got as many slots as it has given back, and one more while it has one. -/
theorem given_eq (h : Told c log) (i : Nat) :
    log.count (i, .given) = log.count (i, .returned) + if c.hasSlot i then 1 else 0 := by
  rw [← count_story, ← count_story]
  cases hi : c.calls[i]? with
  | none =>
    rw [h.silent i hi]
    simp [Calls.hasSlot, hi]
  | some call =>
    rw [Calls.hasSlot_eq hi]
    exact (h.tells i call hi).count_given fun t => h.sound.balanced.not_granted

/-- A call asks once and is given one slot at most. -/
theorem count_le (h : Told c log) (i : Nat) : log.count (i, .asked) ≤ 1 ∧ log.count (i, .given) ≤ 1 := by
  rw [← count_story, ← count_story]
  cases hi : c.calls[i]? with
  | none =>
    rw [h.silent i hi]
    decide
  | some call => exact count_of_mem_stories _ (h.tells i call hi).mem_stories

end Told

/-! ### Tickets -/

/-- No more tickets are given out than there are calls, so that fewer than `2 ^ 64` calls leave every ticket in a
    word. -/
theorem tickets_within {capacity count : Nat} {actions : List (Nat × Action)} {c : Calls}
    (hr : (Calls.start capacity count).run? actions = some c) :
    c.admission.nextTicket ≤ count ∧ ∀ t, t ∈ c.admission.waiters ∨ t ∈ c.admission.granted → t < count := by
  have hnext : c.admission.nextTicket ≤ count := by
    have hle := Calls.nextTicket_run hr
    have hearly : (Calls.start capacity count).early ≤ (Calls.start capacity count).calls.length := List.countP_le_length
    have hlength : (Calls.start capacity count).calls.length = count := List.length_replicate
    have hzero : (Calls.start capacity count).admission.nextTicket = 0 := rfl
    omega
  have hbal := ((Told.start capacity count).run hr).sound.balanced
  exact ⟨hnext, fun t ht => Nat.lt_of_lt_of_le (ht.elim hbal.lt_of_waiting hbal.lt_of_granted) hnext⟩

/-! ### The account -/

/-- In every state that any number of calls can reach: each slot taken is held by one call or has been
    sent to one, and they are at most the capacity, and all of it while somebody waits; at most so many
    works go on; a slot comes back only where one is taken, and from each call as often as it got one,
    but for the one it has; once no call is under way no slot is taken and nobody is in the line; and no
    call has waited for a slot that could not come any more. -/
theorem slots_accounted {capacity count : Nat} {actions : List (Nat × Action)} {c : Calls}
    (hr : (Calls.start capacity count).run? actions = some c) :
    c.admission.inFlight = c.permits + c.unclaimed ∧
    c.admission.inFlight ≤ max 1 capacity ∧
    (c.admission.waiters ≠ [] → c.admission.inFlight = max 1 capacity) ∧
    c.working ≤ max 1 capacity ∧
    (∀ i action d, c.step? i action = some d → (i, .returned) ∈ c.marks i action d → 0 < c.admission.inFlight) ∧
    (∀ i, ((Calls.start capacity count).log actions).count (i, .given) =
      ((Calls.start capacity count).log actions).count (i, .returned) + if c.hasSlot i then 1 else 0) ∧
    (∀ i, ((Calls.start capacity count).log actions).count (i, .returned) ≤ 1) ∧
    (c.Idle → c.admission.inFlight = 0 ∧ c.admission.waiters = []) ∧
    ∀ call ∈ c.calls, call.stage ≠ .ended .shuttingDown := by
  have told : Told c ((Calls.start capacity count).log actions) := (Told.start capacity count).run hr
  have sound := told.sound
  have hcap : c.admission.capacity = max 1 capacity := Calls.capacity_run hr
  have hacc : c.admission.inFlight = c.permits + c.unclaimed := by
    rw [← sound.length_granted]
    exact sound.balanced.accounted
  have hle : c.admission.inFlight ≤ max 1 capacity := hcap ▸ sound.balanced.within
  refine ⟨hacc, hle, fun hw => hcap ▸ sound.balanced.full hw, ?_, fun i action d => sound.inFlight_pos,
    told.given_eq, fun i => ?_, sound.of_idle, sound.sent⟩
  · have := c.working_le_permits
    omega
  · have heq := told.given_eq i
    have hle := (told.count_le i).2
    omega

/-- A slot that comes to a call after it has been given up is handed on to the next one in the line. -/
theorem slots_accounted_handed_on :
    let actions : List (Nat × Action) := [(0, .begin), (0, .arrive), (1, .begin), (1, .arrive), (2, .begin),
      (2, .arrive), (1, .drop), (0, .release .failed), (1, .tidy), (1, .handOn)]
    let c : Calls := ⟨⟨1, 1, [], 2, [1]⟩,
      [⟨.ended (.served .failed), false⟩, ⟨.ended (.givenUp .dropped), false⟩, ⟨.waiting 1, false⟩]⟩
    (Calls.start 1 3).run? actions = some c ∧ c.admission.inFlight = c.permits + c.unclaimed := by
  intro actions c
  have hr : (Calls.start 1 3).run? actions = some c := by decide
  exact ⟨hr, (slots_accounted hr).1⟩

end SealedDownload.Admission
