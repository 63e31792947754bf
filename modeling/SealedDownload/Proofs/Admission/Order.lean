import SealedDownload.Proofs.Admission.Accounting

/-! First come, first served. Who asks earlier has the smaller ticket, and only the smallest ticket of the
    line is given a slot; so nobody is given a slot before those who asked earlier, unless they have been
    given up. -/

namespace SealedDownload.Admission

/-! ### Marks of a step -/

section Marks

variable {a a' : Admission} {call : Call} {action : Action} {stage : Stage} {permits : Nat} {tickets : List Nat}

theorem given_not_mem_marks (s : Stage) (action : Action) : .given ∉ s.marks action := by
  cases s <;> cases action <;> simp [Stage.marks]

theorem stage_of_asked {s : Stage} (h : .asked ∈ s.marks action) : s = .asking := by
  cases s <;> cases action <;> simp [Stage.marks] at h ⊢

/-- A call that asks gets a slot only if nobody is in the line; no other step of its own gives it one. -/
theorem Step.gains (hs : Step a call action stage a')
    (h : Balanced a (permits + call.stage.permits) (call.stage.ticket?.toList ++ tickets))
    (hb : call.stage.hasSlot a = false) (ha : stage.hasSlot a' = true) :
    .asked ∈ call.stage.marks action ∧ a.waiters = [] := by
  cases hs with
  | enter hs hw =>
    rw [hs]
    exact ⟨List.mem_singleton_self _, hw⟩
  | queue hs =>
    have hg : a.nextTicket ∈ a.granted := by
      rw [hasSlot_of_ticket rfl] at ha
      exact of_decide_eq_true ha
    exact absurd (h.lt_of_granted hg) (Nat.lt_irrefl _)
  | cancel =>
    rw [hb] at ha
    cases ha
  | claim hs hg =>
    rw [hs, hasSlot_of_ticket rfl, decide_eq_true hg] at hb
    cases hb
  | notice hs | drop hs | miss hs =>
    rw [hs, hasSlot_of_ticket rfl] at hb
    rw [hasSlot_of_ticket rfl, hb] at ha
    cases ha
  | doubt hs | confirm hs =>
    rw [hs, hasSlot_of_permit rfl] at hb
    cases hb
  | refuse | begin | forget | starve | withdraw | handOn | yield | release =>
    rw [hasSlot_of_no_ticket rfl] at ha
    cases ha

/-- A ticket is the one that a call had before, or a new one of a call that asks. -/
theorem Step.ticket (hs : Step a call action stage a') {t : Nat} (ht : stage.ticket? = some t) :
    call.stage.ticket? = some t ∨ (call.stage = .asking ∧ t = a.nextTicket) := by
  cases hs with
  | cancel => exact Or.inl ht
  | queue hs => exact Or.inr ⟨hs, (Option.some.inj ht).symm⟩
  | notice hs | drop hs | miss hs =>
    rw [hs]
    exact Or.inl ht
  | _ => cases ht

end Marks

/-! ### Who is first -/

/-- Who asks earlier has the smaller ticket. -/
def InOrder (c : Calls) (log : List (Nat × Mark)) : Prop :=
  ∀ i j, [(i, .asked), (j, .asked)].Sublist log → ∀ call other, c.calls[i]? = some call → c.calls[j]? = some other →
    ∀ t u, call.stage.ticket? = some t → other.stage.ticket? = some u → t < u

/-- Who is given a slot has asked for it, and all who asked earlier have been given one or given up. -/
def Fair (log : List (Nat × Mark)) : Prop :=
  ∀ before after j, log = before ++ (j, .given) :: after → (j, .asked) ∈ before ∧
    ∀ i, [(i, .asked), (j, .asked)].Sublist before → (i, .given) ∈ before ∨ (i, .abandoned) ∈ before

section Order

variable {c d : Calls} {log : List (Nat × Mark)} {i j k : Nat} {action : Action}

theorem Told.ne_of_sublist (h : Told c log) (hs : [(i, Mark.asked), (j, .asked)].Sublist log) : i ≠ j := by
  rintro rfl
  have hle := hs.count_le (i, .asked)
  have := (h.count_le i).1
  simp at hle
  omega

/-- Only the call that acts can ask in a step. -/
theorem asked_of_mem_marks {call : Call} (hcall : c.calls[k]? = some call) (hm : (i, .asked) ∈ c.marks k action d) :
    i = k ∧ call.stage = .asking := by
  simp only [Calls.marks, hcall, Option.map_some, Option.getD_some, List.mem_append, List.mem_map, Prod.mk.injEq,
    reduceCtorEq, and_false, exists_false, or_false] at hm
  obtain ⟨m, hm, rfl, rfl⟩ := hm
  exact ⟨rfl, stage_of_asked hm⟩

/-- A sublist of two marks of a log that has grown lies in the old log, or one or both of its marks are new. -/
theorem sublist_pair_append {x y : Nat × Mark} {l l' : List (Nat × Mark)} (h : [x, y].Sublist (l ++ l')) :
    [x, y].Sublist l ∨ (x ∈ l ∧ y ∈ l') ∨ [x, y].Sublist l' := by
  obtain ⟨a, b, hab, ha, hb⟩ := List.sublist_append_iff.mp h
  match a, b, hab with
  | [], _, rfl => exact Or.inr (Or.inr hb)
  | [_], [_], rfl => exact Or.inr (Or.inl ⟨ha.subset (by simp), hb.subset (by simp)⟩)
  | [_, _], [], rfl => exact Or.inl ha

theorem InOrder.step (h : InOrder c log) (told : Told c log) (hs : c.step? k action = some d) :
    InOrder d (log ++ c.marks k action d) := by
  have told' := told.step hs
  obtain ⟨actor, actor', a', hactor, hstep, rfl⟩ := Calls.step_of_step? hs
  -- A call that has asked before has its ticket from before.
  have old : ∀ i call t, (i, .asked) ∈ log → (c.calls.set k actor')[i]? = some call → call.stage.ticket? = some t →
      ∃ call₀, c.calls[i]? = some call₀ ∧ call₀.stage.ticket? = some t := by
    intro i call t hm hi ht
    by_cases hik : k = i
    · subst hik
      have hlt : k < c.calls.length := (List.getElem?_eq_some_iff.mp hactor).1
      obtain rfl : actor' = call := by simpa [hlt] using hi
      rcases hstep.ticket ht with ht | ⟨hasking, -⟩
      · exact ⟨actor, hactor, ht⟩
      · have hstory := told.tells k actor hactor
        rw [hasking] at hstory
        have hm := mem_story.mpr hm
        rw [show story k log = [] from hstory] at hm
        cases hm
    · exact ⟨call, by simpa [hik] using hi, ht⟩
  intro i j hsub call other hi hj t u ht hu
  rcases sublist_pair_append hsub with hsub | ⟨hmi, hmj⟩ | hsub
  · obtain ⟨call₀, hi, ht⟩ := old i call t (hsub.subset (by simp)) hi ht
    obtain ⟨other₀, hj, hu⟩ := old j other u (hsub.subset (by simp)) hj hu
    exact h i j hsub call₀ other₀ hi hj t u ht hu
  · -- The ticket of a call that asks now is a new one.
    obtain ⟨rfl, hasking⟩ := asked_of_mem_marks hactor hmj
    obtain ⟨call₀, hi, ht⟩ := old i call t hmi hi ht
    have hlt : j < c.calls.length := (List.getElem?_eq_some_iff.mp hactor).1
    obtain rfl : actor' = other := by simpa [hlt] using hj
    have hnew : u = c.admission.nextTicket := by
      rcases hstep.ticket hu with hu | ⟨-, hu⟩
      · rw [hasking] at hu
        cases hu
      · exact hu
    rw [hnew]
    exact told.sound.balanced.issued t (List.mem_filterMap.mpr ⟨call₀, List.mem_of_getElem? hi, ht⟩)
  · have hne := told'.ne_of_sublist (hsub.trans (List.sublist_append_right _ _))
    exact absurd ((asked_of_mem_marks hactor (hsub.subset (by simp))).1.trans
      (asked_of_mem_marks hactor (hsub.subset (by simp))).1.symm) hne

/-- Who gets a slot in a step has asked in this step and found nobody in the line, or is the first one
    in the line. -/
theorem Told.of_mem_gains (told : Told c log) (hs : c.step? k action = some d) (hj : j ∈ c.gains d) :
    (∃ call, c.calls[k]? = some call ∧ j = k ∧ .asked ∈ call.stage.marks action ∧ c.admission.waiters = []) ∨
      ∃ call u, c.calls[j]? = some call ∧ call.stage.ticket? = some u ∧ c.admission.waiters.head? = some u := by
  obtain ⟨actor, actor', a', hactor, hstep, rfl⟩ := Calls.step_of_step? hs
  obtain ⟨hlt, hb, ha⟩ := Calls.mem_gains.mp hj
  obtain ⟨others, hp, -⟩ := exists_others hactor
  by_cases hjk : j = k
  · subst hjk
    rw [Calls.hasSlot_eq hactor] at hb
    have hactor' : (c.calls.set j actor')[j]? = some actor' := by simp [hlt]
    rw [Calls.hasSlot_eq hactor'] at ha
    obtain ⟨hm, hw⟩ := hstep.gains (told.sound.balanced_with hp) hb ha
    exact Or.inl ⟨actor, hactor, rfl, hm, hw⟩
  · obtain ⟨call, hcall⟩ : ∃ call, c.calls[j]? = some call := ⟨_, List.getElem?_eq_getElem hlt⟩
    rw [Calls.hasSlot_eq hcall] at hb
    have hcall' : (c.calls.set k actor')[j]? = some call := by simpa [Ne.symm hjk] using hcall
    rw [Calls.hasSlot_eq hcall'] at ha
    cases hu : call.stage.ticket? with
    | none =>
      rw [hasSlot_of_no_ticket hu] at ha hb
      rw [ha] at hb
      cases hb
    | some u =>
      rw [hasSlot_of_ticket hu] at ha hb
      have hpass := hstep.passes fun hu' => hjk (told.sound.ticket_inj hcall hactor hu hu')
      exact Or.inr ⟨call, u, hcall, hu, (hpass.first (of_decide_eq_true ha)).resolve_left (of_decide_eq_false hb)⟩

/-- A call that has asked and has neither got a slot nor been given up is in the line. -/
theorem Told.settled (told : Told c log) (hm : (i, .asked) ∈ log) : (i, .given) ∈ log ∨ (i, .abandoned) ∈ log ∨
    ∃ call, c.calls[i]? = some call ∧ ∃ t ∈ c.admission.waiters, call.stage.ticket? = some t := by
  simp only [← mem_story] at hm ⊢
  cases hi : c.calls[i]? with
  | none =>
    rw [told.silent i hi] at hm
    cases hm
  | some call =>
    rcases (told.tells i call hi).settled hm with hg | ha | hw
    · exact Or.inl hg
    · exact Or.inr (Or.inl ha)
    · exact Or.inr (Or.inr ⟨call, rfl, hw⟩)

/-- In the marks of a step a slot is given after the marks of the call that acts. -/
theorem marks_before_given {call : Call} {before after : List (Nat × Mark)} (hcall : c.calls[k]? = some call)
    (heq : c.marks k action d = before ++ (j, .given) :: after) {m : Mark} (hm : m ∈ call.stage.marks action) :
    (k, m) ∈ before := by
  rw [Calls.marks, hcall, Option.map_some, Option.getD_some] at heq
  have hown : (k, m) ∈ (call.stage.marks action).map (k, ·) := List.mem_map_of_mem hm
  rcases List.append_eq_append_iff.mp heq with ⟨l, hl, -⟩ | ⟨l, hl, hr⟩
  · rw [hl]
    exact List.mem_append_left _ hown
  · cases l with
    | nil =>
      rw [List.append_nil] at hl
      exact hl ▸ hown
    | cons x l =>
      obtain rfl : (j, .given) = x := (List.cons.inj hr).1
      have hg : (j, .given) ∈ (call.stage.marks action).map (k, ·) := hl ▸ (by simp)
      obtain ⟨m', hm', hpair⟩ := List.mem_map.mp hg
      rw [(Prod.mk.inj hpair).2] at hm'
      exact absurd hm' (given_not_mem_marks _ _)

theorem mem_gains_of_mem_marks (hm : (j, .given) ∈ c.marks k action d) : j ∈ c.gains d := by
  rcases List.mem_append.mp hm with hm | hm
  · obtain ⟨m, hm, hpair⟩ := List.mem_map.mp hm
    rw [(Prod.mk.inj hpair).2] at hm
    cases hk : c.calls[k]? with
    | none => simp [hk] at hm
    | some call =>
      rw [hk] at hm
      exact absurd hm (given_not_mem_marks _ _)
  · obtain ⟨j', hj', hpair⟩ := List.mem_map.mp hm
    rw [(Prod.mk.inj hpair).1] at hj'
    exact hj'

/-- The slots that are given in one step go to calls before which nobody is in the line. -/
theorem Fair.of_marks (order : InOrder c log) (told : Told c log) (hs : c.step? k action = some d)
    {before after : List (Nat × Mark)} (heq : c.marks k action d = before ++ (j, .given) :: after) :
    (j, .asked) ∈ log ++ before ∧ ∀ i, [(i, .asked), (j, .asked)].Sublist (log ++ before) →
      (i, .given) ∈ log ++ before ∨ (i, .abandoned) ∈ log ++ before := by
  have told' := told.step hs
  have hsubset : ∀ x ∈ before, x ∈ c.marks k action d := fun x hx => heq ▸ List.mem_append_left _ hx
  obtain ⟨actor, -, -, hactor, -, -⟩ := Calls.step_of_step? hs
  have hmem : (j, .given) ∈ c.marks k action d := by simp [heq]
  have hgain := told.of_mem_gains hs (mem_gains_of_mem_marks hmem)
  refine ⟨?_, fun i hsub => ?_⟩
  · rcases hgain with ⟨call, hcall, rfl, hm, -⟩ | ⟨call, u, hcall, hu, -⟩
    · exact List.mem_append_right _ (marks_before_given hcall heq hm)
    · exact List.mem_append_left _ (mem_story.mp ((told.tells j call hcall).asked hu))
  · have hne : i ≠ j := by
      refine told'.ne_of_sublist (hsub.trans ?_)
      rw [heq, ← List.append_assoc]
      exact List.sublist_append_left _ _
    have himem : (i, .asked) ∈ log := by
      rcases sublist_pair_append hsub with hsub | ⟨hi, -⟩ | hsub
      · exact hsub.subset (by simp)
      · exact hi
      · have hi := asked_of_mem_marks hactor (hsubset _ (hsub.subset (by simp : (i, Mark.asked) ∈ _)))
        have hj := asked_of_mem_marks hactor (hsubset _ (hsub.subset (by simp : (j, Mark.asked) ∈ _)))
        exact absurd (hi.1.trans hj.1.symm) hne
    rcases told.settled himem with hg | ha | ⟨call, hcall, t, hw, ht⟩
    · exact Or.inl (List.mem_append_left _ hg)
    · exact Or.inr (List.mem_append_left _ ha)
    · -- A call in the line that asked earlier would be before the one that gets the slot.
      exfalso
      rcases hgain with ⟨-, -, -, -, hnil⟩ | ⟨other, u, hother, hu, hhead⟩
      · rw [hnil] at hw
        cases hw
      · have hlog : [(i, Mark.asked), (j, .asked)].Sublist log := by
          have hjbefore : (j, .asked) ∉ before := fun hj => by
            obtain ⟨rfl, hasking⟩ := asked_of_mem_marks hactor (hsubset _ hj)
            obtain rfl : actor = other := Option.some.inj (hactor.symm.trans hother)
            rw [hasking] at hu
            cases hu
          rcases sublist_pair_append hsub with hsub | ⟨-, hj⟩ | hsub
          · exact hsub
          · exact absurd hj hjbefore
          · exact absurd (hsub.subset (by simp)) hjbefore
        have hlt : t < u := order i j hlog call other hcall hother t u ht hu
        obtain ⟨rest, hrest⟩ := List.head?_eq_some_iff.mp hhead
        have hsorted := told.sound.balanced.ordered
        rw [hrest] at hsorted hw
        rcases List.mem_cons.mp hw with rfl | hw
        · exact Nat.lt_irrefl _ hlt
        · exact Nat.lt_asymm hlt ((List.pairwise_cons.mp hsorted).1 t hw)

theorem Fair.step (h : Fair log) (order : InOrder c log) (told : Told c log) (hs : c.step? k action = some d) :
    Fair (log ++ c.marks k action d) := by
  intro before after j heq
  rcases List.append_eq_append_iff.mp heq with ⟨l, rfl, hmarks⟩ | ⟨l, hlog, hrest⟩
  · exact Fair.of_marks order told hs hmarks
  · cases l with
    | nil =>
      obtain rfl : before = log := by rw [hlog, List.append_nil]
      have hmarks : c.marks k action d = [] ++ (j, .given) :: after := hrest.symm
      simpa using Fair.of_marks order told hs hmarks
    | cons x l =>
      obtain ⟨rfl, -⟩ := List.cons.inj hrest
      exact h before l j hlog

theorem Fair.run (h : Fair log) (order : InOrder c log) (told : Told c log) {actions : List (Nat × Action)}
    (hr : c.run? actions = some d) : Fair (log ++ c.log actions) := by
  induction actions generalizing c log with
  | nil => rwa [Calls.log, List.append_nil]
  | cons entry rest ih =>
    obtain ⟨k, action⟩ := entry
    obtain ⟨e, he, hr⟩ := Option.bind_eq_some_iff.mp hr
    rw [Calls.log, he, ← List.append_assoc]
    exact ih (h.step order told he) (order.step told he) (told.step he) hr

/-- A newcomer gets no slot at once while somebody is in the line. -/
theorem Told.not_hasSlot_of_arrive (told : Told c log) (hs : c.step? k .arrive = some d)
    (hw : c.admission.waiters ≠ []) : d.hasSlot k = false := by
  obtain ⟨call, call', a', hcall, hstep, rfl⟩ := Calls.step_of_step? hs
  have hlt : k < c.calls.length := (List.getElem?_eq_some_iff.mp hcall).1
  have hcall' : (c.calls.set k call')[k]? = some call' := by simp [hlt]
  rw [Calls.hasSlot_eq hcall']
  cases hslot : call'.stage.hasSlot a'
  · rfl
  · obtain ⟨others, hp, -⟩ := exists_others hcall
    have hbefore : call.stage.hasSlot c.admission = false := by
      have hasking : call.stage = .asking := by
        generalize call'.stage = stage at hstep
        cases hstep <;> assumption
      rw [hasking]
      rfl
    exact absurd (hstep.gains (told.sound.balanced_with hp) hbefore hslot).2 hw

end Order

/-! ### First come, first served -/

/-- In every run of any number of calls: if a call asks before another one, it has been given a slot or
    has been given up by the time the other one is given its slot; every call is given one slot at most;
    the tickets in the line grow from front to back; and a newcomer gets no slot at once while somebody
    is in the line. -/
theorem served_in_order {capacity count : Nat} {actions : List (Nat × Action)} {c : Calls}
    (hr : (Calls.start capacity count).run? actions = some c) :
    (∀ i j before after, [(i, .asked), (j, .asked)].Sublist ((Calls.start capacity count).log actions) →
      (Calls.start capacity count).log actions = before ++ (j, .given) :: after →
      (i, .given) ∈ before ∨ (i, .abandoned) ∈ before) ∧
    (∀ i, ((Calls.start capacity count).log actions).count (i, .given) ≤ 1) ∧
    c.admission.waiters.Pairwise (· < ·) ∧
    ∀ i d, c.step? i .arrive = some d → c.admission.waiters ≠ [] → d.hasSlot i = false := by
  have told : Told c ((Calls.start capacity count).log actions) := (Told.start capacity count).run hr
  have fair : Fair ([] ++ (Calls.start capacity count).log actions) :=
    Fair.run (by simp [Fair]) (by simp [InOrder]) (.start capacity count) hr
  refine ⟨fun i j before after hsub heq => ?_, fun i => (told.count_le i).2, told.sound.balanced.ordered,
    fun i d => told.not_hasSlot_of_arrive⟩
  obtain ⟨hj, hfair⟩ := fair before after j heq
  refine hfair i ?_
  -- The other call asks once, and before it is given its slot.
  have hcount := (told.count_le j).1
  rw [heq] at hsub hcount
  have hafter : (j, .asked) ∉ (j, .given) :: after := fun hm => by
    have hpos := List.count_pos_iff.mpr hj
    have hpos' := List.count_pos_iff.mpr hm
    rw [List.count_append] at hcount
    omega
  rcases sublist_pair_append hsub with hsub | ⟨-, hm⟩ | hsub
  · exact hsub
  · exact absurd hm hafter
  · exact absurd (hsub.subset (by simp)) hafter

/-- The first one in the line is given up after it has been sent the slot, and the second one gets it. -/
theorem served_in_order_handed_on :
    let actions : List (Nat × Action) := [(0, .begin), (0, .arrive), (1, .begin), (1, .arrive), (2, .begin),
      (2, .arrive), (0, .release .succeeded), (1, .cancel), (1, .notice), (1, .tidy), (1, .handOn)]
    let log : List (Nat × Mark) := [(0, .asked), (0, .given), (1, .asked), (2, .asked), (0, .returned), (1, .given),
      (1, .abandoned), (1, .returned)]
    ((Calls.start 1 3).run? actions).isSome ∧ [(1, .asked), (2, .asked)].Sublist ((Calls.start 1 3).log actions) ∧
      (Calls.start 1 3).log actions = log ++ [(2, .given)] ∧ ((1, .given) ∈ log ∨ (1, .abandoned) ∈ log) := by
  intro actions log
  have hr : (Calls.start 1 3).run? actions = some ((Calls.start 1 3).run? actions |>.get (by decide)) := by
    exact (Option.some_get _).symm
  have hsub : [(1, Mark.asked), (2, .asked)].Sublist ((Calls.start 1 3).log actions) := by decide
  have heq : (Calls.start 1 3).log actions = log ++ [(2, .given)] := by decide
  exact ⟨by decide, hsub, heq, (served_in_order hr).1 1 2 log [] hsub heq⟩

end SealedDownload.Admission
