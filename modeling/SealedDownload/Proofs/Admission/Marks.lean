import SealedDownload.Proofs.Admission.Steps

/-! The history of a run. Every step leaves marks of the calls it concerns; the marks of one call are its
    story. `Tells` says which stories a call can have at each stage: it is given a slot at most once, and
    gives it back exactly once. -/

namespace SealedDownload.Admission

/-- What happens to a call, as the others see it. -/
inductive Mark where
  /-- it asks for a slot -/
  | asked
  /-- it is given up while it is in the line, or while it does not know of its slot -/
  | abandoned
  /-- it gets a slot -/
  | given
  /-- it gives its slot back, or hands it on -/
  | returned
deriving DecidableEq

/-- The marks that an action leaves of the call that takes it, a slot that it gets apart. -/
def Stage.marks : Stage → Action → List Mark
  | .asking, .arrive => [.asked]
  | .waiting _, .notice => [.abandoned]
  | .waiting _, .drop => [.abandoned]
  | .returning .., .handOn => [.returned]
  | .yielding, .yield => [.returned]
  | .holding, .release _ => [.returned]
  | _, _ => []

/-- Whether the ticket of a call has been given a slot that the call does not know of. -/
def Stage.hasGrant (a : Admission) (s : Stage) : Bool := s.ticket?.any a.isGranted

/-- Whether a call has a slot. -/
def Stage.hasSlot (a : Admission) (s : Stage) : Bool := s.hasPermit || s.hasGrant a

namespace Calls

/-- Whether the call of a number has a slot. -/
def hasSlot (c : Calls) (i : Nat) : Bool := (c.calls[i]?).any (·.stage.hasSlot c.admission)

/-- The calls that have a slot after a step and had none before it. -/
def gains (c d : Calls) : List Nat := (List.range c.calls.length).filter fun i => !c.hasSlot i && d.hasSlot i

/-- The marks of a step. -/
def marks (c : Calls) (i : Nat) (action : Action) (d : Calls) : List (Nat × Mark) :=
  (((c.calls[i]?).map (·.stage.marks action)).getD []).map (i, ·) ++ (c.gains d).map (·, .given)

/-- The marks of a run. -/
def log (c : Calls) : List (Nat × Action) → List (Nat × Mark)
  | [] => []
  | (i, action) :: rest =>
    match c.step? i action with
    | some d => c.marks i action d ++ d.log rest
    | none => []

end Calls

/-- The marks of one call. -/
def story (i : Nat) (log : List (Nat × Mark)) : List Mark := (log.filter (·.1 = i)).map (·.2)

/-- Which stories a call can have at a stage. -/
def Tells (a : Admission) : Stage → List Mark → Prop
  | .fresh, story => story = []
  | .asking, story => story = []
  | .waiting t, story => (t ∈ a.waiters ∧ story = [.asked]) ∨ (t ∈ a.granted ∧ story = [.asked, .given])
  | .leaving t _, story =>
    (t ∈ a.waiters ∧ story = [.asked, .abandoned]) ∨
      (t ∈ a.granted ∧ story ∈ [[.asked, .given, .abandoned], [.asked, .abandoned, .given]])
  | .returning t _, story =>
    t ∈ a.granted ∧ story ∈ [[.asked, .given, .abandoned], [.asked, .abandoned, .given]]
  | .claimed, story => story = [.asked, .given]
  | .yielding, story => story = [.asked, .given]
  | .holding, story => story = [.asked, .given]
  | .ended _, story =>
    story ∈ [[], [.asked, .abandoned], [.asked, .given, .returned], [.asked, .given, .abandoned, .returned],
      [.asked, .abandoned, .given, .returned]]

/-! ### Stories -/

section Story

variable {i j : Nat} {log log' : List (Nat × Mark)}

theorem story_append : story i (log ++ log') = story i log ++ story i log' := by
  simp only [story, List.filter_append, List.map_append]

theorem count_story (m : Mark) : (story i log).count m = log.count (i, m) := by
  induction log with
  | nil => rfl
  | cons entry rest ih =>
    obtain ⟨j, n⟩ := entry
    by_cases hj : j = i
    · subst hj
      have hs : story j ((j, n) :: rest) = n :: story j rest := by simp [story]
      rw [hs, List.count_cons, List.count_cons, ih]
      by_cases hn : n = m <;> simp [hn]
    · have hs : story i ((j, n) :: rest) = story i rest := by simp [story, hj]
      rw [hs, List.count_cons, ih]
      simp [hj]

theorem mem_story {m : Mark} : m ∈ story i log ↔ (i, m) ∈ log := by
  rw [← List.count_pos_iff, ← List.count_pos_iff, count_story]

theorem story_own (marks : List Mark) : story i (marks.map (i, ·)) = marks := by
  induction marks with
  | nil => rfl
  | cons m rest ih => simpa [story] using ih

theorem story_other (marks : List Mark) (h : j ≠ i) : story i (marks.map (j, ·)) = [] := by
  induction marks with
  | nil => rfl
  | cons m rest ih => simp [story, h]

theorem story_gains {gains : List Nat} (hn : gains.Nodup) :
    story i (gains.map (·, .given)) = if i ∈ gains then [.given] else [] := by
  induction gains with
  | nil => rfl
  | cons j rest ih =>
    obtain ⟨hj, hn⟩ := List.nodup_cons.mp hn
    replace ih := ih hn
    by_cases hij : j = i
    · subst hij
      rw [if_neg hj] at ih
      simpa [story] using ih
    · have hs : story i ((j :: rest).map (·, .given)) = story i (rest.map (·, .given)) := by simp [story, hij]
      rw [hs, ih]
      simp [Ne.symm hij]

end Story

/-! ### What a step adds to a story -/

/-- The mark of a slot that is there after a step and was not there before it. -/
def given (before after : Bool) : List Mark := if !before && after then [.given] else []

@[simp] theorem given_self (b : Bool) : given b b = [] := by cases b <;> rfl
@[simp] theorem given_of_before (b : Bool) : given true b = [] := rfl
@[simp] theorem given_new : given false true = [.given] := rfl
@[simp] theorem given_of_not_after (b : Bool) : given b false = [] := by cases b <;> rfl

section Step

variable {a a' : Admission} {call : Call} {action : Action} {stage : Stage} {permits : Nat} {tickets : List Nat}

theorem hasSlot_of_ticket {s : Stage} {t : Nat} (hs : s.ticket? = some t) :
    s.hasSlot a = decide (t ∈ a.granted) := by
  have hp : s.hasPermit = false := by cases s <;> first | rfl | cases hs
  rw [Stage.hasSlot, hp, Bool.false_or, Stage.hasGrant, hs, Option.any_some, isGranted, List.contains_eq_mem]

theorem hasSlot_of_no_ticket {s : Stage} (hs : s.ticket? = none) : s.hasSlot a = s.hasPermit := by
  rw [Stage.hasSlot, Stage.hasGrant, hs, Option.any_none, Bool.or_false]

theorem hasSlot_of_permit {s : Stage} (hs : s.hasPermit = true) : s.hasSlot a = true := by
  rw [Stage.hasSlot, hs, Bool.true_or]

/-- The call that acts. -/
theorem Step.tells (hs : Step a call action stage a')
    (h : Balanced a (permits + call.stage.permits) (call.stage.ticket?.toList ++ tickets)) {story : List Mark}
    (ht : Tells a call.stage story) :
    Tells a' stage (story ++ (call.stage.marks action ++ given (call.stage.hasSlot a) (stage.hasSlot a'))) := by
  cases hs with
  | cancel =>
    have hm : call.stage.marks .cancel = [] := by cases call.stage <;> rfl
    rw [hm, given_self, List.append_nil, List.append_nil]
    exact ht
  | refuse hs | begin hs | forget hs =>
    rw [hs] at ht ⊢
    obtain rfl : story = [] := ht
    rw [hasSlot_of_no_ticket rfl, hasSlot_of_no_ticket rfl]
    simp [Tells, Stage.marks, Stage.hasPermit]
  | enter hs =>
    rw [hs] at ht ⊢
    obtain rfl : story = [] := ht
    rfl
  | queue hs =>
    rw [hs] at ht ⊢
    obtain rfl : story = [] := ht
    have hnew : a.nextTicket ∉ a.granted := fun hg => Nat.lt_irrefl _ (h.lt_of_granted hg)
    have hnone : (Stage.waiting a.nextTicket).hasSlot
        { a with waiters := a.waiters ++ [a.nextTicket], nextTicket := a.nextTicket + 1 } = false := by
      rw [hasSlot_of_ticket rfl, decide_eq_false hnew]
    rw [hnone, given_of_not_after]
    exact Or.inl ⟨by simp, rfl⟩
  | claim hs hg =>
    rw [hs] at ht ⊢
    rw [hasSlot_of_ticket rfl, decide_eq_true hg, given_of_before, List.append_nil]
    rcases ht with ⟨hw, -⟩ | ⟨-, rfl⟩
    · exact absurd hg (h.not_granted hw)
    · rfl
  | starve hs hg hw =>
    rw [hs] at ht
    rcases ht with ⟨hw', -⟩ | ⟨hg', -⟩
    · exact absurd hw' hw
    · exact absurd hg' hg
  | notice hs | drop hs =>
    rw [hs] at ht ⊢
    rw [hasSlot_of_ticket rfl, hasSlot_of_ticket rfl, given_self]
    rcases ht with ⟨hw, rfl⟩ | ⟨hg, rfl⟩
    · exact Or.inl ⟨hw, rfl⟩
    · exact Or.inr ⟨hg, by simp [Stage.marks]⟩
  | withdraw hs hw =>
    rw [hs] at ht ⊢
    rcases ht with ⟨-, rfl⟩ | ⟨hg, -⟩
    · rw [hasSlot_of_ticket rfl, hasSlot_of_no_ticket rfl, decide_eq_false (h.not_granted hw)]
      simp [Tells, Stage.marks, Stage.hasPermit]
    · exact absurd hg (h.not_granted hw)
  | miss hs hw =>
    rw [hs] at ht ⊢
    rw [hasSlot_of_ticket rfl, hasSlot_of_ticket rfl, given_self]
    rcases ht with ⟨hw', -⟩ | ⟨hg, hst⟩
    · exact absurd hw' hw
    · rw [show Stage.marks _ _ = [] from rfl, List.append_nil, List.append_nil]
      exact ⟨hg, hst⟩
  | handOn hs =>
    rw [hs] at ht ⊢
    obtain ⟨hg, hst⟩ := ht
    rw [hasSlot_of_ticket rfl, decide_eq_true hg, given_of_before, List.append_nil]
    rcases List.mem_pair.mp hst with rfl | rfl <;> simp [Tells, Stage.marks]
  | doubt hs | confirm hs =>
    rw [hs] at ht ⊢
    obtain rfl : story = [.asked, .given] := ht
    rfl
  | yield hs | release hs =>
    rw [hs] at ht ⊢
    obtain rfl : story = [.asked, .given] := ht
    rw [hasSlot_of_permit rfl, given_of_before]
    simp [Tells, Stage.marks]

/-- A call that does not act. -/
theorem Passes.tells {s : Stage} (hp : ∀ u, s.ticket? = some u → Passes a a' u)
    (hd : ∀ u ∈ a.waiters, u ∉ a.granted) (hd' : ∀ u ∈ a'.waiters, u ∉ a'.granted) {story : List Mark}
    (ht : Tells a s story) : Tells a' s (story ++ given (s.hasSlot a) (s.hasSlot a')) := by
  -- A ticket in the line stays there without a slot, or is given one.
  have waits : ∀ u, s.ticket? = some u → u ∈ a.waiters →
      (u ∈ a'.waiters ∧ given (s.hasSlot a) (s.hasSlot a') = []) ∨
        (u ∈ a'.granted ∧ given (s.hasSlot a) (s.hasSlot a') = [.given]) := fun u hu hw => by
    rw [hasSlot_of_ticket hu, hasSlot_of_ticket hu, decide_eq_false (hd u hw)]
    rcases (hp u hu).waits hw with hw' | hg'
    · exact Or.inl ⟨hw', by rw [decide_eq_false (hd' u hw'), given_self]⟩
    · exact Or.inr ⟨hg', by rw [decide_eq_true hg', given_new]⟩
  have keeps : ∀ u, s.ticket? = some u → u ∈ a.granted →
      u ∈ a'.granted ∧ given (s.hasSlot a) (s.hasSlot a') = [] := fun u hu hg => by
    rw [hasSlot_of_ticket hu, decide_eq_true hg]
    exact ⟨(hp u hu).keeps hg, given_of_before _⟩
  cases s with
  | waiting t =>
    rcases ht with ⟨hw, rfl⟩ | ⟨hg, rfl⟩
    · rcases waits t rfl hw with ⟨hw', hn⟩ | ⟨hg', hn⟩ <;> rw [hn]
      · exact Or.inl ⟨hw', rfl⟩
      · exact Or.inr ⟨hg', rfl⟩
    · obtain ⟨hg', hn⟩ := keeps t rfl hg
      rw [hn]
      exact Or.inr ⟨hg', rfl⟩
  | leaving t r =>
    rcases ht with ⟨hw, rfl⟩ | ⟨hg, hst⟩
    · rcases waits t rfl hw with ⟨hw', hn⟩ | ⟨hg', hn⟩ <;> rw [hn]
      · exact Or.inl ⟨hw', rfl⟩
      · exact Or.inr ⟨hg', by simp⟩
    · obtain ⟨hg', hn⟩ := keeps t rfl hg
      rw [hn, List.append_nil]
      exact Or.inr ⟨hg', hst⟩
  | returning t r =>
    obtain ⟨hg, hst⟩ := ht
    obtain ⟨hg', hn⟩ := keeps t rfl hg
    rw [hn, List.append_nil]
    exact ⟨hg', hst⟩
  | fresh | asking | claimed | yielding | holding | ended =>
    rw [hasSlot_of_no_ticket rfl, hasSlot_of_no_ticket rfl, given_self, List.append_nil]
    exact ht

end Step

/-! ### What all stories have in common -/

/-- All stories that a call can have. -/
def stories : List (List Mark) :=
  [[], [.asked], [.asked, .given], [.asked, .abandoned], [.asked, .given, .abandoned], [.asked, .abandoned, .given],
    [.asked, .given, .returned], [.asked, .given, .abandoned, .returned], [.asked, .abandoned, .given, .returned]]

theorem settled_of_mem_stories : ∀ story ∈ stories, .asked ∈ story →
    .given ∈ story ∨ .abandoned ∈ story ∨ story = [.asked] := by
  decide

theorem count_of_mem_stories : ∀ story ∈ stories, story.count .asked ≤ 1 ∧ story.count .given ≤ 1 := by
  decide

namespace Tells

variable {a : Admission} {s : Stage} {story : List Mark}

theorem mem_stories (ht : Tells a s story) : story ∈ stories := by
  cases s with
  | fresh | asking | claimed | yielding | holding =>
    rw [show story = _ from ht]
    decide
  | waiting t => rcases ht with ⟨-, rfl⟩ | ⟨-, rfl⟩ <;> decide
  | leaving t r =>
    rcases ht with ⟨-, rfl⟩ | ⟨-, hst⟩
    · decide
    · rcases List.mem_pair.mp hst with rfl | rfl <;> decide
  | returning t r => rcases List.mem_pair.mp ht.2 with rfl | rfl <;> decide
  | ended e =>
    have hsub : ∀ story ∈ [[], [.asked, .abandoned], [.asked, .given, .returned],
        [.asked, .given, .abandoned, .returned], [.asked, .abandoned, .given, .returned]], story ∈ stories := by
      decide
    exact hsub story ht

/-- A call whose story is only that it asked is in the line. -/
theorem waits (ht : Tells a s [.asked]) : ∃ t ∈ a.waiters, s.ticket? = some t := by
  cases s with
  | waiting t =>
    rcases ht with ⟨hw, -⟩ | ⟨-, hst⟩
    · exact ⟨t, hw, rfl⟩
    · cases hst
  | _ => simp [Tells] at ht

/-- A call that has asked has got a slot, or has been given up, or is in the line. -/
theorem settled (ht : Tells a s story) (hm : .asked ∈ story) :
    .given ∈ story ∨ .abandoned ∈ story ∨ ∃ t ∈ a.waiters, s.ticket? = some t := by
  rcases settled_of_mem_stories story ht.mem_stories hm with hg | ha | rfl
  · exact Or.inl hg
  · exact Or.inr (Or.inl ha)
  · exact Or.inr (Or.inr ht.waits)

/-- A call with a ticket has asked. -/
theorem asked (ht : Tells a s story) {t : Nat} (hs : s.ticket? = some t) : .asked ∈ story := by
  cases s with
  | waiting t => rcases ht with ⟨-, rfl⟩ | ⟨-, rfl⟩ <;> decide
  | leaving t r =>
    rcases ht with ⟨-, rfl⟩ | ⟨-, hst⟩
    · decide
    · rcases List.mem_pair.mp hst with rfl | rfl <;> decide
  | returning t r => rcases List.mem_pair.mp ht.2 with rfl | rfl <;> decide
  | _ => cases hs

/-- In every story a call has got as many slots as it has given back, and one more while it has one. -/
theorem count_given (hd : ∀ u ∈ a.waiters, u ∉ a.granted) (ht : Tells a s story) :
    story.count .given = story.count .returned + if s.hasSlot a then 1 else 0 := by
  cases s with
  | fresh | asking =>
    obtain rfl : story = [] := ht
    rw [hasSlot_of_no_ticket rfl]
    rfl
  | claimed | yielding | holding =>
    obtain rfl : story = [.asked, .given] := ht
    rw [hasSlot_of_permit rfl]
    rfl
  | waiting t =>
    rw [hasSlot_of_ticket rfl]
    rcases ht with ⟨hw, rfl⟩ | ⟨hg, rfl⟩
    · simp [hd t hw]
    · simp [hg]
  | leaving t r =>
    rw [hasSlot_of_ticket rfl]
    rcases ht with ⟨hw, rfl⟩ | ⟨hg, hst⟩
    · simp [hd t hw]
    · rcases List.mem_pair.mp hst with rfl | rfl <;> simp [hg]
  | returning t r =>
    obtain ⟨hg, hst⟩ := ht
    rw [hasSlot_of_ticket rfl]
    rcases List.mem_pair.mp hst with rfl | rfl <;> simp [hg]
  | ended e =>
    rw [hasSlot_of_no_ticket rfl]
    simp only [Tells, List.mem_cons, List.not_mem_nil, or_false] at ht
    rcases ht with rfl | rfl | rfl | rfl | rfl <;> rfl

end Tells

/-! ### The story of a run -/

/-- The log tells of every call a story that it can have at its stage, and of nobody else. -/
structure Told (c : Calls) (log : List (Nat × Mark)) : Prop where
  sound : Sound c
  tells : ∀ i call, c.calls[i]? = some call → Tells c.admission call.stage (story i log)
  silent : ∀ i, c.calls[i]? = none → story i log = []

namespace Calls

variable {c d : Calls} {i j : Nat} {action : Action} {call other : Call}

theorem mem_gains : j ∈ c.gains d ↔ j < c.calls.length ∧ c.hasSlot j = false ∧ d.hasSlot j = true := by
  simp [gains]

theorem nodup_gains : (c.gains d).Nodup := List.nodup_range.filter _

theorem hasSlot_eq (hj : c.calls[j]? = some call) : c.hasSlot j = call.stage.hasSlot c.admission := by
  rw [hasSlot, hj, Option.any_some]

/-- What a step adds to the story of a call. -/
theorem story_marks (hj : c.calls[j]? = some call) (hj' : d.calls[j]? = some other) :
    story j (c.marks i action d) = (if j = i then call.stage.marks action else []) ++
      given (call.stage.hasSlot c.admission) (other.stage.hasSlot d.admission) := by
  rw [marks, story_append, story_gains nodup_gains]
  congr 1
  · by_cases hij : j = i
    · subst hij
      rw [hj, if_pos rfl]
      exact story_own _
    · rw [if_neg hij]
      exact story_other _ (Ne.symm hij)
  · have hlt : j < c.calls.length := (List.getElem?_eq_some_iff.mp hj).1
    simp only [mem_gains, hasSlot_eq hj, hasSlot_eq hj', hlt, true_and]
    cases call.stage.hasSlot c.admission <;> cases other.stage.hasSlot d.admission <;> rfl

theorem story_marks_of_none (hi : i < c.calls.length) (hj : c.calls[j]? = none) :
    story j (c.marks i action d) = [] := by
  have hle : c.calls.length ≤ j := List.getElem?_eq_none_iff.mp hj
  have hn : j ∉ c.gains d := fun h => by
    have := (mem_gains.mp h).1
    omega
  rw [marks, story_append, story_gains nodup_gains, if_neg hn, story_other _ (by omega)]
  rfl

end Calls

namespace Told

variable {c d : Calls} {log : List (Nat × Mark)} {i : Nat} {action : Action}

theorem start (capacity count : Nat) : Told (.start capacity count) [] where
  sound := .start capacity count
  tells i call hcall := by
    rw [List.eq_of_mem_replicate (List.mem_of_getElem? hcall)]
    rfl
  silent _ _ := rfl

theorem step (h : Told c log) (hs : c.step? i action = some d) : Told d (log ++ c.marks i action d) := by
  have hd := h.sound.step hs
  obtain ⟨call, call', a', hcall, hstep, rfl⟩ := Calls.step_of_step? hs
  have hi : i < c.calls.length := (List.getElem?_eq_some_iff.mp hcall).1
  obtain ⟨others, hp, -⟩ := exists_others hcall
  have hbal := h.sound.balanced_with hp
  refine ⟨hd, fun j other hj' => ?_, fun j hj' => ?_⟩
  · rw [story_append]
    by_cases hij : j = i
    · subst hij
      obtain rfl : call' = other := by simpa [hi] using hj'
      rw [Calls.story_marks hcall hj', if_pos rfl]
      exact hstep.tells hbal (h.tells j call hcall)
    · have hj : c.calls[j]? = some other := by simpa [Ne.symm hij] using hj'
      rw [Calls.story_marks hj hj', if_neg hij, List.nil_append]
      have hp : ∀ u, other.stage.ticket? = some u → Passes c.admission a' u := fun u hu =>
        hstep.passes fun hu' => hij (h.sound.ticket_inj hj hcall hu hu')
      exact Passes.tells hp (fun u => h.sound.balanced.not_granted) (fun u => hd.balanced.not_granted)
        (h.tells j other hj)
  · have hj : c.calls[j]? = none := by simpa using hj'
    rw [story_append, h.silent j hj, Calls.story_marks_of_none hi hj, List.append_nil]

theorem run (h : Told c log) {actions : List (Nat × Action)} (hr : c.run? actions = some d) :
    Told d (log ++ c.log actions) := by
  induction actions generalizing c log with
  | nil =>
    cases hr
    rwa [Calls.log, List.append_nil]
  | cons entry rest ih =>
    obtain ⟨i, action⟩ := entry
    obtain ⟨e, he, hr⟩ := Option.bind_eq_some_iff.mp hr
    rw [Calls.log, he, ← List.append_assoc]
    exact ih (h.step he) hr

end Told
end SealedDownload.Admission
