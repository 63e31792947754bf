import SealedDownload.Proofs.Pipeline.Marks

/-! The works are done one at a time, in the order in which the jobs were handed in, each at most once and
    exactly those whose tokens were uncancelled; and every call comes to the result that its story entitles it
    to, after a number of steps of the worker that is known (`due`). Nothing is lost as long as the worker is there,
    and what is lost with it stands behind all that it has taken up. -/

namespace SealedDownload.Pipeline

/-! ### Stories as words -/

/-- The stories that a call can have. -/
inductive IsStory : List Mark → Prop where
  | fresh : IsStory []
  | refused : IsStory [.looked true]
  | ready : IsStory [.looked false]
  | line : IsStory [.looked false, .queued]
  | skipped : IsStory [.looked false, .queued, .taken true]
  | chosen : IsStory [.looked false, .queued, .taken false]
  | begun : IsStory [.looked false, .queued, .taken false, .began]
  | over (outcome : Outcome) : IsStory [.looked false, .queued, .taken false, .began, .finished outcome]
  | turned : IsStory [.looked false, .turned]
  | lost : IsStory [.looked false, .queued, .lost]
  | missed (cancelled : Bool) : IsStory [.looked false, .queued, .taken cancelled, .missed cancelled]

theorem isStory_of_verdict? {told : List Mark} {result : Except Failure Product} (h : verdict? told = some result) :
    IsStory told := by
  unfold verdict? at h
  split at h
  · exact .refused
  · exact .skipped
  · exact .over _
  · exact .over _
  · exact .turned
  · exact .lost
  · exact .missed true
  · exact .missed false
  · cases h

theorem Place.Tells.isStory {place : Place} {rest : List Mark} (h : place.Tells rest) :
    IsStory (.looked false :: .queued :: rest) := by
  cases place with
  | line =>
    obtain rfl : rest = [] := h
    exact .line
  | gone =>
    obtain ⟨result, hr⟩ := Option.isSome_iff_exists.mp h
    exact isStory_of_verdict? hr
  | hand worker =>
    cases worker with
    | idle => exact h.elim
    | decided job start =>
      obtain rfl : rest = [.taken (!start)] := h
      cases start with
      | true => exact .chosen
      | false => exact .skipped
    | operating =>
      obtain rfl : rest = [.taken false, .began] := h
      exact .begun
    | operated =>
      obtain rfl : rest = [.taken false, .began, .finished _] := h
      exact .over _
    | announced | cleared => exact isStory_of_verdict? h

theorem Stage.Tells.isStory {stage : Stage} {place : Place} {reply : Option Reply} {told : List Mark}
    (h : stage.Tells place reply told) : IsStory told := by
  cases stage with
  | fresh =>
    obtain ⟨-, -, rfl⟩ := h
    exact .fresh
  | ready =>
    obtain ⟨-, -, rfl⟩ := h
    exact .ready
  | refused =>
    obtain ⟨-, -, rfl⟩ := h
    exact .refused
  | waiting =>
    obtain ⟨rest, rfl, hr, -⟩ := h
    exact hr.isStory
  | ended => exact isStory_of_verdict? h.2.2
  | abandoned =>
    obtain ⟨-, ⟨-, rfl | rfl⟩ | ⟨rest, rfl, hr⟩⟩ := h
    · exact .fresh
    · exact .refused
    · exact hr.isStory

/-! ### The order of the marks -/

namespace Mark

@[simp] def isQueued : Mark → Bool
  | .queued => true
  | _ => false

@[simp] def isTaken : Mark → Bool
  | .taken _ => true
  | _ => false

/-- Whether a job is taken up to be worked on. -/
@[simp] def isChosen : Mark → Bool
  | .taken cancelled => !cancelled
  | _ => false

@[simp] def isBegan : Mark → Bool
  | .began => true
  | _ => false

@[simp] def isFinished : Mark → Bool
  | .finished _ => true
  | _ => false

@[simp] def isLost : Mark → Bool
  | .lost => true
  | _ => false

/-- Whether a job is lost that was taken up to be worked on. -/
@[simp] def isMissed : Mark → Bool
  | .missed cancelled => !cancelled
  | _ => false

/-- Whether something has happened for want of a worker. -/
@[simp] def isLoss : Mark → Bool
  | .turned => true
  | .lost => true
  | .missed _ => true
  | _ => false

end Mark

/-- The calls with marks of a kind, in the order of the marks. -/
def callsWith (kind : Mark → Bool) (log : List (Nat × Mark)) : List Nat :=
  log.filterMap fun (i, mark) => if kind mark then some i else none

theorem callsWith_append (kind : Mark → Bool) (log later : List (Nat × Mark)) :
    callsWith kind (log ++ later) = callsWith kind log ++ callsWith kind later :=
  List.filterMap_append

theorem callsWith_nil (kind : Mark → Bool) : callsWith kind [] = [] := rfl

theorem callsWith_singleton (kind : Mark → Bool) (i : Nat) (mark : Mark) :
    callsWith kind [(i, mark)] = if kind mark then [i] else [] := by
  cases hk : kind mark <;> simp [callsWith, hk]

theorem callsWith_sublist {kind kind' : Mark → Bool} (h : ∀ mark, kind mark = true → kind' mark = true)
    (log : List (Nat × Mark)) : (callsWith kind log).Sublist (callsWith kind' log) := by
  induction log with
  | nil => exact List.Sublist.slnil
  | cons entry rest ih =>
    obtain ⟨i, mark⟩ := entry
    unfold callsWith at ih ⊢
    rw [List.filterMap_cons, List.filterMap_cons]
    cases hk : kind mark with
    | true => simpa [hk, h mark hk] using ih
    | false =>
      cases hk' : kind' mark with
      | true => simpa [hk, hk'] using ih.cons i
      | false => simpa [hk, hk'] using ih

theorem count_callsWith (kind : Mark → Bool) (log : List (Nat × Mark)) (i : Nat) :
    (callsWith kind log).count i = (story i log).countP kind := by
  induction log with
  | nil => rfl
  | cons entry rest ih =>
    obtain ⟨j, mark⟩ := entry
    unfold callsWith story at ih ⊢
    rw [List.filterMap_cons, List.filterMap_cons]
    by_cases hj : j = i <;> cases hk : kind mark <;> simp [hj, hk, ih]

/-- The call whose work the worker is about to begin. -/
def chosen? (p : Pipeline) : Option Nat := p.starting?.map (·.call)

/-- The call whose work is being done. -/
def executing? (p : Pipeline) : Option Nat :=
  match p.worker with
  | .operating job => some job.call
  | _ => none

namespace Calls

variable {c d : Calls} {log more : List (Nat × Mark)} {action : Action}

/-- How the marks of different calls follow each other. -/
structure Ordered (c : Calls) (log : List (Nat × Mark)) : Prop where
  queued : callsWith Mark.isQueued log =
    callsWith Mark.isTaken log ++ callsWith Mark.isLost log ++ c.pipeline.queue.map (·.call)
  chosen : callsWith Mark.isChosen log =
    callsWith Mark.isBegan log ++ callsWith Mark.isMissed log ++ c.pipeline.chosen?.toList
  began : callsWith Mark.isBegan log = callsWith Mark.isFinished log ++ c.pipeline.executing?.toList
  /-- nothing is lost as long as the worker is there -/
  there : c.gone = false → ∀ entry ∈ log, entry.2.isLoss = false
  /-- a job that is missed is the last one that the worker has taken up -/
  last : c.pipeline.worker ≠ .idle → callsWith Mark.isMissed log = []

theorem callsWith_eq_nil_of_isLoss {kind : Mark → Bool} (hk : ∀ mark, kind mark = true → mark.isLoss = true)
    (h : ∀ entry ∈ log, entry.2.isLoss = false) : callsWith kind log = [] := by
  refine List.filterMap_eq_nil_iff.mpr fun ⟨i, mark⟩ hi => if_neg fun hm => ?_
  have hl := h _ hi
  rw [hk mark hm] at hl
  cases hl

theorem Ordered.lost_eq_nil (h : c.Ordered log) (hg : c.gone = false) : callsWith Mark.isLost log = [] :=
  callsWith_eq_nil_of_isLoss (fun mark hm => by cases mark <;> first | rfl | cases hm) (h.there hg)

theorem Ordered.missed_eq_nil (h : c.Ordered log) (hg : c.gone = false) : callsWith Mark.isMissed log = [] :=
  callsWith_eq_nil_of_isLoss (fun mark hm => by cases mark <;> first | rfl | cases hm) (h.there hg)

theorem forall_append_of_isLoss (h : ∀ entry ∈ log, entry.2.isLoss = false)
    (hm : ∀ entry ∈ more, entry.2.isLoss = false) : ∀ entry ∈ log ++ more, entry.2.isLoss = false := fun entry he =>
  (List.mem_append.mp he).elim (h entry) (hm entry)

/-- Steps that leave line and worker alone, and marks that say nothing of them. -/
theorem Ordered.keep (h : c.Ordered log) (hq : d.pipeline.queue = c.pipeline.queue)
    (hw : d.pipeline.worker = c.pipeline.worker) (hg : d.gone = false → c.gone = false ∧ ∀ entry ∈ more, entry.2.isLoss = false)
    (hm : ∀ entry ∈ more, (∃ cancelled, entry.2 = .looked cancelled) ∨ entry.2 = .turned) : d.Ordered (log ++ more) := by
  have hn : ∀ kind : Mark → Bool, (∀ cancelled, kind (.looked cancelled) = false) → kind .turned = false →
      callsWith kind (log ++ more) = callsWith kind log := by
    intro kind hk ht
    have hnil : callsWith kind more = [] := by
      refine List.filterMap_eq_nil_iff.mpr fun ⟨i, mark⟩ hi => ?_
      rcases hm _ hi with ⟨cancelled, rfl⟩ | rfl <;> simp [hk, ht]
    rw [callsWith_append, hnil, List.append_nil]
  have hchosen : d.pipeline.chosen? = c.pipeline.chosen? := by rw [chosen?, chosen?, starting?, starting?, hw]
  have hexecuting : d.pipeline.executing? = c.pipeline.executing? := by rw [executing?, executing?, hw]
  refine ⟨?_, ?_, ?_, fun ho => forall_append_of_isLoss (h.there (hg ho).1) (hg ho).2, fun hi => ?_⟩
  · rw [hn _ (fun _ => rfl) rfl, hn _ (fun _ => rfl) rfl, hn _ (fun _ => rfl) rfl, hq, h.queued]
  · rw [hn _ (fun _ => rfl) rfl, hn _ (fun _ => rfl) rfl, hn _ (fun _ => rfl) rfl, hchosen, h.chosen]
  · rw [hn _ (fun _ => rfl) rfl, hn _ (fun _ => rfl) rfl, hexecuting, h.began]
  · rw [hn _ (fun _ => rfl) rfl]
    exact h.last (hw ▸ hi)

/-- A step of the worker, or one by which jobs are lost. -/
theorem Ordered.extend (h : c.Ordered log) (hg : d.gone = c.gone)
    (hq : callsWith Mark.isLost log ++ c.pipeline.queue.map (·.call) ++ callsWith Mark.isQueued more =
      callsWith Mark.isTaken more ++ callsWith Mark.isLost log ++ callsWith Mark.isLost more ++
        d.pipeline.queue.map (·.call))
    (hc : callsWith Mark.isMissed log ++ c.pipeline.chosen?.toList ++ callsWith Mark.isChosen more =
      callsWith Mark.isBegan more ++ callsWith Mark.isMissed log ++ callsWith Mark.isMissed more ++
        d.pipeline.chosen?.toList)
    (hb : c.pipeline.executing?.toList ++ callsWith Mark.isBegan more =
      callsWith Mark.isFinished more ++ d.pipeline.executing?.toList)
    (ht : c.gone = false → ∀ entry ∈ more, entry.2.isLoss = false)
    (hl : d.pipeline.worker ≠ .idle → callsWith Mark.isMissed (log ++ more) = []) : d.Ordered (log ++ more) := by
  refine ⟨?_, ?_, ?_, fun ho => forall_append_of_isLoss (h.there (hg ▸ ho)) (ht (hg ▸ ho)), hl⟩
  · simp only [callsWith_append, h.queued, List.append_assoc] at hq ⊢
    rw [hq]
  · simp only [callsWith_append, h.chosen, List.append_assoc] at hc ⊢
    rw [hc]
  · simp only [callsWith_append, h.began, List.append_assoc] at hb ⊢
    rw [hb]

theorem ordered_step_work {p : Pipeline} {s : Shared} (h : c.Ordered log) (hb : c.gone = true → c.pipeline.worker ≠ .idle)
    (hs : Pipeline.Step c.isCancelledAt c.pipeline c.shared p s) :
    { c with pipeline := p, shared := s }.Ordered (log ++ (c.mark? .work).toList) := by
  -- Something has been missed only if the worker has nothing to do any more.
  have hm : callsWith Mark.isMissed log = [] := by
    by_cases hi : c.pipeline.worker = .idle
    · exact h.missed_eq_nil (Bool.eq_false_iff.mpr fun hg => hb hg hi)
    · exact h.last hi
  cases hs with
  | @take job rest hw hq =>
    have hl := h.lost_eq_nil (Bool.eq_false_iff.mpr fun hg => hb hg hw)
    cases hc : c.isCancelledAt job.call <;> refine h.extend rfl ?_ ?_ ?_ ?_ ?_ <;>
      simp [callsWith_append, callsWith_singleton, chosen?, starting?, executing?, mark?, hw, hq, hc, hl, hm]
  | begin hw | skip hw | operate hw | announce hw | keep hw | clear hw =>
    refine h.extend rfl ?_ ?_ ?_ ?_ ?_ <;>
      simp [callsWith_append, callsWith_singleton, callsWith_nil, chosen?, starting?, executing?, mark?, hw, hm]
  | @crash job files hw =>
    obtain ⟨hq, hi⟩ := breakOff_eq { c.pipeline with worker := .idle } job.call
    refine h.extend rfl ?_ ?_ ?_ ?_ ?_ <;>
      simp [callsWith_append, callsWith_singleton, chosen?, starting?, executing?, mark?, hw, hq, hi, hm]
  | @reply job result hw =>
    obtain ⟨hq, hi, -⟩ := send_eq { c.pipeline with worker := .idle } c.shared job.call result
    refine h.extend rfl ?_ ?_ ?_ ?_ ?_ <;>
      simp [callsWith_nil, chosen?, starting?, executing?, mark?, hw, hq, hi, hm]

theorem ordered_step (h : c.Ordered log) (hs : Step c action d) : d.Ordered (log ++ (c.mark? action).toList) := by
  cases hs with
  | enter | cancel | clear | drop | flee | hangUp => exact h.keep rfl rfl (fun hg => ⟨hg, nofun⟩) nofun
  | collect hc hst hr =>
    obtain ⟨rfl, -⟩ := eq_of_collect? hr
    exact h.keep rfl rfl (fun hg => ⟨hg, nofun⟩) nofun
  | @look i x hc hst =>
    have hmark : (c.mark? (.begin i)).toList = [(i, .looked (c.isCancelled x))] := by simp [mark?, hc]
    rw [hmark]
    refine h.keep rfl rfl (fun hg => ⟨hg, fun entry he => ?_⟩) fun entry he => ?_ <;>
      obtain rfl := List.mem_singleton.mp he
    · rfl
    · exact Or.inl ⟨_, rfl⟩
  | @push i x hc hst hg =>
    have hmark : (c.mark? (.push i)).toList = [(i, .queued)] := by simp [mark?, hg]
    rw [hmark]
    refine h.extend rfl ?_ ?_ ?_ ?_ ?_ <;>
      simp [move, Call.job, callsWith_append, callsWith_singleton, chosen?, starting?, executing?, h.missed_eq_nil hg]
  | @turn i x hc hst hg =>
    have hmark : (c.mark? (.push i)).toList = [(i, .turned)] := by simp [mark?, hg]
    rw [hmark]
    refine h.keep rfl rfl (fun hn => ?_) fun entry he => Or.inr ?_
    · cases hg.symm.trans hn
    · obtain rfl := List.mem_singleton.mp he
      rfl
  | work hb hs => exact ordered_step_work h hb hs
  | close => exact h.keep rfl rfl (fun hg => by cases hg) fun _ hm => by cases hm
  | @lose job rest hg hq =>
    have hmark : (c.mark? .lose).toList = [(job.call, .lost)] := by simp [mark?, hq]
    obtain ⟨hq', hw'⟩ := breakOff_eq { c.pipeline with queue := rest } job.call
    rw [hmark]
    refine h.extend rfl ?_ ?_ ?_ (fun hn => ?_) (fun hi => ?_)
    · simp [callsWith_singleton, hq, hq']
    · simp [callsWith_singleton, chosen?, starting?, hw']
    · simp [callsWith_singleton, executing?, hw']
    · cases hg.symm.trans hn
    · rw [callsWith_append, h.last (hw' ▸ hi)]
      rfl
  | @miss job start hg hw =>
    have hmark : (c.mark? .miss).toList = [(job.call, .missed (!start))] := by simp [mark?, hw]
    obtain ⟨hq, hi⟩ := breakOff_eq { c.pipeline with worker := .idle } job.call
    have hm := h.last (by rw [hw]; exact fun hi => by cases hi)
    rw [hmark]
    refine h.extend rfl ?_ ?_ ?_ (fun hn => ?_) (fun hne => absurd hi hne)
    · simp [callsWith_singleton, hq]
    · cases start <;> simp [callsWith_singleton, chosen?, starting?, hw, hi, hm]
    · simp [callsWith_singleton, executing?, hw, hi]
    · cases hg.symm.trans hn

theorem ordered_start (shared : Shared) : (start shared).Ordered [] := ⟨rfl, rfl, rfl, nofun, fun _ => rfl⟩

theorem ordered_run {actions : List Action} (h : c.Ordered log) (hr : c.run? actions = some d) :
    d.Ordered (log ++ c.log actions) := by
  induction actions generalizing c log with
  | nil =>
    cases hr
    simpa [Calls.log] using h
  | cons action rest ih =>
    obtain ⟨e, he, hr⟩ := Option.bind_eq_some_iff.mp hr
    have hd := ih (ordered_step h (step_of_step? he)) hr
    rwa [log_cons he, ← List.append_assoc]

end Calls

end SealedDownload.Pipeline
