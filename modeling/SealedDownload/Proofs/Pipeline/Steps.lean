import SealedDownload.Pipeline.Calls

/-! The steps of the worker, one by one, and those of the calls. `Step` lists all that the worker can do, with the
    conditions, and `Calls.Step` all that an action can make of calls, those included by which the worker goes and
    jobs are lost with it; what a reply or the lack of one changes is the list of replies alone. -/

namespace SealedDownload

/-- The job that the worker has. -/
def Worker.job? : Worker → Option Job
  | .idle => none
  | .decided job _ => some job
  | .operating job => some job
  | .operated job _ => some job
  | .announced job _ => some job
  | .cleared job _ => some job

theorem Worker.isIdle_iff {w : Worker} : w.isIdle = true ↔ w = .idle := by
  cases w <;> simp [isIdle]

/-- The download whose opening an event announces. -/
def Event.startedId? : Event → Option TransferId
  | .decryptionStarted id => some id
  | _ => none

namespace Pipeline

variable {isCancelled : Nat → Bool} {p p' : Pipeline} {s s' : Shared}

/-! ### Replies -/

@[simp] theorem hangUp_queue (p : Pipeline) (call : Nat) : (p.hangUp call).queue = p.queue := rfl
@[simp] theorem hangUp_worker (p : Pipeline) (call : Nat) : (p.hangUp call).worker = p.worker := rfl
@[simp] theorem setReply_queue (p : Pipeline) (call : Nat) (reply : Reply) :
    (p.setReply call reply).queue = p.queue := rfl
@[simp] theorem setReply_worker (p : Pipeline) (call : Nat) (reply : Reply) :
    (p.setReply call reply).worker = p.worker := rfl
@[simp] theorem push_queue (p : Pipeline) (job : Job) : (p.push job).queue = p.queue ++ [job] := rfl
@[simp] theorem push_worker (p : Pipeline) (job : Job) : (p.push job).worker = p.worker := rfl

theorem reply?_hangUp (p : Pipeline) (call : Nat) : (p.hangUp call).reply? call = none :=
  Files.lookup_filter_self p.replies call

theorem reply?_hangUp_of_ne {call other : Nat} (h : other ≠ call) : (p.hangUp call).reply? other = p.reply? other :=
  Files.lookup_filter_of_ne h

theorem reply?_setReply (p : Pipeline) (call : Nat) (reply : Reply) :
    (p.setReply call reply).reply? call = some reply :=
  List.lookup_cons_self

theorem reply?_setReply_of_ne {call other : Nat} (reply : Reply) (h : other ≠ call) :
    (p.setReply call reply).reply? other = p.reply? other := by
  have ho : (other == call) = false := beq_false_of_ne h
  rw [reply?, setReply, List.lookup_cons, ho]
  exact Files.lookup_filter_of_ne h

theorem breakOff_eq (p : Pipeline) (call : Nat) :
    (p.breakOff call).queue = p.queue ∧ (p.breakOff call).worker = p.worker := by
  unfold breakOff
  split <;> exact ⟨rfl, rfl⟩

theorem send_eq (p : Pipeline) (s : Shared) (call : Nat) (result : Except Failure Product) :
    (p.send s call result).1.queue = p.queue ∧ (p.send s call result).1.worker = p.worker ∧
      (p.send s call result).2.events = s.events := by
  unfold send
  split
  · exact ⟨rfl, rfl, rfl⟩
  · split <;> exact ⟨rfl, rfl, rfl⟩

theorem reply?_breakOff (p : Pipeline) (i j : Nat) :
    (p.breakOff i).reply? j = if j = i then (p.reply? j).map fun _ => .lost else p.reply? j := by
  unfold breakOff
  by_cases hj : j = i
  · subst hj
    rw [if_pos rfl]
    cases hr : p.reply? j with
    | none =>
      rw [if_neg (by simp)]
      exact hr
    | some reply =>
      rw [if_pos Option.isSome_some]
      exact reply?_setReply ..
  · rw [if_neg hj]
    split
    · exact reply?_setReply_of_ne _ hj
    · rfl

theorem reply?_send (p : Pipeline) (s : Shared) (i j : Nat) (result : Except Failure Product) :
    (p.send s i result).1.reply? j = if j = i then (p.reply? j).map fun _ => .arrived result else p.reply? j := by
  unfold send
  by_cases hj : j = i
  · subst hj
    rw [if_pos rfl]
    cases hr : p.reply? j with
    | none =>
      rw [if_neg (by simp)]
      split <;> exact hr
    | some reply =>
      rw [if_pos Option.isSome_some]
      exact reply?_setReply ..
  · rw [if_neg hj]
    split
    · exact reply?_setReply_of_ne _ hj
    · split <;> rfl

theorem eq_of_collect? {call : Nat} {result : Except Failure Product} (h : p.collect? call = some (result, p')) :
    p' = p.hangUp call ∧ (p.reply? call = some (.arrived result) ∨
      p.reply? call = some .lost ∧ result = .error .shuttingDown) := by
  unfold collect? at h
  split at h
  · rename_i hr
    cases h
    exact ⟨rfl, Or.inl hr⟩
  · rename_i hr
    cases h
    exact ⟨rfl, Or.inr ⟨hr, rfl⟩⟩
  · cases h

/-! ### The steps -/

/-- All that the worker can do. -/
inductive Step (isCancelled : Nat → Bool) (p : Pipeline) (s : Shared) : Pipeline → Shared → Prop where
  | take {job : Job} {rest : List Job} (hw : p.worker = .idle) (hq : p.queue = job :: rest) :
      Step isCancelled p s { p with queue := rest, worker := .decided job (!isCancelled job.call) } s
  | begin {job : Job} (hw : p.worker = .decided job true) :
      Step isCancelled p s { p with worker := .operating job } (s.announce (.decryptionStarted job.id))
  | skip {job : Job} (hw : p.worker = .decided job false) :
      Step isCancelled p s { p with worker := .announced job (.error .cancelled) } s
  | operate {job : Job} {result : Except Failure Product} {files : Files} (hw : p.worker = .operating job)
      (ho : job.work s.files job.ciphertext = (.returned result, files)) :
      Step isCancelled p s { p with worker := .operated job result } { s with files }
  | crash {job : Job} {files : Files} (hw : p.worker = .operating job)
      (ho : job.work s.files job.ciphertext = (.crashed, files)) :
      Step isCancelled p s ({ p with worker := .idle }.breakOff job.call) { s with files }
  | announce {job : Job} {result : Except Failure Product} (hw : p.worker = .operated job result) :
      Step isCancelled p s { p with worker := .announced job result } (s.announce (ending job.id result))
  | keep {job : Job} {product : Product} (hw : p.worker = .announced job (.ok product)) :
      Step isCancelled p s { p with worker := .cleared job (.ok product) } s
  | clear {job : Job} {failure : Failure} (hw : p.worker = .announced job (.error failure)) :
      Step isCancelled p s { p with worker := .cleared job (.error failure) } (s.erase job.ciphertext)
  | reply {job : Job} {result : Except Failure Product} (hw : p.worker = .cleared job result) :
      Step isCancelled p s ({ p with worker := .idle }.send s job.call result).1
        ({ p with worker := .idle }.send s job.call result).2

/-- The worker makes one of the listed steps, or has nothing to do. -/
theorem step_of_step? (h : p.step? isCancelled s = some (p', s')) : Step isCancelled p s p' s' := by
  unfold step? at h
  split at h
  · rename_i hw
    split at h
    · cases h
    · rename_i hq
      cases h
      exact .take hw hq
  · rename_i hw
    cases h
    exact .begin hw
  · rename_i hw
    cases h
    exact .skip hw
  · rename_i hw
    split at h
    rename_i ho
    split at h
    · cases h
      exact .operate hw ho
    · cases h
      exact .crash hw ho
  · rename_i hw
    cases h
    exact .announce hw
  · rename_i job result hw
    cases result with
    | ok product =>
      cases h
      exact .keep hw
    | error failure =>
      cases h
      exact .clear hw
  · rename_i hw
    have h := Option.some.inj h
    obtain rfl := congrArg Prod.fst h
    obtain rfl := congrArg Prod.snd h
    exact .reply hw

/-- The worker rests only when nothing is in line. -/
theorem step?_eq_none_iff : p.step? isCancelled s = none ↔ p.worker = .idle ∧ p.queue = [] := by
  constructor
  · intro h
    unfold step? at h
    split at h
    · rename_i hw
      split at h
      · rename_i hq
        exact ⟨hw, hq⟩
      · cases h
    · cases h
    · cases h
    · split at h
      split at h <;> cases h
    · cases h
    · cases h
    · cases h
  · rintro ⟨hw, hq⟩
    unfold step?
    rw [hw]
    simp only [hq]

theorem eq_of_lose? (h : p.lose? = some p') :
    ∃ job rest, p.queue = job :: rest ∧ p' = { p with queue := rest }.breakOff job.call := by
  unfold lose? at h
  split at h
  · cases h
  · rename_i hq
    cases h
    exact ⟨_, _, hq, rfl⟩

theorem eq_of_miss? (h : p.miss? = some p') :
    ∃ job start, p.worker = .decided job start ∧ p' = { p with worker := .idle }.breakOff job.call := by
  unfold miss? at h
  split at h
  · rename_i hw
    cases h
    exact ⟨_, _, hw, rfl⟩
  · cases h

/-! ### Jobs -/

/-- The jobs that are not over, in order. -/
def jobs (p : Pipeline) : List Job := p.worker.job?.toList ++ p.queue

/-- The job whose beginning the worker is about to announce. -/
def starting? (p : Pipeline) : Option Job :=
  match p.worker with
  | .decided job true => some job
  | _ => none

theorem mem_jobs_of_starting? {job : Job} (h : p.starting? = some job) : job ∈ p.jobs := by
  unfold starting? at h
  split at h
  · rename_i hw
    cases h
    simp [jobs, hw, Worker.job?]
  · cases h

/-- The worker makes no jobs. -/
theorem Step.mem_jobs (h : Step isCancelled p s p' s') {job : Job} (hm : job ∈ p'.jobs) : job ∈ p.jobs := by
  cases h with
  | take hw hq => simpa [jobs, hw, hq, Worker.job?] using hm
  | begin hw | skip hw | operate hw | announce hw | keep hw | clear hw => simpa [jobs, hw, Worker.job?] using hm
  | crash hw =>
    obtain ⟨hq, hi⟩ := breakOff_eq { p with worker := .idle } _
    rw [jobs, hq, hi] at hm
    exact List.mem_append_right _ hm
  | reply hw =>
    obtain ⟨hq, hi, -⟩ := send_eq { p with worker := .idle } s _ _
    rw [jobs, hq, hi] at hm
    exact List.mem_append_right _ hm

/-- The worker announces a beginning exactly where it is about to do the work of a job. -/
theorem Step.started (h : Step isCancelled p s p' s') : s'.events.sent.filterMap Event.startedId? =
    s.events.sent.filterMap Event.startedId? ++ p.starting?.toList.map (·.id) := by
  cases h with
  | take hw | skip hw | operate hw | keep hw | clear hw =>
    simp [starting?, hw, Shared.erase]
  | begin hw =>
    simp [starting?, hw, Shared.announce, Broadcast.send, Event.startedId?]
  | announce hw =>
    rename_i result
    cases result <;> simp [starting?, hw, Shared.announce, Broadcast.send, Event.startedId?, ending]
  | crash hw => simp [starting?, hw]
  | reply hw =>
    rw [(send_eq _ _ _ _).2.2]
    simp [starting?, hw]

/-! ### The steps of calls -/

namespace Calls

/-- All that an action can make of calls. -/
inductive Step (c : Calls) : Action → Calls → Prop where
  | enter {id : TransferId} {ciphertext : Path} {work : Work} {token : Option String} {content : Option Octets} :
      Step c (.enter id ciphertext work token content) (c.enter ⟨id, ciphertext, work, token, .fresh⟩ content)
  | cancel {token : String} : Step c (.cancel token) { c with cancelled := token :: c.cancelled }
  | look {i : Nat} {x : Call} (hc : c.calls[i]? = some x) (hs : x.stage = .fresh) :
      Step c (.begin i) (c.move i x (if c.isCancelled x then .refused true else .ready))
  | push {i : Nat} {x : Call} (hc : c.calls[i]? = some x) (hs : x.stage = .ready) (hg : c.gone = false) :
      Step c (.push i) ({ c with pipeline := c.pipeline.push (x.job i) }.move i x .waiting)
  | turn {i : Nat} {x : Call} (hc : c.calls[i]? = some x) (hs : x.stage = .ready) (hg : c.gone = true) :
      Step c (.push i) ({ c with shared := c.shared.erase x.ciphertext }.move i x (.ended (.error .shuttingDown)))
  | clear {i : Nat} {x : Call} {heard : Bool} (hc : c.calls[i]? = some x) (hs : x.stage = .refused heard) :
      Step c (.clear i) ({ c with shared := c.shared.erase x.ciphertext }.move i x
        (if heard then .ended (.error .cancelled) else .abandoned))
  | collect {i : Nat} {x : Call} {result : Except Failure Product} {p : Pipeline} (hc : c.calls[i]? = some x)
      (hs : x.stage = .waiting) (hr : c.pipeline.collect? i = some (result, p)) :
      Step c (.collect i) ({ c with pipeline := p }.move i x (.ended result))
  | drop {i : Nat} {x : Call} (hc : c.calls[i]? = some x) (hs : x.stage = .fresh) :
      Step c (.abandon i) (c.move i x .abandoned)
  | flee {i : Nat} {x : Call} (hc : c.calls[i]? = some x) (hs : x.stage = .refused true) :
      Step c (.abandon i) (c.move i x (.refused false))
  | hangUp {i : Nat} {x : Call} (hc : c.calls[i]? = some x) (hs : x.stage = .waiting) :
      Step c (.abandon i) ({ c with pipeline := c.pipeline.hangUp i }.move i x .abandoned)
  | work {p : Pipeline} {s : Shared} (hb : c.gone = true → c.pipeline.worker ≠ .idle)
      (h : Pipeline.Step c.isCancelledAt c.pipeline c.shared p s) : Step c .work { c with pipeline := p, shared := s }
  | close : Step c .close { c with gone := true }
  | lose {job : Job} {rest : List Job} (hg : c.gone = true) (hq : c.pipeline.queue = job :: rest) :
      Step c .lose { c with pipeline := { c.pipeline with queue := rest }.breakOff job.call }
  | miss {job : Job} {start : Bool} (hg : c.gone = true) (hw : c.pipeline.worker = .decided job start) :
      Step c .miss { c with pipeline := { c.pipeline with worker := .idle }.breakOff job.call }

variable {c d : Calls} {i : Nat} {action : Action}

/-- Every action makes one of the listed steps. -/
theorem step_of_step? (h : c.step? action = some d) : Step c action d := by
  cases action with
  | enter =>
    cases h
    exact .enter
  | cancel =>
    cases h
    exact .cancel
  | begin i =>
    obtain ⟨x, hc, h⟩ := Option.bind_eq_some_iff.mp h
    split at h
    · cases h
      exact .look hc ‹_›
    · cases h
  | push i =>
    obtain ⟨x, hc, h⟩ := Option.bind_eq_some_iff.mp h
    split at h
    · by_cases hg : c.gone = true
      · have hi : c.pipeline.handIn c.gone (x.job i) c.shared =
            (.error .shuttingDown, c.pipeline, c.shared.erase x.ciphertext) := if_pos hg
        rw [hi] at h
        cases h
        exact .turn hc ‹_› hg
      · have hi : c.pipeline.handIn c.gone (x.job i) c.shared = (.ok (), c.pipeline.push (x.job i), c.shared) :=
          if_neg hg
        rw [hi] at h
        cases h
        exact .push hc ‹_› (Bool.eq_false_iff.mpr hg)
    · cases h
  | clear i =>
    obtain ⟨x, hc, h⟩ := Option.bind_eq_some_iff.mp h
    split at h
    · cases h
      exact .clear hc ‹_›
    · cases h
  | collect i =>
    obtain ⟨x, hc, h⟩ := Option.bind_eq_some_iff.mp h
    split at h
    · split at h
      · cases h
        exact .collect hc ‹_› ‹_›
      · cases h
    · cases h
  | abandon i =>
    obtain ⟨x, hc, h⟩ := Option.bind_eq_some_iff.mp h
    split at h
    · cases h
      exact .drop hc ‹_›
    · cases h
      exact .flee hc ‹_›
    · cases h
      exact .hangUp hc ‹_›
    · cases h
  | work =>
    rw [step?, work?] at h
    split at h
    · cases h
    · rename_i hn
      obtain ⟨⟨p, s⟩, hw, rfl⟩ := Option.map_eq_some_iff.mp h
      refine .work (fun hg hi => hn ?_) (Pipeline.step_of_step? hw)
      rw [hg, hi]
      rfl
  | close =>
    cases h
    exact .close
  | lose =>
    rw [step?, lose?] at h
    split at h
    · obtain ⟨p, hl, rfl⟩ := Option.map_eq_some_iff.mp h
      obtain ⟨job, rest, hq, rfl⟩ := eq_of_lose? hl
      exact .lose ‹_› hq
    · cases h
  | miss =>
    rw [step?, miss?] at h
    split at h
    · obtain ⟨p, hm, rfl⟩ := Option.map_eq_some_iff.mp h
      obtain ⟨job, start, hw, rfl⟩ := eq_of_miss? hm
      exact .miss ‹_› hw
    · cases h

/-- The worker rests only when nothing is in line, or it is gone. -/
theorem step?_work_eq_none_iff :
    c.step? .work = none ↔ c.pipeline.worker = .idle ∧ (c.pipeline.queue = [] ∨ c.gone = true) := by
  rw [step?, work?]
  by_cases hg : (c.gone && c.pipeline.worker.isIdle) = true
  · obtain ⟨hgone, hidle⟩ := Bool.and_eq_true_iff.mp hg
    rw [if_pos hg]
    exact ⟨fun _ => ⟨Worker.isIdle_iff.mp hidle, Or.inr hgone⟩, fun _ => rfl⟩
  · rw [if_neg hg, Option.map_eq_none_iff, step?_eq_none_iff]
    refine and_congr_right fun hw => (or_iff_left fun hgone => hg ?_).symm
    rw [hgone, hw]
    rfl

/-- A worker with a job can go on. -/
theorem step?_work_isSome {job : Job} (hw : c.pipeline.worker.job? = some job) : (c.step? .work).isSome := by
  cases hs : c.step? .work with
  | some d => rfl
  | none =>
    rw [(step?_work_eq_none_iff.mp hs).1] at hw
    cases hw

/-- Once it is gone, whatever is in line can be lost. -/
theorem isSome_step?_lose (hg : c.gone = true) : (c.step? .lose).isSome ↔ c.pipeline.queue ≠ [] := by
  rw [step?, lose?, if_pos hg, Option.isSome_map, Pipeline.lose?]
  cases c.pipeline.queue <;> simp

/-- A call keeps its place in the list and all but its stage; and one that is over stays as it is. -/
theorem Step.call {x : Call} (h : Step c action d) (hx : c.calls[i]? = some x) :
    ∃ stage, d.calls[i]? = some { x with stage } ∧ (∀ result, x.stage = .ended result → stage = x.stage) := by
  have hset : ∀ {j : Nat} {y : Call} (stage : Stage), c.calls[j]? = some y → (∀ result, y.stage ≠ .ended result) →
      ∃ stage', (c.calls.set j { y with stage })[i]? = some { x with stage := stage' } ∧
        (∀ result, x.stage = .ended result → stage' = x.stage) := by
    intro j y stage hy hn
    by_cases hji : j = i
    · subst hji
      rw [hx] at hy
      cases hy
      exact ⟨stage, List.getElem?_set_self (List.getElem?_eq_some_iff.mp hx).1, fun result hr => absurd hr (hn result)⟩
    · exact ⟨x.stage, (List.getElem?_set_ne hji).trans hx, fun _ _ => rfl⟩
  cases h with
  | enter =>
    exact ⟨x.stage, (List.getElem?_append_left (List.getElem?_eq_some_iff.mp hx).1).trans hx, fun _ _ => rfl⟩
  | cancel | work | close | lose | miss => exact ⟨x.stage, hx, fun _ _ => rfl⟩
  | look hc hs | push hc hs | turn hc hs | clear hc hs | collect hc hs | drop hc hs | flee hc hs | hangUp hc hs =>
    exact hset _ hc (by rw [hs]; exact fun _ he => by cases he)

end Calls
end Pipeline
end SealedDownload
