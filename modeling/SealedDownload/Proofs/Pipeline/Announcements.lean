import SealedDownload.Proofs.Pipeline.Marks

/-! What the worker announces of a job. A job that is opened is announced at its beginning and at its end, one that is
    skipped never; and as the worker has one job at a time, the end of a job is the next announcement after its
    beginning. -/

namespace SealedDownload

/-- Whether an event is about the opening of a ciphertext. -/
def Event.isDecryption : Event → Bool
  | .decryptionStarted _ => true
  | .decryptionComplete _ => true
  | .decryptionFailed .. => true
  | _ => false

/-- The download whose opening has ended. -/
def Event.openedId? : Event → Option TransferId
  | .decryptionComplete id => some id
  | .decryptionFailed id _ => some id
  | _ => none

namespace Pipeline

/-- What has been announced of a job with a result: nothing if it was skipped, else its beginning and its end. -/
def Announced (id : TransferId) (result : Except Failure Product) (events : List Event) : Prop :=
  result = .error .cancelled ∧ events = [] ∨ events = [.decryptionStarted id, ending id result]

/-- What has been announced of the job of a call that waits for it, where the job and the reply are; `crashed` tells
    whether its work has crashed. -/
def Opens (id : TransferId) (crashed : Prop) (events : List Event) : Place → Option Reply → Prop
  | .line, some .expected => events = []
  | .hand (.decided ..), some .expected => events = []
  | .hand (.operating _), some .expected => events = [.decryptionStarted id]
  | .hand (.operated ..), some .expected => events = [.decryptionStarted id]
  | .hand (.announced _ result), some .expected => Announced id result events
  | .hand (.cleared _ result), some .expected => Announced id result events
  | .gone, some (.arrived result) => Announced id result events
  | .gone, some .lost => crashed ∧ events = [.decryptionStarted id]
  | _, _ => False

/-- What the worker announces next. -/
def news (p : Pipeline) : List Event :=
  match p.worker with
  | .decided job true => [.decryptionStarted job.id]
  | .operated job result => [ending job.id result]
  | _ => []

/-- The job of which the work crashes next. -/
def crashing? (p : Pipeline) (s : Shared) : Option Job :=
  match p.worker with
  | .operating job => match (job.work s.files job.ciphertext).1 with
    | .crashed => some job
    | .returned _ => none
  | _ => none

variable {isCancelled : Nat → Bool} {p p' : Pipeline} {s s' : Shared} {job : Job} {i : Nat} {events : List Event}
  {crashed : Prop}

/-- Whoever waits for a job listens for its reply. -/
theorem Opens.isSome_reply {id : TransferId} {crashed : Prop} {events : List Event} {place : Place}
    {reply : Option Reply} (h : Opens id crashed events place reply) : reply.isSome := by
  unfold Opens at h
  split at h <;> first | rfl | exact h.elim

/-- Once the job is over, the reply can be taken. -/
theorem Opens.exists_collect {id : TransferId} {crashed : Prop} {events : List Event} {call : Nat}
    (h : Opens id crashed events (p.place call) (p.reply? call)) (hp : p.place call = .gone) :
    ∃ result q, p.collect? call = some (result, q) := by
  rw [hp] at h
  unfold collect?
  cases hr : p.reply? call with
  | none =>
    rw [hr] at h
    exact h.elim
  | some reply =>
    cases reply with
    | expected =>
      rw [hr] at h
      exact h.elim
    | arrived result => exact ⟨result, _, rfl⟩
    | lost => exact ⟨_, _, rfl⟩

theorem Step.news (h : Step isCancelled p s p' s') : s'.events.sent = s.events.sent ++ p.news := by
  cases h with
  | take hw | skip hw | operate hw | keep hw | clear hw | crash hw =>
    simp [Pipeline.news, hw, Shared.erase]
  | begin hw | announce hw =>
    simp only [Pipeline.news, hw]
    rfl
  | reply hw =>
    rw [(send_eq _ _ _ _).2.2]
    simp only [Pipeline.news, hw, List.append_nil]

theorem id_of_mem_news {event : Event} (hm : event ∈ p.news) :
    ∃ job, p.worker.job? = some job ∧ event.id = job.id ∧ event.isDecryption = true := by
  unfold Pipeline.news at hm
  split at hm
  · rename_i job hw
    cases List.mem_singleton.mp hm
    exact ⟨job, by rw [hw]; rfl, rfl, rfl⟩
  · rename_i job result hw
    cases List.mem_singleton.mp hm
    refine ⟨job, by rw [hw]; rfl, ?_⟩
    cases result <;> exact ⟨rfl, rfl⟩
  · cases hm

/-- The worker makes no jobs, and keeps their order. -/
theorem Step.jobs_sublist (h : Step isCancelled p s p' s') : p'.jobs.Sublist p.jobs := by
  cases h with
  | take hw hq => simp [jobs, hw, hq, Worker.job?]
  | begin hw | skip hw | operate hw | announce hw | keep hw | clear hw => simp [jobs, hw, Worker.job?]
  | @crash job _ hw =>
    obtain ⟨hq, hi⟩ := breakOff_eq { p with worker := .idle } job.call
    simp [jobs, hq, hi, hw, Worker.job?]
  | @reply job result hw =>
    obtain ⟨hq, hi, -⟩ := send_eq { p with worker := .idle } s job.call result
    simp [jobs, hq, hi, hw, Worker.job?]

theorem head?_jobs (hw : p.worker.job? = some job) : p.jobs.head? = some job := by
  simp [jobs, hw]

/-- A step of the worker concerns the first job alone. -/
theorem Step.apart (h : Step isCancelled p s p' s') (hn : (p.jobs.map (·.call)).Nodup)
    (hi : ∀ job, p.jobs.head? = some job → job.call ≠ i) :
    p'.place i = p.place i ∧ p'.reply? i = p.reply? i := by
  cases h with
  | @take job rest hw hq =>
    have hne : i ≠ job.call := (hi job (by simp [jobs, hw, hq, Worker.job?])).symm
    rw [place_of_taken hw hq rfl, if_neg hne]
    exact ⟨rfl, rfl⟩
  | @begin job hw | @skip job hw | @operate job _ _ hw | @announce job _ hw | @keep job _ hw | @clear job _ hw =>
    have hj : p.worker.job? = some job := by rw [hw]; rfl
    rw [place_of_worker hj rfl, if_neg (hi job (head?_jobs hj)).symm]
    exact ⟨rfl, rfl⟩
  | @crash job _ hw =>
    have hj : p.worker.job? = some job := by rw [hw]; rfl
    have hne := (hi job (head?_jobs hj)).symm
    obtain ⟨hq, hidle⟩ := breakOff_eq { p with worker := .idle } job.call
    rw [place_of_done hn hj hidle hq, if_neg hne, reply?_breakOff, if_neg hne]
    exact ⟨rfl, rfl⟩
  | @reply job result hw =>
    have hj : p.worker.job? = some job := by rw [hw]; rfl
    have hne := (hi job (head?_jobs hj)).symm
    obtain ⟨hq, hidle, -⟩ := send_eq { p with worker := .idle } s job.call result
    rw [place_of_done hn hj hidle hq, if_neg hne, reply?_send, if_neg hne]
    exact ⟨rfl, rfl⟩

theorem Opens.expected {place : Place} {reply : Option Reply} {id : TransferId}
    (h : Opens id crashed events place reply) (hp : place ≠ .gone) : reply = some .expected := by
  unfold Opens at h
  split at h <;> first | rfl | exact absurd rfl hp | cases h

theorem Opens.mono {crashed' : Prop} {place : Place} {reply : Option Reply} {id : TransferId}
    (h : Opens id crashed events place reply) (hc : crashed → crashed') : Opens id crashed' events place reply := by
  unfold Opens at h ⊢
  split at h <;> first | exact h | exact ⟨hc h.1, h.2⟩

/-- A call that has its answer has no job any more. -/
theorem Opens.collected {place : Place} {reply : Reply} {id : TransferId}
    (h : Opens id crashed events place (some reply)) (hr : reply ≠ .expected) : place = .gone := by
  cases reply with
  | expected => exact absurd rfl hr
  | arrived | lost =>
    cases place with
    | line => cases h
    | hand w => cases w <;> cases h
    | gone => rfl

theorem opens_of_worker {id : TransferId} {w : Worker} (hw : p.worker.job? = some job)
    (hw' : w.job? = some job) (hr : p.reply? job.call = some .expected)
    (ho : Opens id crashed events (.hand w) (some .expected)) :
    Opens id crashed events ({ p with worker := w }.place job.call) ({ p with worker := w }.reply? job.call) := by
  rw [place_of_worker hw hw', if_pos rfl]
  exact (congrArg (Opens id crashed events _) hr).mpr ho

/-- A step of the worker with a job that a call waits for. -/
theorem Step.opens (h : Step isCancelled p s p' s') (hn : (p.jobs.map (·.call)).Nodup)
    (hj : p.jobs.head? = some job) (ho : Opens job.id crashed events (p.place job.call) (p.reply? job.call))
    (hc : p.crashing? s = some job → crashed) :
    Opens job.id crashed (events ++ p.news) (p'.place job.call) (p'.reply? job.call) := by
  -- Where the worker has the job, it is the job that the step is about, and its call has had no reply yet.
  have hand : ∀ {first}, p.worker.job? = some first → first = job ∧ p.place job.call = .hand p.worker ∧
      p.reply? job.call = some .expected := by
    intro first hf
    obtain rfl : first = job := Option.some.inj ((head?_jobs hf).symm.trans hj)
    have hp := place_hand hf
    exact ⟨rfl, hp, ho.expected (by rw [hp]; exact Place.hand_ne_gone _)⟩
  cases h with
  | @take first rest hw hq =>
    obtain rfl : first = job := by simpa [jobs, hw, hq, Worker.job?] using hj
    have hp : p.place first.call = .line := by
      rw [place_of_idle hw, if_pos]
      simp [hq]
    have hr := ho.expected (by rw [hp]; exact Place.line_ne_gone)
    have hr' : { p with queue := rest, worker := .decided first (!isCancelled first.call) }.reply? first.call =
        some .expected := hr
    rw [hp, hr] at ho
    rw [place_of_taken hw hq rfl, if_pos rfl, hr', Pipeline.news, hw, List.append_nil]
    exact ho
  | @begin first hw =>
    have hfirst : p.worker.job? = some first := by rw [hw]; rfl
    obtain ⟨rfl, hp, hr⟩ := hand hfirst
    rw [hp, hr, hw] at ho
    obtain rfl : events = [] := ho
    rw [Pipeline.news, hw]
    exact opens_of_worker hfirst rfl hr rfl
  | @skip first hw =>
    have hfirst : p.worker.job? = some first := by rw [hw]; rfl
    obtain ⟨rfl, hp, hr⟩ := hand hfirst
    rw [hp, hr, hw] at ho
    obtain rfl : events = [] := ho
    rw [Pipeline.news, hw]
    exact opens_of_worker hfirst rfl hr (Or.inl ⟨rfl, rfl⟩)
  | @announce first result hw =>
    have hfirst : p.worker.job? = some first := by rw [hw]; rfl
    obtain ⟨rfl, hp, hr⟩ := hand hfirst
    rw [hp, hr, hw] at ho
    obtain rfl : events = [.decryptionStarted first.id] := ho
    rw [Pipeline.news, hw]
    exact opens_of_worker hfirst rfl hr (Or.inr rfl)
  | @operate first _ _ hw | @keep first _ hw | @clear first _ hw =>
    have hfirst : p.worker.job? = some first := by rw [hw]; rfl
    obtain ⟨rfl, hp, hr⟩ := hand hfirst
    rw [hp, hr, hw] at ho
    rw [Pipeline.news, hw, List.append_nil]
    exact opens_of_worker hfirst rfl hr ho
  | @crash first files hw ho' =>
    have hfirst : p.worker.job? = some first := by rw [hw]; rfl
    obtain ⟨rfl, hp, hr⟩ := hand hfirst
    obtain ⟨hq, hidle⟩ := breakOff_eq { p with worker := .idle } first.call
    rw [hp, hr, hw] at ho
    have hr' : { p with worker := .idle }.reply? first.call = some .expected := hr
    rw [place_of_done hn hfirst hidle hq, if_pos rfl, reply?_breakOff, if_pos rfl, hr', Pipeline.news, hw,
      List.append_nil]
    exact ⟨hc (by simp only [crashing?, hw, ho']), ho⟩
  | @reply first result hw =>
    have hfirst : p.worker.job? = some first := by rw [hw]; rfl
    obtain ⟨rfl, hp, hr⟩ := hand hfirst
    obtain ⟨hq, hidle, -⟩ := send_eq { p with worker := .idle } s first.call result
    rw [hp, hr, hw] at ho
    have hr' : { p with worker := .idle }.reply? first.call = some .expected := hr
    rw [place_of_done hn hfirst hidle hq, if_pos rfl, reply?_send, if_pos rfl, hr', Pipeline.news, hw,
      List.append_nil]
    exact ho

/-! ### One opening after the other -/

/-- In the events about openings, each end follows immediately upon the beginning of the same opening; and while the
    worker is opening, the last one is that beginning. -/
def Alternates (worker : Worker) (events : List Event) : Prop :=
  (∀ before event after id, events = before ++ event :: after → event.openedId? = some id →
    before.getLast? = some (.decryptionStarted id)) ∧
  match worker with
  | .operating job => events.getLast? = some (.decryptionStarted job.id)
  | .operated job _ => events.getLast? = some (.decryptionStarted job.id)
  | _ => True

theorem alternates_concat {event : Event} (h : ∀ before event after id, events = before ++ event :: after →
      event.openedId? = some id → before.getLast? = some (.decryptionStarted id))
    (he : ∀ id, event.openedId? = some id → events.getLast? = some (.decryptionStarted id))
    (before : List Event) (other : Event) (after : List Event) (id : TransferId)
    (hs : events ++ [event] = before ++ other :: after) (ho : other.openedId? = some id) :
    before.getLast? = some (.decryptionStarted id) := by
  rcases List.eq_nil_or_concat after with rfl | ⟨rest, last, rfl⟩
  · obtain ⟨rfl, hl⟩ := List.append_inj' hs rfl
    cases hl
    exact he id ho
  · rw [List.concat_eq_append, ← List.cons_append, ← List.append_assoc] at hs
    obtain ⟨hs, -⟩ := List.append_inj' hs rfl
    exact h before other rest id hs ho

theorem Step.alternates (h : Step isCancelled p s p' s') (ha : Alternates p.worker events) :
    Alternates p'.worker (events ++ p.news) := by
  obtain ⟨hends, hlast⟩ := ha
  cases h with
  | take hw | skip hw | keep hw | clear hw =>
    rw [Pipeline.news, hw, List.append_nil]
    exact ⟨hends, trivial⟩
  | operate hw =>
    rw [hw] at hlast
    rw [Pipeline.news, hw, List.append_nil]
    exact ⟨hends, hlast⟩
  | @crash job _ hw =>
    rw [Pipeline.news, hw, List.append_nil, (breakOff_eq { p with worker := .idle } job.call).2]
    exact ⟨hends, trivial⟩
  | @reply job result hw =>
    rw [Pipeline.news, hw, List.append_nil, (send_eq { p with worker := .idle } s job.call result).2.1]
    exact ⟨hends, trivial⟩
  | begin hw =>
    rw [Pipeline.news, hw]
    exact ⟨alternates_concat hends (fun id he => by cases he), List.getLast?_concat⟩
  | @announce job result hw =>
    rw [hw] at hlast
    rw [Pipeline.news, hw]
    refine ⟨alternates_concat hends fun id he => ?_, trivial⟩
    have hid : id = job.id := by cases result <;> exact (Option.some.inj he).symm
    rw [hid]
    exact hlast

/-- Between the beginning of an opening and its end there is no event about another one. -/
theorem Alternates.between {w : Worker} {sent : List Event} (h : Alternates w (sent.filter Event.isDecryption))
    {before between after : List Event} {id : TransferId} {event : Event}
    (hs : sent = before ++ .decryptionStarted id :: between ++ event :: after) (he : event.openedId? = some id)
    (hb : .decryptionStarted id ∉ between) : ∀ other ∈ between, other.isDecryption = false := by
  have hevent : event.isDecryption = true := by
    cases event <;> first | rfl | cases he
  have hlast := h.1 ((before ++ .decryptionStarted id :: between).filter Event.isDecryption) event
    (after.filter Event.isDecryption) id (by rw [hs, List.filter_append, List.filter_cons_of_pos hevent]) he
  rw [List.filter_append, List.filter_cons_of_pos rfl] at hlast
  rcases List.eq_nil_or_concat (between.filter Event.isDecryption) with hn | ⟨rest, last, hc⟩
  · exact fun other hm => Bool.eq_false_iff.mpr (List.filter_eq_nil_iff.mp hn other hm)
  · have hm : last ∈ between.filter Event.isDecryption := by simp [hc]
    rw [hc, List.concat_eq_append, ← List.cons_append, ← List.append_assoc, List.getLast?_concat] at hlast
    cases hlast
    exact absurd (List.mem_filter.mp hm).1 hb

end Pipeline
end SealedDownload
