import Mathlib.Data.List.Nodup
import SealedDownload.Pipeline.Calls
import SealedDownload.Proofs.Pipeline.Steps

/-! The history of the calls to a pipeline. Every step leaves at most one mark, of the call it concerns; the
    marks of one call are its story. `Tells` says which story a call has at each stage and wherever its job is,
    and what the story entitles it to (`verdict?`). -/

namespace SealedDownload.Pipeline

/-- What happens to a call. -/
inductive Mark where
  /-- it has looked at its token -/
  | looked (cancelled : Bool)
  /-- its job has been put in line -/
  | queued
  /-- it has been turned away, because the worker is gone -/
  | turned
  /-- the worker has taken its job up and looked at its token -/
  | taken (cancelled : Bool)
  /-- its work has begun -/
  | began
  /-- its work has ended -/
  | finished (outcome : Outcome)
  /-- its job has been lost in line -/
  | lost
  /-- its job has been lost after it was taken up, and before its work has begun -/
  | missed (cancelled : Bool)

/-- The marks of one call. -/
def story (i : Nat) (log : List (Nat × Mark)) : List Mark :=
  log.filterMap fun (j, mark) => if j = i then some mark else none

/-- The result that a call is entitled to by its story. -/
def verdict? : List Mark → Option (Except Failure Product)
  | [.looked true] => some (.error .cancelled)
  | [.looked false, .queued, .taken true] => some (.error .cancelled)
  | [.looked false, .queued, .taken false, .began, .finished (.returned result)] => some result
  | [.looked false, .queued, .taken false, .began, .finished .crashed] => some (.error .shuttingDown)
  | [.looked false, .turned] => some (.error .shuttingDown)
  | [.looked false, .queued, .lost] => some (.error .shuttingDown)
  | [.looked false, .queued, .taken true, .missed true] => some (.error .shuttingDown)
  | [.looked false, .queued, .taken false, .missed false] => some (.error .shuttingDown)
  | _ => none

namespace Calls

/-- The mark that an action leaves. -/
def mark? (c : Calls) : Action → Option (Nat × Mark)
  | .begin i => (c.calls[i]?).map fun call => (i, .looked (c.isCancelled call))
  | .push i => some (i, if c.gone then .turned else .queued)
  | .work =>
    match c.pipeline.worker with
    | .idle => c.pipeline.queue.head?.map fun job => (job.call, .taken (c.isCancelledAt job.call))
    | .decided job true => some (job.call, .began)
    | .operating job => some (job.call, .finished (job.work c.shared.files job.ciphertext).1)
    | _ => none
  | .lose => c.pipeline.queue.head?.map fun job => (job.call, .lost)
  | .miss =>
    match c.pipeline.worker with
    | .decided job start => some (job.call, .missed (!start))
    | _ => none
  | _ => none

/-- The marks of a run. -/
def log (c : Calls) : List Action → List (Nat × Mark)
  | [] => []
  | action :: rest =>
    match c.step? action with
    | some d => (c.mark? action).toList ++ d.log rest
    | none => []

end Calls

/-! ### Where a job is -/

/-- Where the job of a call is. -/
inductive Place where
  /-- in line -/
  | line
  /-- with the worker, which is there with it -/
  | hand (worker : Worker)
  /-- nowhere: it has not been handed in, or it is over -/
  | gone

theorem Place.line_ne_gone : Place.line ≠ .gone := by
  intro h
  cases h

theorem Place.hand_ne_gone (w : Worker) : Place.hand w ≠ .gone := by
  intro h
  cases h

/-- Where the job of the call of a number is. -/
def place (p : Pipeline) (i : Nat) : Place :=
  if p.worker.job?.any (·.call = i) then .hand p.worker
  else if p.queue.any (·.call = i) then .line
  else .gone

/-- What has happened to a job where it is. -/
def Place.Tells : Place → List Mark → Prop
  | .line, story => story = []
  | .hand .idle, _ => False
  | .hand (.decided _ start), story => story = [.taken (!start)]
  | .hand (.operating _), story => story = [.taken false, .began]
  | .hand (.operated _ result), story => story = [.taken false, .began, .finished (.returned result)]
  | .hand (.announced _ result), story => verdict? (.looked false :: .queued :: story) = some result
  | .hand (.cleared _ result), story => verdict? (.looked false :: .queued :: story) = some result
  | .gone, story => (verdict? (.looked false :: .queued :: story)).isSome

/-- What has happened to a call at a stage, where its job and the reply to it are. -/
def Stage.Tells (place : Place) (reply : Option Reply) (story : List Mark) : Stage → Prop
  | .fresh => place = .gone ∧ reply = none ∧ story = []
  | .ready => place = .gone ∧ reply = none ∧ story = [.looked false]
  | .refused _ => place = .gone ∧ reply = none ∧ story = [.looked true]
  | .waiting => ∃ rest, story = .looked false :: .queued :: rest ∧ place.Tells rest ∧
    match reply with
    | none => False
    | some .expected => place ≠ .gone
    | some (.arrived result) => place = .gone ∧ verdict? story = some result
    | some .lost => place = .gone ∧ verdict? story = some (.error .shuttingDown)
  | .ended result => place = .gone ∧ reply = none ∧ verdict? story = some result
  | .abandoned => reply = none ∧ (place = .gone ∧ (story = [] ∨ story = [.looked true]) ∨
      ∃ rest, story = .looked false :: .queued :: rest ∧ place.Tells rest)

/-! ### Places -/

section Place

variable {p p' : Pipeline} {job : Job} {i : Nat} {w : Worker}

theorem place_hand (hw : p.worker.job? = some job) : p.place job.call = .hand p.worker := by
  unfold place
  rw [hw, if_pos]
  exact decide_eq_true rfl

theorem place_of_idle (hw : p.worker = .idle) : p.place i = if p.queue.any (·.call = i) then .line else .gone := by
  unfold place
  rw [hw]
  rfl

theorem place_of_ne (hw : p.worker.job? = some job) (h : i ≠ job.call) :
    p.place i = if p.queue.any (·.call = i) then .line else .gone := by
  unfold place
  rw [hw, if_neg]
  exact fun hc => h (of_decide_eq_true hc).symm

theorem place_of_not_mem (h : i ∉ p.jobs.map (·.call)) : p.place i = .gone := by
  have hn : ∀ job ∈ p.jobs, job.call ≠ i := fun job hj he => h (he ▸ List.mem_map_of_mem hj)
  unfold place
  rw [if_neg, if_neg]
  · intro hq
    obtain ⟨job, hj, he⟩ := List.any_eq_true.mp hq
    exact hn job (List.mem_append_right _ hj) (of_decide_eq_true he)
  · intro hw
    obtain ⟨job, hj, he⟩ := (Option.any_eq_true ..).mp hw
    exact hn job (List.mem_append_left _ (Option.mem_toList.mpr hj)) (of_decide_eq_true he)

theorem not_mem_of_gone (h : p.place i = .gone) : i ∉ p.jobs.map (·.call) := by
  intro hm
  obtain ⟨job, hj, rfl⟩ := List.mem_map.mp hm
  unfold place at h
  split at h
  · cases h
  · rename_i hw
    split at h
    · cases h
    · rename_i hq
      rcases List.mem_append.mp hj with hj | hj
      · exact hw ((Option.any_eq_true ..).mpr ⟨job, Option.mem_toList.mp hj, decide_eq_true rfl⟩)
      · exact hq (List.any_eq_true.mpr ⟨job, hj, decide_eq_true rfl⟩)

theorem place_of_mem_queue (hn : (p.jobs.map (·.call)).Nodup) (hj : job ∈ p.queue) : p.place job.call = .line := by
  have hq : p.queue.any (·.call = job.call) = true := List.any_eq_true.mpr ⟨job, hj, decide_eq_true rfl⟩
  cases hw : p.worker.job? with
  | none =>
    unfold place
    rw [hw, if_neg (by exact Bool.false_ne_true), if_pos hq]
  | some first =>
    have hne : job.call ≠ first.call := by
      intro he
      have hm : job.call ∈ p.queue.map (·.call) := List.mem_map_of_mem hj
      rw [jobs, hw] at hn
      rw [he] at hm
      exact (List.nodup_cons.mp hn).1 hm
    rw [place_of_ne hw hne, if_pos hq]

/-- The worker goes on with its job: nothing else changes its place. -/
theorem place_of_worker (hw : p.worker.job? = some job) (hw' : w.job? = some job) (i : Nat) :
    { p with worker := w }.place i = if i = job.call then .hand w else p.place i := by
  by_cases hi : i = job.call
  · subst hi
    rw [if_pos rfl]
    exact place_hand hw'
  · rw [if_neg hi, place_of_ne hw hi]
    exact place_of_ne hw' hi

/-- The worker is done with its job. -/
theorem place_of_done (hn : (p.jobs.map (·.call)).Nodup) (hw : p.worker.job? = some job) (hw' : p'.worker = .idle)
    (hq : p'.queue = p.queue) (i : Nat) : p'.place i = if i = job.call then .gone else p.place i := by
  by_cases hi : i = job.call
  · subst hi
    rw [if_pos rfl]
    refine place_of_not_mem ?_
    rw [jobs, hw] at hn
    rw [jobs, hw', hq]
    exact (List.nodup_cons.mp hn).1
  · rw [if_neg hi, place_of_ne hw hi, place_of_idle hw', hq]

/-- The worker takes the first job in line up. -/
theorem place_of_taken {rest : List Job} (hw : p.worker = .idle) (hq : p.queue = job :: rest)
    (hw' : w.job? = some job) (i : Nat) :
    { p with queue := rest, worker := w }.place i = if i = job.call then .hand w else p.place i := by
  by_cases hi : i = job.call
  · subst hi
    rw [if_pos rfl]
    exact place_hand hw'
  · rw [if_neg hi, place_of_idle hw, hq, List.any_cons, decide_eq_false (Ne.symm hi), Bool.false_or]
    exact place_of_ne hw' hi

/-- The first job in line is lost. -/
theorem place_of_lost {rest : List Job} (hn : (p.jobs.map (·.call)).Nodup) (hq : p.queue = job :: rest)
    (hw' : p'.worker = p.worker) (hq' : p'.queue = rest) (i : Nat) :
    p'.place i = if i = job.call then .gone else p.place i := by
  by_cases hi : i = job.call
  · subst hi
    rw [if_pos rfl]
    refine place_of_not_mem ?_
    rw [jobs, hq, List.map_append, List.map_cons, List.nodup_middle] at hn
    rw [jobs, hw', hq', List.map_append]
    exact (List.nodup_cons.mp hn).1
  · rw [if_neg hi]
    unfold place
    rw [hw', hq', hq, List.any_cons, decide_eq_false (Ne.symm hi), Bool.false_or]

/-- A job is put in line. -/
theorem place_push (p : Pipeline) (job : Job) (h : job.call ∉ p.jobs.map (·.call)) (i : Nat) :
    (p.push job).place i = if i = job.call then .line else p.place i := by
  have hq : (p.queue ++ [job]).any (·.call = i) = (p.queue.any (·.call = i) || decide (job.call = i)) := by
    simp
  unfold place
  rw [push_worker, push_queue, hq]
  by_cases hi : i = job.call
  · subst hi
    have hw : ¬p.worker.job?.any (·.call = job.call) = true := by
      intro hw
      obtain ⟨first, hf, he⟩ := (Option.any_eq_true ..).mp hw
      exact h (of_decide_eq_true he ▸ List.mem_map_of_mem (List.mem_append_left _ (Option.mem_toList.mpr hf)))
    rw [if_neg hw, decide_eq_true rfl, Bool.or_true, if_pos rfl, if_pos rfl]
  · rw [if_neg hi, decide_eq_false (Ne.symm hi), Bool.or_false]

end Place

/-! ### Stories -/

section Story

variable {i j : Nat} {place place' : Place} {reply : Option Reply} {told more : List Mark} {stage : Stage}
  {result : Except Failure Product}

theorem story_append (i : Nat) (log later : List (Nat × Mark)) :
    story i (log ++ later) = story i log ++ story i later :=
  List.filterMap_append

theorem mem_story {mark : Mark} {log : List (Nat × Mark)} : mark ∈ story i log ↔ (i, mark) ∈ log := by
  unfold story
  rw [List.mem_filterMap]
  constructor
  · rintro ⟨⟨j, other⟩, hm, he⟩
    dsimp only at he
    by_cases hj : j = i
    · rw [if_pos hj] at he
      cases he
      rwa [← hj]
    · rw [if_neg hj] at he
      cases he
  · exact fun hm => ⟨(i, mark), hm, if_pos rfl⟩

theorem story_own (i : Nat) (marks : List Mark) : story i (marks.map (i, ·)) = marks := by
  simp [story, List.filterMap_map]

theorem story_other (h : j ≠ i) (marks : List Mark) : story i (marks.map (j, ·)) = [] := by
  simp [story, h]

/-- The job of a call has gone on, and is not over. -/
theorem Stage.Tells.moved (h : stage.Tells place reply told) (hp : place ≠ .gone) (hp' : place' ≠ .gone)
    (ht : ∀ rest, place.Tells rest → place'.Tells (rest ++ more)) : stage.Tells place' reply (told ++ more) := by
  cases stage with
  | fresh | ready | refused | ended => exact absurd h.1 hp
  | waiting =>
    obtain ⟨rest, rfl, hr, ha⟩ := h
    refine ⟨rest ++ more, rfl, ht rest hr, ?_⟩
    cases reply with
    | none => exact ha
    | some reply =>
      cases reply with
      | expected => exact hp'
      | arrived | lost => exact absurd ha.1 hp
  | abandoned =>
    obtain ⟨hr, ⟨hg, -⟩ | ⟨rest, rfl, hrest⟩⟩ := h
    · exact absurd hg hp
    · exact ⟨hr, Or.inr ⟨rest ++ more, rfl, ht rest hrest⟩⟩

/-- The job of a call is over, and whoever waits for it is told. -/
theorem Stage.Tells.over {answer : Reply} (h : stage.Tells place reply told) (hp : place ≠ .gone)
    (ht : ∀ rest, place.Tells rest → verdict? (.looked false :: .queued :: (rest ++ more)) = some result)
    (ha : answer = .arrived result ∨ answer = .lost ∧ result = .error .shuttingDown) :
    stage.Tells .gone (reply.map fun _ => answer) (told ++ more) := by
  have hg : ∀ rest, place.Tells rest → Place.gone.Tells (rest ++ more) := fun rest hr => by
    rw [Place.Tells, ht rest hr]
    rfl
  cases stage with
  | fresh | ready | refused | ended => exact absurd h.1 hp
  | waiting =>
    obtain ⟨rest, rfl, hr, hw⟩ := h
    refine ⟨rest ++ more, rfl, hg rest hr, ?_⟩
    cases reply with
    | none => exact hw
    | some =>
      rcases ha with rfl | ⟨rfl, rfl⟩
      · exact ⟨rfl, ht rest hr⟩
      · exact ⟨rfl, ht rest hr⟩
  | abandoned =>
    obtain ⟨rfl, ⟨hn, -⟩ | ⟨rest, rfl, hrest⟩⟩ := h
    · exact absurd hn hp
    · exact ⟨rfl, Or.inr ⟨rest ++ more, rfl, hg rest hrest⟩⟩

end Story

/-! ### What is known of all calls -/

namespace Calls

/-- What is known of calls, given the marks so far. -/
structure Told (c : Calls) (log : List (Nat × Mark)) : Prop where
  nodup : (c.pipeline.jobs.map (·.call)).Nodup
  own : ∀ job ∈ c.pipeline.jobs, ∃ x, c.calls[job.call]? = some x ∧ job = x.job job.call
  tells : ∀ i (x : Call), c.calls[i]? = some x →
    x.stage.Tells (c.pipeline.place i) (c.pipeline.reply? i) (story i log)
  absent : ∀ i, c.calls.length ≤ i → c.pipeline.reply? i = none ∧ story i log = []

variable {c d : Calls} {log : List (Nat × Mark)} {i : Nat} {x : Call} {action : Action}

theorem Told.gone_of_absent (h : c.Told log) (hi : c.calls.length ≤ i) : c.pipeline.place i = .gone := by
  refine place_of_not_mem fun hm => ?_
  obtain ⟨job, hj, rfl⟩ := List.mem_map.mp hm
  obtain ⟨x, hx, -⟩ := h.own job hj
  rw [List.getElem?_eq_none hi] at hx
  cases hx

theorem told_start (shared : Shared) : (start shared).Told [] where
  nodup := List.nodup_nil
  own _ hj := nomatch hj
  tells _ _ hx := nomatch hx
  absent _ _ := ⟨rfl, rfl⟩

/-- A step that concerns one call only. -/
theorem Told.concerning {stage : Stage} {marks : List Mark} (h : c.Told log) (hx : c.calls[i]? = some x)
    (hd : d.calls = c.calls.set i { x with stage }) (hn : (d.pipeline.jobs.map (·.call)).Nodup)
    (ho : ∀ job ∈ d.pipeline.jobs, job ∈ c.pipeline.jobs ∨ job = x.job i)
    (hj : ∀ j, j ≠ i → d.pipeline.place j = c.pipeline.place j ∧ d.pipeline.reply? j = c.pipeline.reply? j)
    (hi : stage.Tells (d.pipeline.place i) (d.pipeline.reply? i) (story i log ++ marks)) :
    d.Told (log ++ marks.map (i, ·)) := by
  have hlt := (List.getElem?_eq_some_iff.mp hx).1
  have hother : ∀ j, j ≠ i → story j (log ++ marks.map (i, ·)) = story j log := fun j hne => by
    rw [story_append, story_other (Ne.symm hne), List.append_nil]
  refine ⟨hn, fun job hm => ?_, fun j y hy => ?_, fun j hl => ?_⟩
  · have hkeep : ∀ j (y : Call), c.calls[j]? = some y → ∃ z, d.calls[j]? = some z ∧ y.job j = z.job j := by
      intro j y hy
      rw [hd]
      by_cases hji : j = i
      · subst hji
        rw [hx] at hy
        cases hy
        exact ⟨_, List.getElem?_set_self hlt, rfl⟩
      · exact ⟨y, (List.getElem?_set_ne (Ne.symm hji)).trans hy, rfl⟩
    rcases ho job hm with hm | rfl
    · obtain ⟨y, hy, hjob⟩ := h.own job hm
      obtain ⟨z, hz, he⟩ := hkeep _ y hy
      exact ⟨z, hz, hjob.trans he⟩
    · exact hkeep i x hx
  · rw [hd] at hy
    by_cases hji : j = i
    · subst hji
      rw [List.getElem?_set_self hlt] at hy
      cases hy
      rw [story_append, story_own]
      exact hi
    · rw [List.getElem?_set_ne (Ne.symm hji)] at hy
      rw [(hj j hji).1, (hj j hji).2, hother j hji]
      exact h.tells j y hy
  · rw [hd, List.length_set] at hl
    have hji : j ≠ i := fun he => absurd hlt (Nat.not_lt_of_le (he ▸ hl))
    rw [(hj j hji).2, hother j hji]
    exact h.absent j hl

/-- A step of the worker concerns the call of its job only. -/
theorem Told.working {p : Pipeline} {s : Shared} {job : Job} {marks : List Mark} (h : c.Told log)
    (hm : job ∈ c.pipeline.jobs) (hn : (p.jobs.map (·.call)).Nodup) (ho : ∀ job ∈ p.jobs, job ∈ c.pipeline.jobs)
    (hj : ∀ j, j ≠ job.call → p.place j = c.pipeline.place j ∧ p.reply? j = c.pipeline.reply? j)
    (hi : ∀ stage : Stage, stage.Tells (c.pipeline.place job.call) (c.pipeline.reply? job.call) (story job.call log) →
      stage.Tells (p.place job.call) (p.reply? job.call) (story job.call log ++ marks)) :
    { c with pipeline := p, shared := s }.Told (log ++ marks.map (job.call, ·)) := by
  obtain ⟨x, hx, -⟩ := h.own job hm
  refine h.concerning hx ?_ hn (fun job hm => Or.inl (ho job hm)) hj (hi _ (h.tells _ x hx))
  obtain ⟨hlt, rfl⟩ := List.getElem?_eq_some_iff.mp hx
  exact (List.set_getElem_self hlt).symm

/-- The worker takes the first job in line up. -/
theorem Told.take {job : Job} {rest : List Job} {cancelled : Bool} (h : c.Told log) (hw : c.pipeline.worker = .idle)
    (hq : c.pipeline.queue = job :: rest) :
    { c with pipeline := { c.pipeline with queue := rest, worker := .decided job (!cancelled) } }.Told
      (log ++ [Mark.taken cancelled].map (job.call, ·)) := by
  have hjobs : c.pipeline.jobs = job :: rest := by
    rw [jobs, hw, hq]
    rfl
  have hsame : Pipeline.jobs { c.pipeline with queue := rest, worker := .decided job (!cancelled) } =
      c.pipeline.jobs := hjobs.symm
  have hp := place_of_taken (w := .decided job (!cancelled)) hw hq rfl
  refine h.working (hjobs ▸ List.mem_cons_self) (hsame ▸ h.nodup) (fun _ hm => hsame ▸ hm)
    (fun j hne => ⟨(hp j).trans (if_neg hne), rfl⟩) fun stage hst => ?_
  rw [place_of_mem_queue h.nodup (hq ▸ List.mem_cons_self)] at hst
  rw [hp, if_pos rfl]
  refine hst.moved Place.line_ne_gone (Place.hand_ne_gone _) ?_
  rintro _ rfl
  rw [Place.Tells, Bool.not_not]
  rfl

/-- The worker goes on with a job. -/
theorem Told.going {w : Worker} {s : Shared} {job : Job} {marks : List Mark} (h : c.Told log)
    (hw : c.pipeline.worker.job? = some job) (hw' : w.job? = some job)
    (ht : ∀ rest, (Place.hand c.pipeline.worker).Tells rest → (Place.hand w).Tells (rest ++ marks)) :
    { c with pipeline := { c.pipeline with worker := w }, shared := s }.Told (log ++ marks.map (job.call, ·)) := by
  have hjobs : Pipeline.jobs { c.pipeline with worker := w } = c.pipeline.jobs := by
    rw [jobs, jobs, hw, hw']
  have hp := place_of_worker hw hw'
  refine h.working (List.mem_append_left _ (Option.mem_toList.mpr hw)) (hjobs ▸ h.nodup) (fun _ hm => hjobs ▸ hm)
    (fun j hne => ⟨(hp j).trans (if_neg hne), rfl⟩) fun stage hs => ?_
  rw [place_hand hw] at hs
  rw [hp, if_pos rfl]
  exact hs.moved (Place.hand_ne_gone _) (Place.hand_ne_gone _) ht

/-- The worker is done with a job, and has told whoever waits for it. -/
theorem Told.done {p : Pipeline} {s : Shared} {job : Job} {marks : List Mark} {answer : Reply}
    {result : Except Failure Product} (h : c.Told log) (hw : c.pipeline.worker.job? = some job)
    (hw' : p.worker = .idle) (hq : p.queue = c.pipeline.queue)
    (hr : ∀ j, p.reply? j = if j = job.call then (c.pipeline.reply? j).map fun _ => answer else c.pipeline.reply? j)
    (ht : ∀ rest, (Place.hand c.pipeline.worker).Tells rest →
      verdict? (.looked false :: .queued :: (rest ++ marks)) = some result)
    (ha : answer = .arrived result ∨ answer = .lost ∧ result = .error .shuttingDown) :
    { c with pipeline := p, shared := s }.Told (log ++ marks.map (job.call, ·)) := by
  have hjobs : c.pipeline.jobs = job :: p.jobs := by
    rw [jobs, jobs, hw, hw', hq]
    rfl
  have hn := h.nodup
  rw [hjobs] at hn
  have hp := place_of_done h.nodup hw hw' hq
  refine h.working (List.mem_append_left _ (Option.mem_toList.mpr hw)) (List.nodup_cons.mp hn).2
    (fun _ hm => hjobs ▸ List.mem_cons_of_mem _ hm)
    (fun j hne => ⟨(hp j).trans (if_neg hne), (hr j).trans (if_neg hne)⟩) fun stage hs => ?_
  rw [place_hand hw] at hs
  rw [hp, if_pos rfl, hr, if_pos rfl]
  exact hs.over (Place.hand_ne_gone _) ht ha

/-- The first job in line is lost, and whoever waits for it is told that nothing will come. -/
theorem Told.lose {job : Job} {rest : List Job} (h : c.Told log) (hq : c.pipeline.queue = job :: rest) :
    { c with pipeline := { c.pipeline with queue := rest }.breakOff job.call }.Told
      (log ++ [Mark.lost].map (job.call, ·)) := by
  obtain ⟨hq', hw'⟩ := breakOff_eq { c.pipeline with queue := rest } job.call
  have hp := place_of_lost h.nodup hq hw' hq'
  have hr := reply?_breakOff { c.pipeline with queue := rest } job.call
  have hjobs : Pipeline.jobs ({ c.pipeline with queue := rest }.breakOff job.call) =
      c.pipeline.worker.job?.toList ++ rest := by
    rw [jobs, hq', hw']
  have hsub : (c.pipeline.worker.job?.toList ++ rest).Sublist c.pipeline.jobs := by
    rw [jobs, hq]
    exact (List.sublist_cons_self job rest).append_left _
  have hm : job ∈ c.pipeline.queue := hq ▸ List.mem_cons_self
  refine h.working (List.mem_append_right _ hm) (hjobs ▸ h.nodup.sublist (hsub.map _))
    (fun _ hj => hsub.subset (hjobs ▸ hj))
    (fun j hne => ⟨(hp j).trans (if_neg hne), (hr j).trans (if_neg hne)⟩) fun stage hst => ?_
  rw [place_of_mem_queue h.nodup hm] at hst
  rw [hp, if_pos rfl, hr, if_pos rfl]
  refine hst.over Place.line_ne_gone ?_ (Or.inr ⟨rfl, rfl⟩)
  rintro _ rfl
  rfl

/-- The job that has been taken up is lost before it has begun. -/
theorem Told.miss {job : Job} {start : Bool} (h : c.Told log) (hw : c.pipeline.worker = .decided job start) :
    { c with pipeline := { c.pipeline with worker := .idle }.breakOff job.call }.Told
      (log ++ [Mark.missed (!start)].map (job.call, ·)) := by
  obtain ⟨hq, hi⟩ := breakOff_eq { c.pipeline with worker := .idle } job.call
  refine h.done (by rw [hw]; rfl) hi hq (reply?_breakOff _ _) ?_ (Or.inr ⟨rfl, rfl⟩)
  rw [hw]
  rintro _ rfl
  cases start <;> rfl

theorem Told.step_work {p : Pipeline} {s : Shared} (h : c.Told log)
    (hs : Pipeline.Step c.isCancelledAt c.pipeline c.shared p s) :
    { c with pipeline := p, shared := s }.Told (log ++ (c.mark? .work).toList) := by
  cases hs with
  | @take job rest hw hq =>
    have hmark : (c.mark? .work).toList = [.taken (c.isCancelledAt job.call)].map (job.call, ·) := by
      simp [mark?, hw, hq]
    rw [hmark]
    exact h.take hw hq
  | @begin job hw =>
    have hmark : (c.mark? .work).toList = [.began].map (job.call, ·) := by simp [mark?, hw]
    rw [hmark]
    refine h.going (by rw [hw]; rfl) rfl ?_
    rw [hw]
    rintro _ rfl
    rfl
  | @skip job hw =>
    have hmark : (c.mark? .work).toList = [].map (job.call, ·) := by simp [mark?, hw]
    rw [hmark]
    refine h.going (by rw [hw]; rfl) rfl ?_
    rw [hw]
    rintro _ rfl
    rfl
  | @operate job result files hw ho =>
    have hmark : (c.mark? .work).toList = [.finished (.returned result)].map (job.call, ·) := by simp [mark?, hw, ho]
    rw [hmark]
    refine h.going (by rw [hw]; rfl) rfl ?_
    rw [hw]
    rintro _ rfl
    rfl
  | @announce job result hw =>
    have hmark : (c.mark? .work).toList = [].map (job.call, ·) := by simp [mark?, hw]
    rw [hmark]
    refine h.going (by rw [hw]; rfl) rfl ?_
    rw [hw]
    rintro _ rfl
    rfl
  | @keep job product hw =>
    have hmark : (c.mark? .work).toList = [].map (job.call, ·) := by simp [mark?, hw]
    rw [hmark]
    refine h.going (by rw [hw]; rfl) rfl fun rest hr => ?_
    rw [hw] at hr
    rwa [List.append_nil]
  | @clear job failure hw =>
    have hmark : (c.mark? .work).toList = [].map (job.call, ·) := by simp [mark?, hw]
    rw [hmark]
    refine h.going (by rw [hw]; rfl) rfl fun rest hr => ?_
    rw [hw] at hr
    rwa [List.append_nil]
  | @crash job files hw ho =>
    have hmark : (c.mark? .work).toList = [.finished .crashed].map (job.call, ·) := by simp [mark?, hw, ho]
    obtain ⟨hq, hi⟩ := breakOff_eq { c.pipeline with worker := .idle } job.call
    rw [hmark]
    refine h.done (by rw [hw]; rfl) hi hq (reply?_breakOff _ _) ?_ (Or.inr ⟨rfl, rfl⟩)
    rw [hw]
    rintro _ rfl
    rfl
  | @reply job result hw =>
    have hmark : (c.mark? .work).toList = [].map (job.call, ·) := by simp [mark?, hw]
    obtain ⟨hq, hi, -⟩ := send_eq { c.pipeline with worker := .idle } c.shared job.call result
    rw [hmark]
    refine h.done (by rw [hw]; rfl) hi hq (fun j => reply?_send _ _ _ j _) (fun rest hr => ?_) (Or.inl rfl)
    rw [hw] at hr
    rwa [List.append_nil]

theorem Told.enter (h : c.Told log) (x : Call) (hs : x.stage = .fresh) (content : Option Octets) :
    (c.enter x content).Told log := by
  have hnew : ∀ j y, (c.calls ++ [x])[j]? = some y → c.calls[j]? = some y ∨ j = c.calls.length ∧ y = x := by
    intro j y hy
    rcases Nat.lt_or_ge j c.calls.length with hl | hl
    · exact Or.inl ((List.getElem?_append_left hl).symm.trans hy)
    · rw [List.getElem?_append_right hl, List.getElem?_singleton] at hy
      split at hy
      · cases hy
        exact Or.inr ⟨by omega, rfl⟩
      · cases hy
  refine ⟨h.nodup, fun job hj => ?_, fun j y hy => ?_, fun j hl => ?_⟩
  · obtain ⟨y, hy, he⟩ := h.own job hj
    exact ⟨y, (List.getElem?_append_left (List.getElem?_eq_some_iff.mp hy).1).trans hy, he⟩
  · rcases hnew j y hy with hy | ⟨rfl, rfl⟩
    · exact h.tells j y hy
    · have ha := h.absent _ (Nat.le_refl c.calls.length)
      rw [hs]
      exact ⟨h.gone_of_absent (Nat.le_refl _), ha.1, ha.2⟩
  · have hle : c.calls.length ≤ (c.calls ++ [x]).length := by simp
    exact h.absent j (Nat.le_trans hle hl)

/-- A call moves to another stage, while nothing changes for the pipeline. -/
theorem Told.move {stage : Stage} {marks : List Mark} {s : Shared} (h : c.Told log) (hx : c.calls[i]? = some x)
    (hi : x.stage.Tells (c.pipeline.place i) (c.pipeline.reply? i) (story i log) →
      stage.Tells (c.pipeline.place i) (c.pipeline.reply? i) (story i log ++ marks)) :
    ({ c with shared := s }.move i x stage).Told (log ++ marks.map (i, ·)) :=
  h.concerning hx rfl h.nodup (fun _ hm => Or.inl hm) (fun _ _ => ⟨rfl, rfl⟩) (hi (h.tells i x hx))

/-- The job of a call is put in line. -/
theorem Told.push (h : c.Told log) (hx : c.calls[i]? = some x) (hs : x.stage = .ready) :
    ({ c with pipeline := c.pipeline.push (x.job i) }.move i x .waiting).Told (log ++ [Mark.queued].map (i, ·)) := by
  have ht := h.tells i x hx
  rw [hs] at ht
  obtain ⟨hp, -, hl⟩ := ht
  have hjobs : (c.pipeline.push (x.job i)).jobs = c.pipeline.jobs ++ [x.job i] := (List.append_assoc ..).symm
  have hnew := not_mem_of_gone hp
  have hplace : ∀ j, (c.pipeline.push (x.job i)).place j = if j = i then .line else c.pipeline.place j :=
    place_push c.pipeline (x.job i) hnew
  have hreply : (c.pipeline.push (x.job i)).reply? i = some .expected := reply?_setReply ..
  refine h.concerning hx rfl ?_ (fun job hm => ?_)
    (fun j hne => ⟨(hplace j).trans (if_neg hne), reply?_setReply_of_ne _ hne⟩) ?_
  · change ((c.pipeline.push (x.job i)).jobs.map (·.call)).Nodup
    rw [hjobs, List.map_append]
    refine List.nodup_append.mpr ⟨h.nodup, List.nodup_singleton _, fun j hj k hk he => hnew ?_⟩
    rwa [← show k = i from List.mem_singleton.mp hk, ← he]
  · change job ∈ (c.pipeline.push (x.job i)).jobs at hm
    rw [hjobs] at hm
    exact (List.mem_append.mp hm).imp_right List.mem_singleton.mp
  · change Stage.waiting.Tells ((c.pipeline.push (x.job i)).place i) ((c.pipeline.push (x.job i)).reply? i) _
    rw [hplace, if_pos rfl, hl, hreply]
    exact ⟨[], rfl, rfl, Place.line_ne_gone⟩

/-- A call that waits no longer listens. -/
theorem Told.hangUp {stage : Stage} (h : c.Told log) (hx : c.calls[i]? = some x)
    (hi : stage.Tells (c.pipeline.place i) none (story i log)) :
    ({ c with pipeline := c.pipeline.hangUp i }.move i x stage).Told log := by
  have hc : ({ c with pipeline := c.pipeline.hangUp i }.move i x stage).Told (log ++ [].map (i, ·)) := by
    refine h.concerning hx rfl h.nodup (fun _ hm => Or.inl hm) (fun j hj => ⟨rfl, reply?_hangUp_of_ne hj⟩) ?_
    rw [List.append_nil]
    exact reply?_hangUp c.pipeline i ▸ hi
  rwa [List.map_nil, List.append_nil] at hc

theorem Step.told (h : c.Told log) (hs : Step c action d) : d.Told (log ++ (c.mark? action).toList) := by
  cases hs with
  | enter =>
    rw [show (c.mark? _).toList = [] from rfl, List.append_nil]
    exact h.enter _ rfl _
  | cancel | close =>
    rw [show (c.mark? _).toList = [] from rfl, List.append_nil]
    exact ⟨h.nodup, h.own, h.tells, h.absent⟩
  | @look i x hx hst =>
    have hmark : (c.mark? (.begin i)).toList = [.looked (c.isCancelled x)].map (i, ·) := by simp [mark?, hx]
    rw [hmark]
    refine h.move hx fun ht => ?_
    rw [hst] at ht
    obtain ⟨hp, hr, hl⟩ := ht
    rw [hl]
    cases c.isCancelled x with
    | true => exact ⟨hp, hr, rfl⟩
    | false => exact ⟨hp, hr, rfl⟩
  | @clear i x heard hx hst =>
    have hmark : (c.mark? (.clear i)).toList = [].map (i, ·) := rfl
    rw [hmark]
    refine h.move hx fun ht => ?_
    rw [hst] at ht
    obtain ⟨hp, hr, hl⟩ := ht
    rw [hl]
    cases heard with
    | true => exact ⟨hp, hr, rfl⟩
    | false => exact ⟨hr, Or.inl ⟨hp, Or.inr rfl⟩⟩
  | @drop i x hx hst =>
    have hmark : (c.mark? (.abandon i)).toList = [].map (i, ·) := rfl
    rw [hmark]
    refine h.move hx fun ht => ?_
    rw [hst] at ht
    obtain ⟨hp, hr, hl⟩ := ht
    rw [hl]
    exact ⟨hr, Or.inl ⟨hp, Or.inl rfl⟩⟩
  | @flee i x hx hst =>
    have hmark : (c.mark? (.abandon i)).toList = [].map (i, ·) := rfl
    rw [hmark]
    refine h.move hx fun ht => ?_
    rw [hst] at ht
    obtain ⟨hp, hr, hl⟩ := ht
    rw [hl]
    exact ⟨hp, hr, rfl⟩
  | @push i x hx hst hg =>
    have hmark : (c.mark? (.push i)).toList = [.queued].map (i, ·) := by simp [mark?, hg]
    rw [hmark]
    exact h.push hx hst
  | @turn i x hx hst hg =>
    have hmark : (c.mark? (.push i)).toList = [.turned].map (i, ·) := by simp [mark?, hg]
    rw [hmark]
    refine h.move hx fun ht => ?_
    rw [hst] at ht
    obtain ⟨hp, hr, hl⟩ := ht
    rw [hl]
    exact ⟨hp, hr, rfl⟩
  | @collect i x result p hx hst hr =>
    rw [show (c.mark? _).toList = [] from rfl, List.append_nil]
    obtain ⟨rfl, hrep⟩ := eq_of_collect? hr
    refine h.hangUp hx ?_
    have ht := h.tells i x hx
    rw [hst] at ht
    obtain ⟨rest, hl, -, ha⟩ := ht
    rcases hrep with hrep | ⟨hrep, rfl⟩
    · rw [hrep] at ha
      exact ⟨ha.1, rfl, ha.2⟩
    · rw [hrep] at ha
      exact ⟨ha.1, rfl, ha.2⟩
  | @hangUp i x hx hst =>
    rw [show (c.mark? _).toList = [] from rfl, List.append_nil]
    refine h.hangUp hx ?_
    have ht := h.tells i x hx
    rw [hst] at ht
    obtain ⟨rest, hl, hp, -⟩ := ht
    exact ⟨rfl, Or.inr ⟨rest, hl, hp⟩⟩
  | work _ hs => exact h.step_work hs
  | @lose job rest _ hq =>
    have hmark : (c.mark? .lose).toList = [.lost].map (job.call, ·) := by simp [mark?, hq]
    rw [hmark]
    exact h.lose hq
  | @miss job start _ hw =>
    have hmark : (c.mark? .miss).toList = [.missed (!start)].map (job.call, ·) := by simp [mark?, hw]
    rw [hmark]
    exact h.miss hw

theorem log_cons {e : Calls} (h : c.step? action = some e) (rest : List Action) :
    c.log (action :: rest) = (c.mark? action).toList ++ e.log rest := by
  rw [Calls.log, h]

theorem log_append {earlier later : List Action} (h : c.run? earlier = some d) :
    c.log (earlier ++ later) = c.log earlier ++ d.log later := by
  induction earlier generalizing c with
  | nil =>
    cases h
    rfl
  | cons action rest ih =>
    obtain ⟨e, he, hr⟩ := Option.bind_eq_some_iff.mp h
    rw [List.cons_append, log_cons he, log_cons he, ih hr, List.append_assoc]

/-- All that is known holds in every run. -/
theorem told_run {actions : List Action} (h : c.Told log) (hr : c.run? actions = some d) :
    d.Told (log ++ c.log actions) := by
  induction actions generalizing c log with
  | nil =>
    cases hr
    simpa [Calls.log] using h
  | cons action rest ih =>
    obtain ⟨e, he, hr⟩ := Option.bind_eq_some_iff.mp hr
    have hd := ih ((step_of_step? he).told h) hr
    rwa [log_cons he, ← List.append_assoc]

end Calls

end SealedDownload.Pipeline
