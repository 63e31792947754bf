import SealedDownload.Proofs.Pipeline.Marks

/-! How far the worker is from the end of a job. Every step of the worker brings every job closer to its end, and
    nothing else puts one off, so that a call that waits has its reply after a number of steps of the worker that
    is known beforehand. A job that is lost with the worker is over sooner. -/

namespace SealedDownload

/-- How many steps the worker takes at most until it has done with its job. -/
def Worker.left : Worker → Nat
  | .idle => 0
  | .decided _ true => 5
  | .decided _ false => 3
  | .operating _ => 4
  | .operated .. => 3
  | .announced .. => 2
  | .cleared .. => 1

theorem Worker.left_pos {w : Worker} {job : Job} (h : w.job? = some job) : 0 < w.left := by
  cases w with
  | idle => cases h
  | decided job start => cases start <;> exact Nat.succ_pos _
  | _ => exact Nat.succ_pos _

theorem Worker.left_decided_le (job : Job) (start : Bool) : (Worker.decided job start).left ≤ 5 := by
  cases start <;> simp [left]

namespace Pipeline

/-- How many steps of the worker a job takes at most. -/
def stepsPerJob : Nat := 6

/-- How many jobs are in line until the one of a call, which counts too. -/
def rank (i : Nat) (queue : List Job) : Nat := (queue.takeWhile (·.call ≠ i)).length + 1

/-- How many steps the worker takes at most until the job of a call is over. -/
def due (p : Pipeline) (i : Nat) : Nat :=
  match p.place i with
  | .gone => 0
  | .hand w => w.left
  | .line => p.worker.left + stepsPerJob * rank i p.queue

variable {p p' : Pipeline} {s s' : Shared} {isCancelled : Nat → Bool} {i : Nat} {job : Job}

theorem place_eq_hand {w : Worker} (h : p.place i = .hand w) :
    w = p.worker ∧ ∃ job, p.worker.job? = some job ∧ job.call = i := by
  unfold place at h
  split at h
  · rename_i hw
    cases h
    obtain ⟨job, hj, he⟩ := (Option.any_eq_true ..).mp hw
    exact ⟨rfl, job, hj, of_decide_eq_true he⟩
  · split at h <;> cases h

theorem place_of_due (h : p.due i = 0) : p.place i = .gone := by
  unfold due at h
  split at h
  · assumption
  · rename_i w hw
    obtain ⟨rfl, job, hj, -⟩ := place_eq_hand hw
    exact absurd h (Nat.ne_of_gt (Worker.left_pos hj))
  · unfold stepsPerJob rank at h
    omega

theorem rank_cons (h : i ≠ job.call) (rest : List Job) : rank i (job :: rest) = rank i rest + 1 := by
  rw [rank, List.takeWhile_cons_of_pos (by simpa using Ne.symm h)]
  rfl

theorem rank_self (rest : List Job) : rank job.call (job :: rest) = 1 := by
  rw [rank, List.takeWhile_cons_of_neg (by simp)]
  rfl

theorem rank_append {queue : List Job} (h : ∃ other ∈ queue, other.call = i) (later : List Job) :
    rank i (queue ++ later) = rank i queue := by
  induction queue with
  | nil =>
    obtain ⟨other, hm, -⟩ := h
    cases hm
  | cons first rest ih =>
    by_cases hf : i = first.call
    · subst hf
      rw [List.cons_append, rank_self, rank_self]
    · rw [List.cons_append, rank_cons hf, rank_cons hf, ih]
      obtain ⟨other, hm, rfl⟩ := h
      rcases List.mem_cons.mp hm with rfl | hm
      · exact absurd rfl hf
      · exact ⟨other, hm, rfl⟩

/-- A step of the worker that keeps its job. -/
theorem due_of_worker {w : Worker} (hw : p.worker.job? = some job) (hw' : w.job? = some job)
    (hl : w.left ≤ p.worker.left - 1) (i : Nat) : { p with worker := w }.due i ≤ p.due i - 1 := by
  unfold due
  rw [place_of_worker hw hw' i]
  by_cases hi : i = job.call
  · subst hi
    rw [if_pos rfl, place_hand hw]
    exact hl
  · rw [if_neg hi]
    cases hp : p.place i with
    | gone => exact Nat.le_refl _
    | hand w =>
      obtain ⟨-, other, hj, he⟩ := place_eq_hand hp
      rw [hw] at hj
      cases hj
      exact absurd he.symm hi
    | line =>
      have hpos := Worker.left_pos hw
      change w.left + stepsPerJob * rank i p.queue ≤ p.worker.left + stepsPerJob * rank i p.queue - 1
      omega

/-- The last step of the worker on its job. -/
theorem due_of_done (hn : (p.jobs.map (·.call)).Nodup) (hw : p.worker.job? = some job) (hw' : p'.worker = .idle)
    (hq : p'.queue = p.queue) (i : Nat) : p'.due i ≤ p.due i - 1 := by
  unfold due
  rw [place_of_done hn hw hw' hq i]
  by_cases hi : i = job.call
  · subst hi
    rw [if_pos rfl]
    exact Nat.zero_le _
  · rw [if_neg hi]
    cases hp : p.place i with
    | gone => exact Nat.le_refl _
    | hand w =>
      obtain ⟨-, other, hj, he⟩ := place_eq_hand hp
      rw [hw] at hj
      cases hj
      exact absurd he.symm hi
    | line =>
      have hpos := Worker.left_pos hw
      have h0 : p'.worker.left = 0 := by rw [hw']; rfl
      change p'.worker.left + stepsPerJob * rank i p'.queue ≤ p.worker.left + stepsPerJob * rank i p.queue - 1
      rw [hq, h0]
      omega

/-- Every step of the worker brings every job closer to its end. -/
theorem Step.due_le (h : Step isCancelled p s p' s') (hn : (p.jobs.map (·.call)).Nodup) (i : Nat) :
    p'.due i ≤ p.due i - 1 := by
  cases h with
  | @take job rest hw hq =>
    have hl := Worker.left_decided_le job (!isCancelled job.call)
    have h0 : p.worker.left = 0 := by rw [hw]; rfl
    have hm : job ∈ p.queue := hq ▸ List.mem_cons_self
    unfold due
    rw [place_of_taken (w := .decided job (!isCancelled job.call)) hw hq rfl i]
    by_cases hi : i = job.call
    · subst hi
      rw [if_pos rfl, place_of_mem_queue hn hm]
      change (Worker.decided job _).left ≤ p.worker.left + stepsPerJob * rank job.call p.queue - 1
      unfold stepsPerJob rank
      omega
    · rw [if_neg hi]
      cases hp : p.place i with
      | gone => exact Nat.le_refl _
      | hand w =>
        obtain ⟨-, other, hj, -⟩ := place_eq_hand hp
        rw [hw] at hj
        cases hj
      | line =>
        change (Worker.decided job _).left + stepsPerJob * rank i rest ≤
          p.worker.left + stepsPerJob * rank i p.queue - 1
        rw [hq, rank_cons hi]
        unfold stepsPerJob
        omega
  | begin hw | skip hw | operate hw | announce hw | keep hw | clear hw =>
    exact due_of_worker (by rw [hw]; rfl) rfl (by rw [hw]; exact Nat.le_refl _) i
  | @crash job files hw =>
    obtain ⟨hq, hi⟩ := breakOff_eq { p with worker := .idle } job.call
    exact due_of_done hn (by rw [hw]; rfl) hi hq i
  | @reply job result hw =>
    obtain ⟨hq, hi, -⟩ := send_eq { p with worker := .idle } s job.call result
    exact due_of_done hn (by rw [hw]; rfl) hi hq i

/-- The first job in line is lost: no other one is put off. -/
theorem due_of_lost {rest : List Job} (hn : (p.jobs.map (·.call)).Nodup) (hq : p.queue = job :: rest)
    (hw' : p'.worker = p.worker) (hq' : p'.queue = rest) (i : Nat) : p'.due i ≤ p.due i := by
  unfold due
  rw [place_of_lost hn hq hw' hq' i]
  by_cases hi : i = job.call
  · rw [if_pos hi]
    exact Nat.zero_le _
  · rw [if_neg hi]
    cases p.place i with
    | gone | hand => exact Nat.le_refl _
    | line =>
      change p'.worker.left + stepsPerJob * rank i p'.queue ≤ p.worker.left + stepsPerJob * rank i p.queue
      rw [hw', hq', hq, rank_cons hi]
      unfold stepsPerJob
      omega

/-- A job that is put in line puts off no other one. -/
theorem due_push (h : job.call ∉ p.jobs.map (·.call)) (hi : i ≠ job.call) : (p.push job).due i = p.due i := by
  unfold due
  rw [place_push p job h, if_neg hi]
  cases hp : p.place i with
  | gone | hand => rfl
  | line =>
    have hq : ∃ other ∈ p.queue, other.call = i := by
      unfold place at hp
      split at hp
      · cases hp
      · split at hp
        · rename_i hq
          obtain ⟨other, ho, he⟩ := List.any_eq_true.mp hq
          exact ⟨other, ho, of_decide_eq_true he⟩
        · cases hp
    change p.worker.left + stepsPerJob * rank i (p.queue ++ [job]) = _
    rw [rank_append hq]

/-! ### Calls -/

namespace Calls

/-- How many steps of the worker are among actions. -/
def works : List Action → Nat
  | [] => 0
  | .work :: rest => works rest + 1
  | _ :: rest => works rest

variable {c d : Calls} {log : List (Nat × Mark)} {action : Action}

theorem Step.due_le (h : Step c action d) (ht : c.Told log) (hq : .queued ∈ story i log) :
    d.pipeline.due i ≤ c.pipeline.due i - works [action] := by
  cases h with
  | enter | cancel | look | turn | clear | drop | flee | hangUp | close => exact Nat.le_refl _
  | collect hc hs hr =>
    obtain ⟨rfl, -⟩ := eq_of_collect? hr
    exact Nat.le_refl _
  | @lose job rest _ hq =>
    obtain ⟨hq', hw'⟩ := breakOff_eq { c.pipeline with queue := rest } job.call
    exact due_of_lost ht.nodup hq hw' hq' i
  | @miss job start _ hw =>
    obtain ⟨hq', hi⟩ := breakOff_eq { c.pipeline with worker := .idle } job.call
    exact Nat.le_trans (due_of_done ht.nodup (by rw [hw]; rfl) hi hq' i) (Nat.sub_le ..)
  | @push j x hc hs =>
    have hj := ht.tells j x hc
    rw [hs] at hj
    obtain ⟨hp, -, hl⟩ := hj
    have hne : i ≠ j := by
      rintro rfl
      rw [hl] at hq
      cases List.mem_singleton.mp hq
    exact Nat.le_of_eq (due_push (not_mem_of_gone hp) hne)
  | work _ hs => exact hs.due_le ht.nodup i

/-- A job that has been handed in is over after that many steps of the worker, whatever else happens. -/
theorem due_run {more : List Action} (h : c.Told log) (hq : .queued ∈ story i log) (hr : c.run? more = some d) :
    d.pipeline.due i ≤ c.pipeline.due i - works more := by
  induction more generalizing c log with
  | nil =>
    cases hr
    exact Nat.le_refl _
  | cons action rest ih =>
    obtain ⟨e, he, hr⟩ := Option.bind_eq_some_iff.mp hr
    have hs := step_of_step? he
    have hd := hs.due_le h hq
    have hrest := ih (hs.told h) (by rw [story_append]; exact List.mem_append_left _ hq) hr
    have hw : works (action :: rest) = works [action] + works rest := by
      cases action <;> simp [works, Nat.add_comm]
    omega

end Calls

end Pipeline
end SealedDownload
