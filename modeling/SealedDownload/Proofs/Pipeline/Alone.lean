import SealedDownload.Proofs.Pipeline.Steps

/-! A call that has the pipeline for itself. Nothing is ahead of its job and nothing comes between, so that it goes from
    stage to stage, and the call gets what its work has returned. -/

namespace SealedDownload.Pipeline.Calls

variable {c : Calls} {i : Nat} {x : Call} {worker : Worker} {files files' : Files}
  {result : Except Failure Product}

/-- A call has not begun, its token is not cancelled, and no job is ahead of it. -/
structure IsFree (c : Calls) (i : Nat) (x : Call) : Prop where
  call : c.calls[i]? = some x
  fresh : x.stage = .fresh
  uncancelled : c.isCancelled x = false
  queue : c.pipeline.queue = []
  worker : c.pipeline.worker = .idle
  /-- and there is a worker -/
  there : c.gone = false

/-- What happens when a call is made and nothing comes between: it hands in its job, the worker does it, and the call
    takes the reply. -/
def alone (i : Nat) : List Action :=
  [.begin i, .push i] ++ [.work, .work, .work, .work, .work, .work, .collect i]

/-- The files that are left when a job has ended in some way. -/
def leftBy (ciphertext : Path) (files : Files) : Except Failure Product → Files
  | .ok _ => files
  | .error _ => files.erase ciphertext

/-- The pipeline serves a call that waits: where the worker is, and the files. -/
structure Serves (c : Calls) (i : Nat) (x : Call) (worker : Worker) (files : Files) : Prop where
  call : c.calls[i]? = some { x with stage := .waiting }
  uncancelled : c.isCancelled x = false
  worker : c.pipeline.worker = worker
  there : c.gone = false
  reply : c.pipeline.reply? i = some .expected
  files : c.shared.files = files

/-- The worker is there and can go on. -/
theorem step?_work_of_there {p : Pipeline} {s : Shared} (hg : c.gone = false)
    (hs : c.pipeline.step? c.isCancelledAt c.shared = some (p, s)) :
    c.step? .work = some { c with pipeline := p, shared := s } := by
  rw [step?, work?, hs, if_neg (by simp [hg])]
  rfl

theorem Serves.work (h : Serves c i x worker files) {p : Pipeline} {s : Shared}
    (hs : c.pipeline.step? c.isCancelledAt c.shared = some (p, s)) (hr : p.replies = c.pipeline.replies) :
    ∃ d, c.step? .work = some d ∧ Serves d i x p.worker s.files := by
  refine ⟨{ c with pipeline := p, shared := s }, step?_work_of_there h.there hs, h.call, h.uncancelled, rfl, h.there, ?_,
    rfl⟩
  rw [← h.reply, reply?, hr]
  rfl

theorem Serves.takes (h : Serves c i x .idle files) (hq : c.pipeline.queue = [x.job i]) :
    ∃ d, c.step? .work = some d ∧ Serves d i x (.decided (x.job i) true) files := by
  have hc : c.isCancelledAt (x.job i).call = false := by
    have hi : c.isCancelledAt (x.job i).call = c.isCancelled x := by
      rw [isCancelledAt, Call.job, h.call]
      rfl
    rw [hi, h.uncancelled]
  have hs : c.pipeline.step? c.isCancelledAt c.shared =
      some ({ c.pipeline with queue := [], worker := .decided (x.job i) true }, c.shared) := by
    simp only [Pipeline.step?, h.worker, hq, hc, Bool.not_false]
  rw [← h.files]
  exact h.work hs rfl

theorem Serves.begins (h : Serves c i x (.decided (x.job i) true) files) :
    ∃ d, c.step? .work = some d ∧ Serves d i x (.operating (x.job i)) files := by
  have hs : c.pipeline.step? c.isCancelledAt c.shared =
      some ({ c.pipeline with worker := .operating (x.job i) }, c.shared.announce (.decryptionStarted x.id)) := by
    rw [Pipeline.step?, h.worker]
    rfl
  rw [← h.files]
  exact h.work hs rfl

theorem Serves.operates (h : Serves c i x (.operating (x.job i)) files)
    (hw : x.work files x.ciphertext = (.returned result, files')) :
    ∃ d, c.step? .work = some d ∧ Serves d i x (.operated (x.job i) result) files' := by
  have hj : (x.job i).work c.shared.files (x.job i).ciphertext = (.returned result, files') := by
    rw [h.files]
    exact hw
  have hs : c.pipeline.step? c.isCancelledAt c.shared =
      some ({ c.pipeline with worker := .operated (x.job i) result }, { c.shared with files := files' }) := by
    simp only [Pipeline.step?, h.worker, hj]
  exact h.work hs rfl

theorem Serves.announces (h : Serves c i x (.operated (x.job i) result) files) :
    ∃ d, c.step? .work = some d ∧ Serves d i x (.announced (x.job i) result) files := by
  have hs : c.pipeline.step? c.isCancelledAt c.shared =
      some ({ c.pipeline with worker := .announced (x.job i) result }, c.shared.announce (ending x.id result)) := by
    rw [Pipeline.step?, h.worker]
    rfl
  rw [← h.files]
  exact h.work hs rfl

theorem Serves.clears (h : Serves c i x (.announced (x.job i) result) files) :
    ∃ d, c.step? .work = some d ∧ Serves d i x (.cleared (x.job i) result) (leftBy x.ciphertext files result) := by
  have hs : ∃ s, c.pipeline.step? c.isCancelledAt c.shared =
      some ({ c.pipeline with worker := .cleared (x.job i) result }, s) ∧
        s.files = leftBy x.ciphertext files result := by
    rw [Pipeline.step?, h.worker, ← h.files]
    cases result <;> exact ⟨_, rfl, rfl⟩
  obtain ⟨s, hs, hf⟩ := hs
  rw [← hf]
  exact h.work hs rfl

theorem Serves.replies (h : Serves c i x (.cleared (x.job i) result) files) :
    ∃ d, c.step? .work = some d ∧ d.calls[i]? = some { x with stage := .waiting } ∧
      d.pipeline.reply? i = some (.arrived result) ∧ d.shared.files = files := by
  have hr : (({ c.pipeline with worker := .idle } : Pipeline).reply? i).isSome = true := by
    have hr : ({ c.pipeline with worker := .idle } : Pipeline).reply? i = some .expected := h.reply
    rw [hr]
    rfl
  have hs : c.pipeline.step? c.isCancelledAt c.shared =
      some ({ c.pipeline with worker := .idle }.setReply i (.arrived result), c.shared) := by
    rw [Pipeline.step?, h.worker]
    exact congrArg some (if_pos hr)
  exact ⟨{ c with pipeline := { c.pipeline with worker := .idle }.setReply i (.arrived result) },
    step?_work_of_there h.there hs, h.call, reply?_setReply .., h.files⟩

theorem exists_collected (hx : c.calls[i]? = some { x with stage := .waiting })
    (hr : c.pipeline.reply? i = some (.arrived result)) :
    ∃ d, c.step? (.collect i) = some d ∧ (d.calls[i]?).bind Call.result? = some result ∧
      d.shared.files = c.shared.files := by
  have hc : c.pipeline.collect? i = some (result, c.pipeline.hangUp i) := by
    rw [Pipeline.collect?, hr]
  refine ⟨{ c with pipeline := c.pipeline.hangUp i }.move i { x with stage := .waiting } (.ended result), ?_, ?_, rfl⟩
  · simp only [step?, collect?, hx, Option.bind_eq_bind, Option.bind_some, hc]
  · have hi : i < c.calls.length := (List.getElem?_eq_some_iff.mp hx).1
    have hd : ({ c with pipeline := c.pipeline.hangUp i }.move i { x with stage := .waiting } (.ended result)).calls[i]? =
        some { x with stage := .ended result } := List.getElem?_set_self hi
    rw [hd]
    rfl

theorem run?_append (c : Calls) (earlier later : List Action) :
    c.run? (earlier ++ later) = (c.run? earlier).bind (·.run? later) := by
  induction earlier generalizing c with
  | nil => rfl
  | cons action rest ih =>
    rw [List.cons_append, run?, run?, Option.bind_assoc]
    exact congrArg _ (funext ih)

/-- A call hands in its job, and nothing is ahead of it. -/
theorem IsFree.handsIn (h : c.IsFree i x) :
    ∃ d, c.run? [.begin i, .push i] = some d ∧ Serves d i x .idle c.shared.files ∧ d.pipeline.queue = [x.job i] := by
  have hi : i < c.calls.length := (List.getElem?_eq_some_iff.mp h.call).1
  have hbegin : c.step? (.begin i) = some (c.move i x .ready) := by
    simp only [step?, begin?, h.call, Option.bind_eq_bind, Option.bind_some, h.fresh, h.uncancelled, Bool.false_eq_true,
      if_false]
  have hready : (c.move i x .ready).calls[i]? = some { x with stage := .ready } := List.getElem?_set_self hi
  let d := { c.move i x .ready with pipeline := c.pipeline.push (x.job i) }.move i { x with stage := .ready } .waiting
  have hthere : (c.move i x .ready).gone = false := h.there
  have hpush : (c.move i x .ready).step? (.push i) = some d := by
    simp only [step?, push?, hready, Option.bind_eq_bind, Option.bind_some, handIn, hthere, Bool.false_eq_true, if_false]
    exact congrArg (fun gone => some { d with gone }) hthere.symm
  have hl : (c.move i x .ready).calls.length = c.calls.length := List.length_set ..
  have hd : d.calls[i]? = some { x with stage := .waiting } := List.getElem?_set_self (Nat.lt_of_lt_of_eq hi hl.symm)
  have hq : d.pipeline.queue = [x.job i] := congrArg (· ++ [x.job i]) h.queue
  refine ⟨d, by simp only [run?, hbegin, hpush, Option.bind_some], ⟨hd, h.uncancelled, h.worker, h.there, ?_, rfl⟩, hq⟩
  exact reply?_setReply { c.pipeline with queue := c.pipeline.queue ++ [x.job i] } i .expected

/-- A call that has the pipeline for itself gets what its work has returned. -/
theorem IsFree.run?_alone (h : c.IsFree i x) (hw : x.work c.shared.files x.ciphertext = (.returned result, files)) :
    ∃ d, c.run? (alone i) = some d ∧ (d.calls[i]?).bind Call.result? = some result ∧
      d.shared.files = leftBy x.ciphertext files result := by
  obtain ⟨c₀, h₀, hs, hq⟩ := h.handsIn
  obtain ⟨c₁, h₁, hs⟩ := hs.takes hq
  obtain ⟨c₂, h₂, hs⟩ := hs.begins
  obtain ⟨c₃, h₃, hs⟩ := hs.operates hw
  obtain ⟨c₄, h₄, hs⟩ := hs.announces
  obtain ⟨c₅, h₅, hs⟩ := hs.clears
  obtain ⟨c₆, h₆, hx, hr, hf⟩ := hs.replies
  obtain ⟨d, hc, hresult, hfiles⟩ := exists_collected hx hr
  refine ⟨d, ?_, hresult, hfiles.trans hf⟩
  rw [alone, run?_append, h₀, Option.bind_some]
  simp only [run?, h₁, h₂, h₃, h₄, h₅, h₆, hc, Option.bind_some]

end SealedDownload.Pipeline.Calls
