import SealedDownload.Proofs.Pipeline.Announcements
import SealedDownload.Proofs.Pipeline.Clearing
import SealedDownload.Proofs.Pipeline.Progress

/-! When a failure is announced. The worker announces it before it removes the ciphertext: whoever hears of a failure
    may find the file as the work has left it, until the worker has made one more step. The call itself is told
    only after that. -/

namespace SealedDownload.Pipeline

theorem due_hand {p : Pipeline} {job : Job} (hw : p.worker.job? = some job) : p.due job.call = p.worker.left := by
  unfold due
  rw [place_hand hw]

namespace Calls

variable {c d e : Calls} {log : List (Nat × Mark)} {i : Nat} {x y : Call} {action : Action}
  {actions : List Action} {shared : Shared} {job : Job} {failure : Failure}

/-! ### The announcement -/

/-- Only the worker announces anything. -/
theorem Step.sent (h : Step c action d) : d.shared.events.sent = c.shared.events.sent ∨
    action = .work ∧ d.shared.events.sent = c.shared.events.sent ++ c.pipeline.news := by
  cases h with
  | enter =>
    rename_i content
    cases content <;> exact Or.inl rfl
  | cancel | look | push | turn | clear | collect | drop | flee | hangUp | close | lose | miss => exact Or.inl rfl
  | work _ hs => exact Or.inr ⟨rfl, hs.news⟩

/-- A failure is announced right after the work that has failed. -/
theorem Step.operated_of_failed {id : TransferId} {message : String} (h : Step c action d)
    (hs : d.shared.events.sent = c.shared.events.sent ++ [.decryptionFailed id message]) :
    ∃ job failure, action = .work ∧ c.pipeline.worker = .operated job (.error failure) ∧ job.id = id ∧
      failure.message = message ∧ d = { c with
        pipeline := { c.pipeline with worker := .announced job (.error failure) }
        shared := c.shared.announce (.decryptionFailed id message) } := by
  rcases h.sent with hn | ⟨rfl, hn⟩
  · rw [hn] at hs
    simpa using congrArg List.length hs
  · rw [hn] at hs
    have hnews := List.append_cancel_left hs
    cases h with
    | work _ hw =>
      cases hw with
      | take hw | skip hw | operate hw | crash hw | keep hw | clear hw | reply hw =>
        simp [news, hw] at hnews
      | begin hw => simp [news, hw] at hnews
      | @announce job result hw =>
        cases result with
        | ok product => simp [news, hw, ending] at hnews
        | error failure =>
          simp only [news, hw, ending, List.cons.injEq, and_true, Event.decryptionFailed.injEq] at hnews
          obtain ⟨rfl, rfl⟩ := hnews
          exact ⟨job, failure, rfl, hw, rfl, rfl, rfl⟩

/-! ### What the work has left -/

/-- After a work its ciphertext is as the work has left it. -/
def LeftByWork (c : Calls) : Prop :=
  ∀ job result, c.pipeline.worker = .operated job result → ∃ files, (job.work files job.ciphertext).1 = .returned result ∧
    c.shared.files.get? job.ciphertext = (job.work files job.ciphertext).2.get? job.ciphertext

/-- A job with the worker is the one of a call that is not over. -/
theorem Told.call_of_worker (h : c.Told log) (hw : c.pipeline.worker.job? = some job) :
    ∃ x, c.calls[job.call]? = some x ∧ job = x.job job.call ∧ (x.stage = .waiting ∨ x.stage = .abandoned) := by
  obtain ⟨x, hx, he⟩ := h.own job (List.mem_append_left _ (Option.mem_toList.mpr hw))
  refine ⟨x, hx, he, ?_⟩
  have ht := h.tells _ x hx
  rw [place_hand hw] at ht
  cases hs : x.stage with
  | fresh | ready | refused | ended =>
    rw [hs] at ht
    exact absurd ht.1 (Place.hand_ne_gone _)
  | waiting => exact Or.inl rfl
  | abandoned => exact Or.inr rfl

/-- A call that comes up leaves the ciphertexts of the others alone. -/
theorem get?_enter {content : Option Octets} (ha : (c.enter y content).Apart) (hx : c.calls[i]? = some x) :
    (c.enter y content).shared.files.get? x.ciphertext = c.shared.files.get? x.ciphertext := by
  have hlt := (List.getElem?_eq_some_iff.mp hx).1
  have hold : (c.calls ++ [y])[i]? = some x := (List.getElem?_append_left hlt).trans hx
  have hnew : (c.calls ++ [y])[c.calls.length]? = some y := by simp
  cases content with
  | none => rfl
  | some bytes => exact Files.get?_write_of_ne c.shared.files bytes (ha _ _ _ _ hold hnew (Nat.ne_of_lt hlt)).1

theorem LeftByWork.keep (h : c.LeftByWork) (hw : d.pipeline.worker = c.pipeline.worker)
    (hf : ∀ job result, c.pipeline.worker = .operated job result →
      d.shared.files.get? job.ciphertext = c.shared.files.get? job.ciphertext) : d.LeftByWork := by
  intro job result ho
  rw [hw] at ho
  obtain ⟨files, hr, hc⟩ := h job result ho
  exact ⟨files, hr, (hf job result ho).trans hc⟩

theorem LeftByWork.step_work {p : Pipeline} {s : Shared} (h : Pipeline.Step c.isCancelledAt c.pipeline c.shared p s) :
    { c with pipeline := p, shared := s }.LeftByWork := by
  intro job result ho
  cases h with
  | take | begin | skip | announce | keep | clear => cases ho
  | operate hw hwork =>
    cases ho
    exact ⟨c.shared.files, by rw [hwork], by rw [hwork]⟩
  | crash hw =>
    have hi := (breakOff_eq { c.pipeline with worker := .idle } _).2.symm.trans ho
    cases hi
  | reply hw =>
    have hi := (send_eq { c.pipeline with worker := .idle } c.shared _ _).2.1.symm.trans ho
    cases hi

theorem LeftByWork.step (hs : Step c action d) (ht : c.Told log) (ha : d.Apart) (h : c.LeftByWork) : d.LeftByWork := by
  have hapart := hs.apart ha
  cases hs with
  | enter =>
    refine h.keep rfl fun job result ho => ?_
    have hjob : c.pipeline.worker.job? = some job := by
      rw [ho]
      rfl
    obtain ⟨x, hx, he, -⟩ := ht.call_of_worker hjob
    rw [he]
    exact get?_enter ha hx
  | cancel | look | push | drop | flee | hangUp | close => exact h.keep rfl fun _ _ _ => rfl
  | collect hx hst hr =>
    obtain ⟨rfl, -⟩ := eq_of_collect? hr
    exact h.keep rfl fun _ _ _ => rfl
  | @clear i x _ hx hst | @turn i x hx hst =>
    refine h.keep rfl fun job result ho => ?_
    have hjob : c.pipeline.worker.job? = some job := by
      rw [ho]
      rfl
    obtain ⟨y, hy, he, hstage⟩ := ht.call_of_worker hjob
    have hne : job.call ≠ i := by
      intro hi
      rw [hi, hx] at hy
      cases hy
      rw [hst] at hstage
      rcases hstage with hstage | hstage <;> cases hstage
    rw [he]
    exact Files.get?_erase_of_ne c.shared.files (hapart _ _ _ _ hy hx hne).1
  | work _ hs => exact LeftByWork.step_work hs
  | lose => exact h.keep (breakOff_eq _ _).2 fun _ _ _ => rfl
  | miss =>
    intro job result ho
    have hi := (breakOff_eq { c.pipeline with worker := .idle } _).2.symm.trans ho
    cases hi

theorem leftByWork_run (ht : c.Told log) (h : c.LeftByWork) (hr : c.run? actions = some d) (ha : d.Apart) :
    d.LeftByWork := by
  induction actions generalizing c log with
  | nil =>
    cases hr
    exact h
  | cons action rest ih =>
    obtain ⟨e, he, hr⟩ := Option.bind_eq_some_iff.mp hr
    have hs := step_of_step? he
    exact ih (hs.told ht) (h.step hs ht (apart_of_run hr ha)) hr

/-! ### The removal -/

/-- Until the worker goes on, the failure is with it. -/
theorem Step.announced (h : Step c action d) (hn : action ≠ .work)
    (hw : c.pipeline.worker = .announced job (.error failure)) :
    d.pipeline.worker = .announced job (.error failure) := by
  cases h with
  | enter | cancel | look | push | turn | clear | drop | flee | hangUp | close => exact hw
  | collect hc hs hr =>
    obtain ⟨rfl, -⟩ := eq_of_collect? hr
    exact hw
  | work => exact absurd rfl hn
  | lose => exact (breakOff_eq _ _).2.trans hw
  | miss _ hw' => cases hw'.symm.trans hw

/-- A ciphertext that has been removed at the end of its job is never made again. -/
theorem Step.stays_removed (hs : Step c action d) (ha : d.Apart) (ht : c.Told log) (hx : c.calls[i]? = some x)
    (hd : c.pipeline.due i ≤ 1) (hn : c.shared.files.get? x.ciphertext = none) :
    d.shared.files.get? x.ciphertext = none := by
  have hapart := hs.apart ha
  -- A work that is done now is that of another call, for the job of this one is about to end.
  have other : ∀ {job : Job} {outcome files}, c.pipeline.worker = .operating job →
      job.work c.shared.files job.ciphertext = (outcome, files) → files.get? x.ciphertext = none := by
    intro job outcome files hw ho
    have hjob : c.pipeline.worker.job? = some job := by
      rw [hw]
      rfl
    obtain ⟨y, hy, he, -⟩ := ht.call_of_worker hjob
    have hne : i ≠ job.call := by
      rintro rfl
      rw [due_hand hjob, hw] at hd
      simp [Worker.left] at hd
    have hwork := (hapart i job.call x y hx hy hne).2 _ hn
    rw [he] at ho
    have ho : (y.work c.shared.files y.ciphertext).2 = files := congrArg Prod.snd ho
    rwa [ho] at hwork
  cases hs with
  | enter => exact (get?_enter ha hx).trans hn
  | cancel | look | push | drop | flee | hangUp | collect | close | lose | miss => exact hn
  | clear | turn => exact Files.get?_erase_eq_none _ hn
  | work _ hs =>
    cases hs with
    | take | begin | skip | announce | keep => exact hn
    | operate hw ho | crash hw ho => exact other hw ho
    | clear => exact Files.get?_erase_eq_none _ hn
    | reply =>
      unfold send
      split
      · exact hn
      · split
        · exact Files.get?_erase_eq_none _ hn
        · exact hn

theorem stays_removed_run (hr : c.run? actions = some d) (ha : d.Apart) (ht : c.Told log) (hq : .queued ∈ story i log)
    (hx : c.calls[i]? = some x) (hd : c.pipeline.due i ≤ 1) (hn : c.shared.files.get? x.ciphertext = none) :
    d.shared.files.get? x.ciphertext = none := by
  induction actions generalizing c log x with
  | nil =>
    cases hr
    exact hn
  | cons action rest ih =>
    obtain ⟨e, he, hr⟩ := Option.bind_eq_some_iff.mp hr
    have hs := step_of_step? he
    obtain ⟨stage, hx', -⟩ := hs.call hx
    have hn := hs.stays_removed (apart_of_run hr ha) ht hx hd hn
    have hq' : .queued ∈ story i (log ++ (c.mark? action).toList) := by
      rw [story_append]
      exact List.mem_append_left _ hq
    have hd : e.pipeline.due i ≤ 1 := Nat.le_trans (hs.due_le ht hq) (Nat.le_trans (Nat.sub_le ..) hd)
    exact ih (x := { x with stage }) hr (hs.told ht) hq' hx' hd hn

theorem Told.queued_of_worker (h : c.Told log) (hw : c.pipeline.worker.job? = some job) :
    .queued ∈ story job.call log := by
  obtain ⟨x, hx, -, hs⟩ := h.call_of_worker hw
  have ht := h.tells _ x hx
  rw [place_hand hw] at ht
  rcases hs with hs | hs <;> rw [hs] at ht
  · obtain ⟨rest, hl, -⟩ := ht
    simp [hl]
  · obtain ⟨-, ⟨hg, -⟩ | ⟨rest, hl, -⟩⟩ := ht
    · exact absurd hg (Place.hand_ne_gone _)
    · simp [hl]

/-- As long as the worker has a job, its call has no result. -/
theorem Told.result?_of_worker (h : c.Told log) (hw : c.pipeline.worker.job? = some job)
    (hx : c.calls[job.call]? = some x) : x.result? = none := by
  obtain ⟨y, hy, -, hs⟩ := h.call_of_worker hw
  rw [hx] at hy
  cases hy
  rcases hs with hs | hs <;> simp [Call.result?, hs]

theorem announced_run (hr : c.run? actions = some d) (hn : .work ∉ actions)
    (hw : c.pipeline.worker = .announced job (.error failure)) :
    d.pipeline.worker = .announced job (.error failure) := by
  induction actions generalizing c with
  | nil =>
    cases hr
    exact hw
  | cons action rest ih =>
    obtain ⟨e, he, hr⟩ := Option.bind_eq_some_iff.mp hr
    rw [List.mem_cons, not_or] at hn
    exact ih hr hn.2 ((step_of_step? he).announced (Ne.symm hn.1) hw)

/-- The next step of the worker removes the ciphertext for good. -/
theorem removed_run (hr : c.run? actions = some d) (hm : .work ∈ actions) (ha : d.Apart) (ht : c.Told log)
    (hw : c.pipeline.worker = .announced job (.error failure)) : d.shared.files.get? job.ciphertext = none := by
  induction actions generalizing c log with
  | nil => cases hm
  | cons action rest ih =>
    obtain ⟨e, he, hr⟩ := Option.bind_eq_some_iff.mp hr
    have hs := step_of_step? he
    by_cases hn : action = .work
    · subst hn
      have hjob : c.pipeline.worker.job? = some job := by
        rw [hw]
        rfl
      have ht' := hs.told ht
      obtain ⟨x, hx, hown, -⟩ := ht.call_of_worker hjob
      have hpath : job.ciphertext = x.ciphertext := congrArg Job.ciphertext hown
      rw [hpath]
      cases hs with
      | work _ hs =>
        cases hs with
        | take hw' | begin hw' | skip hw' | operate hw' | crash hw' | announce hw' | keep hw' | reply hw' =>
          cases hw.symm.trans hw'
        | @clear other failure' hw' =>
          cases hw.symm.trans hw'
          have hcleared : (Worker.cleared job (.error failure)).job? = some job := rfl
          refine stays_removed_run hr ha ht' (ht'.queued_of_worker hcleared) hx ?_ ?_
          · exact Nat.le_of_eq (due_hand (p := { c.pipeline with worker := .cleared job (.error failure) }) hcleared)
          · rw [← hpath]
            exact Files.get?_erase c.shared.files job.ciphertext
    · have hmem : .work ∈ rest := (List.mem_cons.mp hm).resolve_left (Ne.symm hn)
      exact ih hr hmem (hs.told ht) (hs.announced hn hw)

/-! ### Announced, then removed -/

/-- What is so when the failure of a job has been announced, and from then on. -/
structure Notified (c : Calls) (job : Job) (failure : Failure) (d : Calls) : Prop where
  failed : c.pipeline.worker = .operated job (.error failure)
  /-- nothing has been removed since the work ended -/
  files : d.shared.files = c.shared.files
  /-- if the calls do not meddle with each other's files, the ciphertext is as the work has left it -/
  left : d.Apart → ∃ files, (job.work files job.ciphertext).1 = .returned (.error failure) ∧
    d.shared.files.get? job.ciphertext = (job.work files job.ciphertext).2.get? job.ciphertext
  /-- until the worker goes on, which it can, the call has no result -/
  untold : ∀ more e, d.run? more = some e → .work ∉ more → (e.step? .work).isSome ∧
    ∀ x, e.calls[job.call]? = some x → x.result? = none
  /-- and once it has gone on, the ciphertext is gone and stays so -/
  removed : ∀ more e, d.run? more = some e → .work ∈ more → e.Apart → e.shared.files.get? job.ciphertext = none

/-- A failure is announced with the ciphertext as the work has left it; the worker removes it with its next step, and
    the call is told after that. -/
theorem announced_before_removal {id : TransferId} {message : String} (hr : (start shared).run? actions = some c)
    (hs : c.step? action = some d)
    (he : d.shared.events.sent = c.shared.events.sent ++ [.decryptionFailed id message]) :
    ∃ job failure, action = .work ∧ job.id = id ∧ failure.message = message ∧ Notified c job failure d := by
  have ht := told_run (told_start shared) hr
  have hstep := step_of_step? hs
  have htd := hstep.told ht
  obtain ⟨job, failure, rfl, hw, hid, hmessage, rfl⟩ := hstep.operated_of_failed he
  have hleft : (start shared).LeftByWork := by
    intro job result ho
    cases ho
  refine ⟨job, failure, rfl, hid, hmessage, hw, rfl, fun ha => ?_, fun more e hm hn => ?_, fun more e hm hn ha => ?_⟩
  · obtain ⟨files, hf, hg⟩ := leftByWork_run (told_start shared) hleft hr (hstep.apart ha) job _ hw
    exact ⟨files, hf, hg⟩
  · have hlast := announced_run hm hn rfl
    have hjob : e.pipeline.worker.job? = some job := by
      rw [hlast]
      rfl
    exact ⟨step?_work_isSome hjob, fun x hx => (told_run htd hm).result?_of_worker hjob hx⟩
  · exact removed_run hm hn ha htd rfl

/-- An attachment that is found bad: it is there when its failure is announced, and gone one step later. -/
theorem announced_before_removal_rejected :
    let reject : Work := .validate .rejecting ⟨"image/png", 2, "k", ⟨List.replicate 64 0, rfl⟩, none, none⟩
    let actions : List Action := [.enter ⟨1⟩ "a" reject none (some [120]), .begin 0, .push 0, .work, .work, .work]
    ∃ c d job failure, (start ⟨.empty, ⟨16, []⟩⟩).run? actions = some c ∧ c.step? .work = some d ∧
      d.shared.events.sent = c.shared.events.sent ++ [.decryptionFailed ⟨1⟩ "validation error: rejected image/png"] ∧
      d.shared.files.get? "a" = some [120] ∧ job.ciphertext = "a" ∧ Notified c job failure d := by
  intro reject actions
  have hrun : ∃ c d, (start ⟨.empty, ⟨16, []⟩⟩).run? actions = some c ∧ c.step? .work = some d ∧
      d.shared.events.sent = c.shared.events.sent ++ [.decryptionFailed ⟨1⟩ "validation error: rejected image/png"] ∧
      d.shared.files.get? "a" = some [120] ∧ ∀ job failure, c.pipeline.worker = .operated job (.error failure) →
        job.ciphertext = "a" := by
    refine ⟨_, _, rfl, rfl, rfl, rfl, fun job failure h => ?_⟩
    cases h
    rfl
  obtain ⟨c, d, hr, hs, he, hf, hp⟩ := hrun
  obtain ⟨job, failure, -, -, -, hn⟩ := announced_before_removal hr hs he
  exact ⟨c, d, job, failure, hr, hs, he, hf, hp job failure hn.failed, hn⟩

/-- A failure is announced while its ciphertext is still there. -/
theorem ciphertext_outlives_announcement :
    ¬∀ (shared : Shared) (actions : List Action) (c d : Calls) (job : Job) (id : TransferId) (message : String),
      (start shared).run? actions = some c → c.step? .work = some d → c.pipeline.worker.job? = some job →
      d.shared.events.sent = c.shared.events.sent ++ [.decryptionFailed id message] →
      d.shared.files.get? job.ciphertext = none := by
  intro h
  have hn := h ⟨.empty, ⟨16, []⟩⟩ [.enter ⟨1⟩ "a" (.validate .rejecting ⟨"image/png", 2, "k",
    ⟨List.replicate 64 0, rfl⟩, none, none⟩) none (some [120]), .begin 0, .push 0, .work, .work, .work]
    _ _ _ ⟨1⟩ "validation error: rejected image/png" rfl rfl rfl rfl
  cases hn

end Calls
end SealedDownload.Pipeline
