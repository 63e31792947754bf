import SealedDownload.Proofs.Pipeline.Order
import SealedDownload.Proofs.Pipeline.Progress

/-! What callers can rely on: works are done one at a time and in order, each job's at most once and only if its
    token was uncancelled, and every call comes to the result of its own job, whatever becomes of the others. When
    the worker goes, what it has begun is finished, and the calls that come too late learn that nothing comes. -/

namespace SealedDownload.Pipeline

variable {told : List Mark} {result : Except Failure Product}

theorem IsStory.countP_began_le (h : IsStory told) : told.countP Mark.isBegan ≤ told.countP Mark.isChosen := by
  cases h <;> simp [List.countP_cons]

theorem IsStory.countP_chosen_le (h : IsStory told) : told.countP Mark.isChosen ≤ 1 := by
  cases h with
  | missed cancelled => cases cancelled <;> simp
  | _ => simp

theorem IsStory.countP_queued_le (h : IsStory told) : told.countP Mark.isQueued ≤ 1 := by
  cases h <;> simp [List.countP_cons]

theorem IsStory.countP_chosen_of_cancelled (h : IsStory told) (hc : .looked true ∈ told ∨ .taken true ∈ told) :
    told.countP Mark.isChosen = 0 := by
  cases h with
  | missed cancelled => cases cancelled <;> simp at hc ⊢
  | _ => simp at hc ⊢

theorem mem_callsWith {kind : Mark → Bool} {log : List (Nat × Mark)} {i : Nat} :
    i ∈ callsWith kind log ↔ 0 < (story i log).countP kind := by
  rw [← count_callsWith, List.count_pos_iff]

namespace Calls

variable {c d : Calls} {log : List (Nat × Mark)} {i : Nat} {x : Call} {action : Action} {actions : List Action}
  {shared : Shared}

/-! ### Outcomes -/

/-- Every outcome that is told of a call is one of its own work. -/
def Genuine (c : Calls) (log : List (Nat × Mark)) : Prop :=
  ∀ i outcome, .finished outcome ∈ story i log →
    ∃ x files, c.calls[i]? = some x ∧ (x.work files x.ciphertext).1 = outcome

theorem mark?_eq_finished {outcome : Outcome} (h : c.mark? action = some (i, .finished outcome)) :
    ∃ job ∈ c.pipeline.jobs, job.call = i ∧ (job.work c.shared.files job.ciphertext).1 = outcome := by
  unfold mark? at h
  split at h
  · obtain ⟨x, -, he⟩ := Option.map_eq_some_iff.mp h
    cases he
  · cases hg : c.gone <;> simp [hg] at h
  · split at h
    · obtain ⟨job, -, he⟩ := Option.map_eq_some_iff.mp h
      cases he
    · cases h
    · rename_i job hw
      cases h
      exact ⟨job, by simp [jobs, hw, Worker.job?], rfl, rfl⟩
    · cases h
  · obtain ⟨job, -, he⟩ := Option.map_eq_some_iff.mp h
    cases he
  · split at h <;> cases h
  · cases h

theorem Step.genuine (h : Step c action d) (ht : c.Told log) (hg : c.Genuine log) :
    d.Genuine (log ++ (c.mark? action).toList) := by
  intro i outcome hm
  obtain ⟨x, files, hx, ho⟩ : ∃ x files, c.calls[i]? = some x ∧ (x.work files x.ciphertext).1 = outcome := by
    rw [story_append] at hm
    rcases List.mem_append.mp hm with hm | hm
    · exact hg i outcome hm
    · obtain ⟨job, hjob, rfl, ho⟩ := mark?_eq_finished (Option.mem_toList.mp (mem_story.mp hm))
      obtain ⟨x, hx, he⟩ := ht.own job hjob
      rw [he] at ho
      exact ⟨x, _, hx, ho⟩
  obtain ⟨stage, hd, -⟩ := h.call hx
  exact ⟨_, files, hd, ho⟩

theorem genuine_run (ht : c.Told log) (hg : c.Genuine log) (hr : c.run? actions = some d) :
    d.Genuine (log ++ c.log actions) := by
  induction actions generalizing c log with
  | nil =>
    cases hr
    simpa [Calls.log] using hg
  | cons action rest ih =>
    obtain ⟨e, he, hr⟩ := Option.bind_eq_some_iff.mp hr
    have hs := step_of_step? he
    have hd := ih (hs.told ht) (hs.genuine ht hg) hr
    rwa [log_cons he, ← List.append_assoc]

/-! ### What a call can do next -/

/-- The action by which a call goes on. -/
def next? (i : Nat) : Stage → Option Action
  | .fresh => some (.begin i)
  | .ready => some (.push i)
  | .refused _ => some (.clear i)
  | .waiting => some (.collect i)
  | .ended _ => none
  | .abandoned => none

theorem Told.collect (h : c.Told log) (hx : c.calls[i]? = some x) (hs : x.stage = .waiting)
    (hp : c.pipeline.place i = .gone) : ∃ result, verdict? (story i log) = some result ∧
      ∃ d, c.step? (.collect i) = some d ∧ d.calls[i]? = some { x with stage := .ended result } := by
  have ht := h.tells i x hx
  have hlt := (List.getElem?_eq_some_iff.mp hx).1
  rw [hs] at ht
  obtain ⟨rest, -, -, ha⟩ := ht
  have hc : ∀ result p, c.pipeline.collect? i = some (result, p) → ∃ d, c.step? (.collect i) = some d ∧
      d.calls[i]? = some { x with stage := .ended result } := by
    intro result p hr
    refine ⟨{ c with pipeline := p }.move i x (.ended result), ?_, List.getElem?_set_self hlt⟩
    simp only [step?, Calls.collect?, hx, Option.bind_eq_bind, Option.bind_some, hs, hr]
  cases hr : c.pipeline.reply? i with
  | none =>
    rw [hr] at ha
    exact ha.elim
  | some reply =>
    rw [hr] at ha
    cases reply with
    | expected => exact absurd hp ha
    | arrived result => exact ⟨result, ha.2, hc result _ (by simp only [Pipeline.collect?, hr]; rfl)⟩
    | lost => exact ⟨_, ha.2, hc _ _ (by simp only [Pipeline.collect?, hr]; rfl)⟩

theorem Told.verdict (h : c.Told log) (hq : .queued ∈ story i log) (hp : c.pipeline.place i = .gone) :
    (verdict? (story i log)).isSome := by
  cases hx : c.calls[i]? with
  | none =>
    rw [(h.absent i (List.getElem?_eq_none_iff.mp hx)).2] at hq
    cases hq
  | some x =>
    have ht := h.tells i x hx
    rw [hp] at ht
    cases hs : x.stage with
    | fresh | ready | refused =>
      rw [hs] at ht
      rw [ht.2.2] at hq
      simp at hq
    | ended result =>
      rw [hs] at ht
      rw [ht.2.2]
      rfl
    | waiting =>
      rw [hs] at ht
      obtain ⟨rest, hl, hr, -⟩ := ht
      rw [hl]
      exact hr
    | abandoned =>
      rw [hs] at ht
      obtain ⟨-, ⟨-, hl | hl⟩ | ⟨rest, hl, hr⟩⟩ := ht
      · rw [hl] at hq
        simp at hq
      · rw [hl] at hq
        simp at hq
      · rw [hl]
        exact hr

/-! ### Runs -/

/-- What holds of calls to a pipeline after actions from the start. -/
structure Serial (shared : Shared) (actions : List Action) (c : Calls) : Prop where
  /-- one work at a time: those that have begun are over, but for the one that is being done -/
  alone : callsWith Mark.isBegan ((start shared).log actions) =
    callsWith Mark.isFinished ((start shared).log actions) ++ c.pipeline.executing?.toList
  /-- jobs are taken up in the order in which they were handed in, and none is passed over or handed in twice; those
      that are lost in line are the ones behind all that have been taken up -/
  taken : callsWith Mark.isQueued ((start shared).log actions) =
    callsWith Mark.isTaken ((start shared).log actions) ++ callsWith Mark.isLost ((start shared).log actions) ++
      c.pipeline.queue.map (·.call)
  nodup : (callsWith Mark.isQueued ((start shared).log actions)).Nodup
  /-- works begin in that order too, once for every job whose token was uncancelled when it was taken up, but for the
      last one of them, which may have been lost with the worker -/
  chosen : callsWith Mark.isChosen ((start shared).log actions) =
    callsWith Mark.isBegan ((start shared).log actions) ++ callsWith Mark.isMissed ((start shared).log actions) ++
      c.pipeline.chosen?.toList
  once : ∀ i ∈ callsWith Mark.isChosen ((start shared).log actions), c.pipeline.chosen? = some i ∨
    (callsWith Mark.isBegan ((start shared).log actions)).count i = 1 ∨
      i ∈ callsWith Mark.isMissed ((start shared).log actions)
  /-- as long as the worker is there nothing is lost and nobody is turned away, so that `taken`, `chosen` and `once`
      leave no exception -/
  there : .close ∉ actions → c.gone = false ∧ (∀ entry ∈ (start shared).log actions, entry.2.isLoss = false) ∧
    callsWith Mark.isLost ((start shared).log actions) = [] ∧ callsWith Mark.isMissed ((start shared).log actions) = []
  ordered : (callsWith Mark.isBegan ((start shared).log actions)).Sublist
    (callsWith Mark.isQueued ((start shared).log actions))
  /-- the marks of a call follow each other as they should -/
  stories : ∀ i, IsStory (story i ((start shared).log actions))
  /-- a work whose token was cancelled at either look never begins -/
  never : ∀ i, .looked true ∈ story i ((start shared).log actions) ∨
    .taken true ∈ story i ((start shared).log actions) → i ∉ callsWith Mark.isBegan ((start shared).log actions)
  /-- a call has the result that its story entitles it to, and keeps it -/
  result : ∀ i (x : Call) result, c.calls[i]? = some x → x.stage = .ended result →
    verdict? (story i ((start shared).log actions)) = some result ∧
      ∀ action d, c.step? action = some d → d.calls[i]? = some x
  /-- an outcome is that of the call's own work -/
  genuine : c.Genuine ((start shared).log actions)
  /-- the worker rests only when no job is left, or it is gone -/
  busy : c.step? .work = none ↔ c.pipeline.worker = .idle ∧ (c.pipeline.queue = [] ∨ c.gone = true)
  /-- and once it is gone, all that is in line is going to be lost -/
  emptied : c.gone = true → ((c.step? .lose).isSome ↔ c.pipeline.queue ≠ [])
  /-- a call that is not over can go on, once its job is over if it waits for it -/
  free : ∀ i (x : Call) action, c.calls[i]? = some x → next? i x.stage = some action →
    (x.stage = .waiting → c.pipeline.due i = 0) → (c.step? action).isSome
  /-- whatever else happens, a job is over after so many steps of the worker: it was skipped, or its work has
      been done -/
  completes : ∀ i, .queued ∈ story i ((start shared).log actions) → ∀ more d, c.run? more = some d →
    c.pipeline.due i ≤ works more →
      d.pipeline.due i = 0 ∧ (verdict? (story i ((start shared).log (actions ++ more)))).isSome

/-- The worker is gone only if it has gone. -/
theorem gone_run (hr : c.run? actions = some d) (hn : .close ∉ actions) : d.gone = c.gone := by
  induction actions generalizing c with
  | nil =>
    cases hr
    rfl
  | cons action rest ih =>
    obtain ⟨e, he, hr⟩ := Option.bind_eq_some_iff.mp hr
    rw [List.mem_cons, not_or] at hn
    refine (ih hr hn.2).trans ?_
    cases step_of_step? he with
    | close => exact absurd rfl hn.1
    | _ => rfl

theorem Told.isStory (h : c.Told log) (i : Nat) : IsStory (story i log) := by
  cases hx : c.calls[i]? with
  | none =>
    rw [(h.absent i (List.getElem?_eq_none_iff.mp hx)).2]
    exact .fresh
  | some x => exact (h.tells i x hx).isStory

theorem Told.free (h : c.Told log) (hx : c.calls[i]? = some x) (hn : next? i x.stage = some action)
    (hw : x.stage = .waiting → c.pipeline.due i = 0) : (c.step? action).isSome := by
  cases hs : x.stage with
  | fresh | ready | refused =>
    rw [hs] at hn
    cases hn
    simp only [step?, begin?, push?, clear?, hx, Option.bind_eq_bind, Option.bind_some, hs, Option.isSome_some]
  | waiting =>
    rw [hs] at hn
    cases hn
    obtain ⟨result, -, d, hd, -⟩ := h.collect hx hs (place_of_due (hw hs))
    rw [hd]
    rfl
  | ended | abandoned =>
    rw [hs] at hn
    cases hn

theorem Told.never (h : c.Told log) (hc : .looked true ∈ story i log ∨ .taken true ∈ story i log) :
    i ∉ callsWith Mark.isBegan log := by
  intro hm
  have h0 := (h.isStory i).countP_chosen_of_cancelled hc
  have hle := (h.isStory i).countP_began_le
  have hpos := mem_callsWith.mp hm
  omega

theorem Told.once (h : c.Told log) (ho : c.Ordered log) (hi : i ∈ callsWith Mark.isChosen log) :
    c.pipeline.chosen? = some i ∨ (callsWith Mark.isBegan log).count i = 1 ∨ i ∈ callsWith Mark.isMissed log := by
  rw [ho.chosen, List.mem_append, List.mem_append] at hi
  rcases hi with (hi | hi) | hi
  · refine Or.inr (Or.inl ?_)
    have hpos := List.count_pos_iff.mpr hi
    have hle := (h.isStory i).countP_began_le
    have hone := (h.isStory i).countP_chosen_le
    rw [count_callsWith] at hpos ⊢
    omega
  · exact Or.inr (Or.inr hi)
  · exact Or.inl (Option.mem_toList.mp hi)

theorem Told.nodup_queued (h : c.Told log) : (callsWith Mark.isQueued log).Nodup := by
  refine List.nodup_iff_count_le_one.mpr fun i => ?_
  rw [count_callsWith]
  exact (h.isStory i).countP_queued_le

/-- The result of a call that is over is the one that its story entitles it to, and nothing changes it. -/
theorem Told.ended (h : c.Told log) (hx : c.calls[i]? = some x) (hs : x.stage = .ended result) :
    verdict? (story i log) = some result ∧ ∀ action d, c.step? action = some d → d.calls[i]? = some x := by
  have hi := h.tells i x hx
  rw [hs] at hi
  refine ⟨hi.2.2, fun action d hd => ?_⟩
  obtain ⟨stage, hd, hkeep⟩ := (step_of_step? hd).call hx
  rwa [hkeep result hs] at hd

/-- A job that has been handed in is over once the worker has made the steps that are due. -/
theorem Told.completes {more : List Action} (h : c.Told log) (hq : .queued ∈ story i log)
    (hd : c.run? more = some d) (hw : c.pipeline.due i ≤ works more) :
    d.pipeline.due i = 0 ∧ (verdict? (story i (log ++ c.log more))).isSome := by
  have hdue : d.pipeline.due i = 0 := by
    have hle := due_run h hq hd
    omega
  refine ⟨hdue, (told_run h hd).verdict ?_ (place_of_due hdue)⟩
  rw [story_append]
  exact List.mem_append_left _ hq

theorem sublist_of_ordered (h : c.Ordered log) :
    (callsWith Mark.isBegan log).Sublist (callsWith Mark.isQueued log) :=
  calc (callsWith Mark.isBegan log).Sublist (callsWith Mark.isChosen log) := by
        rw [h.chosen, List.append_assoc]
        exact List.sublist_append_left ..
    List.Sublist _ (callsWith Mark.isTaken log) := callsWith_sublist (fun mark => by cases mark <;> simp) log
    List.Sublist _ (callsWith Mark.isQueued log) := by
        rw [h.queued, List.append_assoc]
        exact List.sublist_append_left ..

/-- Works are done one at a time and in order, each job's at most once and if its token was uncancelled; and
    every call comes to the result of its own job. -/
theorem served_serially (hr : (start shared).run? actions = some c) : Serial shared actions c := by
  have ht := told_run (told_start shared) hr
  have ho := ordered_run (ordered_start shared) hr
  have hg := genuine_run (told_start shared) (fun _ _ hm => nomatch hm) hr
  rw [List.nil_append] at ht ho hg
  have hthere : .close ∉ actions → c.gone = false := fun hn => gone_run hr hn
  exact
    { alone := ho.began
      taken := ho.queued
      nodup := ht.nodup_queued
      chosen := ho.chosen
      once := fun i => ht.once ho
      there := fun hn => ⟨hthere hn, ho.there (hthere hn), ho.lost_eq_nil (hthere hn), ho.missed_eq_nil (hthere hn)⟩
      ordered := sublist_of_ordered ho
      stories := ht.isStory
      never := fun i => ht.never
      result := fun i x result hx hs => ht.ended hx hs
      genuine := hg
      busy := step?_work_eq_none_iff
      emptied := isSome_step?_lose
      free := fun i x action => ht.free
      completes := fun i hq more d hd hw => by
        rw [log_append hr]
        exact ht.completes hq hd hw }

theorem stage_of_result? (h : x.result? = some result) : x.stage = .ended result := by
  unfold Call.result? at h
  split at h
  · rename_i hs
    rw [hs, Option.some.inj h]
  · cases h

/-- Three jobs, of which the first one crashes and the second one's token is cancelled while it is in line: the
    third one is done nevertheless. -/
theorem served_serially_after_crash :
    let crash : Work := fun files _ => (.crashed, files)
    let keep : Work := fun files path => (.returned (.ok (.plaintext path)), files)
    let shared : Shared := ⟨.empty, ⟨16, []⟩⟩
    let actions : List Action := [.enter ⟨1⟩ "a" crash none none, .enter ⟨2⟩ "b" keep (some "t") none,
      .enter ⟨3⟩ "c" keep none none, .begin 0, .begin 1, .begin 2, .push 0, .push 1, .push 2, .work, .work,
      .cancel "t", .work, .work, .work, .work, .work, .work, .work, .work, .work, .work, .work,
      .collect 0, .collect 1, .collect 2]
    let log := (start shared).log actions
    ∃ c, (start shared).run? actions = some c ∧ callsWith Mark.isQueued log = [0, 1, 2] ∧
      callsWith Mark.isBegan log = [0, 2] ∧ verdict? (story 0 log) = some (.error .shuttingDown) ∧
      verdict? (story 1 log) = some (.error .cancelled) ∧ verdict? (story 2 log) = some (.ok (.plaintext "c")) := by
  intro crash keep shared actions log
  have hx : ((start shared).run? actions).map (fun c => (c.pipeline.queue.map (·.call), c.calls.map (·.result?))) =
      some ([], [some (.error .shuttingDown), some (.error .cancelled), some (.ok (.plaintext "c"))]) := by
    decide +kernel
  have ht : callsWith Mark.isTaken log = [0, 1, 2] := by decide +kernel
  have hb : callsWith Mark.isBegan log = [0, 2] := by decide +kernel
  obtain ⟨c, hr, hx⟩ := Option.map_eq_some_iff.mp hx
  obtain ⟨hq, hc⟩ := Prod.mk.inj hx
  have hs := served_serially hr
  have hv : ∀ i r, (c.calls.map (·.result?))[i]? = some (some r) → verdict? (story i log) = some r := by
    intro i r hi
    rw [List.getElem?_map] at hi
    obtain ⟨x, hx, hres⟩ := Option.map_eq_some_iff.mp hi
    exact (hs.result i x r hx (stage_of_result? hres)).1
  rw [hc] at hv
  refine ⟨c, hr, ?_, hb, hv 0 _ rfl, hv 1 _ rfl, hv 2 _ rfl⟩
  obtain ⟨-, -, hlost, -⟩ := hs.there (by simp [actions])
  have htaken := hs.taken
  rw [hlost, hq, List.append_nil, List.append_nil] at htaken
  exact htaken.trans ht

end Calls

end SealedDownload.Pipeline
