import SealedDownload.Proofs.Downloader.Numbers
import SealedDownload.Proofs.Pipeline.Announcements
import SealedDownload.Proofs.Transfer.Course

/-! What a download announces from its beginning to its end, and how its result agrees with that. A download may be
    anywhere between two steps of others; what it has announced so far depends only on where it is, and on where its
    job and the reply to it are (`Says`). -/

namespace SealedDownload

/-! ### Words -/

/-- The announcements up to the last attempt, each further attempt with its pause and what has gone wrong. -/
def Word.tried (id : TransferId) (kind : RequestKind) (pauses : List (Span × String)) : List Event :=
  .queued id kind :: .admitted id :: Transfer.retries id 1 pauses

/-- The announcements up to the arrival of the ciphertext. -/
def Word.arrived (id : TransferId) (kind : RequestKind) (pauses : List (Span × String)) (bytes : UInt64) :
    List Event :=
  Word.tried id kind pauses ++ [.transferComplete id bytes]

/-- What a download has announced when it ends, and its result then; `crashed` tells whether the work on its ciphertext
    has crashed. -/
inductive Word (policy : RetryPolicy) (crashed : Prop) (id : TransferId) (kind : RequestKind) :
    Except Failure Delivered → List Event → Prop
  | turnedAway : Word policy crashed id kind (.error .cancelled)
      [.queued id kind, .transferFailed id Failure.cancelled.message]
  | failed {pauses : List (Span × String)} {f : Failure} (h : pauses.length < policy.attempts) :
      Word policy crashed id kind (.error f) (Word.tried id kind pauses ++ [.transferFailed id f.message])
  | fetched {pauses : List (Span × String)} {bytes : UInt64} {file : Path} (h : pauses.length < policy.attempts)
      (hk : kind = .backup) : Word policy crashed id kind (.ok (.ciphertext file)) (Word.arrived id kind pauses bytes)
  | unopened {pauses : List (Span × String)} {bytes : UInt64} (h : pauses.length < policy.attempts)
      (hk : kind ≠ .backup) : Word policy crashed id kind (.error .cancelled) (Word.arrived id kind pauses bytes)
  | crashed {pauses : List (Span × String)} {bytes : UInt64} (h : pauses.length < policy.attempts)
      (hk : kind ≠ .backup) (hc : crashed) : Word policy crashed id kind (.error .shuttingDown)
        (Word.arrived id kind pauses bytes ++ [.decryptionStarted id])
  | opened {pauses : List (Span × String)} {bytes : UInt64} {product : Product} (h : pauses.length < policy.attempts)
      (hk : kind ≠ .backup) : Word policy crashed id kind (.ok (.opened product))
        (Word.arrived id kind pauses bytes ++ [.decryptionStarted id, .decryptionComplete id])
  | spoiled {pauses : List (Span × String)} {bytes : UInt64} {f : Failure} (h : pauses.length < policy.attempts)
      (hk : kind ≠ .backup) : Word policy crashed id kind (.error f)
        (Word.arrived id kind pauses bytes ++ [.decryptionStarted id, .decryptionFailed id f.message])

/-- What a download has announced where it is, with its job and the reply to it where they are. -/
def Download.Says (policy : RetryPolicy) (crashed : Prop) (place : Pipeline.Place) (reply : Option Reply) (x : Download)
    (events : List Event) : Prop :=
  match x.phase with
  | .begun => events = []
  | .arriving => events = [.queued x.id x.request.kind]
  | .waiting _ => events = [.queued x.id x.request.kind]
  | .admitted => events = [.queued x.id x.request.kind]
  | .transferring t => t.id = x.id ∧ t.maxAttempts = policy.attempts ∧ ∃ calls announced, t.Tally calls announced ∧
      events = .queued x.id x.request.kind :: .admitted x.id :: announced
  | .transferred _ => ∃ pauses bytes, pauses.length < policy.attempts ∧
      events = Word.arrived x.id x.request.kind pauses bytes
  | .opening => x.request.kind ≠ .backup ∧ ∃ pauses bytes more, pauses.length < policy.attempts ∧
      events = Word.arrived x.id x.request.kind pauses bytes ++ more ∧ Pipeline.Opens x.id crashed more place reply
  | .failing f => f = .cancelled ∧ events = [.queued x.id x.request.kind] ∨
      ∃ pauses, pauses.length < policy.attempts ∧ events = Word.tried x.id x.request.kind pauses
  | .over result => Word policy crashed x.id x.request.kind result events
  | .dropped => True

theorem Word.mono {policy : RetryPolicy} {crashed crashed' : Prop} {id : TransferId} {kind : RequestKind}
    {result : Except Failure Delivered} {events : List Event} (h : Word policy crashed id kind result events)
    (hc : crashed → crashed') : Word policy crashed' id kind result events := by
  cases h with
  | turnedAway => exact .turnedAway
  | failed hl => exact .failed hl
  | fetched hl hk => exact .fetched hl hk
  | unopened hl hk => exact .unopened hl hk
  | crashed hl hk hw => exact .crashed hl hk (hc hw)
  | opened hl hk => exact .opened hl hk
  | spoiled hl hk => exact .spoiled hl hk

theorem Download.Says.mono {policy : RetryPolicy} {crashed crashed' : Prop} {place : Pipeline.Place}
    {reply : Option Reply} {x : Download} {events : List Event} (h : x.Says policy crashed place reply events)
    (hc : crashed → crashed') : x.Says policy crashed' place reply events := by
  unfold Download.Says at h ⊢
  split at h
  case h_7 =>
    obtain ⟨hk, pauses, bytes, more, hl, hs, ho⟩ := h
    exact ⟨hk, pauses, bytes, more, hl, hs, ho.mono hc⟩
  case h_9 => exact Word.mono h hc
  all_goals exact h

namespace Downloader

variable {d₀ d d' : Downloader} {action : Action} {actions : List Action} {i j : Nat} {x : Download}
  {policy : RetryPolicy} {lost : List Nat} {crashed : Prop}

theorem workFor_eq_none_iff {request : Request} : d.workFor request = none ↔ request.kind = .backup := by
  cases request <;> simp [Downloader.workFor, Request.kind]

/-- Whether a step of an action is one of a download, or of the worker with its job. -/
def acts (d : Downloader) (i : Nat) : Action → Bool
  | .work => d.pipeline.jobs.head?.any (·.call = i)
  | action => action.isAbout i

/-- The job of which an action makes the work crash. -/
def crashing? (d : Downloader) : Action → Option Job
  | .work => d.pipeline.crashing? d.shared
  | _ => none

/-- The downloads of which the work on the ciphertext has crashed in a run. -/
def crashes (d : Downloader) : List Action → List Nat
  | [] => []
  | action :: rest =>
    (d.crashing? action).toList.map (·.call) ++ ((d.step? action).map (·.crashes rest)).getD []

/-- What is known of every download, and of what has been announced, where the work of some has crashed. -/
structure Told (policy : RetryPolicy) (lost : List Nat) (d : Downloader) : Prop where
  retry : d.retry = policy
  nodup : (d.pipeline.jobs.map (·.call)).Nodup
  job : ∀ job ∈ d.pipeline.jobs, ∃ x, d.downloads[job.call]? = some x ∧ x.id = job.id ∧
    (x.phase = .opening ∨ x.phase = .dropped)
  owned : ∀ event ∈ d.shared.events.sent, ∃ (i : Nat) (x : Download), d.downloads[i]? = some x ∧ event.id = x.id
  words : ∀ i (x : Download), d.downloads[i]? = some x → ∃ events,
    x.Says policy (i ∈ lost) (d.pipeline.place i) (d.pipeline.reply? i) events ∧
      ((∀ (j : Nat) (y : Download), d.downloads[j]? = some y → y.id = x.id → j = i) →
        d.shared.events.sent.filter (·.id = x.id) = events)

/-! ### Steps -/

theorem Told.transferring {t : Transfer} (ht : Told policy lost d) (hd : d.downloads[i]? = some x)
    (hp : x.phase = .transferring t) : t.id = x.id ∧ t.maxAttempts = policy.attempts := by
  obtain ⟨events, hs, -⟩ := ht.words i x hd
  simp only [Download.Says, hp] at hs
  exact ⟨hs.1, hs.2.1⟩

theorem acts_of_ne_work (h : action ≠ .work) : d.acts i action = action.isAbout i := by
  cases action <;> first | rfl | exact absurd rfl h

theorem acts_unique (hi : d.acts i action = true) (hj : d.acts j action = true) : i = j := by
  by_cases hw : action = .work
  · subst hw
    obtain ⟨job, hm, he⟩ := (Option.any_eq_true ..).mp hi
    obtain ⟨other, hn, ho⟩ := (Option.any_eq_true ..).mp hj
    cases Option.mem_unique hm hn
    exact (of_decide_eq_true he).symm.trans (of_decide_eq_true ho)
  · rw [acts_of_ne_work hw] at hi hj
    exact isAbout_unique hi hj

/-- What a step announces is about the download that acts. -/
theorem Step.news (h : Step d action d') (ht : Told policy lost d) :
    ∃ news, d'.shared.events.sent = d.shared.events.sent ++ news ∧
      ∀ event ∈ news, ∃ (i : Nat) (x : Download), d.downloads[i]? = some x ∧ event.id = x.id ∧
        d.acts i action = true := by
  cases h with
  | announce hd | begin hd | fail hd =>
    refine ⟨_, rfl, fun event hm => ?_⟩
    cases List.mem_singleton.mp hm
    exact ⟨_, _, hd, rfl, isAbout_advance _⟩
  | @feed i x t action input hd hp hi =>
    obtain ⟨hs, -, -, he⟩ := stored_eq d action
    have hd' : (d.stored action).downloads[i]? = some x := by rw [hs, hd]
    have ha := isAbout_of_input? hi
    refine ⟨_, ((feed_spec hd' t input).sent.trans (congrArg (·.sent ++ _) he)), fun event hm => ?_⟩
    refine ⟨i, x, hd, ?_, ?_⟩
    · rw [← (ht.transferring hd hp).1]
      rcases (Transfer.step_spec t input).announced hm with ⟨_, _, _, rfl⟩ | ⟨_, rfl⟩ <;> rfl
    · cases action <;> first | exact ha | cases ha
  | work hw =>
    refine ⟨_, (Pipeline.step_of_step? hw).news, fun event hm => ?_⟩
    obtain ⟨job, hj, he, -⟩ := Pipeline.id_of_mem_news hm
    have hhead := Pipeline.head?_jobs hj
    obtain ⟨x, hd, hx, -⟩ := ht.job job (List.mem_of_head? hhead)
    refine ⟨job.call, x, hd, he.trans hx.symm, ?_⟩
    rw [acts, hhead]
    exact decide_eq_true rfl
  | _ => exact ⟨[], (List.append_nil _).symm, fun _ hm => absurd hm List.not_mem_nil⟩

/-- A download that is neither being opened nor dropped has no job. -/
theorem Told.not_mem_jobs (ht : Told policy lost d) (hd : d.downloads[i]? = some x) (ho : x.phase ≠ .opening)
    (hp : x.phase ≠ .dropped) : i ∉ d.pipeline.jobs.map (·.call) := by
  intro hm
  obtain ⟨job, hj, rfl⟩ := List.mem_map.mp hm
  obtain ⟨y, hy, -, hq⟩ := ht.job job hj
  cases hd.symm.trans hy
  rcases hq with hq | hq
  · exact ho hq
  · exact hp hq

/-- The step of another download, or of the worker with the job of another one. -/
theorem Step.idle (h : Step d action d') (ht : Told policy lost d) (ha : d.acts i action = false)
    (hd : d.downloads[i]? = some x) : d'.downloads[i]? = some x ∧
      d'.pipeline.place i = d.pipeline.place i ∧ d'.pipeline.reply? i = d.pipeline.reply? i := by
  have hn : action.isAbout i = false := by
    cases action <;> first | rfl | exact ha
  refine ⟨h.untouched hn hd, ?_⟩
  cases h with
  | @feed j y t action input hj hp hi =>
    rw [pipeline_feed_stored hj]
    exact ⟨rfl, rfl⟩
  | @submit j y file work hj hp =>
    have hne : i ≠ j := (ne_of_isAbout hn (isAbout_advance j)).symm
    have hm := ht.not_mem_jobs hj (by simp [hp]) (by simp [hp])
    refine ⟨(Pipeline.place_push d.pipeline ⟨j, y.id, file, work⟩ hm i).trans (if_neg hne), ?_⟩
    exact Pipeline.reply?_setReply_of_ne _ hne
  | @collect j y result p hj hp hr =>
    have hne : i ≠ j := (ne_of_isAbout hn (isAbout_advance j)).symm
    obtain ⟨rfl, -⟩ := Pipeline.eq_of_collect? hr
    exact ⟨rfl, Pipeline.reply?_hangUp_of_ne hne⟩
  | @dropOpening j y hj hp =>
    have hne : i ≠ j := (ne_of_isAbout hn (isAbout_drop j)).symm
    exact ⟨rfl, Pipeline.reply?_hangUp_of_ne hne⟩
  | work hw =>
    refine (Pipeline.step_of_step? hw).apart ht.nodup fun job hj he => ?_
    rw [acts, hj] at ha
    exact of_decide_eq_false ha he
  | _ => exact ⟨rfl, rfl⟩

theorem Told.collected {result : Except Failure Product} {p : Pipeline} (ht : Told policy lost d)
    (hd : d.downloads[i]? = some x) (hp : x.phase = .opening) (hr : d.pipeline.collect? i = some (result, p)) :
    d.pipeline.place i = .gone := by
  obtain ⟨events, hs, -⟩ := ht.words i x hd
  simp only [Download.Says, hp] at hs
  obtain ⟨-, pauses, bytes, more, -, -, ho⟩ := hs
  rcases (Pipeline.eq_of_collect? hr).2 with hr | ⟨hr, -⟩ <;> rw [hr] at ho
  · exact ho.collected (by simp)
  · exact ho.collected (by simp)

/-- A download that has a job keeps it until the job is over. -/
theorem Step.keeps_job (h : Step d action d') (ht : Told policy lost d) (hd : d.downloads[i]? = some x)
    (hp : x.phase = .opening ∨ x.phase = .dropped) (hj : i ∈ d.pipeline.jobs.map (·.call)) :
    ∃ x', d'.downloads[i]? = some x' ∧ x.Continues x' ∧ (x'.phase = .opening ∨ x'.phase = .dropped) := by
  cases ha : action.isAbout i with
  | false => exact ⟨x, h.untouched ha hd, .refl x, hp⟩
  | true =>
    cases h with
    | refuse | accept | cancel | shutdown | setCeiling | work => cases ha
    | announce hd' hq | quit hd' hq | giveUp hd' hq | fail hd' hq | enter hd' hq | line hd' hq | claim hd' hq
    | begin hd' hq | yield hd' hq | deliver hd' hq | reject hd' hq | submit hd' hq | dropWaiting hd' hq
    | dropTransfer hd' hq =>
      obtain rfl := of_decide_eq_true ha
      cases hd.symm.trans hd'
      simp [hq] at hp
    | feed hd' hq hi =>
      obtain rfl := isAbout_unique ha (isAbout_of_input? hi)
      cases hd.symm.trans hd'
      simp [hq] at hp
    | @collect j y result p hd' hq hr =>
      obtain rfl := of_decide_eq_true ha
      cases hd.symm.trans hd'
      exact absurd hj (Pipeline.not_mem_of_gone (ht.collected hd hq hr))
    | dropOpening hd' hq =>
      obtain rfl := of_decide_eq_true ha
      cases hd.symm.trans hd'
      exact ⟨_, List.getElem?_set_self (List.getElem?_eq_some_iff.mp hd).1, ⟨rfl, rfl, rfl⟩, Or.inr rfl⟩
    | carry hd' | unlink hd' =>
      obtain rfl := of_decide_eq_true ha
      cases hd.symm.trans hd'
      exact ⟨_, List.getElem?_set_self (List.getElem?_eq_some_iff.mp hd).1, ⟨rfl, rfl, rfl⟩, hp⟩

/-- What a step makes of the jobs: those that are not over stay, and one may be put in line. -/
theorem Step.jobs_cases (h : Step d action d') : d'.pipeline.jobs.Sublist d.pipeline.jobs ∨
    ∃ i x file work, d.downloads[i]? = some x ∧ x.phase = .transferred file ∧
      d'.downloads[i]? = some { x with phase := .opening } ∧
      d'.pipeline.jobs = d.pipeline.jobs ++ [⟨i, x.id, file, work⟩] := by
  cases h with
  | @feed i x t action input hd hp hi =>
    exact Or.inl (pipeline_feed_stored hd t input ▸ List.Sublist.refl _)
  | @submit i x file work hd hp hw =>
    refine Or.inr ⟨i, x, file, work, hd, hp, List.getElem?_set_self (List.getElem?_eq_some_iff.mp hd).1, ?_⟩
    exact (List.append_assoc ..).symm
  | collect hd hp hr =>
    obtain ⟨rfl, -⟩ := Pipeline.eq_of_collect? hr
    exact Or.inl (List.Sublist.refl _)
  | work hw => exact Or.inl (Pipeline.step_of_step? hw).jobs_sublist
  | _ => exact Or.inl (List.Sublist.refl _)

theorem Step.nodup (h : Step d action d') (ht : Told policy lost d) :
    (d'.pipeline.jobs.map (·.call)).Nodup := by
  rcases h.jobs_cases with hs | ⟨i, x, file, work, hd, hp, -, hj⟩
  · exact ht.nodup.sublist (hs.map _)
  · have hm := ht.not_mem_jobs hd (by simp [hp]) (by simp [hp])
    rw [hj, List.map_append, List.map_singleton, ← List.concat_eq_append]
    exact (List.nodup_concat _ _).mpr ⟨hm, ht.nodup⟩

theorem Step.job (h : Step d action d') (ht : Told policy lost d) {job : Job} (hm : job ∈ d'.pipeline.jobs) :
    ∃ x, d'.downloads[job.call]? = some x ∧ x.id = job.id ∧ (x.phase = .opening ∨ x.phase = .dropped) := by
  have old : job ∈ d.pipeline.jobs → ∃ x, d'.downloads[job.call]? = some x ∧ x.id = job.id ∧
      (x.phase = .opening ∨ x.phase = .dropped) := by
    intro hj
    obtain ⟨x, hd, hid, hp⟩ := ht.job job hj
    obtain ⟨x', hd', hc, hp'⟩ := h.keeps_job ht hd hp (List.mem_map_of_mem hj)
    exact ⟨x', hd', hc.id.trans hid, hp'⟩
  rcases h.jobs_cases with hs | ⟨i, x, file, work, hd, hp, hd', hj⟩
  · exact old (hs.subset hm)
  · rw [hj] at hm
    rcases List.mem_append.mp hm with hm | hm
    · exact old hm
    · cases List.mem_singleton.mp hm
      exact ⟨_, hd', rfl, Or.inl rfl⟩

/-! ### What a download says in its own steps -/

theorem says_yield {t : Transfer} {result : Except Failure Path} {place : Pipeline.Place} {reply : Option Reply}
    {events : List Event} (hp : x.phase = .transferring t) (hr : t.phase = .ended result)
    (hs : x.Says policy crashed place reply events) :
    { x with phase := afterTransfer result : Download }.Says policy crashed place reply events := by
  simp only [Download.Says, hp] at hs
  obtain ⟨hid, hmax, calls, announced, ⟨-, -, pauses, htally⟩, rfl⟩ := hs
  rw [hr] at htally
  cases result with
  | ok file =>
    obtain ⟨⟨bytes, rfl⟩, hl, -⟩ := htally
    rw [hid]
    exact ⟨pauses, bytes, hmax ▸ hl, rfl⟩
  | error f =>
    obtain ⟨rfl, hl, -⟩ := htally
    rw [hid]
    exact Or.inr ⟨pauses, hmax ▸ hl, rfl⟩

theorem says_collect {result : Except Failure Product} {place : Pipeline.Place} {reply : Option Reply}
    {events : List Event} (hp : x.phase = .opening)
    (hs : x.Says policy crashed place reply events)
    (hr : reply = some (.arrived result) ∨ reply = some .lost ∧ result = .error .shuttingDown) :
    Word policy crashed x.id x.request.kind (result.map .opened) events := by
  simp only [Download.Says, hp] at hs
  obtain ⟨hk, pauses, bytes, more, hl, rfl, ho⟩ := hs
  rcases hr with rfl | ⟨rfl, rfl⟩
  · have hg := ho.collected (by simp)
    rw [hg] at ho
    rcases ho with ⟨rfl, rfl⟩ | rfl
    · rw [List.append_nil]
      exact .unopened hl hk
    · cases result with
      | ok product => exact .opened hl hk
      | error f => exact .spoiled hl hk
  · have hg := ho.collected (by simp)
    rw [hg] at ho
    obtain ⟨hc, rfl⟩ := ho
    exact .crashed hl hk hc

theorem says_feed {t : Transfer} {place : Pipeline.Place} {reply : Option Reply} {events : List Event}
    (hp : x.phase = .transferring t) (hs : x.Says policy crashed place reply events) (input : Transfer.Input)
    (tripped : Bool) : { x with phase := .transferring (t.step input).1, tripped : Download }.Says policy crashed place
      reply (events ++ (t.step input).2.filterMap Transfer.Effect.event?) := by
  simp only [Download.Says, hp] at hs
  obtain ⟨hid, hmax, calls, announced, htally, rfl⟩ := hs
  have hstep := Transfer.step_spec t input
  exact ⟨hstep.id_eq.trans hid, hstep.maxAttempts_eq.trans hmax, _, _, hstep.tally htally, rfl⟩

theorem says_submit {file : Path} {work : Work} (ht : Told policy lost d) (hd : d.downloads[i]? = some x)
    (hp : x.phase = .transferred file) (hw : d.workFor x.request = some work) {place : Pipeline.Place}
    {reply : Option Reply} {events : List Event} (hs : x.Says policy crashed place reply events) :
    { x with phase := .opening : Download }.Says policy crashed ((d.pipeline.push ⟨i, x.id, file, work⟩).place i)
      ((d.pipeline.push ⟨i, x.id, file, work⟩).reply? i) events := by
  have hm := ht.not_mem_jobs hd (by simp [hp]) (by simp [hp])
  have hplace := (Pipeline.place_push d.pipeline ⟨i, x.id, file, work⟩ hm i).trans (if_pos rfl)
  have hreply : (d.pipeline.push ⟨i, x.id, file, work⟩).reply? i = some .expected := Pipeline.reply?_setReply ..
  simp only [Download.Says, hp] at hs
  obtain ⟨pauses, bytes, hl, rfl⟩ := hs
  refine ⟨fun hk => ?_, pauses, bytes, [], hl, (List.append_nil _).symm, ?_⟩
  · rw [workFor_eq_none_iff.mpr hk] at hw
    cases hw
  · refine (congrArg₂ (Pipeline.Opens x.id crashed []) hplace hreply).mpr ?_
    rfl

theorem says_work {p : Pipeline} {s : Shared} {job : Job} (ht : Told policy lost d)
    (h : Pipeline.Step d.isCancelledAt d.pipeline d.shared p s) (hj : d.pipeline.jobs.head? = some job)
    (hd : d.downloads[job.call]? = some x) {events : List Event}
    (hs : x.Says policy crashed (d.pipeline.place job.call) (d.pipeline.reply? job.call) events)
    (hc : d.pipeline.crashing? d.shared = some job → crashed) :
    x.Says policy crashed (p.place job.call) (p.reply? job.call) (events ++ d.pipeline.news) := by
  obtain ⟨y, hy, hid, hp⟩ := ht.job job (List.mem_of_head? hj)
  cases hd.symm.trans hy
  rcases hp with hp | hp
  · simp only [Download.Says, hp] at hs ⊢
    obtain ⟨hk, pauses, bytes, more, hl, rfl, ho⟩ := hs
    rw [hid] at ho
    refine ⟨hk, pauses, bytes, more ++ d.pipeline.news, hl, List.append_assoc .., ?_⟩
    rw [hid]
    exact h.opens ht.nodup hj ho hc
  · simp only [Download.Says, hp]

/-- The step of a download itself, or of the worker with its job. -/
theorem Step.acted (h : Step d action d') (ht : Told policy lost d) (ha : d.acts i action = true)
    (hd : d.downloads[i]? = some x) {events news : List Event}
    (hs : x.Says policy crashed (d.pipeline.place i) (d.pipeline.reply? i) events)
    (hc : ∀ job, d.crashing? action = some job → job.call = i → crashed)
    (hn : d'.shared.events.sent = d.shared.events.sent ++ news) :
    ∃ x', d'.downloads[i]? = some x' ∧ x.Continues x' ∧
      x'.Says policy crashed (d'.pipeline.place i) (d'.pipeline.reply? i) (events ++ news) := by
  have there : ∀ {y : Download}, (d.downloads.set i y)[i]? = some y :=
    List.getElem?_set_self (List.getElem?_eq_some_iff.mp hd).1
  cases h with
  | refuse | accept | cancel | shutdown | setCeiling => cases ha
  | announce hd' hp =>
    obtain rfl := of_decide_eq_true ha
    cases hd.symm.trans hd'
    simp only [Download.Says, hp] at hs
    obtain rfl := (List.append_cancel_left hn).symm
    exact ⟨_, there, ⟨rfl, rfl, rfl⟩, congrArg (· ++ _) hs⟩
  | quit hd' hp | giveUp hd' hp =>
    obtain rfl := of_decide_eq_true ha
    cases hd.symm.trans hd'
    simp only [Download.Says, hp] at hs
    obtain rfl := List.self_eq_append_right.mp hn
    exact ⟨_, there, ⟨rfl, rfl, rfl⟩, Or.inl ⟨rfl, congrArg (· ++ _) hs⟩⟩
  | enter hd' hp | line hd' hp | claim hd' hp =>
    obtain rfl := of_decide_eq_true ha
    cases hd.symm.trans hd'
    simp only [Download.Says, hp] at hs
    obtain rfl := List.self_eq_append_right.mp hn
    exact ⟨_, there, ⟨rfl, rfl, rfl⟩, congrArg (· ++ _) hs⟩
  | begin hd' hp =>
    obtain rfl := of_decide_eq_true ha
    cases hd.symm.trans hd'
    simp only [Download.Says, hp] at hs
    obtain rfl := (List.append_cancel_left hn).symm
    refine ⟨_, there, ⟨rfl, rfl, rfl⟩, rfl, ?_, 0, [], Transfer.tally_start .., congrArg (· ++ _) hs⟩
    rw [ht.retry]
    rfl
  | @feed j y t action input hd' hp hi =>
    obtain rfl : j = i := by
      have hj := isAbout_of_input? hi
      refine acts_unique ?_ ha
      cases action <;> first | exact hj | cases hj
    cases hd.symm.trans hd'
    have hs' : (d.stored action).downloads[j]? = some x := getElem?_stored hd
    have hf := feed_spec hs' t input
    obtain ⟨tripped, hset⟩ := hf.downloads
    obtain rfl : (t.step input).2.filterMap Transfer.Effect.event? = news :=
      List.append_cancel_left ((hf.sent.trans (congrArg (·.sent ++ _) (stored_eq d action).2.2.2)).symm.trans hn)
    refine ⟨{ x with phase := .transferring (t.step input).1, tripped }, ?_, ⟨rfl, rfl, rfl⟩,
      says_feed hp hs input tripped⟩
    rw [hset, move, put, List.set_set, (stored_eq d action).1]
    exact there
  | yield hd' hp hr =>
    obtain rfl := of_decide_eq_true ha
    cases hd.symm.trans hd'
    obtain rfl := List.self_eq_append_right.mp hn
    rw [List.append_nil]
    exact ⟨_, there, ⟨rfl, rfl, rfl⟩, says_yield hp hr hs⟩
  | deliver hd' hp hw =>
    obtain rfl := of_decide_eq_true ha
    cases hd.symm.trans hd'
    simp only [Download.Says, hp] at hs
    obtain ⟨pauses, bytes, hl, rfl⟩ := hs
    obtain rfl := List.self_eq_append_right.mp hn
    rw [List.append_nil]
    exact ⟨_, there, ⟨rfl, rfl, rfl⟩, .fetched hl (workFor_eq_none_iff.mp hw)⟩
  | reject hd' hp hw =>
    obtain rfl := of_decide_eq_true ha
    cases hd.symm.trans hd'
    simp only [Download.Says, hp] at hs
    obtain ⟨pauses, bytes, hl, rfl⟩ := hs
    obtain rfl := List.self_eq_append_right.mp hn
    rw [List.append_nil]
    refine ⟨_, there, ⟨rfl, rfl, rfl⟩, .unopened hl fun hk => ?_⟩
    rw [workFor_eq_none_iff.mpr hk] at hw
    cases hw
  | submit hd' hp hw =>
    obtain rfl := of_decide_eq_true ha
    cases hd.symm.trans hd'
    obtain rfl := List.self_eq_append_right.mp hn
    rw [List.append_nil]
    exact ⟨_, there, ⟨rfl, rfl, rfl⟩, says_submit ht hd hp hw hs⟩
  | collect hd' hp hr =>
    obtain rfl := of_decide_eq_true ha
    cases hd.symm.trans hd'
    obtain rfl := List.self_eq_append_right.mp hn
    rw [List.append_nil]
    exact ⟨_, there, ⟨rfl, rfl, rfl⟩, says_collect (x := x) hp hs (Pipeline.eq_of_collect? hr).2⟩
  | fail hd' hp =>
    obtain rfl := of_decide_eq_true ha
    cases hd.symm.trans hd'
    simp only [Download.Says, hp] at hs
    obtain rfl := (List.append_cancel_left hn).symm
    refine ⟨_, there, ⟨rfl, rfl, rfl⟩, ?_⟩
    rcases hs with ⟨rfl, rfl⟩ | ⟨pauses, hl, rfl⟩
    · exact .turnedAway
    · exact .failed hl
  | dropWaiting hd' | dropTransfer hd' | dropOpening hd' =>
    obtain rfl := of_decide_eq_true ha
    cases hd.symm.trans hd'
    exact ⟨_, there, ⟨rfl, rfl, rfl⟩, trivial⟩
  | carry hd' | unlink hd' =>
    obtain rfl := of_decide_eq_true ha
    cases hd.symm.trans hd'
    obtain rfl := List.self_eq_append_right.mp hn
    rw [List.append_nil]
    exact ⟨_, there, ⟨rfl, rfl, rfl⟩, hs⟩
  | work hw =>
    have hstep := Pipeline.step_of_step? hw
    obtain ⟨job, hj, hi⟩ := (Option.any_eq_true ..).mp ha
    obtain rfl : job.call = i := of_decide_eq_true hi
    obtain rfl : d.pipeline.news = news := List.append_cancel_left (hstep.news.symm.trans hn)
    exact ⟨x, hd, .refl x, says_work ht hstep hj hd hs fun hcrash => hc job hcrash rfl⟩

theorem Step.owned (h : Step d action d') (ht : Told policy lost d) {event : Event}
    (hm : event ∈ d'.shared.events.sent) : ∃ (i : Nat) (x x' : Download), d.downloads[i]? = some x ∧
      d'.downloads[i]? = some x' ∧ event.id = x'.id := by
  obtain ⟨news, hsent, hnews⟩ := h.news ht
  have hold : ∃ (i : Nat) (x : Download), d.downloads[i]? = some x ∧ event.id = x.id := by
    rw [hsent] at hm
    rcases List.mem_append.mp hm with hm | hm
    · exact ht.owned event hm
    · obtain ⟨i, x, hd, he, -⟩ := hnews event hm
      exact ⟨i, x, hd, he⟩
  obtain ⟨i, x, hd, he⟩ := hold
  obtain ⟨x', hd', hc⟩ := h.continues hd
  exact ⟨i, x, x', hd, hd', he.trans hc.id.symm⟩

/-- A download goes on with what it has announced, and what others announce is not about it, unless they share its
    number. -/
theorem Step.words (h : Step d action d') (ht : Told policy lost d) {x' : Download}
    (hd' : d'.downloads[i]? = some x') : ∃ events,
      x'.Says policy (i ∈ lost ++ (d.crashing? action).toList.map (·.call)) (d'.pipeline.place i)
          (d'.pipeline.reply? i) events ∧
        ((∀ (j : Nat) (y : Download), d'.downloads[j]? = some y → y.id = x'.id → j = i) →
          d'.shared.events.sent.filter (·.id = x'.id) = events) := by
  obtain ⟨news, hsent, hnews⟩ := h.news ht
  rcases h.moved i x' hd' with ⟨x, hd, hc, -⟩ | ⟨hl, hp⟩
  · obtain ⟨events, hsays, hw⟩ := ht.words i x hd
    have hs : x.Says policy (i ∈ lost ++ (d.crashing? action).toList.map (·.call)) (d.pipeline.place i)
        (d.pipeline.reply? i) events := hsays.mono (List.mem_append_left _)
    have halone : (∀ (j : Nat) (y : Download), d'.downloads[j]? = some y → y.id = x'.id → j = i) →
        ∀ (j : Nat) (y : Download), d.downloads[j]? = some y → y.id = x.id → j = i := by
      intro h' j y hy he
      obtain ⟨y', hy', hcy⟩ := h.continues hy
      exact h' j y' hy' (hcy.id.trans (he.trans hc.id.symm))
    cases ha : d.acts i action with
    | true =>
      obtain ⟨y, hy, hcy, hs'⟩ := h.acted ht ha hd hs (fun job hj he => by simp [hj, he]) hsent
      cases hd'.symm.trans hy
      refine ⟨events ++ news, hs', fun h' => ?_⟩
      have hown : news.filter (·.id = x'.id) = news := by
        refine List.filter_eq_self.mpr fun event hm => decide_eq_true ?_
        obtain ⟨j, z, hz, he, hj⟩ := hnews event hm
        obtain rfl := acts_unique hj ha
        cases hz.symm.trans hd
        exact he.trans hc.id.symm
      rw [hsent, List.filter_append, hown, hc.id, hw (halone h')]
    | false =>
      obtain ⟨hy, hplace, hreply⟩ := h.idle ht ha hd
      cases hd'.symm.trans hy
      refine ⟨events, by rw [hplace, hreply]; exact hs, fun h' => ?_⟩
      have hother : news.filter (·.id = x'.id) = [] := by
        refine List.filter_eq_nil_iff.mpr fun event hm he => ?_
        obtain ⟨j, z, hz, hez, hj⟩ := hnews event hm
        obtain rfl := halone h' j z hz (hez.symm.trans (of_decide_eq_true he))
        rw [ha] at hj
        cases hj
      rw [hsent, List.filter_append, hother, List.append_nil, hw (halone h')]
  · -- A new download: nobody before it has its number, or else it shares it.
    refine ⟨[], by simp only [Download.Says, hp], fun h' => List.filter_eq_nil_iff.mpr fun event hm he => ?_⟩
    obtain ⟨j, y, y', hy, hy', hey⟩ := h.owned ht hm
    obtain rfl := h' j y' hy' (hey.symm.trans (of_decide_eq_true he))
    exact absurd (List.getElem?_eq_some_iff.mp hy).1 (Nat.not_lt_of_le hl)

theorem Step.told (h : Step d action d') (ht : Told policy lost d) :
    Told policy (lost ++ (d.crashing? action).toList.map (·.call)) d' where
  retry := h.retry_eq.trans ht.retry
  nodup := h.nodup ht
  job _ hm := h.job ht hm
  owned _ hm := by
    obtain ⟨i, -, x, -, hd, he⟩ := h.owned ht hm
    exact ⟨i, x, hd, he⟩
  words _ _ hd' := h.words ht hd'

theorem told_run (ht : Told policy lost d) (h : d.run? actions = some d') :
    Told policy (lost ++ d.crashes actions) d' := by
  induction actions generalizing d lost with
  | nil =>
    cases h
    simpa [crashes] using ht
  | cons action rest ih =>
    obtain ⟨e, he, hr⟩ := Option.bind_eq_some_iff.mp h
    have hn := ih ((step_of_step? he).told ht) hr
    simpa only [crashes, he, Option.map_some, Option.getD_some, List.append_assoc] using hn

theorem IsFresh.told (hf : d.IsFresh) : Told d.retry [] d where
  retry := rfl
  nodup := by
    rw [hf.pipeline]
    exact List.nodup_nil
  job job hm := by
    rw [hf.pipeline] at hm
    cases hm
  owned event hm := by
    rw [hf.sent] at hm
    cases hm
  words i x hd := by
    rw [hf.downloads] at hd
    cases hd

/-! ### One opening after the other -/

/-- Only the worker announces openings. -/
theorem Step.openings (h : Step d action d') :
    (∃ p s, Pipeline.Step d.isCancelledAt d.pipeline d.shared p s ∧ d' = { d with pipeline := p, shared := s }) ∨
      d'.pipeline.worker = d.pipeline.worker ∧
        d'.shared.events.sent.filter Event.isDecryption = d.shared.events.sent.filter Event.isDecryption := by
  cases h with
  | announce | begin | fail =>
    refine Or.inr ⟨rfl, List.filter_append .. |>.trans ?_⟩
    exact List.append_nil _
  | @feed i x t action input hd hp hi =>
    have hd' : (d.stored action).downloads[i]? = some x := getElem?_stored hd
    have hf := feed_spec hd' t input
    refine Or.inr ⟨congrArg (·.worker) (pipeline_feed_stored hd t input), ?_⟩
    have hnone : ((t.step input).2.filterMap Transfer.Effect.event?).filter Event.isDecryption = [] := by
      refine List.filter_eq_nil_iff.mpr fun event hm => ?_
      rcases (Transfer.step_spec t input).announced hm with ⟨_, _, _, rfl⟩ | ⟨_, rfl⟩ <;> exact Bool.false_ne_true
    rw [hf.sent, List.filter_append, hnone, List.append_nil]
    exact congrArg (·.sent.filter Event.isDecryption) (stored_eq d action).2.2.2
  | collect hd hp hr =>
    obtain ⟨rfl, -⟩ := Pipeline.eq_of_collect? hr
    exact Or.inr ⟨rfl, rfl⟩
  | work hw => exact Or.inl ⟨_, _, Pipeline.step_of_step? hw, rfl⟩
  | _ => exact Or.inr ⟨rfl, rfl⟩

theorem Step.alternates (h : Step d action d')
    (ha : Pipeline.Alternates d.pipeline.worker (d.shared.events.sent.filter Event.isDecryption)) :
    Pipeline.Alternates d'.pipeline.worker (d'.shared.events.sent.filter Event.isDecryption) := by
  rcases h.openings with ⟨p, s, hs, rfl⟩ | ⟨hw, hsent⟩
  · have hnews : d.pipeline.news.filter Event.isDecryption = d.pipeline.news :=
      List.filter_eq_self.mpr fun event hm => (Pipeline.id_of_mem_news hm).choose_spec.2.2
    rw [hs.news, List.filter_append, hnews]
    exact hs.alternates ha
  · rw [hw, hsent]
    exact ha

theorem alternates_run (h : d.run? actions = some d')
    (ha : Pipeline.Alternates d.pipeline.worker (d.shared.events.sent.filter Event.isDecryption)) :
    Pipeline.Alternates d'.pipeline.worker (d'.shared.events.sent.filter Event.isDecryption) := by
  induction actions generalizing d with
  | nil =>
    cases h
    exact ha
  | cons action rest ih =>
    obtain ⟨e, he, hr⟩ := Option.bind_eq_some_iff.mp h
    exact ih hr ((step_of_step? he).alternates ha)

/-! ### Words and results -/

end Downloader

/-- The number of the attempt that is announced to have failed. -/
def Event.attempt? : Event → Option UInt32
  | .retrying _ attempt .. => some attempt
  | _ => none

/-- How the result of a download agrees with what it has announced; `crashed` tells whether the work on its ciphertext
    has crashed. -/
structure Agrees (policy : RetryPolicy) (crashed : Prop) (id : TransferId) (kind : RequestKind)
    (result : Except Failure Delivered) (events : List Event) : Prop where
  attempts : ∃ count, count < policy.attempts ∧
    (events.filterMap Event.attempt?).map UInt32.toNat = List.range' 1 count
  backup : kind = .backup →
    ((∃ delivered, result = .ok delivered) ↔ ∃ bytes, events.getLast? = some (.transferComplete id bytes))
  attachment : kind ≠ .backup →
    ((∃ delivered, result = .ok delivered) ↔ events.getLast? = some (.decryptionComplete id))
  failed : ∀ message, events.getLast? = some (.transferFailed id message) →
    ∃ f, result = .error f ∧ f.message = message
  crashed : events.getLast? = some (.decryptionStarted id) → crashed

theorem attempt?_retries (id : TransferId) {number : Nat} {pauses : List (Span × String)}
    (h : number + pauses.length ≤ UInt32.size) :
    ((Transfer.retries id number pauses).filterMap Event.attempt?).map UInt32.toNat =
      List.range' number pauses.length := by
  induction pauses generalizing number with
  | nil => rfl
  | cons first rest ih =>
    rw [List.length_cons] at h
    have hn : (UInt32.ofNat number).toNat = number := UInt32.toNat_ofNat_of_lt' (by omega)
    rw [List.length_cons, List.range'_succ, ← ih (by omega)]
    exact congrArg (· :: _) hn

theorem Word.attempt? {policy : RetryPolicy} {id : TransferId} {kind : RequestKind} {pauses : List (Span × String)}
    (h : pauses.length < policy.attempts) {more : List Event} (hm : more.filterMap Event.attempt? = []) :
    ∃ count, count < policy.attempts ∧
      ((Word.tried id kind pauses ++ more).filterMap Event.attempt?).map UInt32.toNat = List.range' 1 count := by
  refine ⟨pauses.length, h, ?_⟩
  have hlt := Transfer.attempts_lt policy
  rw [List.filterMap_append, hm, List.append_nil, ← attempt?_retries id (by omega)]
  rfl

theorem Word.agrees {policy : RetryPolicy} {crashed : Prop} {id : TransferId} {kind : RequestKind}
    {result : Except Failure Delivered} {events : List Event} (h : Word policy crashed id kind result events) :
    Agrees policy crashed id kind result events := by
  have hpos : 0 < policy.attempts := Nat.le_max_left 1 _
  cases h with
  | turnedAway =>
    refine ⟨⟨0, hpos, rfl⟩, ?_, ?_, ?_, ?_⟩ <;> simp
  | failed h =>
    refine ⟨Word.attempt? h rfl, ?_, ?_, ?_, ?_⟩ <;> simp
  | fetched h hk =>
    refine ⟨Word.attempt? h rfl, ?_, ?_, ?_, ?_⟩ <;> simp [Word.arrived, hk]
  | unopened h hk =>
    refine ⟨Word.attempt? h rfl, ?_, ?_, ?_, ?_⟩ <;> simp [Word.arrived, hk]
  | crashed h hk hc =>
    refine ⟨by rw [Word.arrived, List.append_assoc]; exact Word.attempt? h rfl, ?_, ?_, ?_, ?_⟩ <;> simp [hk, hc]
  | opened h hk =>
    refine ⟨by rw [Word.arrived, List.append_assoc]; exact Word.attempt? h rfl, ?_, ?_, ?_, ?_⟩ <;> simp [hk]
  | spoiled h hk =>
    refine ⟨by rw [Word.arrived, List.append_assoc]; exact Word.attempt? h rfl, ?_, ?_, ?_, ?_⟩ <;> simp [hk]

namespace Downloader

variable {d₀ d : Downloader} {actions : List Action}

/-- What is announced in a run. -/
structure Announces (d₀ : Downloader) (actions : List Action) (d : Downloader) : Prop where
  /-- a download that has ended, where no other one has its number -/
  words : ∀ i (x : Download) result, d.downloads[i]? = some x → x.phase = .over result →
    (∀ (j : Nat) (y : Download), d.downloads[j]? = some y → y.id = x.id → j = i) →
      Word d₀.retry (i ∈ d₀.crashes actions) x.id x.request.kind result
        (d.shared.events.sent.filter (·.id = x.id)) ∧
      Agrees d₀.retry (i ∈ d₀.crashes actions) x.id x.request.kind result
        (d.shared.events.sent.filter (·.id = x.id))
  /-- nothing is announced but about downloads that have been accepted, and a request that is refused changes
      nothing -/
  owned : ∀ event ∈ d.shared.events.sent, ∃ (i : Nat) (x : Download), d.downloads[i]? = some x ∧ event.id = x.id
  refused : ∀ request caller failure, d.ask request caller = .error failure →
    d.step? (.ask request caller) = some d
  /-- numbers are used again only when there are no others left -/
  numbers : ∀ i j (x y : Download), d.downloads[i]? = some x → d.downloads[j]? = some y → x.id = y.id →
    i % UInt64.size = j % UInt64.size ∧ (d.downloads.length ≤ UInt64.size → i = j)
  /-- between the beginning of an opening and its end there is no event about another one -/
  serial : ∀ before between after id event,
    d.shared.events.sent = before ++ .decryptionStarted id :: between ++ event :: after →
    event.openedId? = some id → .decryptionStarted id ∉ between → ∀ other ∈ between, other.isDecryption = false

/-- In any run, a download that has ended has announced one of the words, and its result agrees with it. -/
theorem announced_in_words (hf : d₀.IsFresh) (h : d₀.run? actions = some d) :
    Announces d₀ actions d where
  words i x result hd hp ha := by
    obtain ⟨events, hs, hw⟩ := (told_run hf.told h).words i x hd
    simp only [Download.Says, hp] at hs
    rw [hw ha]
    exact ⟨hs, hs.agrees⟩
  owned := (told_run hf.told h).owned
  refused request caller failure hr := by
    simp only [step?, hr]
  numbers i j x y hx hy he := by
    have hmod := (numbered_run hf.numbered h).apart hx hy he
    refine ⟨hmod, fun hl => ?_⟩
    have hi := (List.getElem?_eq_some_iff.mp hx).1
    have hj := (List.getElem?_eq_some_iff.mp hy).1
    rwa [Nat.mod_eq_of_lt (by omega), Nat.mod_eq_of_lt (by omega)] at hmod
  serial before between after id event hs he hb := by
    refine (alternates_run h ?_).between hs he hb
    rw [hf.sent, hf.pipeline]
    exact ⟨fun before event after id hs => by simp at hs, trivial⟩

/-- An attachment that is opened, while a backup is turned away because its caller has cancelled. -/
theorem announced_in_words_opened :
    let metadata : Metadata := ⟨"text/plain", 2, "key", ⟨List.replicate 64 0, by decide⟩, none, none⟩
    let actions : List Action := [.ask (.attachment metadata ⟨8⟩) 1, .ask (.backup ⟨3, "archive", "latest"⟩ []) 0,
      .advance 0, .advance 0, .advance 0, .advance 1, .advance 0, .settle 0 (.ok "b") (some [1, 2]) 0, .link 1,
      .advance 0, .advance 0, .advance 1, .advance 0, .work, .work, .advance 1, .work, .work, .work, .work, .advance 0]
    ∃ d, withCancelled.run? actions = some d ∧ Announces withCancelled actions d ∧
      d.shared.events.sent.filter (·.id = ⟨1⟩) = [.queued ⟨1⟩ .attachment, .admitted ⟨1⟩, .transferComplete ⟨1⟩ 2,
        .decryptionStarted ⟨1⟩, .decryptionComplete ⟨1⟩] ∧
      d.shared.events.sent.filter (·.id = ⟨2⟩) = [.queued ⟨2⟩ .backup, .transferFailed ⟨2⟩ "download cancelled"] := by
  intro metadata actions
  have hf : withCancelled.IsFresh := ⟨rfl, rfl, rfl⟩
  have hrun : (withCancelled.run? actions).map (fun d =>
      (d.shared.events.sent.filter (·.id = ⟨1⟩), d.shared.events.sent.filter (·.id = ⟨2⟩))) =
        some ([.queued ⟨1⟩ .attachment, .admitted ⟨1⟩, .transferComplete ⟨1⟩ 2, .decryptionStarted ⟨1⟩,
          .decryptionComplete ⟨1⟩], [.queued ⟨2⟩ .backup, .transferFailed ⟨2⟩ "download cancelled"]) := by
    decide +kernel
  obtain ⟨d, hr, hs⟩ := Option.map_eq_some_iff.mp hrun
  obtain ⟨hfirst, hsecond⟩ := Prod.mk.inj hs
  exact ⟨d, hr, announced_in_words hf hr, hfirst, hsecond⟩

end Downloader
end SealedDownload
