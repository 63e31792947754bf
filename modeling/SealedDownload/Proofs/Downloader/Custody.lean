import SealedDownload.Proofs.Downloader.Words

/-! In whose hands the ciphertexts and the tokens of a download are. A ciphertext that the transport has handed over is
    with the transfer, with the download or with its job, or it has been removed; and as long as the job has not been
    begun, the download can only fail, with its ciphertext removed before. -/

namespace SealedDownload

/-! ### A transfer and its file -/

namespace Transfer

variable {t t' : Transfer} {input : Input} {inputs : List Input} {effects : List Effect} {path : Path}

/-- A transfer has a file: it looks its size up, or has ended with it. -/
def Has (t : Transfer) (path : Path) : Prop := t.phase = .measuring path ∨ t.phase = .ended (.ok path)

theorem Has.answer?_eq_none (h : t.Has path) (input : Input) : t.answer? input = none := by
  rcases h with h | h <;> simp only [answer?, h]

/-- A transfer keeps the file it has, or removes it. -/
theorem Step.has (hs : Step t input t' effects) (h : t.Has path) : t'.Has path ∨ .remove path ∈ effects := by
  rcases h with h | h
  · cases hs with
    | ignore => exact Or.inl (Or.inl h)
    | retryLost hp | lose hp | exceed hp =>
      cases h.symm.trans hp
      exact Or.inr List.mem_cons_self
    | complete hp =>
      cases h.symm.trans hp
      exact Or.inl (Or.inr rfl)
    | reject hp | stop hp | call hp | early hp | trip hp | publish hp | pass hp | abortFile hp | abort hp | fetch hp
    | retry hp | fail hp | wake hp | interrupt hp => cases h.symm.trans hp
  · cases hs with
    | ignore => exact Or.inl (Or.inr h)
    | retryLost hp | lose hp | exceed hp | complete hp | reject hp | stop hp | call hp | early hp | trip hp | publish hp
    | pass hp | abortFile hp | abort hp | fetch hp | retry hp | fail hp | wake hp | interrupt hp => cases h.symm.trans hp

/-- A transfer that is given a file has it, or removes it at once. -/
theorem Step.given (hs : Step t input t' effects) (h : t.answer? input = some (.ok path)) :
    t'.Has path ∨ .remove path ∈ effects := by
  cases hs with
  | ignore hf =>
    rw [answer?_of_not_fits hf] at h
    cases h
  | fetch hp =>
    simp only [answer?, hp] at h
    cases h
    exact Or.inl (Or.inl rfl)
  | abortFile hp =>
    simp only [answer?, hp] at h
    cases h
    exact Or.inr List.mem_cons_self
  | retry hp | fail hp | abort hp =>
    simp only [answer?, hp] at h
    cases h
  | retryLost hp | lose hp | exceed hp | complete hp | reject hp | stop hp | call hp | early hp | trip hp | publish hp
  | pass hp | wake hp | interrupt hp =>
    simp only [answer?, hp] at h
    cases h

/-- What an input makes of a file that has been handed over: if it was the last one and the transfer had it, or it is
    handed over now, then the transfer has it, or removes it. -/
theorem handed_concat {n : Nat} {gone : Prop} (h : (t.answers (inputs ++ [input]))[n]? = some (.ok path))
    (hold : (t.answers inputs)[n]? = some (.ok path) →
      gone ∨ n + 1 = (t.answers inputs).length ∧ (t.run inputs).1.Has path) :
    gone ∨ n + 1 = (t.answers (inputs ++ [input])).length ∧
      ((t.run (inputs ++ [input])).1.Has path ∨ .remove path ∈ ((t.run inputs).1.step input).2) := by
  have hans : t.answers (inputs ++ [input]) = t.answers inputs ++ ((t.run inputs).1.answer? input).toList := by
    rw [answers_append, answers, answers, List.append_nil]
  have hstep := step_spec (t.run inputs).1 input
  rw [run_concat]
  rw [hans] at h ⊢
  rcases Nat.lt_or_ge n (t.answers inputs).length with hlt | hge
  · rw [List.getElem?_append_left hlt] at h
    rcases hold h with hg | ⟨hl, hhas⟩
    · exact Or.inl hg
    · rw [hhas.answer?_eq_none, Option.toList_none, List.append_nil]
      exact Or.inr ⟨hl, hstep.has hhas⟩
  · rw [List.getElem?_append_right hge] at h
    have hm : .ok path ∈ ((t.run inputs).1.answer? input).toList := List.mem_of_getElem? h
    rw [Option.mem_toList] at hm
    have hl : n - (t.answers inputs).length < 1 := by
      have hlt := (List.getElem?_eq_some_iff.mp h).1
      rwa [hm, Option.toList_some, List.length_singleton] at hlt
    refine Or.inr ⟨?_, hstep.given hm⟩
    rw [hm, Option.toList_some, List.length_append, List.length_singleton]
    omega

end Transfer

/-! ### A job that is not begun -/

namespace Pipeline

/-- What has become of the job of a call that waits for it, as long as it has not been begun; `gone` tells whether its
    ciphertext has been removed. -/
def Skips (gone : Prop) : Place → Option Reply → Prop
  | .line, _ => True
  | .hand (.decided ..), _ => True
  | .hand (.announced _ result), _ => result = .error .cancelled
  | .hand (.cleared _ result), _ => result = .error .cancelled ∧ gone
  | .gone, some (.arrived result) => result = .error .cancelled ∧ gone
  | _, _ => False

variable {isCancelled : Nat → Bool} {p p' : Pipeline} {s s' : Shared} {job : Job} {gone gone' : Prop}

theorem Skips.mono {place : Place} {reply : Option Reply} (h : Skips gone place reply) (hg : gone → gone') :
    Skips gone' place reply := by
  unfold Skips at h ⊢
  split at h
  case h_4 | h_5 => exact ⟨h.1, hg h.2⟩
  all_goals exact h

/-- The worker goes on with a job that it does not begin. -/
theorem Step.skips (h : Step isCancelled p s p' s') (hn : (p.jobs.map (·.call)).Nodup) (hj : p.jobs.head? = some job)
    (hk : Skips gone (p.place job.call) (p.reply? job.call)) (hr : (p.reply? job.call).isSome)
    (hb : p.starting? ≠ some job) (hg : gone → gone') (hc : s'.files.get? job.ciphertext = none → gone') :
    Skips gone' (p'.place job.call) (p'.reply? job.call) := by
  have hw : ∀ {first : Job}, p.worker.job? = some first → first = job := fun hf =>
    Option.some.inj ((head?_jobs hf).symm.trans hj)
  cases h with
  | @take first rest hi hq =>
    obtain rfl : first = job := Option.some.inj ((by simp [jobs, hi, hq, Worker.job?] : _ = _).symm.trans hj)
    rw [place_of_taken (w := .decided first (!isCancelled first.call)) hi hq rfl, if_pos rfl]
    trivial
  | @begin first hi =>
    obtain rfl := hw (by rw [hi]; rfl)
    exact absurd (by simp only [starting?, hi]) hb
  | @skip first hi =>
    have hjob : p.worker.job? = some first := by rw [hi]; rfl
    obtain rfl := hw hjob
    rw [place_of_worker (w := .announced first (.error .cancelled)) hjob rfl, if_pos rfl]
    rfl
  | @operate first _ _ hi | @crash first _ hi | @announce first _ hi =>
    have hjob : p.worker.job? = some first := by rw [hi]; rfl
    obtain rfl := hw hjob
    rw [place_hand hjob, hi] at hk
    exact hk.elim
  | @keep first product hi =>
    have hjob : p.worker.job? = some first := by rw [hi]; rfl
    obtain rfl := hw hjob
    rw [place_hand hjob, hi] at hk
    cases hk
  | @clear first failure hi =>
    have hjob : p.worker.job? = some first := by rw [hi]; rfl
    obtain rfl := hw hjob
    rw [place_hand hjob, hi] at hk
    rw [place_of_worker (w := .cleared first (.error failure)) hjob rfl, if_pos rfl]
    exact ⟨hk, hc (Files.get?_erase _ _)⟩
  | @reply first result hi =>
    have hjob : p.worker.job? = some first := by rw [hi]; rfl
    obtain rfl := hw hjob
    rw [place_hand hjob, hi] at hk
    obtain ⟨hq, hidle, -⟩ := send_eq { p with worker := .idle } s first.call result
    obtain ⟨reply, hreply⟩ := Option.isSome_iff_exists.mp hr
    have hold : { p with worker := .idle }.reply? first.call = some reply := hreply
    rw [place_of_done hn hjob hidle hq, if_pos rfl, reply?_send, if_pos rfl, hold]
    exact ⟨hk.1, hg hk.2⟩

end Pipeline

/-! ### Histories -/

/-- Where a download is, after the inputs that its transfer has had, its job and the reply to it being where they are;
    `unbegun` tells whether no job of it has been begun, and `gone` which ciphertexts have been removed. -/
def Download.Settles (start : Transfer) (fed : List Transfer.Input) (unbegun : Prop) (gone : Path → Prop)
    (place : Pipeline.Place) (reply : Option Reply) (x : Download) : Prop :=
  match x.phase with
  | .failing f => fed = [] ∧ f = .cancelled ∨ (start.run fed).1.result? = some (.error f)
  | .opening => ∃ path, (start.run fed).1.result? = some (.ok path) ∧
      (unbegun → Pipeline.Skips (gone path) place reply)
  | .over result => x.request.kind ≠ .backup → unbegun → ∃ f, result = .error f ∧
      (fed = [] ∧ f = .cancelled ∨ (start.run fed).1.result? = some (.error f) ∨
        f = .cancelled ∧ ∃ path, (start.run fed).1.result? = some (.ok path) ∧ gone path)
  | _ => True

theorem Download.Settles.mono {start : Transfer} {fed : List Transfer.Input} {unbegun unbegun' : Prop}
    {gone gone' : Path → Prop} {place : Pipeline.Place} {reply : Option Reply} {x : Download}
    (h : x.Settles start fed unbegun gone place reply) (hu : unbegun' → unbegun)
    (hg : ∀ path, gone path → gone' path) : x.Settles start fed unbegun' gone' place reply := by
  unfold Download.Settles at h ⊢
  split at h
  case h_2 =>
    obtain ⟨path, hr, hs⟩ := h
    exact ⟨path, hr, fun hn => (hs (hu hn)).mono (hg path)⟩
  case h_3 =>
    intro hk hn
    obtain ⟨f, hf, hr⟩ := h hk (hu hn)
    refine ⟨f, hf, ?_⟩
    rcases hr with hr | hr | ⟨hc, path, hp, hgone⟩
    · exact Or.inl hr
    · exact Or.inr (Or.inl hr)
    · exact Or.inr (Or.inr ⟨hc, path, hp, hg path hgone⟩)
  all_goals exact h

namespace Downloader

variable {d₀ d d' : Downloader} {action : Action} {actions earlier later : List Action} {i count : Nat} {x : Download}
  {start : Transfer} {path : Path} {policy : RetryPolicy} {lost : List Nat}

/-- No job of a download has been begun in a run. -/
def Unbegun (d₀ : Downloader) (i : Nat) (actions : List Action) : Prop := ∀ job ∈ d₀.begun actions, job.call ≠ i

/-- A file is not there at some moment of a run at which the transport has given so many answers for a download. -/
def Gone (d₀ : Downloader) (start : Transfer) (i : Nat) (actions : List Action) (count : Nat) (path : Path) : Prop :=
  ∃ before after d, actions = before ++ after ∧ d₀.run? before = some d ∧
    count ≤ (start.answers (d₀.inputs i before)).length ∧ d.shared.files.get? path = none

theorem Gone.append (h : Gone d₀ start i earlier count path) (later : List Action) :
    Gone d₀ start i (earlier ++ later) count path := by
  obtain ⟨before, after, d, rfl, hr, hc, hn⟩ := h
  exact ⟨before, after ++ later, d, List.append_assoc .., hr, hc, hn⟩

theorem gone_now (hr : d₀.run? actions = some d) (hn : d.shared.files.get? path = none) :
    Gone d₀ start i actions (start.answers (d₀.inputs i actions)).length path :=
  ⟨actions, [], d, (List.append_nil _).symm, hr, Nat.le_refl _, hn⟩

/-- What is known of the ciphertexts and tokens of the downloads after a run. -/
structure Kept (d₀ : Downloader) (actions : List Action) (d : Downloader) : Prop where
  job : ∀ job ∈ d.pipeline.jobs, ∃ x, d.downloads[job.call]? = some x ∧
    ((x.transfer d₀.retry).run (d₀.inputs job.call actions)).1.result? = some (.ok job.ciphertext)
  /-- a file that the transport has handed over has been removed since, or it is the last one, and the transfer has
      it still or has ended with it -/
  handed : ∀ i (x : Download), d.downloads[i]? = some x → ∀ n path,
    ((x.transfer d₀.retry).answers (d₀.inputs i actions))[n]? = some (.ok path) →
      Gone d₀ (x.transfer d₀.retry) i actions (n + 1) path ∨
      n + 1 = ((x.transfer d₀.retry).answers (d₀.inputs i actions)).length ∧
        ((x.transfer d₀.retry).run (d₀.inputs i actions)).1.Has path
  settles : ∀ i (x : Download), d.downloads[i]? = some x →
    x.Settles (x.transfer d₀.retry) (d₀.inputs i actions) (d₀.Unbegun i actions)
      (Gone d₀ (x.transfer d₀.retry) i actions ((x.transfer d₀.retry).answers (d₀.inputs i actions)).length)
      (d.pipeline.place i) (d.pipeline.reply? i)
  demanded : ∀ i (x : Download), d.downloads[i]? = some x →
    ∀ effect ∈ ((x.transfer d₀.retry).run (d₀.inputs i actions)).2, ∀ demand,
      effect.demand? i x.request = some demand → demand ∈ d.demands

/-! ### The steps -/

/-- A download after a step has been there before, or it is new and its transfer has had no inputs. -/
theorem old_or_new (hr : d₀.run? actions = some d) (ht : Traced policy (d₀.inputs · actions) (d₀.begun actions) d)
    (h : Step d action d') {x' : Download} (hx' : d'.downloads[i]? = some x') :
    (∃ x, d.downloads[i]? = some x ∧ x.Continues x') ∨
      x'.phase = .begun ∧ d₀.inputs i (actions ++ [action]) = [] := by
  rcases h.moved i x' hx' with ⟨x, hd, hc, -⟩ | ⟨hl, hp⟩
  · exact Or.inl ⟨x, hd, hc⟩
  · have hn : d.input? i action = none := by
      rw [input?, List.getElem?_eq_none hl]
      rfl
    refine Or.inr ⟨hp, ?_⟩
    rw [inputs_append hr, inputs_singleton, hn, ht.absent i hl]
    rfl

/-- An input of a transfer, and what the transfer makes of it. -/
theorem fed_of_input? {input : Transfer.Input} (ht : Traced policy (d₀.inputs · actions) (d₀.begun actions) d)
    (hd : d.downloads[i]? = some x) (h : d.step? action = some d') (hi : d.input? i action = some input) :
    ∃ t, t = ((x.transfer policy).run (d₀.inputs i actions)).1 ∧ x.phase = .transferring t ∧
      d' = (d.stored action).feed i x t input := by
  obtain ⟨y, t, hy, hp⟩ := transferring_of_input? hi
  cases hd.symm.trans hy
  rw [step?_of_input? hd hp (isAbout_of_input? hi) hi] at h
  exact ⟨t, ht.eq_run hd hp, hp, (Option.some.inj h).symm⟩

theorem Kept.job_step (hk : Kept d₀ actions d) (hr : d₀.run? actions = some d)
    (ht : Traced d₀.retry (d₀.inputs · actions) (d₀.begun actions) d) (h : Step d action d') {job : Job}
    (hm : job ∈ d'.pipeline.jobs) : ∃ x, d'.downloads[job.call]? = some x ∧
      ((x.transfer d₀.retry).run (d₀.inputs job.call (actions ++ [action]))).1.result? = some (.ok job.ciphertext) := by
  have later : ∀ {x : Download}, d.downloads[job.call]? = some x →
      ((x.transfer d₀.retry).run (d₀.inputs job.call actions)).1.result? = some (.ok job.ciphertext) →
      ∃ x', d'.downloads[job.call]? = some x' ∧ ((x'.transfer d₀.retry).run
        (d₀.inputs job.call (actions ++ [action]))).1.result? = some (.ok job.ciphertext) := by
    intro x hd hres
    obtain ⟨x', hd', hc⟩ := h.continues hd
    refine ⟨x', hd', ?_⟩
    rw [hc.transfer_eq, inputs_append hr]
    exact Transfer.result?_append hres _
  rcases h.jobs_cases with hs | ⟨i, x, file, work, hd, hp, -, hj⟩
  · obtain ⟨x, hd, hres⟩ := hk.job job (hs.subset hm)
    exact later hd hres
  · rw [hj] at hm
    rcases List.mem_append.mp hm with hm | hm
    · obtain ⟨x, hd, hres⟩ := hk.job job hm
      exact later hd hres
    · obtain rfl := List.mem_singleton.mp hm
      have hf := ht.follows i x hd
      rw [hp] at hf
      exact later hd hf

theorem Kept.handed_step (hk : Kept d₀ actions d) (hr : d₀.run? actions = some d)
    (ht : Traced d₀.retry (d₀.inputs · actions) (d₀.begun actions) d) (h : d.step? action = some d')
    (hr' : d₀.run? (actions ++ [action]) = some d') {x' : Download} (hx' : d'.downloads[i]? = some x') {n : Nat}
    (hn : ((x'.transfer d₀.retry).answers (d₀.inputs i (actions ++ [action])))[n]? = some (.ok path)) :
    Gone d₀ (x'.transfer d₀.retry) i (actions ++ [action]) (n + 1) path ∨
      n + 1 = ((x'.transfer d₀.retry).answers (d₀.inputs i (actions ++ [action]))).length ∧
        ((x'.transfer d₀.retry).run (d₀.inputs i (actions ++ [action]))).1.Has path := by
  rcases old_or_new hr ht (step_of_step? h) hx' with ⟨x, hd, hc⟩ | ⟨-, hnil⟩
  · rw [hc.transfer_eq] at hn ⊢
    have hin : d₀.inputs i (actions ++ [action]) = d₀.inputs i actions ++ (d.input? i action).toList := by
      rw [inputs_append hr, inputs_singleton]
    cases hi : d.input? i action with
    | none =>
      rw [hin, hi, Option.toList_none, List.append_nil] at hn ⊢
      exact (hk.handed i x hd n path hn).imp_left (Gone.append · [action])
    | some input =>
      obtain ⟨t, hrun, hp, hd'⟩ := fed_of_input? ht hd h hi
      have hs : (d.stored action).downloads[i]? = some x := getElem?_stored hd
      rw [hi, Option.toList_some] at hin
      rw [hin] at hn
      have hnow := Transfer.handed_concat hn fun hold =>
        (hk.handed i x hd n path hold).imp_left (Gone.append · [action])
      rw [← hin] at hnow
      rcases hnow with hg | ⟨hl, hhas | hm⟩
      · exact Or.inl hg
      · exact Or.inr ⟨hl, hhas⟩
      · refine Or.inl (hl ▸ gone_now hr' ?_)
        rw [← hrun] at hm
        rw [hd']
        exact (feed_spec hs t input).removed path hm
  · rw [hnil] at hn
    cases hn

theorem Kept.demanded_step (hk : Kept d₀ actions d) (hr : d₀.run? actions = some d)
    (ht : Traced d₀.retry (d₀.inputs · actions) (d₀.begun actions) d) (h : d.step? action = some d')
    {x' : Download} (hx' : d'.downloads[i]? = some x') {effect : Transfer.Effect} {demand : Demand}
    (hm : effect ∈ ((x'.transfer d₀.retry).run (d₀.inputs i (actions ++ [action]))).2)
    (he : effect.demand? i x'.request = some demand) : demand ∈ d'.demands := by
  rcases old_or_new hr ht (step_of_step? h) hx' with ⟨x, hd, hc⟩ | ⟨-, hnil⟩
  · rw [hc.transfer_eq, inputs_append hr, inputs_singleton, Transfer.effects_append] at hm
    rw [hc.request] at he
    rcases List.mem_append.mp hm with hm | hm
    · exact (step_of_step? h).demands_subset (hk.demanded i x hd effect hm demand he)
    · cases hi : d.input? i action with
      | none =>
        rw [hi] at hm
        cases hm
      | some input =>
        obtain ⟨t, hrun, hp, rfl⟩ := fed_of_input? ht hd h hi
        have hd' : (d.stored action).downloads[i]? = some x := getElem?_stored hd
        have hone : (t.run [input]).2 = (t.step input).2 := List.append_nil _
        rw [hi, ← hrun, Option.toList_some, hone] at hm
        rw [demands_feed hd']
        exact List.mem_append_right _ (List.mem_filterMap.mpr ⟨effect, hm, he⟩)
  · rw [hnil] at hm
    cases hm

/-- The step of a download itself, or of the worker with its job, that is no input of its transfer. -/
theorem Step.settles (h : Step d action d') (ht : Told policy lost d) (ha : d.acts i action = true)
    (hd : d.downloads[i]? = some x) (hi : d.input? i action = none) {fed : List Transfer.Input} {unbegun : Prop}
    {gone : Path → Prop} (hf : x.phase.Follows start fed)
    (hs : x.Settles start fed unbegun gone (d.pipeline.place i) (d.pipeline.reply? i))
    (hnow : ∀ path, d'.shared.files.get? path = none → gone path)
    (hb : unbegun → ∀ job, d.starting? action = some job → job.call ≠ i)
    (hj : ∀ job ∈ d.pipeline.jobs, job.call = i → (start.run fed).1.result? = some (.ok job.ciphertext)) :
    ∃ x', d'.downloads[i]? = some x' ∧
      x'.Settles start fed unbegun gone (d'.pipeline.place i) (d'.pipeline.reply? i) := by
  have there : ∀ {y : Download}, (d.downloads.set i y)[i]? = some y :=
    List.getElem?_set_self (List.getElem?_eq_some_iff.mp hd).1
  cases h with
  | refuse | accept | cancel | shutdown | setCeiling => cases ha
  | announce hd' hp | enter hd' hp | line hd' hp | claim hd' hp | begin hd' hp =>
    obtain rfl := of_decide_eq_true ha
    cases hd.symm.trans hd'
    exact ⟨_, there, trivial⟩
  | quit hd' hp | giveUp hd' hp =>
    obtain rfl := of_decide_eq_true ha
    cases hd.symm.trans hd'
    rw [hp] at hf
    exact ⟨_, there, Or.inl ⟨hf rfl, rfl⟩⟩
  | @feed j y t action input hd' hp hij =>
    obtain rfl : j = i := by
      have hj := isAbout_of_input? hij
      refine acts_unique ?_ ha
      cases action <;> first | exact hj | cases hj
    rw [hi] at hij
    cases hij
  | @yield j y t result hd' hp hr =>
    obtain rfl := of_decide_eq_true ha
    cases hd.symm.trans hd'
    rw [hp] at hf
    obtain rfl : t = (start.run fed).1 := hf
    cases result with
    | ok file => exact ⟨_, there, trivial⟩
    | error f => exact ⟨_, there, Or.inr (Transfer.result?_of_phase hr)⟩
  | deliver hd' hp hw =>
    obtain rfl := of_decide_eq_true ha
    cases hd.symm.trans hd'
    exact ⟨_, there, fun hk => absurd (workFor_eq_none_iff.mp hw) hk⟩
  | @reject j y file work hd' hp hw hc =>
    obtain rfl := of_decide_eq_true ha
    cases hd.symm.trans hd'
    rw [hp] at hf
    exact ⟨_, there, fun _ _ => ⟨.cancelled, rfl, Or.inr (Or.inr ⟨rfl, file, hf, hnow file (Files.get?_erase _ _)⟩)⟩⟩
  | @submit j y file work hd' hp hw hc =>
    obtain rfl := of_decide_eq_true ha
    cases hd.symm.trans hd'
    rw [hp] at hf
    have hm := ht.not_mem_jobs hd (by simp [hp]) (by simp [hp])
    have hplace := (Pipeline.place_push d.pipeline ⟨j, x.id, file, work⟩ hm j).trans (if_pos rfl)
    refine ⟨_, there, file, hf, fun _ => ?_⟩
    change Pipeline.Skips _ ((d.pipeline.push ⟨j, x.id, file, work⟩).place j) _
    rw [hplace]
    trivial
  | @collect j y result p hd' hp hr =>
    obtain rfl := of_decide_eq_true ha
    cases hd.symm.trans hd'
    simp only [Download.Settles, hp] at hs
    obtain ⟨path, hres, hskip⟩ := hs
    refine ⟨_, there, fun _ hu => ?_⟩
    have hk := hskip hu
    rw [ht.collected hd hp hr] at hk
    rcases (Pipeline.eq_of_collect? hr).2 with hr | ⟨hr, -⟩ <;> rw [hr] at hk
    · obtain ⟨rfl, hg⟩ := hk
      exact ⟨.cancelled, rfl, Or.inr (Or.inr ⟨rfl, path, hres, hg⟩)⟩
    · exact hk.elim
  | fail hd' hp =>
    obtain rfl := of_decide_eq_true ha
    cases hd.symm.trans hd'
    simp only [Download.Settles, hp] at hs
    exact ⟨_, there, fun _ _ => ⟨_, rfl, hs.imp_right Or.inl⟩⟩
  | dropWaiting hd' | dropTransfer hd' | dropOpening hd' =>
    obtain rfl := of_decide_eq_true ha
    cases hd.symm.trans hd'
    exact ⟨_, there, trivial⟩
  | carry hd' | unlink hd' =>
    obtain rfl := of_decide_eq_true ha
    cases hd.symm.trans hd'
    exact ⟨_, there, hs⟩
  | work hw =>
    refine ⟨x, hd, ?_⟩
    obtain ⟨job, hhead, hi⟩ := (Option.any_eq_true ..).mp ha
    obtain rfl : job.call = i := of_decide_eq_true hi
    obtain ⟨y, hy, -, hp⟩ := ht.job job (List.mem_of_head? hhead)
    cases hd.symm.trans hy
    rcases hp with hp | hp
    · obtain ⟨events, hsays, -⟩ := ht.words _ x hd
      simp only [Download.Says, hp] at hsays
      obtain ⟨-, pauses, bytes, more, -, -, ho⟩ := hsays
      simp only [Download.Settles, hp] at hs ⊢
      obtain ⟨path, hres, hskip⟩ := hs
      have hpath : job.ciphertext = path := by
        have hsame := (hj job (List.mem_of_head? hhead) rfl).symm.trans hres
        exact Except.ok.inj (Option.some.inj hsame)
      refine ⟨path, hres, fun hu => ?_⟩
      refine (Pipeline.step_of_step? hw).skips ht.nodup hhead (hskip hu) ho.isSome_reply
        (fun hst => hb hu job hst rfl) id fun hn => hnow path (hpath ▸ hn)
    · simp only [Download.Settles, hp]

theorem Kept.settles_step (hk : Kept d₀ actions d) (hr : d₀.run? actions = some d)
    (ht : Traced d₀.retry (d₀.inputs · actions) (d₀.begun actions) d) (hw : Told d₀.retry lost d)
    (h : d.step? action = some d') (hr' : d₀.run? (actions ++ [action]) = some d') {x' : Download}
    (hx' : d'.downloads[i]? = some x') :
    x'.Settles (x'.transfer d₀.retry) (d₀.inputs i (actions ++ [action])) (d₀.Unbegun i (actions ++ [action]))
      (Gone d₀ (x'.transfer d₀.retry) i (actions ++ [action])
        ((x'.transfer d₀.retry).answers (d₀.inputs i (actions ++ [action]))).length)
      (d'.pipeline.place i) (d'.pipeline.reply? i) := by
  have hstep := step_of_step? h
  rcases old_or_new hr ht hstep hx' with ⟨x, hd, hc⟩ | ⟨hp, -⟩
  · have hin : d₀.inputs i (actions ++ [action]) = d₀.inputs i actions ++ (d.input? i action).toList := by
      rw [inputs_append hr, inputs_singleton]
    have hbegun : d₀.begun (actions ++ [action]) = d₀.begun actions ++ (d.starting? action).toList := by
      rw [begun_append hr, begun_singleton]
    rw [hc.transfer_eq]
    cases hi : d.input? i action with
    | some input =>
      -- A transfer that has had an input is still under way.
      obtain ⟨t, -, -, hd'⟩ := fed_of_input? ht hd h hi
      have hs : (d.stored action).downloads[i]? = some x := getElem?_stored hd
      obtain ⟨tripped, hset⟩ := (feed_spec hs t input).downloads
      rw [hd', hset, List.getElem?_set_self (by simp [move, put, (List.getElem?_eq_some_iff.mp hs).1])] at hx'
      cases hx'
      trivial
    | none =>
      rw [hi, Option.toList_none, List.append_nil] at hin
      have hnow : ∀ path, d'.shared.files.get? path = none → Gone d₀ (x.transfer d₀.retry) i (actions ++ [action])
          ((x.transfer d₀.retry).answers (d₀.inputs i (actions ++ [action]))).length path := fun _ => gone_now hr'
      have hbefore : d₀.Unbegun i (actions ++ [action]) → d₀.Unbegun i actions := fun hu job hj =>
        hu job (by rw [hbegun]; exact List.mem_append_left _ hj)
      rw [hin] at hnow ⊢
      have hold := (hk.settles i x hd).mono hbefore fun path (hg : Gone ..) => hg.append [action]
      cases ha : d.acts i action with
      | false =>
        obtain ⟨hy, hplace, hreply⟩ := hstep.idle hw ha hd
        cases hx'.symm.trans hy
        rw [hplace, hreply]
        exact hold
      | true =>
        obtain ⟨y, hy, hs⟩ := hstep.settles hw ha hd hi (ht.follows i x hd) hold hnow
          (fun hu job hj => hu job (by rw [hbegun, hj]; exact List.mem_append_right _ (List.mem_singleton_self _)))
          (fun job hj he => by
            obtain ⟨y, hy, hres⟩ := hk.job job hj
            subst he
            cases hd.symm.trans hy
            exact hres)
        cases hx'.symm.trans hy
        exact hs
  · simp only [Download.Settles, hp]

theorem Kept.step (hk : Kept d₀ actions d) (hr : d₀.run? actions = some d)
    (ht : Traced d₀.retry (d₀.inputs · actions) (d₀.begun actions) d) (hw : Told d₀.retry lost d)
    (h : d.step? action = some d') (hr' : d₀.run? (actions ++ [action]) = some d') :
    Kept d₀ (actions ++ [action]) d' where
  job _ hm := hk.job_step hr ht (step_of_step? h) hm
  handed _ _ hx' _ _ hn := hk.handed_step hr ht h hr' hx' hn
  settles _ _ hx' := hk.settles_step hr ht hw h hr' hx'
  demanded _ _ hx' _ hm _ he := hk.demanded_step hr ht h hx' hm he

theorem IsFresh.kept (hf : d₀.IsFresh) : Kept d₀ [] d₀ where
  job job hm := by
    rw [hf.pipeline] at hm
    cases hm
  handed i x hd := by
    rw [hf.downloads] at hd
    cases hd
  settles i x hd := by
    rw [hf.downloads] at hd
    cases hd
  demanded i x hd := by
    rw [hf.downloads] at hd
    cases hd

theorem eq_discard {effect : Transfer.Effect} {token : ResumeToken} (h : effect.discarded? = some token) :
    effect = .discard token := by
  cases effect <;> cases h
  rfl

/-- The tokens of a transfer that has come to an end have gone into the next call each, and the last one has been given
    up; the same holds where no transfer has begun. -/
theorem Kept.settled (hkept : Kept d₀ actions d) (hd : d.downloads[i]? = some x)
    (h : d₀.inputs i actions = [] ∨ ∃ result, ((x.transfer d₀.retry).run (d₀.inputs i actions)).1.result? = some result) :
    (x.transfer d₀.retry).dealings (d₀.inputs i actions) =
        Transfer.ledger none ((x.transfer d₀.retry).answers (d₀.inputs i actions)) ∧
      ∀ token, (((x.transfer d₀.retry).answers (d₀.inputs i actions)).getLast?.bind Transfer.tokenOf) = some token →
        .discard token ∈ d.demands := by
  rcases h with hnil | ⟨ended, hres⟩
  · rw [hnil]
    refine ⟨rfl, fun token ht => ?_⟩
    cases ht
  · refine ⟨Transfer.dealings_start x.id x.request x.limit d₀.retry hres, fun token ht => ?_⟩
    have hm : token ∈ ((x.transfer d₀.retry).run (d₀.inputs i actions)).2.filterMap Transfer.Effect.discarded? :=
      Transfer.discarded_start x.id x.request x.limit d₀.retry hres ▸ Option.mem_toList.mpr ht
    obtain ⟨effect, he, heq⟩ := List.mem_filterMap.mp hm
    obtain rfl := eq_discard heq
    exact hkept.demanded i x hd _ he _ rfl

end Downloader
end SealedDownload
