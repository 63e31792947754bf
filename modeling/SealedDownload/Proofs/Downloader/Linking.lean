import SealedDownload.Proofs.Downloader.Ceiling

/-! Callers that have cancelled. Their cancellation reaches a download through the linking task: once that has run,
    a download for which nothing has been fetched yet stays so, and can only fail. Before it has run, the download
    goes on like any other. -/

namespace SealedDownload

open Transfer (Effect)

/-- Whether the transport is to fetch the object of the download of a number. -/
def Demand.isFetch (i : Nat) : Demand → Bool
  | .fetch j .. => j = i
  | _ => false

/-- What the effect of a transfer demands outside. -/
def Transfer.Effect.demand? (i : Nat) (request : Request) : Effect → Option Demand
  | .call resume => match request.forTransport with
    | .ok request => some (.fetch i request resume)
    | .error _ => none
  | .discard token => some (.discard token)
  | .rest delay => some (.rest i delay)
  | _ => none

/-- Nothing has been fetched for a download: it has not come to its first attempt, or it has failed before. -/
def Download.Uncalled (x : Download) : Prop :=
  match x.phase with
  | .transferring t => match t.phase with
    | .doomed _ => True
    | .ready _ => ∃ request, x.request.forTransport = .ok request
    | .ended (.error _) => True
    | _ => False
  | .transferred _ => False
  | .opening => False
  | .over (.ok _) => False
  | _ => True

/-- What the caller of a download has been given. -/
def Download.delivered? (x : Download) : Option Delivered :=
  match x.phase with
  | .over (.ok delivered) => some delivered
  | _ => none

/-- How many steps of its own a download still has that is cancelled before anything has been fetched for it. -/
def DownloadPhase.left : DownloadPhase → Nat
  | .begun => 3
  | .arriving => 2
  | .waiting _ => 2
  | .admitted => 4
  | .transferring t => match t.phase with
    | .ended _ => 2
    | _ => 3
  | .failing _ => 1
  | _ => 0

/-- Whether a download that is cancelled has a step of its own to make. -/
def DownloadPhase.isFree : DownloadPhase → Bool
  | .transferring t => match t.phase with
    | .calling _ => false
    | _ => true
  | .opening => false
  | .over _ => false
  | .dropped => false
  | _ => true

namespace Downloader

variable {d₀ b c d d' : Downloader} {action : Action} {actions earlier later : List Action} {i : Nat} {x : Download}
  {t : Transfer} {input : Transfer.Input}

/-! ### What a transfer leaves alone, and what it demands -/

/-- What the effects of a transfer may change of a downloader. -/
theorem performAll_frame (d : Downloader) (i : Nat) (effects : List Effect) : ∃ shared tracker downloads demands,
    d.performAll i effects = { d with shared, tracker, downloads, demands } := by
  induction effects generalizing d with
  | nil => exact ⟨d.shared, d.tracker, d.downloads, d.demands, rfl⟩
  | cons effect rest ih =>
    have hone : ∀ x, ∃ shared tracker downloads demands,
        d.perform i x effect = { d with shared, tracker, downloads, demands } := by
      intro x
      cases effect with
      | call resume =>
        simp only [perform]
        split <;> exact ⟨_, _, _, _, rfl⟩
      | _ => exact ⟨_, _, _, _, rfl⟩
    cases hd : d.downloads[i]? with
    | none => simpa only [performAll, List.foldl_cons, hd] using ih d
    | some x =>
      obtain ⟨shared, tracker, downloads, demands, hs⟩ := hone x
      obtain ⟨shared', tracker', downloads', demands', hr⟩ := ih (d.perform i x effect)
      exact ⟨shared', tracker', downloads', demands', by rw [performAll_cons effect rest hd, hr, hs]⟩

theorem demands_perform (effect : Effect) :
    (d.perform i x effect).demands = d.demands ++ (effect.demand? i x.request).toList := by
  cases effect with
  | call resume =>
    simp only [perform, Effect.demand?]
    cases x.request.forTransport <;> simp [demand, put]
  | _ => simp [perform, Effect.demand?, demand, put, announce]

theorem demands_performAll (hd : d.downloads[i]? = some x) (effects : List Effect) :
    (d.performAll i effects).demands = d.demands ++ effects.filterMap (Effect.demand? i x.request) := by
  induction effects generalizing d x with
  | nil => exact (List.append_nil _).symm
  | cons effect rest ih =>
    obtain ⟨tripped, hx⟩ := (perform_spec hd effect).downloads
    have hd' : (d.perform i x effect).downloads[i]? = some { x with tripped } := by
      rw [hx, List.getElem?_set_self (List.getElem?_eq_some_iff.mp hd).1]
    rw [performAll_cons effect rest hd, ih hd', demands_perform, List.append_assoc]
    cases he : effect.demand? i x.request <;> simp [he]

theorem demands_feed (hd : d.downloads[i]? = some x) (t : Transfer) (input : Transfer.Input) :
    (d.feed i x t input).demands = d.demands ++ (t.step input).2.filterMap (Effect.demand? i x.request) := by
  have hd' : (d.move i x (.transferring (t.step input).1)).downloads[i]? =
      some { x with phase := .transferring (t.step input).1 } :=
    List.getElem?_set_self (List.getElem?_eq_some_iff.mp hd).1
  exact demands_performAll hd' _

theorem stored_keeps (d : Downloader) (action : Action) :
    (d.stored action).demands = d.demands ∧ (d.stored action).shutDown = d.shutDown ∧
      (d.stored action).workFor = d.workFor ∧ (d.stored action).nextId = d.nextId := by
  unfold stored
  split <;> exact ⟨rfl, rfl, rfl, rfl⟩

theorem eq_of_isFetch {j : Nat} {request : Request} {effect : Effect} {demand : Demand}
    (h : effect.demand? j request = some demand) (hf : demand.isFetch i = true) :
    j = i ∧ ∃ resume, effect = .call resume := by
  cases effect with
  | call resume =>
    simp only [Effect.demand?] at h
    split at h
    · cases h
      exact ⟨of_decide_eq_true hf, resume, rfl⟩
    · cases h
  | discard | rest =>
    cases h
    cases hf
  | _ => cases h

/-! ### Steps that are not about a download -/

theorem Step.shutDown (h : Step d action d') (hs : d.shutDown = true) : d'.shutDown = true := by
  cases h with
  | @feed i x t _ input hd =>
    obtain ⟨shared, tracker, downloads, demands, hf⟩ :=
      performAll_frame ((d.stored action).move i x (.transferring (t.step input).1)) i (t.step input).2
    exact (congrArg Downloader.shutDown hf).trans ((stored_keeps d action).2.1.trans hs)
  | shutdown => rfl
  | _ => exact hs

theorem ne_of_isAbout {j : Nat} (ha : action.isAbout i = false) (hj : action.isAbout j = true) : j ≠ i := by
  rintro rfl
  rw [ha] at hj
  cases hj

theorem get?_set_of_not_about {j : Nat} {y : Download} (ha : action.isAbout i = false) (hj : action.isAbout j = true)
    (hd : d.downloads[i]? = some x) : (d.downloads.set j y)[i]? = some x := by
  rw [List.getElem?_set_ne (ne_of_isAbout ha hj)]
  exact hd

theorem Step.untouched (h : Step d action d') (ha : action.isAbout i = false) (hd : d.downloads[i]? = some x) :
    d'.downloads[i]? = some x := by
  cases h with
  | refuse | cancel | shutdown | setCeiling | work => exact hd
  | accept => exact (List.getElem?_append_left (List.getElem?_eq_some_iff.mp hd).1).trans hd
  | @feed j y t _ input hj hp hi =>
    obtain ⟨hs, -, -, -⟩ := stored_eq d action
    obtain ⟨tripped, hf⟩ := (feed_spec (by rw [hs, hj]) t input).downloads
    rw [hf, move, put, List.set_set, hs]
    exact get?_set_of_not_about ha (isAbout_of_input? hi) hd
  | dropWaiting | dropTransfer | dropOpening => exact get?_set_of_not_about ha (isAbout_drop _) hd
  | carry | unlink => exact get?_set_of_not_about ha (isAbout_link _) hd
  | _ => exact get?_set_of_not_about ha (isAbout_advance _) hd

theorem Step.demands (h : Step d action d') : (∃ j y t input, d.downloads[j]? = some y ∧ y.phase = .transferring t ∧
      d.input? j action = some input ∧
      d'.demands = d.demands ++ (t.step input).2.filterMap (Effect.demand? j y.request)) ∨
    d'.demands = d.demands := by
  cases h with
  | @feed j y t _ input hj hp hi =>
    refine Or.inl ⟨j, y, t, input, hj, hp, hi, ?_⟩
    have hd : (d.stored action).downloads[j]? = some y := getElem?_stored hj
    rw [demands_feed hd, (stored_keeps d action).1]
  | _ => exact Or.inr rfl

/-- The object of a download is fetched only by a call of its transfer. -/
theorem Step.fetch (h : Step d action d') {demand : Demand} (hm : demand ∈ d'.demands) (hf : demand.isFetch i = true) :
    demand ∈ d.demands ∨ ∃ x t input resume, d.downloads[i]? = some x ∧ x.phase = .transferring t ∧
      d.input? i action = some input ∧ .call resume ∈ (t.step input).2 := by
  rcases h.demands with ⟨j, y, t, input, hj, hp, hi, hd⟩ | hd
  · rw [hd] at hm
    rcases List.mem_append.mp hm with hm | hm
    · exact Or.inl hm
    · obtain ⟨effect, he, hm⟩ := List.mem_filterMap.mp hm
      obtain ⟨rfl, resume, rfl⟩ := eq_of_isFetch hm hf
      exact Or.inr ⟨y, t, input, resume, hj, hp, hi, he⟩
  · rw [hd] at hm
    exact Or.inl hm

/-! ### A download for which nothing has been fetched -/

/-- What a step leaves of a download for which nothing has been fetched, with nothing fetched by it; and one that is
    cancelled comes nearer to its end by each step of its own. -/
structure Idles (i : Nat) (x : Download) (d : Downloader) (action : Action) (d' : Downloader) (x' : Download) :
    Prop where
  there : d'.downloads[i]? = some x'
  uncalled : x'.Uncalled
  cancelled : d.isCancelled x = true → d'.isCancelled x' = true
  fetch : ∀ demand ∈ d'.demands, demand.isFetch i = true → demand ∈ d.demands
  left : d.isCancelled x = true → action = .advance i → x'.phase.left + 1 = x.phase.left ∧ x'.phase ≠ .dropped

theorem Step.isCancelled {x' : Download} (h : Step d action d') (hc : x.cancelled = true → x'.cancelled = true)
    (hx : d.isCancelled x = true) : d'.isCancelled x' = true := by
  rcases Bool.or_eq_true_iff.mp hx with hs | hx
  · exact Bool.or_eq_true_iff.mpr (Or.inl (h.shutDown hs))
  · exact Bool.or_eq_true_iff.mpr (Or.inr (hc hx))

theorem idles_of_not_about (h : Step d action d') (ha : action.isAbout i = false) (hd : d.downloads[i]? = some x)
    (hu : x.Uncalled) : Idles i x d action d' x where
  there := h.untouched ha hd
  uncalled := hu
  cancelled := h.isCancelled fun hc => hc
  fetch demand hm hf := by
    rcases h.fetch hm hf with hm | ⟨x, t, input, resume, -, -, hi, -⟩
    · exact hm
    · rw [input?_of_not_about ha] at hi
      cases hi
  left _ he := by
    rw [he, isAbout_advance] at ha
    cases ha

theorem idles_set {x' : Download} (h : Step d action d') (hd : d.downloads[i]? = some x)
    (hd' : d'.downloads = d.downloads.set i x') (hu : x'.Uncalled) (hc : x.cancelled = true → x'.cancelled = true)
    (hn : d.input? i action = none)
    (hl : d.isCancelled x = true → action = .advance i →
      x'.phase.left + 1 = x.phase.left ∧ x'.phase ≠ .dropped) :
    Idles i x d action d' x' where
  there := by
    rw [hd']
    exact List.getElem?_set_self (List.getElem?_eq_some_iff.mp hd).1
  uncalled := hu
  cancelled := h.isCancelled hc
  fetch demand hm hf := by
    rcases h.fetch hm hf with hm | ⟨x, t, input, resume, -, -, hi, -⟩
    · exact hm
    · rw [hn] at hi
      cases hi
  left := hl

theorem uncalled_start (x : Download) (policy : RetryPolicy) :
    { x with phase := .transferring (x.transfer policy) : Download }.Uncalled ∧
      (DownloadPhase.transferring (x.transfer policy)).left = 3 := by
  simp only [Download.Uncalled, Download.transfer, Transfer.start, DownloadPhase.left]
  cases hx : x.request.forTransport with
  | ok request => exact ⟨⟨request, rfl⟩, rfl⟩
  | error f => exact ⟨trivial, rfl⟩

/-- The end of a transfer before its first attempt. -/
theorem idles_feed {f : Failure} (h : Step d action ((d.stored action).feed i x t input))
    (hd : d.downloads[i]? = some x) (hp : x.phase = .transferring t)
    (he : (t.step input).1 = t.finish (.error f)) (hcall : ∀ resume, .call resume ∉ (t.step input).2)
    (hi : d.input? i action = some input) (hr : t.result? = none) :
    ∃ x', Idles i x d action ((d.stored action).feed i x t input) x' := by
  have hd' : (d.stored action).downloads[i]? = some x := getElem?_stored hd
  obtain ⟨tripped, hf⟩ := (feed_spec hd' t input).downloads
  rw [move, put, List.set_set, (stored_eq d action).1, he] at hf
  refine ⟨{ x with phase := .transferring (t.finish (.error f)), tripped }, ?_, trivial, h.isCancelled fun hc => hc,
    fun demand hm hf => ?_, fun _ _ => ?_⟩
  · rw [hf]
    exact List.getElem?_set_self (List.getElem?_eq_some_iff.mp hd).1
  · rcases h.fetch hm hf with hm | ⟨y, u, other, resume, hy, hq, ho, hm⟩
    · exact hm
    · cases hd.symm.trans hy
      cases hp.symm.trans hq
      cases hi.symm.trans ho
      exact absurd hm (hcall resume)
  · refine ⟨?_, by simp⟩
    rw [hp]
    cases ht : t.phase with
    | ended result => simp [Transfer.result?, ht] at hr
    | _ => simp [DownloadPhase.left, ht, Transfer.finish]

theorem call_not_mem_discards (token : Option ResumeToken) (resume : Option ResumeToken) :
    .call resume ∉ Transfer.discards token := by
  cases token <;> simp [Transfer.discards]

theorem uncalled_feed (h : Step d action ((d.stored action).feed i x t input)) (hd : d.downloads[i]? = some x)
    (hu : x.Uncalled) (hp : x.phase = .transferring t) (hi : d.input? i action = some input) :
    (∃ x', Idles i x d action ((d.stored action).feed i x t input) x') ∨
      d.isCancelled x = false ∧ ∃ demand ∈ ((d.stored action).feed i x t input).demands, demand.isFetch i = true := by
  have ho := hi
  rw [input?_of_transferring hd hp (isAbout_of_input? hi)] at ho
  simp only [Download.Uncalled, hp] at hu
  split at hu
  · rename_i f ht
    rw [ht] at ho
    obtain rfl : input = .begin (d.isCancelled x) := by cases action <;> cases ho; rfl
    have hstep : t.step (.begin (d.isCancelled x)) = (t.finish (.error f), []) := by simp only [Transfer.step, ht]
    exact Or.inl (idles_feed h hd hp (congrArg Prod.fst hstep) (by simp [hstep]) hi (by simp [Transfer.result?, ht]))
  · rename_i r ht
    rw [ht] at ho
    obtain rfl : input = .begin (d.isCancelled x) := by cases action <;> cases ho; rfl
    cases hc : d.isCancelled x with
    | true =>
      rw [hc] at hi h
      have hstep : t.step (.begin true) = (t.finish (.error .cancelled), Transfer.discards r) := by
        simp only [Transfer.step, ht]
      exact Or.inl (idles_feed h hd hp (congrArg Prod.fst hstep) (by simp [hstep, call_not_mem_discards]) hi
        (by simp [Transfer.result?, ht]))
    | false =>
      obtain ⟨request, hq⟩ := hu
      have hstep : (t.step (.begin false)).2 = [.call r] := by simp only [Transfer.step, ht]
      refine Or.inr ⟨rfl, .fetch i request r, ?_, decide_eq_true rfl⟩
      rw [demands_feed (by rw [(stored_eq d action).1, hd]), hstep]
      exact List.mem_append_right _ (by simp [Effect.demand?, hq])
  · rename_i ht
    rw [ht] at ho
    cases action <;> cases ho
  · cases hu

/-- A step either leaves a download uncalled, or begins its first attempt, and then its token is not cancelled. -/
theorem Step.uncalled (h : Step d action d') (hd : d.downloads[i]? = some x) (hu : x.Uncalled) :
    (∃ x', Idles i x d action d' x') ∨
      d.isCancelled x = false ∧ ∃ demand ∈ d'.demands, demand.isFetch i = true := by
  cases ha : action.isAbout i with
  | false => exact Or.inl ⟨x, idles_of_not_about h ha hd hu⟩
  | true =>
    cases id h with
    | refuse | accept | cancel | shutdown | setCeiling | work => cases ha
    | announce hj hp | quit hj hp | giveUp hj hp =>
      obtain rfl := of_decide_eq_true ha
      cases hd.symm.trans hj
      exact Or.inl ⟨_, idles_set h hd rfl trivial id (input?_of_phase hd hp rfl)
        fun _ _ => ⟨by rw [hp]; rfl, by simp⟩⟩
    | fail hj hp =>
      obtain rfl := of_decide_eq_true ha
      cases hd.symm.trans hj
      exact Or.inl ⟨_, idles_set h hd rfl trivial (fun _ => rfl) (input?_of_phase hd hp rfl)
        fun _ _ => ⟨by rw [hp]; rfl, by simp⟩⟩
    | enter hj hp hc | line hj hp hc | claim hj hp hc =>
      obtain rfl := of_decide_eq_true ha
      cases hd.symm.trans hj
      exact Or.inl ⟨_, idles_set h hd rfl trivial id (input?_of_phase hd hp rfl)
        fun hx => absurd (hc.symm.trans hx) Bool.false_ne_true⟩
    | begin hj hp =>
      obtain rfl := of_decide_eq_true ha
      cases hd.symm.trans hj
      obtain ⟨hs, hl⟩ := uncalled_start x d.retry
      exact Or.inl ⟨_, idles_set h hd rfl hs id (input?_of_phase hd hp rfl)
        fun _ _ => ⟨by rw [hp]; exact congrArg (· + 1) hl, by simp⟩⟩
    | feed hj hp hi =>
      obtain rfl := isAbout_unique ha (isAbout_of_input? hi)
      cases hd.symm.trans hj
      exact uncalled_feed h hd hu hp hi
    | @yield j y t result hj hp ht =>
      obtain rfl := of_decide_eq_true ha
      cases hd.symm.trans hj
      have hn : d.input? j (.advance j) = none := by
        rw [input?_of_transferring hd hp (isAbout_advance j), ht]
        rfl
      cases result with
      | ok file => simp only [Download.Uncalled, hp, ht] at hu
      | error f =>
        refine Or.inl ⟨_, idles_set h hd rfl trivial id hn fun _ _ => ⟨?_, by simp [afterTransfer]⟩⟩
        rw [hp]
        simp [DownloadPhase.left, ht, afterTransfer]
    | deliver hj hp | reject hj hp | submit hj hp | collect hj hp =>
      obtain rfl := of_decide_eq_true ha
      cases hd.symm.trans hj
      simp only [Download.Uncalled, hp] at hu
    | dropWaiting hj hp | dropOpening hj hp =>
      obtain rfl := of_decide_eq_true ha
      cases hd.symm.trans hj
      exact Or.inl ⟨_, idles_set h hd rfl trivial (fun _ => rfl) (input?_of_phase hd hp rfl) fun _ he => by cases he⟩
    | dropTransfer hj hp =>
      obtain rfl := of_decide_eq_true ha
      cases hd.symm.trans hj
      exact Or.inl ⟨_, idles_set h hd rfl trivial (fun _ => rfl) (input?_drop _ _) fun _ he => by cases he⟩
    | carry hj | unlink hj =>
      obtain rfl := of_decide_eq_true ha
      cases hd.symm.trans hj
      exact Or.inl ⟨_, idles_set h hd rfl hu (by simp) (input?_link _ _) fun _ he => by cases he⟩

theorem Step.demands_subset (h : Step d action d') {demand : Demand} (hm : demand ∈ d.demands) :
    demand ∈ d'.demands := by
  rcases h.demands with ⟨j, y, t, input, -, -, -, hd⟩ | hd
  · rw [hd]
    exact List.mem_append_left _ hm
  · rwa [hd]

/-- As long as nothing has been fetched for a download, it is uncalled. -/
theorem uncalled_run (h : d.run? actions = some d')
    (hd : ∀ i x, d.downloads[i]? = some x → x.Uncalled ∨ ∃ demand ∈ d.demands, demand.isFetch i = true) :
    ∀ i x, d'.downloads[i]? = some x → x.Uncalled ∨ ∃ demand ∈ d'.demands, demand.isFetch i = true := by
  induction actions generalizing d with
  | nil =>
    cases h
    exact hd
  | cons action rest ih =>
    obtain ⟨e, he, hr⟩ := Option.bind_eq_some_iff.mp h
    have hs := step_of_step? he
    refine ih hr fun i x' hx' => ?_
    rcases hs.moved i x' hx' with ⟨x, hx, -, -⟩ | ⟨-, hp⟩
    · rcases hd i x hx with hu | ⟨demand, hm, hf⟩
      · rcases hs.uncalled hx hu with ⟨y, hi⟩ | ⟨-, hf⟩
        · cases hx'.symm.trans hi.there
          exact Or.inl hi.uncalled
        · exact Or.inr hf
      · exact Or.inr ⟨demand, hs.demands_subset hm, hf⟩
    · refine Or.inl ?_
      simp only [Download.Uncalled, hp]

/-! ### A download that is cancelled before anything has been fetched for it -/

/-- A download of which the token is cancelled, and for which nothing has been fetched. -/
structure Halted (i : Nat) (d : Downloader) (x : Download) : Prop where
  there : d.downloads[i]? = some x
  uncalled : x.Uncalled
  cancelled : d.isCancelled x = true
  unfetched : ∀ demand ∈ d.demands, demand.isFetch i = false

theorem Step.halted (h : Step d action d') (hx : Halted i d x) :
    ∃ x', Halted i d' x' ∧
      (action = .advance i → x'.phase.left + 1 = x.phase.left ∧ x'.phase ≠ .dropped) := by
  rcases h.uncalled hx.there hx.uncalled with ⟨x', hi⟩ | ⟨hc, -⟩
  · exact ⟨x', ⟨hi.there, hi.uncalled, hi.cancelled hx.cancelled,
      fun demand hm => Bool.eq_false_iff.mpr fun hf =>
        Bool.eq_false_iff.mp (hx.unfetched demand (hi.fetch demand hm hf)) hf⟩, hi.left hx.cancelled⟩
  · rw [hx.cancelled] at hc
    cases hc

theorem halted_run (hx : Halted i d x) (h : d.run? actions = some d') : ∃ x', Halted i d' x' := by
  induction actions generalizing d x with
  | nil =>
    cases h
    exact ⟨x, hx⟩
  | cons action rest ih =>
    obtain ⟨e, he, hr⟩ := Option.bind_eq_some_iff.mp h
    obtain ⟨x', hx', -⟩ := (step_of_step? he).halted hx
    exact ih hx' hr

theorem exists_advance (hd : d.downloads[i]? = some x) (hc : d.isCancelled x = true) (hp : x.phase.isFree = true) :
    ∃ d', d.step? (.advance i) = some d' := by
  simp only [step?, advance?, hd, Option.bind_eq_bind, Option.bind_some]
  cases hx : x.phase with
  | begun | admitted | transferred | failing => exact ⟨_, rfl⟩
  | arriving => exact ⟨_, if_pos hc⟩
  | waiting ticket => exact ⟨_, if_pos hc⟩
  | transferring t =>
    simp only [stepTransfer?]
    cases ht : t.phase with
    | calling =>
      simp only [hx, DownloadPhase.isFree, ht] at hp
      cases hp
    | resting => exact ⟨_, if_pos hc⟩
    | _ => exact ⟨_, rfl⟩
  | _ =>
    rw [hx] at hp
    cases hp

theorem Halted.undelivered (hx : Halted i d x) : x.delivered? = none := by
  have hu := hx.uncalled
  unfold Download.delivered?
  split
  · rename_i hp
    simp only [Download.Uncalled, hp] at hu
  · rfl

theorem Halted.advance (hx : Halted i d x) (hl : x.phase.left ≠ 0) : ∃ d', d.step? (.advance i) = some d' := by
  refine exists_advance hx.there hx.cancelled ?_
  have hu := hx.uncalled
  cases hp : x.phase with
  | transferring t =>
    cases ht : t.phase with
    | calling => simp only [Download.Uncalled, hp, ht] at hu
    | _ => simp only [DownloadPhase.isFree, ht]
  | opening => simp only [Download.Uncalled, hp] at hu
  | begun | arriving | waiting | admitted | transferred | failing => rfl
  | _ =>
    rw [hp] at hl
    exact absurd rfl hl

/-- Its own steps end it with a failure, unless it has been dropped. -/
theorem Halted.ends (hx : Halted i d x) (hp : x.phase ≠ .dropped) :
    ∃ e z f, d.run? (List.replicate x.phase.left (.advance i)) = some e ∧ e.downloads[i]? = some z ∧
      z.phase = .over (.error f) := by
  generalize hl : x.phase.left = left
  induction left generalizing d x with
  | zero =>
    have hu := hx.uncalled
    cases hq : x.phase with
    | dropped => exact absurd hq hp
    | transferred | opening => simp only [Download.Uncalled, hq] at hu
    | transferring t =>
      rw [hq] at hl
      simp only [DownloadPhase.left] at hl
      split at hl <;> cases hl
    | begun | arriving | waiting | admitted | failing =>
      rw [hq] at hl
      cases hl
    | _ result =>
      -- Only a download that is over is left.
      cases result with
      | ok delivered => simp only [Download.Uncalled, hq] at hu
      | error f => exact ⟨d, x, f, rfl, hx.there, hq⟩
  | succ left ih =>
    obtain ⟨d', hs⟩ := hx.advance (by rw [hl]; exact Nat.succ_ne_zero left)
    obtain ⟨x', hx', hnext⟩ := (step_of_step? hs).halted hx
    obtain ⟨hl', hp'⟩ := hnext rfl
    obtain ⟨e, z, f, hr, hz⟩ := ih hx' hp' (by omega)
    refine ⟨e, z, f, ?_, hz⟩
    rw [List.replicate_succ, run?, hs]
    exact hr

theorem left_le (p : DownloadPhase) : p.left ≤ 4 := by
  cases p with
  | transferring t =>
    simp only [DownloadPhase.left]
    split <;> decide
  | _ => simp [DownloadPhase.left]

/-! ### Linking -/

theorem link_of_cancelled (hb : d.downloads[i]? = some x) (hl : x.linking = true)
    (hx : d.cancelledCallers.contains x.caller = true) :
    d.step? (.link i) = some (d.put i { x with cancelled := true, linking := false }) := by
  have hn : (!x.linking) = false := by rw [hl]; rfl
  simp only [step?, link?, hb, Option.bind_eq_bind, Option.bind_some, hn, hx, Bool.false_eq_true, if_false, if_true]

/-- A caller has cancelled, and nothing has been fetched for its download when the linking task runs: then nothing is
    ever fetched for it, and unless it is dropped, at most four steps of its own end it with a failure. -/
theorem unfetched_after_link (hf : d₀.IsFresh) (he : d₀.run? earlier = some b) (hb : b.downloads[i]? = some x)
    (hl : x.linking = true) (hx : b.cancelledCallers.contains x.caller = true)
    (hn : ∀ demand ∈ b.demands, demand.isFetch i = false) :
    ∃ c, b.step? (.link i) = some c ∧ ∀ later d, c.run? later = some d →
      (∀ demand ∈ d.demands, demand.isFetch i = false) ∧ ∃ y, d.downloads[i]? = some y ∧ y.delivered? = none ∧
        (y.phase = .dropped ∨ ∃ count e z f, count ≤ 4 ∧ d.run? (List.replicate count (.advance i)) = some e ∧
          e.downloads[i]? = some z ∧ z.phase = .over (.error f)) := by
  have hu : x.Uncalled := by
    have h0 : ∀ i x, d₀.downloads[i]? = some x → x.Uncalled ∨ ∃ demand ∈ d₀.demands, demand.isFetch i = true := by
      intro i x hd
      rw [hf.downloads] at hd
      cases hd
    rcases uncalled_run he h0 i x hb with hu | ⟨demand, hm, hf⟩
    · exact hu
    · rw [hn demand hm] at hf
      cases hf
  refine ⟨_, link_of_cancelled hb hl hx, fun later d hr => ?_⟩
  have hhalted : Halted i (b.put i { x with cancelled := true, linking := false })
      { x with cancelled := true, linking := false } :=
    ⟨List.getElem?_set_self (List.getElem?_eq_some_iff.mp hb).1, hu, Bool.or_true _, hn⟩
  obtain ⟨y, hy⟩ := halted_run hhalted hr
  refine ⟨hy.unfetched, y, hy.there, hy.undelivered, ?_⟩
  by_cases hp : y.phase = .dropped
  · exact Or.inl hp
  · obtain ⟨e, z, f, hends⟩ := hy.ends hp
    exact Or.inr ⟨y.phase.left, e, z, f, left_le y.phase, hends⟩

/-- A downloader at which nobody has asked for anything, and of whose callers one has cancelled. -/
def withCancelled : Downloader :=
  { retry := ⟨3, .ofMillis 500, .ofMillis 8000, 2, true⟩, backupLimit := 100, ceiling := 4,
    plaintextFolder := "plaintext", validator := Validator.keeping, shutDown := false, admission := .ofCapacity 1,
    pipeline := .idle, shared := ⟨.empty, ⟨16, []⟩⟩, tracker := .empty, nextId := ⟨1⟩, cancelledCallers := [0],
    downloads := [], demands := [] }

/-- The linking task of a cancelled caller runs when its download has its slot. -/
theorem unfetched_after_link_admitted :
    let earlier : List Action := [.ask (.backup ⟨3, "archive", "latest"⟩ []) 0, .advance 0, .advance 0]
    ∃ b c, withCancelled.run? earlier = some b ∧ b.step? (.link 0) = some c ∧ ∀ later d, c.run? later = some d →
      ∀ demand ∈ d.demands, demand.isFetch 0 = false := by
  intro earlier
  have hf : withCancelled.IsFresh := ⟨rfl, rfl, rfl⟩
  have hrun : (withCancelled.run? earlier).map (fun b => (b.cancelledCallers, b.demands.any (Demand.isFetch 0),
      (b.downloads[0]?).map fun x => (x.caller, x.linking))) = some ([0], false, some (0, true)) := by decide +kernel
  obtain ⟨b, hr, hx⟩ := Option.map_eq_some_iff.mp hrun
  obtain ⟨hcallers, hx⟩ := Prod.mk.inj hx
  obtain ⟨hn, hx⟩ := Prod.mk.inj hx
  obtain ⟨x, hb, hx⟩ := Option.map_eq_some_iff.mp hx
  obtain ⟨hcaller, hl⟩ := Prod.mk.inj hx
  have hc : b.cancelledCallers.contains x.caller = true := by
    rw [hcallers, hcaller]
    rfl
  have hn : ∀ demand ∈ b.demands, demand.isFetch 0 = false := by
    simpa using hn
  obtain ⟨c, hs, hd⟩ := unfetched_after_link hf hr hb hl hc hn
  exact ⟨b, c, hr, hs, fun later d h => (hd later d h).1⟩

/-- Where the linking task does not run before the first attempt, a caller that has cancelled before asking gets its
    file all the same. -/
theorem fetched_before_link :
    let actions : List Action := [.ask (.backup ⟨3, "archive", "latest"⟩ []) 0, .advance 0, .advance 0, .advance 0,
      .advance 0, .settle 0 (.ok "a") (some [1, 2]) 0, .advance 0, .advance 0, .advance 0]
    withCancelled.IsFresh ∧ withCancelled.cancelledCallers.contains 0 = true ∧ withCancelled.demands = [] ∧
      ∃ d x, withCancelled.run? actions = some d ∧ d.downloads[0]? = some x ∧ x.caller = 0 ∧
        x.delivered? = some (.ciphertext "a") ∧ ∃ demand ∈ d.demands, demand.isFetch 0 = true := by
  intro actions
  have hrun : (withCancelled.run? actions).map (fun d => (d.demands.any (Demand.isFetch 0),
      (d.downloads[0]?).map fun x => (x.caller, x.delivered?))) =
        some (true, some (0, some (.ciphertext "a"))) := by decide +kernel
  obtain ⟨d, hr, hx⟩ := Option.map_eq_some_iff.mp hrun
  obtain ⟨hfetch, hx⟩ := Prod.mk.inj hx
  obtain ⟨x, hd, hx⟩ := Option.map_eq_some_iff.mp hx
  obtain ⟨hcaller, hdelivered⟩ := Prod.mk.inj hx
  exact ⟨⟨rfl, rfl, rfl⟩, rfl, rfl, d, x, hr, hd, hcaller, hdelivered, List.any_eq_true.mp hfetch⟩

end Downloader
end SealedDownload
