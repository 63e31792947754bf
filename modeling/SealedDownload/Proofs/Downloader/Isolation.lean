import SealedDownload.Proofs.Downloader.Linking

/-! Whom a cancellation reaches. A caller that cancels its token, an attempt that is stopped at the ceiling, and a
    call that ends each cancel one token, with those made below it, and no other: not that of another download,
    of a caller or of the downloader. -/

namespace SealedDownload

/-- The tokens that a downloader has to do with. -/
inductive Token where
  | caller (number : Nat)
  /-- the downloader's own -/
  | shutdown
  | download (number : Nat)
  /-- that of the latest attempt of a download -/
  | attempt (download : Nat)

/-- The token below which one has been made. -/
def Token.parent? : Token → Option Token
  | .download _ => some .shutdown
  | .attempt i => some (.download i)
  | _ => none

/-- A token is another one, or has been made below it. -/
inductive Token.IsUnder : Token → Token → Prop where
  | refl (σ : Token) : IsUnder σ σ
  | made {σ ρ τ : Token} (hp : σ.parent? = some ρ) (h : IsUnder ρ τ) : IsUnder σ τ

namespace Token

variable {i : Nat} {σ τ : Token}

theorem isUnder_shutdown_download : (Token.download i).IsUnder .shutdown := .made rfl (.refl _)

theorem isUnder_shutdown_attempt : (Token.attempt i).IsUnder .shutdown := .made rfl isUnder_shutdown_download

theorem isUnder_download_attempt : (Token.attempt i).IsUnder (.download i) := .made rfl (.refl _)

theorem IsUnder.of_caller {n : Nat} (h : σ.IsUnder (.caller n)) : σ = .caller n := by
  generalize hτ : Token.caller n = τ at h
  induction h with
  | refl => rfl
  | @made σ ρ τ hp h ih =>
    obtain rfl := ih hτ
    rw [← hτ] at hp
    cases σ <;> cases hp

theorem IsUnder.of_attempt (h : σ.IsUnder (.attempt i)) : σ = .attempt i := by
  generalize hτ : Token.attempt i = τ at h
  induction h with
  | refl => rfl
  | @made σ ρ τ hp h ih =>
    obtain rfl := ih hτ
    rw [← hτ] at hp
    cases σ <;> cases hp

theorem IsUnder.of_download (h : σ.IsUnder (.download i)) : σ = .download i ∨ σ = .attempt i := by
  generalize hτ : Token.download i = τ at h
  induction h with
  | refl => exact Or.inl rfl
  | @made σ ρ τ hp h ih =>
    rcases ih hτ with rfl | rfl
    · rw [← hτ] at hp
      cases σ <;> cases hp
      exact Or.inr rfl
    · cases σ <;> cases hp

end Token

/-- Whether a call is over, with a result or because its caller has dropped it. -/
def DownloadPhase.isOver : DownloadPhase → Bool
  | .over _ => true
  | .dropped => true
  | _ => false

namespace Downloader

variable {d₀ d d' : Downloader} {action : Action} {actions : List Action} {i j : Nat} {x x' : Download} {σ τ : Token}

/-- Whether a token, or one above it, has been cancelled. -/
def hasCancelled (d : Downloader) : Token → Bool
  | .caller n => d.cancelledCallers.contains n
  | .shutdown => d.shutDown
  | .download i => (d.downloads[i]?).any d.isCancelled
  | .attempt i => (d.downloads[i]?).any d.isStopped

theorem hasCancelled_download (hd : d.downloads[i]? = some x) : d.hasCancelled (.download i) = d.isCancelled x := by
  simp [hasCancelled, hd]

theorem hasCancelled_attempt (hd : d.downloads[i]? = some x) : d.hasCancelled (.attempt i) = d.isStopped x := by
  simp [hasCancelled, hd]

/-- The report of the transport by which the attempt of a download is stopped. -/
def Trips (d : Downloader) (i : Nat) (action : Action) : Prop :=
  ∃ x t completed total observed, action = .report i completed total ∧ d.downloads[i]? = some x ∧
    x.phase = .transferring t ∧ Transfer.excess? t.limit completed total = some observed

theorem Trips.action_eq (h : d.Trips i action) : ∃ completed total, action = .report i completed total := by
  obtain ⟨_, _, completed, total, _, he, -⟩ := h
  exact ⟨completed, total, he⟩

/-- The token that an action cancels of itself, and why. -/
inductive Cancels (d : Downloader) : Action → Downloader → Token → Prop where
  | caller {n : Nat} {d' : Downloader} : Cancels d (.cancel n) d' (.caller n)
  | shutdown {d' : Downloader} : Cancels d .shutdown d' .shutdown
  /-- the linking task finds the caller's token cancelled -/
  | linked {i : Nat} {x : Download} {d' : Downloader} (hd : d.downloads[i]? = some x) (hc : d.hasCancelled (.caller x.caller) = true) :
      Cancels d (.link i) d' (.download i)
  /-- the call ends -/
  | ended {i : Nat} {x x' : Download} {action : Action} {d' : Downloader} (ha : action = .advance i ∨ action = .drop i)
      (hd : d.downloads[i]? = some x) (hp : x.phase.isOver = false) (hd' : d'.downloads[i]? = some x')
      (hp' : x'.phase.isOver = true) : Cancels d action d' (.download i)
  | tripped {i : Nat} {action : Action} {d' : Downloader} (ht : d.Trips i action) : Cancels d action d' (.attempt i)

/-! ### What a step makes of one download -/

/-- What a step that is about a download makes of its token, of its attempt's and of its linking task. -/
inductive Touched (d : Downloader) (i : Nat) (x : Download) (action : Action) (x' : Download) : Prop where
  | goes (hx : x.phase.isOver = false) (hp : x'.phase.isOver = false) (hi : x'.caller = x.caller)
      (hc : x'.cancelled = x.cancelled) (hl : x'.linking = x.linking)
      (ht : x'.tripped = true → x.tripped = true ∨ d.Trips i action)
  | ends (ha : action = .advance i ∨ action = .drop i) (hx : x.phase.isOver = false) {p : DownloadPhase}
      (hp : p.isOver = true) (he : x' = { x with phase := p, cancelled := true })
  | carries (ha : action = .link i) (hc : d.hasCancelled (.caller x.caller) = true)
      (he : x' = { x with cancelled := true, linking := false })
  | unlinks (ha : action = .link i) (hc : d.isCancelled x = true) (he : x' = { x with linking := false })

theorem tripped_performAll (hd : d.downloads[i]? = some x) (effects : List Transfer.Effect) {y : Download}
    (hy : (d.performAll i effects).downloads[i]? = some y) (ht : y.tripped = true) :
    x.tripped = true ∨ .trip ∈ effects := by
  induction effects generalizing d x with
  | nil =>
    cases hd.symm.trans hy
    exact Or.inl ht
  | cons effect rest ih =>
    rw [performAll_cons effect rest hd] at hy
    have hlt := (List.getElem?_eq_some_iff.mp hd).1
    have hset : ∀ z : Download, (d.downloads.set i z)[i]? = some z := fun z => List.getElem?_set_self hlt
    cases effect with
    | trip => exact Or.inr List.mem_cons_self
    | call resume =>
      unfold perform at hy
      dsimp only at hy
      split at hy
      · rcases ih (hset _) hy with h | h
        · cases h
        · exact Or.inr (List.mem_cons_of_mem _ h)
      · exact (ih hd hy).imp_right (List.mem_cons_of_mem _)
    | discard | remove | publish | emit | rest =>
      refine (ih (x := x) ?_ hy).imp_right (List.mem_cons_of_mem _)
      exact hd

theorem trip_mem_step {t : Transfer} {input : Transfer.Input} (h : .trip ∈ (t.step input).2) :
    ∃ completed total observed, input = .report completed total ∧
      Transfer.excess? t.limit completed total = some observed := by
  have hn : ∀ token, Transfer.Effect.trip ∉ Transfer.discards token := by
    intro token
    cases token <;> simp [Transfer.discards]
  have hs := Transfer.step_spec t input
  generalize (t.step input).1 = t' at hs
  generalize (t.step input).2 = effects at hs h
  cases hs with
  | trip hp hc hx => exact ⟨_, _, _, rfl, hx⟩
  | stop | abort | fail | interrupt => exact absurd h (hn _)
  | _ => simp [Transfer.restEffects] at h

theorem report_of_input? {completed : Nat} {total : Option Nat} (h : d.input? i action = some (.report completed total)) :
    action = .report i completed total := by
  have ha := isAbout_of_input? h
  obtain ⟨x, t, hd, hp⟩ := transferring_of_input? h
  rw [input?_of_transferring hd hp ha] at h
  cases action with
  | report j c s =>
    obtain rfl : j = i := of_decide_eq_true ha
    cases ht : t.phase <;> rw [ht] at h <;> cases h
    rfl
  | advance =>
    cases ht : t.phase with
    | resting =>
      rw [ht] at h
      simp [offer?] at h
    | _ =>
      rw [ht] at h
      cases h
  | drop | link | settle | wake =>
    cases ht : t.phase <;> rw [ht] at h <;> cases h
  | _ => cases ha

theorem Step.touched (h : Step d action d') (ha : action.isAbout i = true) (hd : d.downloads[i]? = some x) :
    ∃ x', d'.downloads[i]? = some x' ∧ Touched d i x action x' := by
  have hlt := (List.getElem?_eq_some_iff.mp hd).1
  have own : ∀ {j y}, d.downloads[j]? = some y → j = i → y = x := by
    rintro j y hy rfl
    exact Option.some.inj (hy.symm.trans hd)
  have hset : ∀ z : Download, (d.downloads.set i z)[i]? = some z := fun z => List.getElem?_set_self hlt
  cases h with
  | refuse | accept | work | cancel | shutdown | setCeiling => cases ha
  | announce hj hp | quit hj hp | enter hj hp | line hj hp | giveUp hj hp | claim hj hp | begin hj hp | submit hj hp =>
    obtain rfl := of_decide_eq_true ha
    obtain rfl := own hj rfl
    exact ⟨_, hset _, .goes (by rw [hp]; rfl) rfl rfl rfl rfl Or.inl⟩
  | @yield j y t result hj hp =>
    obtain rfl := of_decide_eq_true ha
    obtain rfl := own hj rfl
    refine ⟨_, hset _, .goes (by rw [hp]; rfl) ?_ rfl rfl rfl Or.inl⟩
    cases result <;> rfl
  | @feed j y t _ input hj hp hi =>
    obtain rfl := isAbout_unique (isAbout_of_input? hi) ha
    obtain rfl := own hj rfl
    have hs := (stored_eq d action).1
    have hd' : (d.stored action).downloads[j]? = some y := by rw [hs, hd]
    obtain ⟨tripped, hf⟩ := (feed_spec hd' t input).downloads
    rw [move, put, List.set_set, hs] at hf
    have hget : ((d.stored action).feed j y t input).downloads[j]? =
        some { y with phase := .transferring (t.step input).1, tripped } := by
      rw [hf]
      exact hset _
    refine ⟨_, hget, .goes (by rw [hp]; rfl) rfl rfl rfl rfl fun ht => ?_⟩
    have hmoved : ((d.stored action).move j y (.transferring (t.step input).1)).downloads[j]? =
        some { y with phase := .transferring (t.step input).1 } := by
      rw [move, put, hs]
      exact hset _
    refine (tripped_performAll hmoved _ hget ht).imp_right fun hm => ?_
    obtain ⟨completed, total, observed, rfl, hx⟩ := trip_mem_step hm
    exact ⟨y, t, completed, total, observed, report_of_input? hi, hd, hp, hx⟩
  | deliver hj hp | reject hj hp | collect hj hp | fail hj hp =>
    obtain rfl := of_decide_eq_true ha
    obtain rfl := own hj rfl
    exact ⟨_, hset _, .ends (Or.inl rfl) (by rw [hp]; rfl) rfl rfl⟩
  | dropWaiting hj hp | dropTransfer hj hp | dropOpening hj hp =>
    obtain rfl := of_decide_eq_true ha
    obtain rfl := own hj rfl
    exact ⟨_, hset _, .ends (Or.inr rfl) (by rw [hp]; rfl) rfl rfl⟩
  | carry hj hl hc =>
    obtain rfl := of_decide_eq_true ha
    obtain rfl := own hj rfl
    exact ⟨_, hset _, .carries rfl hc rfl⟩
  | unlink hj hl hc =>
    obtain rfl := of_decide_eq_true ha
    obtain rfl := own hj rfl
    exact ⟨_, hset _, .unlinks rfl hc rfl⟩

/-! ### What a step cancels -/

theorem Step.callers (h : Step d action d') :
    (∃ n, action = .cancel n ∧ d'.cancelledCallers = n :: d.cancelledCallers) ∨
      d'.cancelledCallers = d.cancelledCallers := by
  cases h with
  | cancel => exact Or.inl ⟨_, rfl, rfl⟩
  | @feed i x t _ input hd =>
    obtain ⟨shared, tracker, downloads, demands, hf⟩ :=
      performAll_frame ((d.stored action).move i x (.transferring (t.step input).1)) i (t.step input).2
    refine Or.inr ((congrArg Downloader.cancelledCallers hf).trans ?_)
    unfold stored
    split <;> rfl
  | _ => exact Or.inr rfl

theorem Step.shutDown_eq (h : Step d action d') : action = .shutdown ∨ d'.shutDown = d.shutDown := by
  cases h with
  | shutdown => exact Or.inl rfl
  | @feed i x t _ input hd =>
    obtain ⟨shared, tracker, downloads, demands, hf⟩ :=
      performAll_frame ((d.stored action).move i x (.transferring (t.step input).1)) i (t.step input).2
    exact Or.inr ((congrArg Downloader.shutDown hf).trans (stored_keeps d action).2.1)
  | _ => exact Or.inr rfl

/-- A download that is not there yet comes up with nothing cancelled, before the downloader is shut down. -/
theorem Step.fresh (h : Step d action d') (hl : d.downloads.length ≤ j) (hx : d'.downloads[j]? = some x) :
    x.cancelled = false ∧ x.tripped = false ∧ x.phase.isOver = false ∧ d'.shutDown = false := by
  have hnone := List.getElem?_eq_none hl
  have hset : ∀ {i : Nat} {y : Download}, (d.downloads.set i y)[j]? = none := by
    intro i y
    rw [List.getElem?_eq_none_iff, List.length_set]
    exact hl
  cases h with
  | refuse | cancel | shutdown | setCeiling | work => cases hnone.symm.trans hx
  | accept hlimit hs =>
    have hx : (d.downloads ++ [_])[j]? = some x := hx
    rw [List.getElem?_append_right hl, List.getElem?_singleton] at hx
    split at hx
    · cases hx
      exact ⟨rfl, rfl, rfl, hs⟩
    · cases hx
  | @feed i y t _ input hd =>
    have hs := (stored_eq d action).1
    obtain ⟨tripped, hf⟩ := (feed_spec (by rw [hs, hd]) t input).downloads
    rw [hf, move, put, List.set_set, hs, hset] at hx
    cases hx
  | _ => cases hset.symm.trans hx

theorem isCancelled_eq (h : d'.shutDown = d.shutDown) : d'.isCancelled x = d.isCancelled x := by
  unfold isCancelled
  rw [h]

theorem isStopped_of_isCancelled (h : d.isCancelled x = true) : d.isStopped x = true := by
  unfold isStopped
  rw [h]
  rfl

/-- A download after a step is as it was, has been touched, or is new. -/
theorem Step.origin (h : Step d action d') (hx' : d'.downloads[i]? = some x') :
    (∃ x, d.downloads[i]? = some x ∧ (x' = x ∨ Touched d i x action x')) ∨ d.downloads.length ≤ i := by
  rcases Nat.lt_or_ge i d.downloads.length with hl | hl
  · have hx := List.getElem?_eq_getElem hl
    refine Or.inl ⟨_, hx, ?_⟩
    cases ha : action.isAbout i with
    | false => exact Or.inl (Option.some.inj (hx'.symm.trans (h.untouched ha hx)))
    | true =>
      obtain ⟨y, hy, ht⟩ := h.touched ha hx
      cases hx'.symm.trans hy
      exact Or.inr ht
  · exact Or.inr hl

theorem Step.stopped (h : Step d action d') (hx' : d'.downloads[i]? = some x') (hs : d'.isStopped x' = true) :
    ∃ x, d.downloads[i]? = some x ∧ (x' = x ∨ Touched d i x action x') := by
  rcases h.origin hx' with hx | hl
  · exact hx
  · obtain ⟨h1, h2, -, h3⟩ := h.fresh hl hx'
    simp [isStopped, Downloader.isCancelled, h1, h2, h3] at hs

theorem Step.cancels_download (h : Step d action d') (hs : d'.shutDown = d.shutDown)
    (hn : d.hasCancelled (.download i) = false) (hc : d'.hasCancelled (.download i) = true) :
    Cancels d action d' (.download i) := by
  obtain ⟨x', hx', hc⟩ := (Option.any_eq_true ..).mp hc
  obtain ⟨x, hx, hk⟩ := h.stopped hx' (isStopped_of_isCancelled hc)
  rw [hasCancelled_download hx] at hn
  rw [isCancelled_eq hs] at hc
  rcases hk with rfl | ⟨-, -, -, he, -, -⟩ | ⟨ha, hp, hp', rfl⟩ | ⟨rfl, hcaller, -⟩ | ⟨-, hcancelled, -⟩
  · rw [hn] at hc
    cases hc
  · unfold Downloader.isCancelled at hn hc
    rw [he, hn] at hc
    cases hc
  · exact .ended ha hx hp hx' hp'
  · exact .linked hx hcaller
  · rw [hn] at hcancelled
    cases hcancelled

theorem Step.cancels_attempt (h : Step d action d') (hs : d'.shutDown = d.shutDown)
    (hn : d.hasCancelled (.attempt i) = false) (hc : d'.hasCancelled (.attempt i) = true) :
    Cancels d action d' (.attempt i) ∨ Cancels d action d' (.download i) := by
  obtain ⟨x', hx', hc⟩ := (Option.any_eq_true ..).mp hc
  obtain ⟨x, hx, hk⟩ := h.stopped hx' hc
  rw [hasCancelled_attempt hx, isStopped, Bool.or_eq_false_iff] at hn
  rw [isStopped, isCancelled_eq hs, Bool.or_eq_true] at hc
  rcases hk with rfl | ⟨-, -, -, he, -, ht⟩ | ⟨ha, hp, hp', rfl⟩ | ⟨rfl, hcaller, -⟩ | ⟨-, hcancelled, -⟩
  · simp [hn] at hc
  · have hsame : d.isCancelled x' = d.isCancelled x := by
      unfold Downloader.isCancelled
      rw [he]
    rw [hsame, hn.1] at hc
    rcases ht (hc.resolve_left Bool.false_ne_true) with ht | ht
    · rw [hn.2] at ht
      cases ht
    · exact Or.inl (.tripped ht)
  · exact Or.inr (.ended ha hx hp hx' hp')
  · exact Or.inr (.linked hx hcaller)
  · rw [hn.1] at hcancelled
    cases hcancelled

/-- A step cancels at most one token, for a reason, and with it those below it. -/
theorem Step.cancels (h : Step d action d') (hn : d.hasCancelled σ = false) (hc : d'.hasCancelled σ = true) :
    ∃ τ, Cancels d action d' τ ∧ σ.IsUnder τ := by
  rcases h.shutDown_eq with rfl | hs
  · refine ⟨.shutdown, .shutdown, ?_⟩
    cases h with
    | shutdown =>
      cases σ with
      | caller n => cases hn.symm.trans hc
      | shutdown => exact .refl _
      | download i => exact Token.isUnder_shutdown_download
      | attempt i => exact Token.isUnder_shutdown_attempt
    | feed hd hp hi => cases isAbout_of_input? hi
  · cases σ with
    | caller n =>
      simp only [hasCancelled] at hn hc
      rcases h.callers with ⟨m, rfl, he⟩ | he
      · rw [he, List.contains_cons, hn, Bool.or_false] at hc
        obtain rfl : n = m := by simpa using hc
        exact ⟨_, .caller, .refl _⟩
      · rw [he, hn] at hc
        cases hc
    | shutdown =>
      unfold hasCancelled at hn hc
      rw [hs, hn] at hc
      cases hc
    | download i => exact ⟨_, h.cancels_download hs hn hc, .refl _⟩
    | attempt i =>
      rcases h.cancels_attempt hs hn hc with hc | hc
      · exact ⟨_, hc, .refl _⟩
      · exact ⟨_, hc, Token.isUnder_download_attempt⟩

/-! ### Why a token is cancelled -/

/-- What is known of the tokens that are cancelled, and of those of calls that are over, after actions. -/
structure Caused (d₀ : Downloader) (actions : List Action) (d : Downloader) : Prop where
  caller : ∀ n, d.hasCancelled (.caller n) = true → d₀.hasCancelled (.caller n) = true ∨ .cancel n ∈ actions
  shutdown : d.hasCancelled .shutdown = true → d₀.hasCancelled .shutdown = true ∨ .shutdown ∈ actions
  own : ∀ (i : Nat) (x : Download), d.downloads[i]? = some x → x.cancelled = true →
    d.hasCancelled (.caller x.caller) = true ∨ x.phase.isOver = true
  ended : ∀ (i : Nat) (x : Download), d.downloads[i]? = some x → x.phase.isOver = true → x.cancelled = true

theorem Step.callers_mono {n : Nat} (h : Step d action d') (hc : d.hasCancelled (.caller n) = true) :
    d'.hasCancelled (.caller n) = true := by
  simp only [hasCancelled] at hc ⊢
  rcases h.callers with ⟨m, -, he⟩ | he
  · rw [he, List.contains_cons, hc, Bool.or_true]
  · rw [he, hc]

theorem Step.caused (h : Step d action d') (hd : Caused d₀ actions d) : Caused d₀ (actions ++ [action]) d' where
  caller n hn := by
    cases hc : d.hasCancelled (.caller n) with
    | true => exact (hd.caller n hc).imp_right (List.mem_append_left _)
    | false =>
      obtain ⟨τ, hτ, hu⟩ := h.cancels hc hn
      cases hτ with
      | caller =>
        cases hu.of_caller
        exact Or.inr (List.mem_append_right _ (List.mem_singleton_self _))
      | shutdown => cases hu with | made hp => cases hp
      | linked | ended => rcases hu.of_download with hu | hu <;> cases hu
      | tripped => cases hu.of_attempt
  shutdown hs := by
    rcases h.shutDown_eq with rfl | he
    · exact Or.inr (List.mem_append_right _ (List.mem_singleton_self _))
    · refine (hd.shutdown ?_).imp_right (List.mem_append_left _)
      simpa only [hasCancelled, he] using hs
  own i x' hx' hc := by
    rcases h.origin hx' with ⟨x, hx, rfl | ht⟩ | hl
    · exact (hd.own i _ hx hc).imp_left h.callers_mono
    · rcases ht with ⟨hp, -, hi, he, -, -⟩ | ⟨-, -, hp, rfl⟩ | ⟨-, hcaller, rfl⟩ | ⟨-, -, rfl⟩
      · rcases hd.own i x hx (he.symm.trans hc) with hcaller | hover
        · rw [hi]
          exact Or.inl (h.callers_mono hcaller)
        · rw [hp] at hover
          cases hover
      · exact Or.inr hp
      · exact Or.inl (h.callers_mono hcaller)
      · exact (hd.own i x hx hc).imp_left h.callers_mono
    · rw [(h.fresh hl hx').1] at hc
      cases hc
  ended i x' hx' hp := by
    rcases h.origin hx' with ⟨x, hx, rfl | ht⟩ | hl
    · exact hd.ended i _ hx hp
    · rcases ht with ⟨-, hp', -, -, -, -⟩ | ⟨-, -, -, rfl⟩ | ⟨-, -, rfl⟩ | ⟨-, -, rfl⟩
      · rw [hp'] at hp
        cases hp
      · rfl
      · rfl
      · exact hd.ended i x hx hp
    · rw [(h.fresh hl hx').2.2.1] at hp
      cases hp

theorem caused_run {earlier : List Action} (hd : Caused d₀ earlier d) (h : d.run? actions = some d') :
    Caused d₀ (earlier ++ actions) d' := by
  induction actions generalizing d earlier with
  | nil =>
    cases h
    rwa [List.append_nil]
  | cons action rest ih =>
    obtain ⟨e, he, hr⟩ := Option.bind_eq_some_iff.mp h
    have hrest := ih ((step_of_step? he).caused hd) hr
    rwa [List.append_assoc] at hrest

/-! ### Isolation -/

/-- Cancellations of a downloader reach no further than they should. -/
structure Isolated (d₀ : Downloader) (actions : List Action) (d : Downloader) : Prop where
  /-- whatever a step cancels is one token, for a reason, and those below it -/
  cancels : ∀ action d' σ, d.step? action = some d' → d.hasCancelled σ = false → d'.hasCancelled σ = true →
    ∃ τ, Cancels d action d' τ ∧ σ.IsUnder τ
  /-- a caller that cancels its token cancels no other one -/
  caller : ∀ n d' σ, d.step? (.cancel n) = some d' → d.hasCancelled σ = false → d'.hasCancelled σ = true →
    σ = .caller n
  /-- its cancellation is carried over to its own downloads alone -/
  carried : ∀ i d' σ, d.step? (.link i) = some d' → d.hasCancelled σ = false → d'.hasCancelled σ = true →
    (σ = .download i ∨ σ = .attempt i) ∧
      ∃ x : Download, d.downloads[i]? = some x ∧ d.hasCancelled (.caller x.caller) = true
  /-- an attempt that is stopped does not even cancel its download -/
  tripped : ∀ i completed total d' σ, d.step? (.report i completed total) = some d' → d.hasCancelled σ = false →
    d'.hasCancelled σ = true → σ = .attempt i
  /-- a call cancels nothing but its own token, and that as it ends -/
  ended : ∀ i action d' σ, action = .advance i ∨ action = .drop i → d.step? action = some d' →
    d.hasCancelled σ = false → d'.hasCancelled σ = true → (σ = .download i ∨ σ = .attempt i) ∧
      ∃ x' : Download, d'.downloads[i]? = some x' ∧ x'.phase.isOver = true
  /-- hence the reasons for which the token of a download is cancelled -/
  causes : ∀ (i : Nat) (x : Download), d.downloads[i]? = some x → d.hasCancelled (.download i) = true →
    d.hasCancelled (.caller x.caller) = true ∨ d.hasCancelled .shutdown = true ∨ x.phase.isOver = true
  called : ∀ n, d.hasCancelled (.caller n) = true → d₀.hasCancelled (.caller n) = true ∨ .cancel n ∈ actions
  shut : d.hasCancelled .shutdown = true → d₀.hasCancelled .shutdown = true ∨ .shutdown ∈ actions
  /-- once a call is over, its linking task can go on until it has ended -/
  unlinks : ∀ (i : Nat) (x : Download), d.downloads[i]? = some x → x.phase.isOver = true → x.linking = true →
    ∃ (d' : Downloader) (x' : Download), d.step? (.link i) = some d' ∧ d'.downloads[i]? = some x' ∧ x'.linking = false
  idle : ∀ (i : Nat) (x : Download), d.downloads[i]? = some x → x.phase.isOver = true → d.step? (.link i) = none →
    x.linking = false
  /-- and does not come back -/
  unlinked : ∀ (i : Nat) (x : Download) action d', d.downloads[i]? = some x → x.linking = false → d.step? action = some d' →
    ∃ x' : Download, d'.downloads[i]? = some x' ∧ x'.linking = false

theorem link?_of_linking (hx : d.downloads[i]? = some x) (hl : x.linking = true) : d.link? i =
    if d.cancelledCallers.contains x.caller then some (d.put i { x with cancelled := true, linking := false })
    else if d.isCancelled x then some (d.put i { x with linking := false }) else none := by
  simp only [link?, hx, Option.bind_eq_bind, Option.bind_some, hl, Bool.not_true, Bool.false_eq_true, if_false]

theorem Caused.unlinks (h : Caused d₀ actions d) (hx : d.downloads[i]? = some x) (hp : x.phase.isOver = true)
    (hl : x.linking = true) :
    ∃ (d' : Downloader) (x' : Download), d.step? (.link i) = some d' ∧ d'.downloads[i]? = some x' ∧ x'.linking = false := by
  have hlt := (List.getElem?_eq_some_iff.mp hx).1
  have hc : d.isCancelled x = true := by simp [Downloader.isCancelled, h.ended i x hx hp]
  by_cases hcaller : d.cancelledCallers.contains x.caller = true
  · refine ⟨d.put i { x with cancelled := true, linking := false }, _, ?_, List.getElem?_set_self hlt, rfl⟩
    exact (link?_of_linking hx hl).trans (if_pos hcaller)
  · refine ⟨d.put i { x with linking := false }, _, ?_, List.getElem?_set_self hlt, rfl⟩
    exact (link?_of_linking hx hl).trans ((if_neg hcaller).trans (if_pos hc))

theorem Step.unlinked (h : Step d action d') (hx : d.downloads[i]? = some x) (hl : x.linking = false) :
    ∃ x' : Download, d'.downloads[i]? = some x' ∧ x'.linking = false := by
  cases ha : action.isAbout i with
  | false => exact ⟨x, h.untouched ha hx, hl⟩
  | true =>
    obtain ⟨x', hx', ht⟩ := h.touched ha hx
    refine ⟨x', hx', ?_⟩
    rcases ht with ⟨-, -, -, -, he, -⟩ | ⟨-, -, -, rfl⟩ | ⟨-, -, rfl⟩ | ⟨-, -, rfl⟩
    · exact he.trans hl
    · exact hl
    · rfl
    · rfl

/-- A cancellation reaches the tokens below the one it is of, and a call that is over leaves nothing running. -/
theorem cancellation_isolated (hf : d₀.IsFresh) (hr : d₀.run? actions = some d) : Isolated d₀ actions d := by
  have hnone : ∀ (i : Nat) (x : Download), d₀.downloads[i]? ≠ some x := by
    intro i x hx
    rw [hf.downloads] at hx
    cases hx
  have h : Caused d₀ actions d := by
    have h0 : Caused d₀ [] d₀ :=
      ⟨fun _ => Or.inl, Or.inl, fun i x hx => absurd hx (hnone i x), fun i x hx => absurd hx (hnone i x)⟩
    exact caused_run h0 hr
  refine
    { cancels := fun action d' σ hs => (step_of_step? hs).cancels
      caller := fun n d' σ hs hn hc => ?_
      carried := fun i d' σ hs hn hc => ?_
      tripped := fun i completed total d' σ hs hn hc => ?_
      ended := fun i action d' σ ha hs hn hc => ?_
      causes := fun i x hx hc => ?_
      called := h.caller
      shut := h.shutdown
      unlinks := fun i x => h.unlinks
      idle := fun i x hx hp hn => ?_
      unlinked := fun i x action d' hx hl hs => (step_of_step? hs).unlinked hx hl }
  · obtain ⟨τ, hτ, hu⟩ := (step_of_step? hs).cancels hn hc
    cases hτ with
    | caller => exact hu.of_caller
    | ended ha => rcases ha with ha | ha <;> cases ha
    | tripped ht =>
      obtain ⟨_, _, he⟩ := ht.action_eq
      cases he
  · obtain ⟨τ, hτ, hu⟩ := (step_of_step? hs).cancels hn hc
    cases hτ with
    | linked hx hcaller => exact ⟨hu.of_download, _, hx, hcaller⟩
    | ended ha => rcases ha with ha | ha <;> cases ha
    | tripped ht =>
      obtain ⟨_, _, he⟩ := ht.action_eq
      cases he
  · obtain ⟨τ, hτ, hu⟩ := (step_of_step? hs).cancels hn hc
    cases hτ with
    | ended ha => rcases ha with ha | ha <;> cases ha
    | tripped ht =>
      obtain ⟨_, _, he⟩ := ht.action_eq
      cases he
      exact hu.of_attempt
  · obtain ⟨τ, hτ, hu⟩ := (step_of_step? hs).cancels hn hc
    cases hτ with
    | ended ha' hx hp hx' hp' =>
      rcases ha with rfl | rfl <;> rcases ha' with ha' | ha' <;> cases ha' <;> exact ⟨hu.of_download, _, hx', hp'⟩
    | tripped ht =>
      obtain ⟨_, _, he⟩ := ht.action_eq
      rcases ha with rfl | rfl <;> cases he
    | _ => rcases ha with ha | ha <;> cases ha
  · rw [hasCancelled_download hx] at hc
    rcases Bool.or_eq_true_iff.mp hc with hc | hc
    · exact Or.inr (Or.inl hc)
    · exact (h.own i x hx hc).imp_right Or.inr
  · refine Bool.eq_false_iff.mpr fun hl => ?_
    obtain ⟨d', -, hs, -⟩ := h.unlinks hx hp hl
    cases hn.symm.trans hs

/-- Two downloads share a caller and a third one has another. The attempt of the first is stopped at the ceiling, and
    the caller of the third cancels. -/
theorem cancellation_isolated_shared :
    let first : Downloader := { withCancelled with cancelledCallers := [] }
    let request : Request := .backup ⟨3, "archive", "latest"⟩ []
    let actions : List Action := [.ask request 0, .ask request 0, .ask request 1, .advance 0, .advance 0, .advance 0,
      .advance 0, .report 0 101 none, .cancel 1, .link 2]
    ∃ d, first.run? actions = some d ∧ Isolated first actions d ∧
      [.attempt 0, .download 0, .caller 0, .download 1, .shutdown].map d.hasCancelled =
        [true, false, false, false, false] ∧
      [.caller 1, .download 2].map d.hasCancelled = [true, true] := by
  intro first request actions
  have hrun : (first.run? actions).map (fun d =>
      ([.attempt 0, .download 0, .caller 0, .download 1, .shutdown].map d.hasCancelled,
        [.caller 1, .download 2].map d.hasCancelled)) =
        some ([true, false, false, false, false], [true, true]) := by
    decide +kernel
  obtain ⟨d, hr, hx⟩ := Option.map_eq_some_iff.mp hrun
  obtain ⟨hspared, hreached⟩ := Prod.mk.inj hx
  have hf : first.IsFresh := ⟨rfl, rfl, rfl⟩
  exact ⟨d, hr, cancellation_isolated hf hr, hspared, hreached⟩

end Downloader
end SealedDownload
