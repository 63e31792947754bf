import SealedDownload.Proofs.Http.History

/-! What a chain of calls has of its files follows from its history. Whatever the server sends, a validator that is
    kept is that of the response accepted last for the file, and a file whose body is read is what was kept of it and
    what has come since. -/

namespace SealedDownload.Http

/-- What is kept of a file for a response: what the rest was asked for of, or nothing, and then the file begins with the
    response. -/
inductive Taken.Answers (taken : Taken) (sent : Sent) (first : Head) : Prop where
  | rest {k : UInt64} {validator : String} (hs : taken.head.status = Head.partialContent)
      (hr : sent.AsksFrom k validator) (hc : taken.head.start? = some k) (hk : taken.kept.length = k.toNat) :
      Answers taken sent first
  | anew (hs : taken.head.isSuccess = true) (hr : taken.head.status = Head.partialContent → sent.AsksAll)
      (hf : first = taken.head) (hk : taken.kept = []) : Answers taken sent first

/-- A file is what was kept of it and what has come of the body of the response accepted last. -/
structure Made (past : List Moment) (files : Files) (path : Path) (sent : Sent) (taken : Taken) (first : Head) :
    Prop where
  asked_eq : (asked past).head? = some sent
  taken_eq : taken? past = some taken
  last_eq : lastAccepted? past path = some taken.head
  first_eq : begunWith? past path = some first
  answers : taken.Answers sent first
  file_eq : files.get? path = some (taken.kept ++ taken.body)

/-- The validator of a partial file is that of the response accepted last for it. -/
structure Known (past : List Moment) (part : Partial) : Prop where
  last : ∃ head, lastAccepted? past part.path = some head ∧ head.validator? = part.validator
  first : ∃ head, begunWith? past part.path = some head

/-- What a call leaves: a file that has been made, or a token for a known one. -/
def Leaves (past : List Moment) (files : Files) : Except Failure Path → Prop
  | .ok path => ∃ sent taken first, Made past files path sent taken first
  | .error failure => ∀ token part, failure.resume? = some token → Partial.decode? token = some part → Known past part

/-- What a fetch has by where it is. -/
def Fetch.Follows (past : List Moment) (files : Files) (f : Fetch) : Prop :=
  match f.phase with
  | .sending again => (asked past).head? = some f.request ∧ (again = false → asked past = [f.request]) ∧
      (f.part.received = 0 ∨
        again = false ∧ f.part.IsOn files ∧ f.part.validator.isSome = true ∧ Known past f.part)
  | .reading _ => ∃ sent taken first, Made past files f.part.path sent taken first ∧
      taken.head.validator? = f.part.validator
  | .ended result => Leaves past files result

/-- What a chain has. -/
structure Chain.Follows (past : List Moment) (c : Chain) : Prop where
  few : (asked past).length ≤ 2
  left : ∀ result, c.link = .idle (some result) → Leaves past c.files result
  kept : ∀ f, c.link = .busy f → f.result? = none ∧ AskNoRange f.headers ∧ f.Follows past c.files

variable {t : HttpTransport} {files files' : Files} {past : List Moment} {m : Moment} {c d : Chain} {f f' : Fetch}
  {part : Partial} {head first : Head} {sent : Sent} {taken : Taken} {path : Path} {failure : Failure}
  {effects : List FetchEffect} {input : FetchInput} {happening : Happening} {again : Bool}

/-! ### A moment at which nothing is accepted -/

theorem Known.cons (h : Known past part) (hm : m.accepted? = none) : Known (m :: past) part where
  last := by
    rw [lastAccepted?_cons hm]
    exact h.last
  first := by
    rw [begunWith?_cons (begun?_of_accepted? hm)]
    exact h.first

/-- A file goes on as it was made, with what has come of the body at the moment. -/
theorem Made.cons {taken' : Taken} (h : Made past files path sent taken first) (hm : m.accepted? = none)
    (ha : asked (m :: past) = asked past) (ht : taken? (m :: past) = some taken') (hh : taken'.head = taken.head)
    (hk : taken'.kept = taken.kept) (hg : files'.get? path = some (taken'.kept ++ taken'.body)) :
    Made (m :: past) files' path sent taken' first where
  asked_eq := ha ▸ h.asked_eq
  taken_eq := ht
  last_eq := by rw [lastAccepted?_cons hm, h.last_eq, hh]
  first_eq := (begunWith?_cons (begun?_of_accepted? hm)).trans h.first_eq
  answers := by
    cases h.answers with
    | rest hs hr hc hl => exact .rest (hh ▸ hs) hr (hh ▸ hc) (hk ▸ hl)
    | anew hs hr hf hl => exact .anew (hh ▸ hs) (hh ▸ hr) (hh ▸ hf) (hk ▸ hl)
  file_eq := hg

/-- A file stays as it was made. -/
theorem Made.stay (h : Made past files path sent taken first) (hm : m.accepted? = none)
    (ha : asked (m :: past) = asked past) (ht : taken? (m :: past) = taken? past) :
    Made (m :: past) files path sent taken first :=
  h.cons hm ha (ht.trans h.taken_eq) rfl rfl h.file_eq

/-! ### Failing and sending -/

theorem leaves_of_no_resume (files : Files) (h : failure.resume? = none) : Leaves past files (.error failure) := by
  intro token part ht
  rw [h] at ht
  cases ht

theorem follows_of_failed (hf : Fetch.Failed f files failure f' files') (hr : failure.resume? = none)
    (hk : Fetch.isResumable f.part = true → Known past f.part) : f'.Follows past files' := by
  obtain ⟨failure', hp, hleft⟩ := hf.token hr
  unfold Fetch.Follows
  rw [hp]
  intro token part ht hd
  obtain ⟨rfl, hres, -⟩ := hleft token part ht hd
  exact hk hres

theorem requests_of_sends (h : Fetch.Sends f files again f' files' effects) :
    effects.filterMap FetchEffect.sent? = [] ∨
      effects.filterMap FetchEffect.sent? = [f.request] ∧ files' = files ∧ f' = { f with phase := .sending again } := by
  cases h with
  | send => exact Or.inr ⟨rfl, rfl, rfl⟩
  | block => exact Or.inl rfl

/-- A request is sent with nothing received, or with a known partial file that is on the disk. -/
theorem follows_of_sends (hs : Fetch.Sends f files again f' files' effects)
    (ha : effects.filterMap FetchEffect.sent? = [f.request] → (asked past).head? = some f.request ∧
      (again = false → asked past = [f.request]))
    (hp : f.part.received = 0 ∨
      again = false ∧ f.part.IsOn files ∧ f.part.validator.isSome = true ∧ Known past f.part) :
    f'.Follows past files' := by
  cases hs with
  | send =>
    obtain ⟨hh, ho⟩ := ha rfl
    exact ⟨hh, ho, hp⟩
  | block _ hf =>
    refine follows_of_failed hf rfl fun hres => ?_
    rcases hp with hz | ⟨-, -, -, hk⟩
    · exact absurd hres (not_isResumable hz)
    · exact hk

theorem made_of_reading {total : Option UInt64} (h : f.Follows past files) (hp : f.phase = .reading total) :
    ∃ sent taken first, Made past files f.part.path sent taken first ∧ taken.head.validator? = f.part.validator := by
  unfold Fetch.Follows at h
  simpa only [hp] using h

/-- A fetch that could leave a token knows its file. -/
theorem known_of_follows (h : f.Follows past files) (hn : f.result? = none) (hr : Fetch.isResumable f.part = true) :
    Known past f.part := by
  cases hp : f.phase with
  | sending again =>
    unfold Fetch.Follows at h
    simp only [hp] at h
    obtain ⟨-, -, hz | ⟨-, -, -, hk⟩⟩ := h
    · exact absurd hr (not_isResumable hz)
    · exact hk
  | reading total =>
    obtain ⟨sent, taken, first, hm, hv⟩ := made_of_reading h hp
    exact ⟨⟨taken.head, hm.last_eq, hv⟩, first, hm.first_eq⟩
  | ended result =>
    unfold Fetch.result? at hn
    rw [hp] at hn
    cases hn

/-- A response for which the fetch still has something on the disk comes to the first request of its call. -/
theorem follows_sending (h : f.Follows past files) (hp : f.phase = .sending again) (hr : 0 < f.part.received) :
    again = false ∧ asked past = [f.request] ∧ f.part.IsOn files ∧ f.part.validator.isSome = true ∧
      Known past f.part := by
  unfold Fetch.Follows at h
  simp only [hp] at h
  obtain ⟨-, ho, hz | ⟨ha, hon, hv, hk⟩⟩ := h
  · rw [hz] at hr
    exact absurd hr (by decide)
  · exact ⟨ha, ho ha, hon, hv, hk⟩

theorem head?_asked (h : f.Follows past files) (hp : f.phase = .sending again) :
    (asked past).head? = some f.request := by
  unfold Fetch.Follows at h
  simp only [hp] at h
  exact h.1

/-- What a fetch that has something on the disk has asked for. -/
theorem asksFrom_of_follows (hq : AskNoRange f.headers) (h : f.Follows past files) (hp : f.phase = .sending again)
    (hr : 0 < f.part.received) : ∃ validator, f.request.AsksFrom f.part.received validator ∧
      f.part.validator = some validator := by
  obtain ⟨-, -, -, hv, -⟩ := follows_sending h hp hr
  obtain ⟨validator, hv⟩ := Option.isSome_iff_exists.mp hv
  exact ⟨validator, Fetch.asksFrom_of_received hq hr hv, hv⟩

/-! ### One step -/

/-- The moment at which an input comes to a fetch. -/
def Moment.ofInput (c : Chain) (input : FetchInput) (effects : List FetchEffect) (f : Fetch) (files : Files) : Moment :=
  ⟨c, .input input, effects, c.going f files⟩

theorem accepted?_of_no_reading (hl : c.link = .busy f) (h : f.isSending = false ∨ f'.isReading = false) :
    (Moment.ofInput c input effects f' files').accepted? = none := by
  cases input with
  | head head =>
    refine (accepted?_of_going hl).trans (if_neg ?_)
    rcases h with h | h <;> simp [h]
  | chunk | finish | broken | silent | failed | cancel => rfl

theorem accepted?_of_reading (hl : c.link = .busy f) (hf : f.isSending = true) (hf' : f'.isReading = true) :
    (Moment.ofInput c (.head head) effects f' files').accepted? = some (f'.part.path, head) :=
  (accepted?_of_going hl).trans (if_pos (by rw [hf, hf']; rfl))

theorem asked_ofInput (h : effects.filterMap FetchEffect.sent? = []) :
    asked (Moment.ofInput c input effects f' files' :: past) = asked past := by
  rw [asked_cons rfl, Moment.requests, Moment.ofInput, h, List.reverse_nil, List.nil_append]

theorem files_going (c : Chain) (f : Fetch) (files : Files) : (c.going f files).files = files := rfl

theorem isReading_of_failed (h : Fetch.Failed f files failure f' files') : f'.isReading = false := by
  cases h <;> rfl

theorem isReading_of_sends (h : Fetch.Sends f files again f' files' effects) : f'.isReading = false := by
  cases h with
  | send => rfl
  | block _ hf => exact isReading_of_failed hf

theorem isSending_of_phase (h : f.phase = .sending again) : f.isSending = true := by
  simp only [Fetch.isSending, h]

theorem isReading_of_sending (h : f.phase = .sending again) : f.isReading = false := by
  simp only [Fetch.isReading, h]

theorem isSending_of_reading {total : Option UInt64} (h : f.phase = .reading total) : f.isSending = false := by
  simp only [Fetch.isSending, h]

/-- The rest of a file is taken. -/
theorem follows_append (hq : AskNoRange f.headers) (hl : c.link = .busy f) (h : f.Follows past c.files)
    (hp : f.phase = .sending again) (hs : head.status = Head.partialContent) (hr : 0 < f.part.received)
    (hc : again = true ∨ head.start? = some f.part.received) :
    (f.taking head f.part.received).Follows
      (Moment.ofInput c (.head head) [] (f.taking head f.part.received) (c.files.append f.part.path []) :: past)
      (c.files.append f.part.path []) := by
  obtain ⟨rfl, ho, ⟨got, hg, hlen⟩, -, hk⟩ := follows_sending h hp hr
  obtain ⟨validator, hask, -⟩ := asksFrom_of_follows hq h hp hr
  have hacc : (Moment.ofInput c (.head head) [] (f.taking head f.part.received)
      (c.files.append f.part.path [])).accepted? = some (f.part.path, head) :=
    accepted?_of_reading hl (isSending_of_phase hp) rfl
  have hg' : (c.files.append f.part.path []).get? f.part.path = some got := by
    rw [Files.get?_append [] hg, List.append_nil]
  have hne : got ≠ [] := by
    rintro rfl
    rw [List.length_nil] at hlen
    exact absurd (UInt64.lt_iff_toNat_lt.mp hr) (by rw [← hlen]; decide)
  have hbeg : (Moment.ofInput c (.head head) [] (f.taking head f.part.received)
      (c.files.append f.part.path [])).begun? = none := by
    refine Option.filter_eq_none_iff.mpr fun accepted he => ?_
    cases hacc.symm.trans he
    simpa [Moment.ofInput, Fetch.taking, files_going, hg'] using hne
  obtain ⟨first, hfirst⟩ := hk.first
  refine ⟨f.request, ⟨head, got, []⟩, first, ⟨?_, taken?_of_accepted? hacc hg', lastAccepted?_cons_self hacc,
    (begunWith?_cons hbeg).trans hfirst, .rest hs hask (hc.resolve_left Bool.false_ne_true) hlen, ?_⟩, rfl⟩
  · rw [asked_ofInput rfl, ho]
    rfl
  · rw [List.append_nil]
    exact hg'

/-- A file is begun anew. -/
theorem follows_begin (hq : AskNoRange f.headers) (hl : c.link = .busy f) (h : f.Follows past c.files)
    (hp : f.phase = .sending again) (hs : head.isSuccess = true)
    (hc : head.status ≠ Head.partialContent ∨ f.part.received = 0) :
    (f.taking head 0).Follows
      (Moment.ofInput c (.head head) [] (f.taking head 0) (c.files.write f.part.path []) :: past)
      (c.files.write f.part.path []) := by
  have hacc : (Moment.ofInput c (.head head) [] (f.taking head 0) (c.files.write f.part.path [])).accepted? =
      some (f.part.path, head) := accepted?_of_reading hl (isSending_of_phase hp) rfl
  have hg : (c.files.write f.part.path []).get? f.part.path = some [] := Files.get?_write ..
  have hbeg : (Moment.ofInput c (.head head) [] (f.taking head 0) (c.files.write f.part.path [])).begun? =
      some (f.part.path, head) := by
    refine Option.filter_eq_some_iff.mpr ⟨hacc, decide_eq_true hg⟩
  refine ⟨f.request, ⟨head, [], []⟩, head, ⟨?_, taken?_of_accepted? hacc hg, lastAccepted?_cons_self hacc,
    begunWith?_cons_self hbeg, .anew hs (fun h206 => ?_) rfl rfl, hg⟩, rfl⟩
  · rw [asked_ofInput rfl, head?_asked h hp]
  · exact Fetch.asksAll_of_received hq (hc.resolve_left fun hne => hne h206)

theorem follows_step (hq : AskNoRange f.headers) (hn : f.result? = none) (hl : c.link = .busy f)
    (h : f.Follows past c.files) (hs : Fetch.Step f c.files input f' files' effects) :
    f'.Follows (Moment.ofInput c input effects f' files' :: past) files' := by
  have hstay : f.isSending = false → (Moment.ofInput c input effects f' files').accepted? = none := fun h =>
    accepted?_of_no_reading hl (Or.inl h)
  have hfail : ∀ {failure}, Fetch.Failed f c.files failure f' files' → failure.resume? = none →
      f'.Follows (Moment.ofInput c input effects f' files' :: past) files' := fun hf hr =>
    follows_of_failed hf hr fun hres =>
      (known_of_follows h hn hres).cons (accepted?_of_no_reading hl (Or.inr (isReading_of_failed hf)))
  cases hs with
  | ignore hfit =>
    cases hp : f.phase with
    | sending again =>
      have hacc : (Moment.ofInput c input [] f c.files).accepted? = none :=
        accepted?_of_no_reading hl (Or.inr (isReading_of_sending hp))
      have ha : asked (Moment.ofInput c input [] f c.files :: past) = asked past := asked_ofInput rfl
      unfold Fetch.Follows at h ⊢
      simp only [hp] at h ⊢
      rw [ha]
      exact ⟨h.1, h.2.1, h.2.2.imp_right fun hk => ⟨hk.1, hk.2.1, hk.2.2.1, hk.2.2.2.cons hacc⟩⟩
    | reading total =>
      have hacc := hstay (isSending_of_reading hp)
      have hi : ∀ bytes, input ≠ .chunk bytes := by
        rintro bytes rfl
        rw [hp] at hfit
        cases hfit
      obtain ⟨sent, taken, first, hm, hv⟩ := made_of_reading h hp
      unfold Fetch.Follows
      simp only [hp]
      exact ⟨sent, taken, first, hm.stay hacc (asked_ofInput rfl) (taken?_cons hacc rfl hi), hv⟩
    | ended result =>
      unfold Fetch.result? at hn
      rw [hp] at hn
      cases hn
  | restart hp hs hr hc hd =>
    refine follows_of_sends (f := f.anew) hd (fun he => ⟨?_, fun h => by cases h⟩) (Or.inl rfl)
    rw [asked_cons rfl, Moment.requests, Moment.ofInput, he]
    rfl
  | append hp hs hr hc => exact follows_append hq hl h hp hs hr hc
  | begin hp hs hc => exact follows_begin hq hl h hp hs hc
  | refuse _ _ hf => exact hfail hf rfl
  | @receive total bytes hp =>
    obtain ⟨sent, taken, first, hm, hv⟩ := made_of_reading h hp
    have hg : (c.files.append f.part.path bytes).get? f.part.path = some (taken.kept ++ (taken.body ++ bytes)) := by
      rw [Files.get?_append bytes hm.file_eq, List.append_assoc]
    have hacc := hstay (isSending_of_reading hp)
    have ht := (taken?_cons_chunk hacc rfl).trans (congrArg (Option.map _) hm.taken_eq)
    unfold Fetch.Follows
    simp only [hp]
    exact ⟨sent, _, first, hm.cons hacc (asked_ofInput rfl) ht rfl rfl hg, hv⟩
  | complete hp =>
    have hacc := hstay (isSending_of_reading hp)
    obtain ⟨sent, taken, first, hm, -⟩ := made_of_reading h hp
    exact ⟨sent, taken, first, hm.stay hacc (asked_ofInput rfl) (taken?_cons hacc rfl fun _ h => by cases h)⟩
  | fail ht hf => exact hfail hf (Fetch.resume?_of_trouble? ht)

/-! ### The chain -/

/-- A call as it is now leaves the chain with what the fetch has. -/
theorem follows_going (hw : (asked past).length ≤ 2) (hq : AskNoRange f.headers) (h : f.Follows past files) :
    (c.going f files).Follows past := by
  cases hp : f.result? with
  | none =>
    have hl := c.link_going_of_none files hp
    refine ⟨hw, fun result h => ?_, fun f' h => ?_⟩
    · cases hl.symm.trans h
    · cases hl.symm.trans h
      exact ⟨hp, hq, by assumption⟩
  | some result =>
    have hl := c.link_going_of_some files hp
    refine ⟨hw, fun result' hr => ?_, fun f' h => ?_⟩
    · cases hl.symm.trans hr
      unfold Fetch.Follows at h
      rw [Fetch.phase_of_result? hp] at h
      exact h
    · cases hl.symm.trans h

/-- A call begins with a known partial file that is on the disk, or with nothing. -/
theorem known_of_picked {made : Files} {folder : Path} {url : String} (hs : c.Follows past)
    (hp : Fetch.Picked folder url made c.token? part files) :
    part.received = 0 ∨ part.IsOn files ∧ part.validator.isSome = true ∧ Known past part := by
  cases hp with
  | @resumed _ bytes hd _ hv hb hl =>
    obtain ⟨token, ht, hd⟩ := Option.bind_eq_some_iff.mp hd
    unfold Chain.token? at ht
    split at ht
    · rename_i failure hlink
      exact Or.inr ⟨⟨bytes, hb, hl⟩, hv, hs.left _ hlink token part ht hd⟩
    · cases ht
  | spoilt | fresh => exact Or.inl rfl

theorem follows_call {request : TransportRequest} (hs : c.Follows past) (hr : AskNoRange request.headers)
    (h : c.happen? (.call request) = some (d, effects)) : d.Follows (⟨c, .call request, effects, d⟩ :: past) := by
  have hacc : (Moment.mk c (.call request) effects d).accepted? = none := rfl
  have ha : asked (⟨c, .call request, effects, d⟩ :: past) = (effects.filterMap FetchEffect.sent?).reverse :=
    asked_cons_of_isCall rfl
  obtain ⟨last, -, ⟨failure, hf, rfl, rfl⟩ | ⟨url, made, part, files, f, files', -, -, hp, hsend, rfl⟩⟩ :=
    Chain.cases_of_call (c := { c with request }) h
  · refine ⟨by rw [ha]; decide, fun result hr => ?_, fun f hf => ?_⟩
    · cases hr
      exact leaves_of_no_resume c.files (Fetch.resume?_of_start hf)
    · cases hf
  · have hq : AskNoRange f.headers := by
      rw [headers_of_sends hsend]
      exact hr
    have hk : part.received = 0 ∨ part.IsOn files ∧ part.validator.isSome = true ∧ Known past part :=
      known_of_picked (c := c) hs hp
    refine follows_going ?_ hq (follows_of_sends hsend (fun he => ?_) ?_)
    · rw [ha, List.length_reverse]
      rcases requests_of_sends hsend with he | ⟨he, -⟩ <;> rw [he] <;> simp
    · rw [ha, he]
      exact ⟨rfl, fun _ => rfl⟩
    · exact hk.imp_right fun hk => ⟨rfl, hk.1, hk.2.1, hk.2.2.cons hacc⟩

/-- A call asks again only when its first request has had an answer that cannot be used. -/
theorem few_of_step (hw : (asked past).length ≤ 2) (h : f.Follows past c.files)
    (hs : Fetch.Step f c.files input f' files' effects) :
    (asked (Moment.ofInput c input effects f' files' :: past)).length ≤ 2 := by
  cases hs with
  | ignore | append | begin | refuse | receive | complete | fail =>
    rw [asked_ofInput rfl]
    exact hw
  | restart hp hs hr hc hd =>
    obtain ⟨-, ho, -⟩ := follows_sending h hp hr
    rw [asked_cons rfl, Moment.requests, Moment.ofInput, ho]
    rcases requests_of_sends hd with he | ⟨he, -⟩ <;> rw [he] <;> simp

theorem follows_input (hs : c.Follows past) (h : c.happen? (.input input) = some (d, effects)) :
    d.Follows (⟨c, .input input, effects, d⟩ :: past) := by
  obtain ⟨f, f', files', hl, hstep, rfl⟩ := Chain.cases_of_input h
  obtain ⟨hn, hq, hf⟩ := hs.kept f hl
  have hq' : AskNoRange f'.headers := by
    rw [headers_of_step hstep]
    exact hq
  exact follows_going (few_of_step hs.few hf hstep) hq' (follows_step hq hn hl hf hstep)

theorem follows_spoil {kind : IoKind} (hs : c.Follows past) (h : c.happen? (.spoil kind) = some (d, effects)) :
    d.Follows (⟨c, .spoil kind, effects, d⟩ :: past) := by
  unfold Chain.happen? at h
  cases hl : c.link with
  | idle last =>
    simp only [hl] at h
    cases h
  | busy f =>
    simp only [hl] at h
    cases h
    obtain ⟨hn, hq, hf⟩ := hs.kept f hl
    have hfail := Fetch.fail_spec f c.files (.io kind none)
    have hacc : (Moment.mk c (.spoil kind) [] (c.going (f.fail c.files (.io kind none)).1
      (f.fail c.files (.io kind none)).2)).accepted? = none := rfl
    refine follows_going hs.few ?_ (follows_of_failed hfail rfl fun hres => (known_of_follows hf hn hres).cons hacc)
    rw [headers_of_failed hfail]
    exact hq

/-- What a chain has follows from its history. -/
theorem follows_of_history (h : History t files past c) : c.Follows past := by
  induction h with
  | start =>
    refine ⟨Nat.zero_le _, fun result h => ?_, fun f h => ?_⟩
    · cases h
    · cases h
  | @next past c d happening effects _ hr hs ih =>
    cases happening with
    | call request => exact follows_call ih hr hs
    | input input => exact follows_input ih hs
    | spoil kind => exact follows_spoil ih hs

end SealedDownload.Http
