import SealedDownload.Proofs.Http.Sessions
import SealedDownload.Proofs.Transfer.Ceiling

/-! A body that has grown above the ceiling, or is said to be larger than it. The report that shows it stops the call
    before anything more of the body is read or written. What is left to do is to end the call, which removes its file,
    and then the transfer, which fails. -/

namespace SealedDownload.Http

/-- Whether an action is one of the transfer and its call, and not of the caller or of others. -/
def SessionAction.isOwn : SessionAction → Bool
  | .cancel => false
  | .others _ => false
  | _ => true

namespace Session

/-- What holds of the call of an attempt at any time. -/
structure Attends (limit : Nat) (s : Session) : Prop where
  limit_eq : s.transfer.limit = limit
  calls : s.call.isSome = s.transfer.phase.isCalling
  asked : s.transfer.phase.isOpen = true → ∃ request, s.request.forTransport = .ok request
  /-- the file of the call is as long as its record says, and is one of the transfer's -/
  has : ∀ f, s.call = some (.going f) → f.Has s.files ∧ f.part.path ∈ s.created
  /-- something above the ceiling is noted only if the call is to stop -/
  noted : ∀ v, s.transfer.phase = .calling v → v = Transfer.noViolation ∨ s.tripped = true

/-- Where a transfer is that is to fail for `observed` bytes, `path` being the file of its call and `content` what is
    in it, and how many steps of its own are left. -/
inductive Halts (limit observed : Nat) (path : Path) (content : Octets) (s : Session) : Nat → Prop where
  | reading {f : Fetch} {total : Option UInt64} (hc : s.call = some (.going f)) (hp : f.phase = .reading total)
      (hf : f.part.path = path) (ht : s.tripped = true) (hv : s.transfer.phase = .calling observed)
      (hg : s.files.get? path = some content) : Halts limit observed path content s 2
  | failed {failure : Failure} (hc : s.call = some (.over (.error failure))) (hr : failure.resume? = none)
      (hv : s.transfer.phase = .calling observed) (hg : s.files.get? path = none) :
      Halts limit observed path content s 1
  | ended (hc : s.call = none) (hv : s.transfer.phase = .ended (.error (.oversize limit observed)))
      (hg : s.files.get? path = none) : Halts limit observed path content s 0

/-- What holds of a transfer, `taken` steps of its own after its call has shown that `observed` bytes, above the
    ceiling, have come or are to come, when `content` was in the file of the call. -/
structure IsStopped (limit observed : Nat) (path : Path) (content : Octets) (taken : Nat) (s : Session) : Prop where
  /-- nothing more of the body is taken, nor its end -/
  deaf : ∀ input s', s.step? (.net input) = some s' → input = .cancel
  written : s.files.get? path = some content ∨ s.files.get? path = none
  /-- the call does not hand the file over -/
  unreturned : ∀ file, s.call ≠ some (.over (.ok file))
  /-- two steps are left, and nothing has to be waited for -/
  ends : s.transfer.result? = none → taken < 2 ∧ ∃ action s', action.isOwn = true ∧ s.step? action = some s'
  oversize : ∀ result, s.transfer.result? = some result →
    taken = 2 ∧ result = .error (.oversize limit observed) ∧ s.files.get? path = none

variable {s s' : Session} {f f' : Fetch} {files files' : Files} {t t' : Transfer} {path : Path} {content : Octets}
  {limit observed left : Nat} {resume : Option ResumeToken} {action : SessionAction} {actions : List SessionAction}
  {effects : List Transfer.Effect}

/-! ### The call of an attempt -/

theorem has_of_passes {created : List Path} (hp : Passes files (some path) files' (.ofCall (.ofFetch f)))
    (hm : path ∈ created) {g : Fetch} (hg : Call.ofFetch f = .going g) : g.Has files' ∧ g.part.path ∈ created := by
  obtain ⟨hon, hpath, -, -⟩ := hp
  rw [hg] at hon hpath
  exact ⟨hon, Option.some.inj (hpath g.part.path rfl) ▸ hm⟩

theorem received_of_picked {folder : Path} {url : String} {part : Partial}
    (hp : Fetch.Picked folder url files resume part files') : part.received = 0 ∨ part.IsOn files' := by
  cases hp with
  | resumed _ _ _ hb hl => exact Or.inr ⟨_, hb, hl⟩
  | spoilt | fresh => exact Or.inl rfl

/-- A transfer that goes on without the transport neither calls it nor stops it. -/
theorem quiet_of_not_calling {input : Transfer.Input} (hs : Transfer.Step t input t' effects)
    (hn : t'.phase.isCalling = false) : (∀ resume, .call resume ∉ effects) ∧ .trip ∉ effects := by
  have hdiscards : ∀ resume, (∀ given, .call given ∉ Transfer.discards resume) ∧ .trip ∉ Transfer.discards resume := by
    intro resume
    cases resume <;> simp [Transfer.discards]
  cases hs with
  | call | trip => cases hn
  | stop | abort | fail | interrupt => exact hdiscards _
  | _ => simp [Transfer.restEffects]

theorem foldl_between (s : Session) (t : Transfer) (files : Files) (hc : ∀ resume, .call resume ∉ effects)
    (ht : .trip ∉ effects) : ∃ files', effects.foldl perform (s.between t files) = s.between t files' := by
  induction effects generalizing files with
  | nil => exact ⟨files, rfl⟩
  | cons effect rest ih =>
    have ih := fun files => ih files (fun resume hm => hc resume (List.mem_cons_of_mem _ hm))
      fun hm => ht (List.mem_cons_of_mem _ hm)
    cases effect with
    | call resume => exact absurd List.mem_cons_self (hc resume)
    | trip => exact absurd List.mem_cons_self ht
    | discard token => exact ih (Fetch.discard files token)
    | remove file => exact ih (files.erase file)
    | publish | emit | rest => exact ih files

theorem attends_between (h : s.Attends limit) (hl : t.limit = limit) (hn : t.phase.isCalling = false)
    (ho : t.phase.isOpen = true → s.transfer.phase.isOpen = true) (files : Files) :
    (s.between t files).Attends limit where
  limit_eq := hl
  calls := hn.symm
  asked hopen := h.asked (ho hopen)
  has _ hf := by cases hf
  noted v hv := by
    rw [show t.phase = .calling v from hv] at hn
    cases hn

/-- Only a report leaves the transport at work. -/
theorem not_calling_of_step {input : Transfer.Input} (hs : Transfer.Step t input t' effects)
    (hf : Transfer.fits t.phase input = true) (hb : input ≠ .begin false)
    (hr : ∀ completed total, input ≠ .report completed total) :
    t'.phase.isCalling = false ∧ (t'.phase.isOpen = true → t.phase.isOpen = true) := by
  cases hs with
  | ignore hn =>
    rw [hf] at hn
    cases hn
  | call => exact absurd rfl hb
  | early | trip | publish | pass => exact absurd rfl (hr _ _)
  | reject | stop | abortFile | abort | fail | lose | exceed | complete | interrupt => exact ⟨rfl, nofun⟩
  | fetch hp | retry hp | retryLost hp | wake hp =>
    rw [hp]
    exact ⟨rfl, fun _ => rfl⟩

/-- The transfer goes on without the transport. -/
theorem attends_feed {input : Transfer.Input} (h : s.Attends limit) (hf : Transfer.fits s.transfer.phase input = true)
    (hb : input ≠ .begin false) (hr : ∀ completed total, input ≠ .report completed total) :
    ({ s with call := none }.feed input).Attends limit := by
  obtain ⟨t, effects, hstep, he⟩ := feed_spec { s with call := none } input
  have hstep : Transfer.Step s.transfer input t effects := hstep
  obtain ⟨hn, ho⟩ := not_calling_of_step hstep hf hb hr
  obtain ⟨hcall, htrip⟩ := quiet_of_not_calling hstep hn
  obtain ⟨files, hfiles⟩ := s.foldl_between t s.files hcall htrip
  rw [he.trans hfiles]
  exact attends_between h (hstep.limit_eq.trans h.limit_eq) hn ho files

theorem attends_callFor {request : TransportRequest} (hl : t.limit = limit)
    (hr : s.request.forTransport = .ok request) (hv : t.phase = .calling Transfer.noViolation) :
    ({ s with transfer := t }.callFor request resume).Attends limit := by
  have hnoted : ∀ v tripped, t.phase = .calling v → v = Transfer.noViolation ∨ tripped = true :=
    fun v _ hp => Or.inl (TransferPhase.calling.inj (hp.symm.trans hv))
  have hcalling : t.phase.isCalling = true := by rw [hv]; rfl
  rcases Fetch.start_spec s.transport request resume s.files with
    ⟨failure, hst, -⟩ | ⟨url, made, part, files', f, effects, files'', -, -, hpick, hsend, hst⟩
  · have hcall : { s with transfer := t }.callFor request resume =
        { s with transfer := t, call := some (.over (.error failure)), tripped := false } := by
      simp only [callFor, hst]
    rw [hcall]
    exact ⟨hl, hcalling.symm, fun _ => ⟨request, hr⟩, fun _ hf => (by cases hf), fun v => hnoted v false⟩
  · have hcall : { s with transfer := t }.callFor request resume =
        { s with transfer := t, files := files'', call := some (.ofFetch f), tripped := false,
                 created := f.part.path :: s.created } := by
      simp only [callFor, hst]
    have hpath : f.part.path = part.path := congrArg Partial.path (part_of_sends hsend)
    have hpass := passes_sends hsend (received_of_picked hpick)
    rw [hcall]
    refine ⟨hl, hcalling.symm, fun _ => ⟨request, hr⟩, fun g hg => ?_, fun v => hnoted v false⟩
    exact has_of_passes hpass (hpath ▸ List.mem_cons_self) (Option.some.inj hg)

/-- What a transfer that is at work makes of a report: it stays as it is, or is stopped. -/
theorem hear_cases (s : Session) (effect : FetchEffect) :
    s.hear effect = s ∨ ∃ noted, s.hear effect =
      { s with transfer := { s.transfer with phase := .calling noted }, tripped := true } := by
  cases effect with
  | send => exact Or.inl rfl
  | report completed total =>
    obtain ⟨t, effects, hstep, he⟩ := s.feed_spec (.report completed.toNat (total.map UInt64.toNat))
    change s.feed _ = s ∨ ∃ noted, s.feed _ = _
    rw [he]
    generalize completed.toNat = completed at hstep
    cases hstep with
    | ignore | early | publish | pass => exact Or.inl rfl
    | trip => exact Or.inr ⟨_, rfl⟩

theorem attends_hear {v : Nat} (h : s.Attends limit) (hp : s.transfer.phase = .calling v) (effect : FetchEffect) :
    (s.hear effect).Attends limit ∧ ∃ v, (s.hear effect).transfer.phase = .calling v := by
  rcases s.hear_cases effect with he | ⟨noted, he⟩
  · rw [he]
    exact ⟨h, v, hp⟩
  · rw [he]
    have hcalls : s.call.isSome = true := h.calls.trans (by rw [hp]; rfl)
    have hopen : s.transfer.phase.isOpen = true := by rw [hp]; rfl
    exact ⟨⟨h.limit_eq, hcalls, fun _ => h.asked hopen, h.has, fun _ _ => Or.inr rfl⟩, noted, rfl⟩

theorem attends_foldl_hear (h : s.Attends limit) (hp : ∃ v, s.transfer.phase = .calling v)
    (effects : List FetchEffect) : (effects.foldl hear s).Attends limit := by
  induction effects generalizing s with
  | nil => exact h
  | cons effect rest ih =>
    obtain ⟨v, hp⟩ := hp
    obtain ⟨ha, hp'⟩ := attends_hear h hp effect
    exact ih ha hp'

theorem attends_call {call : Call} (h : s.Attends limit) (hc : s.call = some (.going f))
    (hf : ∀ g, call = .going g → g.Has files ∧ g.part.path ∈ s.created) :
    { s with files, call := some call }.Attends limit where
  limit_eq := h.limit_eq
  calls := h.calls ▸ (by rw [hc]; rfl)
  asked := h.asked
  has g hg := hf g (Option.some.inj hg)
  noted := h.noted

theorem Attends.call_eq_none {p : TransferPhase} (h : s.Attends limit) (hp : s.transfer.phase = p)
    (hn : p.isCalling = false) : s.call = none := by
  rw [← hp, ← h.calls] at hn
  simpa using hn

theorem Attends.calling {call : Call} (h : s.Attends limit) (hc : s.call = some call) :
    ∃ v, s.transfer.phase = .calling v := by
  refine eq_calling ?_
  rw [← h.calls, hc]
  rfl

theorem with_call_none (hc : s.call = none) : { s with call := none } = s := by
  rw [← hc]

theorem attends_begin {p : TransferPhase} (h : s.Attends limit) (hp : s.transfer.phase = p) (hn : p.isCalling = false)
    (hf : ∀ c, Transfer.fits p (.begin c) = true) (c : Bool) : (s.feed (.begin c)).Attends limit := by
  have hidle := with_call_none (h.call_eq_none hp hn)
  cases c with
  | true => exact hidle ▸ attends_feed h (hp ▸ hf true) (by simp) nofun
  | false =>
    obtain ⟨t, effects, hstep, he⟩ := s.feed_spec (.begin false)
    cases hstep with
    | ignore hno =>
      rw [hp, hf] at hno
      cases hno
    | reject hp' =>
      rw [he, List.foldl_nil, between_eq (h.call_eq_none hp hn)]
      exact attends_between (t := s.transfer.finish _) h h.limit_eq rfl nofun s.files
    | call hp' =>
      obtain ⟨request, hr⟩ := h.asked (by rw [hp']; rfl)
      rw [he]
      simp only [List.foldl_cons, List.foldl_nil, perform, hr]
      exact attends_callFor h.limit_eq hr rfl

theorem attends_net {input : FetchInput} {effects : List FetchEffect} (h : s.Attends limit)
    (hc : s.call = some (.going f)) (ha : f.admits s.isStopped input = true)
    (hf : f.step s.files input = (f', files, effects)) :
    (effects.foldl hear { s with files, call := some (.ofFetch f') }).Attends limit := by
  obtain ⟨hhas, hmem⟩ := h.has f hc
  have hstep := Fetch.step_spec f s.files input
  rw [hf] at hstep
  have hpass := passes_step hstep hhas fun bytes hi => length_lt_of_admits (hi ▸ ha)
  refine attends_foldl_hear (attends_call h hc fun g hg => has_of_passes hpass hmem hg) (h.calling hc) effects

theorem attends_step (h : s.Attends limit) (hs : s.step? action = some s') : s'.Attends limit := by
  have hfeed : ∀ {p : TransferPhase} {input : Transfer.Input}, s.transfer.phase = p → p.isCalling = false →
      Transfer.fits p input = true → (∀ c, input ≠ .begin c) → (∀ completed total, input ≠ .report completed total) →
      (s.feed input).Attends limit := by
    intro p input hp hn hf hb hr
    exact with_call_none (h.call_eq_none hp hn) ▸ attends_feed h (hp ▸ hf) (hb false) hr
  cases step_of_step? hs with
  | fail hp | begin hp => exact attends_begin h hp rfl (fun _ => rfl) _
  | interrupt hp | measure hp | wake hp => exact hfeed hp rfl rfl nofun nofun
  | settle hc =>
    obtain ⟨v, hv⟩ := h.calling hc
    exact attends_feed h (by rw [hv]; rfl) nofun nofun
  | net hc ha hf => exact attends_net h hc ha hf
  | @spoil f f' kind files hc hf =>
    obtain ⟨hhas, hmem⟩ := h.has f hc
    have hfail := Fetch.fail_spec f s.files (.io kind none)
    rw [hf] at hfail
    exact attends_call h hc fun g hg => has_of_passes (passes_failed hfail rfl (isOn_of_has hhas)) hmem hg
  | cancel => exact ⟨h.limit_eq, h.calls, h.asked, h.has, h.noted⟩
  | others hsame =>
    refine ⟨h.limit_eq, h.calls, h.asked, fun f hf => ?_, h.noted⟩
    obtain ⟨hhas, hmem⟩ := h.has f hf
    exact ⟨hhas.congr (hsame _ hmem), hmem⟩

theorem attends_run (h : s.Attends limit) (hs : s.run? actions = some s') : s'.Attends limit := by
  induction actions generalizing s with
  | nil =>
    cases hs
    exact h
  | cons action rest ih =>
    obtain ⟨e, he, hr⟩ := Option.bind_eq_some_iff.mp hs
    exact ih (attends_step h he) hr

theorem attends_start (transport : HttpTransport) (id : TransferId) (request : Request) (limit : Nat)
    (policy : RetryPolicy) (files : Files) : (start transport id request limit policy files).Attends limit := by
  have hc : (start transport id request limit policy files).call = none := rfl
  have hbegun : ∀ {p : TransferPhase}, (start transport id request limit policy files).transfer.phase = p →
      p.isCalling = false → (p.isOpen = true → ∃ r, request.forTransport = .ok r) →
      (start transport id request limit policy files).Attends limit := by
    intro p hp hn ho
    refine ⟨rfl, by rw [hc, hp, hn]; rfl, hp ▸ ho, fun f hf => ?_, fun v hv => ?_⟩
    · rw [hc] at hf
      cases hf
    · rw [← hp, hv] at hn
      cases hn
  rcases phase_start transport id request limit policy files with ⟨hr, hp⟩ | ⟨failure, hp⟩
  · exact hbegun hp rfl fun _ => hr
  · exact hbegun hp rfl nofun

/-! ### A report above the ceiling -/

/-- A call that is stopped takes nothing of a body. -/
theorem eq_cancel_of_admits {total : Option UInt64} {input : FetchInput} (hp : f.phase = .reading total)
    (ha : f.admits true input = true) : input = .cancel := by
  cases input with
  | cancel => rfl
  | _ => simp [Fetch.admits, hp] at ha

/-- A failure that is not one of the network takes the file with it. -/
theorem halts_failed {failure : Failure} (hf : Fetch.Failed f s.files failure f' files)
    (hi : Fetch.isInterruption failure = false) (hr : failure.resume? = none) (hp : f.part.path = path)
    (hv : s.transfer.phase = .calling observed) :
    Halts limit observed path content { s with files, call := some (.ofFetch f') } 1 := by
  cases hf with
  | keep hi' =>
    rw [hi] at hi'
    cases hi'
  | drop => exact .failed (congrArg some (ofFetch_of_ended rfl)) hr hv (hp ▸ Files.get?_erase s.files f.part.path)

/-- One step of a transfer that is to fail: one of its own brings it on, any other leaves it where it is. -/
theorem halts_step (ha : s.Attends limit) (hx : limit < observed) (hm : path ∈ s.created)
    (h : Halts limit observed path content s left) (hs : s.step? action = some s') :
    path ∈ s'.created ∧ ∃ rest, left = rest + [action].countP SessionAction.isOwn ∧
      Halts limit observed path content s' rest := by
  cases h with
  | @reading f total hc hp hf ht hv hg =>
    cases step_of_step? hs with
    | fail hp' | begin hp' | interrupt hp' | measure hp' | wake hp' => cases hv.symm.trans hp'
    | settle hc' => cases hc.symm.trans hc'
    | net hc' ha hn =>
      cases hc.symm.trans hc'
      rw [show s.isStopped = true by simp [isStopped, ht]] at ha
      obtain rfl := eq_cancel_of_admits hp ha
      have hfail := Fetch.fail_spec f s.files .cancelled
      have hstep : f.step s.files .cancel = ((f.fail s.files .cancelled).1, (f.fail s.files .cancelled).2, []) := by
        simp only [Fetch.step, hp]
      cases hstep.symm.trans hn
      exact ⟨hm, 1, rfl, halts_failed hfail rfl rfl hf hv⟩
    | @spoil _ f' kind files hc' hn =>
      cases hc.symm.trans hc'
      have hfail := Fetch.fail_spec f s.files (.io kind none)
      rw [hn] at hfail
      exact ⟨hm, 1, rfl, halts_failed hfail rfl rfl hf hv⟩
    | cancel => exact ⟨hm, 2, rfl, .reading hc hp hf ht hv hg⟩
    | others hsame => exact ⟨hm, 2, rfl, .reading hc hp hf ht hv ((hsame path hm).trans hg)⟩
  | @failed failure hc hr hv hg =>
    cases step_of_step? hs with
    | fail hp' | begin hp' | interrupt hp' | measure hp' | wake hp' => cases hv.symm.trans hp'
    | net hc' | spoil hc' => cases hc.symm.trans hc'
    | @settle _ draw hc' =>
      cases hc.symm.trans hc'
      have hne : observed ≠ Transfer.noViolation := Nat.ne_of_gt (Nat.zero_lt_of_lt hx)
      have hstep : { s with call := none }.feed (.settle (.error failure) draw) =
          s.between (s.transfer.finish (.error (.oversize s.transfer.limit observed))) s.files := by
        simp only [feed, Transfer.step, hv, Transfer.settle, if_pos hne, hr]
        rfl
      rw [hstep, ha.limit_eq]
      exact ⟨hm, 0, rfl, .ended rfl rfl hg⟩
    | cancel => exact ⟨hm, 1, rfl, .failed hc hr hv hg⟩
    | others hsame => exact ⟨hm, 1, rfl, .failed hc hr hv ((hsame path hm).trans hg)⟩
  | ended hc hv hg =>
    cases step_of_step? hs with
    | fail hp' | begin hp' | interrupt hp' | measure hp' | wake hp' => cases hv.symm.trans hp'
    | net hc' | spoil hc' | settle hc' => cases hc.symm.trans hc'
    | cancel => exact ⟨hm, 0, rfl, .ended hc hv hg⟩
    | others hsame => exact ⟨hm, 0, rfl, .ended hc hv ((hsame path hm).trans hg)⟩

theorem halts_run (ha : s.Attends limit) (hx : limit < observed) (hm : path ∈ s.created)
    (h : Halts limit observed path content s left) (hs : s.run? actions = some s') :
    ∃ rest, left = rest + actions.countP SessionAction.isOwn ∧ Halts limit observed path content s' rest := by
  induction actions generalizing s left with
  | nil =>
    cases hs
    exact ⟨left, rfl, h⟩
  | cons action rest ih =>
    obtain ⟨e, he, hr⟩ := Option.bind_eq_some_iff.mp hs
    obtain ⟨hm', m, rfl, hm⟩ := halts_step ha hx hm h he
    obtain ⟨n, rfl, hn⟩ := ih (attends_step ha he) hm' hm hr
    have hcount : (action :: rest).countP SessionAction.isOwn =
        [action].countP SessionAction.isOwn + rest.countP SessionAction.isOwn := by
      rw [← List.countP_append]
      rfl
    exact ⟨n, by omega, hn⟩

theorem Halts.isStopped {taken : Nat} (h : Halts limit observed path content s left) (hl : 2 = left + taken) :
    s.IsStopped limit observed path content taken := by
  cases h with
  | @reading f total hc hp hf ht hv hg =>
    have hstop : s.isStopped = true := by simp [isStopped, ht]
    refine ⟨fun input s' hs => ?_, Or.inl hg, fun file he => (by cases hc.symm.trans he), fun _ => ⟨by omega, ?_⟩,
      fun result he => ?_⟩
    · cases step_of_step? hs with
      | net hc' ha =>
        cases hc.symm.trans hc'
        exact eq_cancel_of_admits hp (hstop ▸ ha)
    · exact ⟨.net .cancel, _, rfl, by simp only [step?, net?, hc, Fetch.admits, hstop, if_true]; rfl⟩
    · cases (Transfer.phase_of_result? he).symm.trans hv
  | @failed failure hc hr hv hg =>
    refine ⟨fun input s' hs => ?_, Or.inr hg, fun file he => (by cases hc.symm.trans he), fun _ => ⟨by omega, ?_⟩,
      fun result he => ?_⟩
    · cases step_of_step? hs with
      | net hc' => cases hc.symm.trans hc'
    · exact ⟨.settle 0, _, rfl, by simp only [step?, settle?, hc]; rfl⟩
    · cases (Transfer.phase_of_result? he).symm.trans hv
  | ended hc hv hg =>
    refine ⟨fun input s' hs => ?_, Or.inr hg, fun file he => (by cases hc.symm.trans he), fun hn => ?_,
      fun result he => ?_⟩
    · cases step_of_step? hs with
      | net hc' => cases hc.symm.trans hc'
    · simp only [Transfer.result?, hv] at hn
      cases hn
    · cases (Transfer.phase_of_result? he).symm.trans hv
      exact ⟨by omega, rfl, hg⟩

/-- Only a chunk of a body is reported. -/
theorem receive_of_report {input : FetchInput} {effects : List FetchEffect} {completed : UInt64}
    {total : Option UInt64} (hs : Fetch.Step f files input f' files' effects)
    (hr : .report completed total ∈ effects) : effects = [.report completed total] ∧ f.phase = .reading total ∧
      ∃ bytes, input = .chunk bytes ∧ f' = { f with part := { f.part with received := completed } } ∧
        completed = f.part.received + UInt64.ofNat bytes.length := by
  cases hs with
  | ignore | append | begin | refuse | complete | fail => cases hr
  | restart _ _ _ _ hsend => cases hsend <;> simp at hr
  | receive hp =>
    obtain ⟨rfl, rfl⟩ := FetchEffect.report.inj (List.mem_singleton.mp hr)
    exact ⟨rfl, hp, _, rfl, rfl, rfl⟩

theorem hear_of_exceeds {completed : UInt64} {total : Option UInt64}
    (hv : s.transfer.phase = .calling Transfer.noViolation) (hl : s.transfer.limit = limit)
    (hx : Transfer.Exceeds limit completed.toNat (total.map UInt64.toNat)) : s.hear (.report completed total) =
      { s with transfer := { s.transfer with
                 phase := .calling (Transfer.shownSize limit completed.toNat (total.map UInt64.toNat)) }
               tripped := true } := by
  obtain ⟨hpos, habove⟩ := hx
  have hshown := Transfer.excess?_eq_some_iff.mpr ⟨habove, rfl⟩
  simp only [hear, feed, Transfer.step, hv, Transfer.report, if_neg (Nat.ne_of_gt hpos), hl, hshown]
  rfl

/-- The report that shows it leaves the file as long as it says, and the transfer two steps before its end. -/
theorem halts_of_report {input : FetchInput} {completed : UInt64} {total : Option UInt64} (h : s.Attends limit)
    (hc : s.call = some (.going f)) (hs : s.step? (.net input) = some s')
    (hr : .report completed total ∈ (f.step s.files input).2.2)
    (hx : Transfer.Exceeds limit completed.toNat (total.map UInt64.toNat)) :
    f.part.path ∈ s'.created ∧ ∃ content, content.length = completed.toNat ∧
      Halts limit (Transfer.shownSize limit completed.toNat (total.map UInt64.toNat)) f.part.path content s' 2 := by
  cases step_of_step? hs with
  | @net _ f' _ files effects hc' ha hf =>
    cases hc.symm.trans hc'
    obtain ⟨hhas, hmem⟩ := h.has f hc
    obtain ⟨v, hv⟩ := h.calling hc
    have hstep := Fetch.step_spec f s.files input
    rw [hf] at hr hstep
    dsimp only at hr hstep
    obtain ⟨rfl, hp, bytes, rfl, hf', -⟩ := receive_of_report hstep hr
    have hp' : f'.phase = .reading total := by rw [hf', hp]
    have hgoing : Call.ofFetch f' = .going f' := by simp only [Call.ofFetch, Fetch.result?, hp']
    obtain ⟨hon, hpath, -, -⟩ := passes_step hstep hhas fun bytes hi => length_lt_of_admits (hi ▸ ha)
    rw [hgoing] at hon hpath
    have hpath : f.part.path = f'.part.path := Option.some.inj (hpath _ rfl)
    obtain ⟨content, hg, hlen⟩ : f'.part.IsOn files := by
      simpa only [Holding.ofCall, Holding.IsOn, Fetch.Has, hp'] using hon
    have hnoted : s.transfer.phase = .calling Transfer.noViolation := by
      rcases h.noted v hv with rfl | ht
      · exact hv
      · -- a call that is to stop takes no chunk
        rw [show s.isStopped = true by simp [isStopped, ht]] at ha
        cases eq_cancel_of_admits hp ha
    rw [List.foldl_cons, List.foldl_nil,
      hear_of_exceeds (s := { s with files, call := some (.ofFetch f') }) hnoted h.limit_eq hx]
    refine ⟨hmem, content, hlen.trans (by rw [hf']), .reading (congrArg some hgoing) hp' hpath.symm rfl rfl ?_⟩
    rw [hpath]
    exact hg

theorem stopped_of_report {input : FetchInput} {completed : UInt64} {total : Option UInt64} (h : s.Attends limit)
    (hc : s.call = some (.going f)) (hs : s.step? (.net input) = some s')
    (hr : .report completed total ∈ (f.step s.files input).2.2)
    (hx : Transfer.Exceeds limit completed.toNat (total.map UInt64.toNat)) :
    ∃ content, s'.files.get? f.part.path = some content ∧ content.length = completed.toNat ∧
      ∀ rest s'', s'.run? rest = some s'' →
        s''.IsStopped limit (Transfer.shownSize limit completed.toNat (total.map UInt64.toNat)) f.part.path content
          (rest.countP SessionAction.isOwn) := by
  obtain ⟨hm, content, hlen, hhalts⟩ := halts_of_report h hc hs hr hx
  refine ⟨content, ?_, hlen, fun rest s'' hrun => ?_⟩
  · cases hhalts with
    | reading _ _ _ _ _ hg => exact hg
  · obtain ⟨left, hleft, hend⟩ := halts_run (attends_step h hs) hx.lt_shownSize hm hhalts hrun
    exact hend.isStopped hleft

/-- The report that shows that a body is above the ceiling, or is said to be, stops the attempt with no more in its file
    than what the report tells of: nothing more of the body is taken, and the transfer fails and leaves no file. -/
theorem stopped_above_ceiling {transport : HttpTransport} {id : TransferId} {request : Request} {policy : RetryPolicy}
    {input : FetchInput} {completed : UInt64} {total : Option UInt64}
    (h : (start transport id request limit policy files).run? actions = some s) (hc : s.call = some (.going f))
    (hs : s.step? (.net input) = some s') (hr : .report completed total ∈ (f.step s.files input).2.2)
    (hx : Transfer.Exceeds limit completed.toNat (total.map UInt64.toNat)) :
    ∃ content, s'.files.get? f.part.path = some content ∧ content.length = completed.toNat ∧
      ∀ rest s'', s'.run? rest = some s'' →
        s''.IsStopped limit (Transfer.shownSize limit completed.toNat (total.map UInt64.toNat)) f.part.path content
          (rest.countP SessionAction.isOwn) :=
  stopped_of_report (attends_run (attends_start transport id request limit policy files) h) hc hs hr hx

/-- The last chunk of a body of four bytes, of which three are allowed. -/
theorem stopped_above_ceiling_last :
    let actions : List SessionAction := [.go, .net (.head ⟨200, [], none⟩), .net (.chunk [1, 2])]
    ∃ s f s' content, (start nearby ⟨1⟩ (.backup ⟨3, "archive", "latest"⟩ []) 3
        ⟨2, .ofMillis 1, .ofMillis 1, 2, false⟩ .empty).run? actions = some s ∧ s.call = some (.going f) ∧
      s.step? (.net (.chunk [3, 4])) = some s' ∧ .report 4 none ∈ (f.step s.files (.chunk [3, 4])).2.2 ∧
      Transfer.Exceeds 3 4 none ∧ s'.files.get? f.part.path = some content ∧ content.length = 4 ∧
      ∀ rest s'', s'.run? rest = some s'' →
        s''.IsStopped 3 4 f.part.path content (rest.countP SessionAction.isOwn) := by
  intro actions
  have hx : Transfer.Exceeds 3 4 none := ⟨by decide, Or.inl (by decide)⟩
  obtain ⟨s, f, s', h, hc, hs, hr⟩ : ∃ s f s', (start nearby ⟨1⟩ (.backup ⟨3, "archive", "latest"⟩ []) 3
        ⟨2, .ofMillis 1, .ofMillis 1, 2, false⟩ .empty).run? actions = some s ∧ s.call = some (.going f) ∧
      s.step? (.net (.chunk [3, 4])) = some s' ∧ (f.step s.files (.chunk [3, 4])).2.2 = [.report 4 none] :=
    ⟨_, _, _, rfl, rfl, rfl, rfl⟩
  have hr : .report 4 none ∈ (f.step s.files (.chunk [3, 4])).2.2 := hr ▸ List.mem_singleton_self _
  obtain ⟨content, hg, hlen, hstop⟩ := stopped_above_ceiling h hc hs hr hx
  exact ⟨s, f, s', content, h, hc, hs, hr, hx, hg, hlen, hstop⟩

end Session
end SealedDownload.Http
