import SealedDownload.Proofs.Http.Overrun

/-! The size of a body that a server claims. All reports of a body give the same total, the length that its response
    names and the bytes that were there before, counted in 64 bits. Where they fit, a claim above the ceiling stops the
    attempt with the first bytes; where they do not, the total is smaller than the claim, and need not stop it. -/

namespace SealedDownload.Http.Session

/-- Whether the call awaits a response. -/
def awaits (s : Session) : Bool :=
  match s.call with
  | some (.going f) => match f.phase with
    | .sending _ => true
    | _ => false
  | _ => false

/-- How many bytes the call has of the body that it reads, and of how many. -/
def reading? (s : Session) : Option (UInt64 × Option UInt64) :=
  match s.call with
  | some (.going f) => match f.phase with
    | .reading total => some (f.part.received, total)
    | _ => none
  | _ => none

/-- What is seen when a response comes after some actions and then a chunk of its body: whether the response is awaited,
    what is read behind it, and whether the call is to stop then. -/
def seen? (s : Session) (actions : List SessionAction) (head : Head) (bytes : Octets) :
    Option (Bool × Option (UInt64 × Option UInt64) × Bool) := do
  let before ← s.run? actions
  let taken ← before.step? (.net (.head head))
  let read ← taken.step? (.net (.chunk bytes))
  return (before.awaits, taken.reading?, read.isStopped)

/-- At some time after `s` a call has taken a response, which goes on behind `offset` bytes, and reads its body. -/
inductive Reads (s : Session) (head : Head) (offset : UInt64) : Session → Prop where
  | taken {actions : List SessionAction} {e e' : Session} {total : Option UInt64} (h : s.run? actions = some e)
      (hw : e.awaits = true) (hs : e.step? (.net (.head head)) = some e') (hr : e'.reading? = some (offset, total)) :
      Reads s head offset e'
  | on {e e' : Session} {action : SessionAction} (h : Reads s head offset e) (hs : e.step? action = some e')
      (hr : e'.reading?.isSome = true) : Reads s head offset e'

variable {s e e' : Session} {f f' : Fetch} {files files' : Files} {head : Head} {offset completed length : UInt64}
  {limit : Nat} {total : Option UInt64} {input : FetchInput} {effects : List FetchEffect}
  {action : SessionAction}

/-! ### The total of a body -/

theorem sending_of_awaits (h : s.awaits = true) : ∃ f again, s.call = some (.going f) ∧ f.phase = .sending again := by
  unfold awaits at h
  split at h
  · split at h
    · exact ⟨_, _, ‹_›, ‹_›⟩
    · cases h
  · cases h

theorem reading_of_reading? (h : s.reading? = some (completed, total)) :
    ∃ f, s.call = some (.going f) ∧ f.phase = .reading total ∧ f.part.received = completed := by
  unfold reading? at h
  split at h
  · split at h
    · cases h
      exact ⟨_, ‹_›, ‹_›, rfl⟩
    · cases h
  · cases h

/-- A response that is taken makes the total of its length and the bytes that it goes on behind. -/
theorem total_of_taken {again : Bool} (hs : Fetch.Step f files (.head head) f' files' effects)
    (hp : f.phase = .sending again) (hp' : f'.phase = .reading total) :
    total = head.length.map (· + f'.part.received) := by
  have hended : ∀ {g : Fetch} {failure : Failure}, ¬Fetch.Failed g files failure f' files' := by
    intro g failure hf
    cases hf <;> cases hp'
  cases hs with
  | ignore hn =>
    rw [hp] at hn
    cases hn
  | restart _ _ _ _ hd =>
    cases hd with
    | send => cases hp'
    | block _ hf => exact absurd hf hended
  | append | begin => exact (FetchPhase.reading.inj hp').symm
  | refuse _ _ hf | fail _ hf => exact absurd hf hended

/-- As long as a body is read its total stays. -/
theorem reading_of_step (hs : Fetch.Step f files input f' files' effects) (hp : f.phase = .reading total)
    (hgoing : f'.result? = none) : f'.phase = .reading total := by
  cases hs with
  | ignore | receive => exact hp
  | restart hp' | append hp' | begin hp' | refuse hp' => cases hp.symm.trans hp'
  | complete => cases hgoing
  | fail _ hf => cases hf <;> cases hgoing

theorem call_foldl_hear (s : Session) (effects : List FetchEffect) : (effects.foldl hear s).call = s.call := by
  induction effects generalizing s with
  | nil => rfl
  | cons effect rest ih =>
    rw [List.foldl_cons, ih]
    rcases s.hear_cases effect with he | ⟨noted, he⟩ <;> rw [he]

/-- What comes from the network comes to the fetch of the call. -/
theorem fetch_of_net (hc : e.call = some (.going f)) (hs : e.step? (.net input) = some e')
    (hc' : e'.call = some (.going f')) :
    ∃ files effects, Fetch.Step f e.files input f' files effects ∧ f'.result? = none := by
  cases step_of_step? hs with
  | @net _ g _ files effects hc₁ _ hf =>
    cases hc.symm.trans hc₁
    rw [call_foldl_hear] at hc'
    obtain ⟨rfl, hr⟩ := eq_of_ofFetch (Option.some.inj hc')
    have hstep := Fetch.step_spec f e.files input
    rw [hf] at hstep
    exact ⟨files, effects, hstep, hr⟩

/-- One step of a transfer that reads a body: if the call still goes on, its total is the same. -/
theorem reading_step (ha : e.Attends limit) (hc : e.call = some (.going f)) (hp : f.phase = .reading total)
    (hs : e.step? action = some e') (hc' : e'.call = some (.going f')) : f'.phase = .reading total := by
  obtain ⟨v, hv⟩ := ha.calling hc
  cases step_of_step? hs with
  | fail hp' | begin hp' | interrupt hp' | measure hp' | wake hp' => cases hv.symm.trans hp'
  | settle hc₁ => cases hc.symm.trans hc₁
  | net =>
    obtain ⟨files, effects, hfetch, hr⟩ := fetch_of_net hc hs hc'
    exact reading_of_step hfetch hp hr
  | @spoil _ g kind files hc₁ hf =>
    cases hc.symm.trans hc₁
    have hfail := Fetch.fail_spec f e.files (.io kind none)
    rw [hf] at hfail
    obtain ⟨rfl, hr⟩ := eq_of_ofFetch (Option.some.inj hc')
    cases hfail <;> cases hr
  | cancel | others =>
    cases hc.symm.trans hc'
    exact hp

/-- The total of a body is made when its response is taken. -/
theorem Reads.phase (h : s.Reads head offset e) (ha : s.Attends limit) : e.Attends limit ∧
    ∃ f, e.call = some (.going f) ∧ f.phase = .reading (head.length.map (· + offset)) := by
  induction h with
  | taken h hw hs hr =>
    obtain ⟨f, again, hc, hp⟩ := sending_of_awaits hw
    obtain ⟨f', hc', hp', rfl⟩ := reading_of_reading? hr
    obtain ⟨files, effects, hfetch, -⟩ := fetch_of_net hc hs hc'
    exact ⟨attends_step (attends_run ha h) hs, f', hc', total_of_taken hfetch hp hp' ▸ hp'⟩
  | on h hs hr ih =>
    obtain ⟨ha, f, hf, hp⟩ := ih
    obtain ⟨⟨received, total⟩, hr⟩ := Option.isSome_iff_exists.mp hr
    obtain ⟨f', hc', -, -⟩ := reading_of_reading? hr
    exact ⟨attends_step ha hs, f', hc', reading_step ha hf hp hs hc'⟩

/-! ### Claims -/

theorem hear_of_not_exceeds (hl : s.transfer.limit = limit)
    (hx : ¬Transfer.Exceeds limit completed.toNat (total.map UInt64.toNat)) : s.hear (.report completed total) = s := by
  obtain ⟨t, effects, hstep, he⟩ := s.feed_spec (.report completed.toNat (total.map UInt64.toNat))
  change s.feed _ = s
  rw [he]
  generalize completed.toNat = completed at hstep hx
  cases hstep with
  | ignore | early | publish | pass => rfl
  | trip _ hc hx' => exact absurd ⟨Nat.pos_of_ne_zero hc, (Transfer.excess?_eq_some_iff.mp (hl ▸ hx')).1⟩ hx

/-- The total that is reported is the sum of what is claimed and what was there before, counted in 64 bits. A sum above
    the ceiling that fits stops the attempt with the first bytes, and names itself in the failure; one that does not fit
    stops nothing as long as what remains of it, and what has come, are within the ceiling. -/
theorem total_of_claim {transport : HttpTransport} {id : TransferId} {request : Request} {policy : RetryPolicy}
    (h : (start transport id request limit policy files).Reads head offset e) (hc : e.call = some (.going f))
    (hs : e.step? (.net input) = some e') (hr : .report completed total ∈ (f.step e.files input).2.2)
    (hl : head.length = some length) :
    ∃ claimed, total = some claimed ∧ claimed.toNat = (offset.toNat + length.toNat) % UInt64.size ∧
      (offset.toNat + length.toNat < UInt64.size → limit < offset.toNat + length.toNat → 0 < completed →
        ∃ content, e'.files.get? f.part.path = some content ∧ content.length = completed.toNat ∧
          ∀ rest e'', e'.run? rest = some e'' →
            e''.IsStopped limit (offset.toNat + length.toNat) f.part.path content
              (rest.countP SessionAction.isOwn)) ∧
      (claimed.toNat ≤ limit → completed.toNat ≤ limit → e'.tripped = e.tripped ∧ e'.transfer = e.transfer) := by
  obtain ⟨ha, f₁, hc₁, hp₁⟩ := h.phase (attends_start transport id request limit policy files)
  cases hc.symm.trans hc₁
  have hclaim : total = some (length + offset) := by
    have hstep := Fetch.step_spec f e.files input
    obtain ⟨-, hp, -⟩ := receive_of_report hstep hr
    rw [hl] at hp₁
    exact FetchPhase.reading.inj (hp.symm.trans hp₁)
  refine ⟨length + offset, hclaim, by rw [UInt64.toNat_add, Nat.add_comm], fun hfits habove hpos => ?_,
    fun hlow hcompleted => ?_⟩
  · have hsum : (length + offset).toNat = offset.toNat + length.toNat := by
      rw [UInt64.toNat_add, Nat.add_comm]
      exact Nat.mod_eq_of_lt hfits
    have hx : Transfer.Exceeds limit completed.toNat (total.map UInt64.toNat) :=
      ⟨UInt64.lt_iff_toNat_lt.mp hpos, Or.inr ⟨_, by rw [hclaim]; rfl, hsum ▸ habove⟩⟩
    have hshown : Transfer.shownSize limit completed.toNat (total.map UInt64.toNat) = offset.toNat + length.toNat := by
      rw [hclaim, Option.map_some, hsum]
      exact if_pos habove
    exact hshown ▸ stopped_of_report ha hc hs hr hx
  · have hx : ¬Transfer.Exceeds limit completed.toNat (total.map UInt64.toNat) := by
      rintro ⟨-, hx | ⟨n, hn, hx⟩⟩
      · omega
      · rw [hclaim] at hn
        cases hn
        omega
    cases step_of_step? hs with
    | @net _ g _ files effects hc₂ ha₂ hf =>
      cases hc.symm.trans hc₂
      have hstep := Fetch.step_spec f e.files input
      rw [hf] at hr hstep
      obtain ⟨rfl, -⟩ := receive_of_report hstep hr
      rw [List.foldl_cons, List.foldl_nil,
        hear_of_not_exceeds (s := { e with files, call := some (.ofFetch g) }) ha.limit_eq hx]
      exact ⟨rfl, rfl⟩

theorem reads_of_seen? {bytes : Octets} {actions : List SessionAction} {stopped : Bool}
    (h : s.seen? actions head bytes = some (true, some (offset, total), stopped)) :
    ∃ e f e', s.Reads head offset e ∧ e.call = some (.going f) ∧ e.step? (.net (.chunk bytes)) = some e' ∧
      .report (offset + UInt64.ofNat bytes.length) total ∈ (f.step e.files (.chunk bytes)).2.2 ∧
      e'.isStopped = stopped := by
  obtain ⟨before, hb, h⟩ := Option.bind_eq_some_iff.mp h
  obtain ⟨e, hs, h⟩ := Option.bind_eq_some_iff.mp h
  obtain ⟨e', hs', h⟩ := Option.bind_eq_some_iff.mp h
  obtain ⟨hw, hseen⟩ := Prod.mk.inj (Option.some.inj h)
  obtain ⟨hr, hstopped⟩ := Prod.mk.inj hseen
  obtain ⟨f, hc, hp, hreceived⟩ := reading_of_reading? hr
  refine ⟨e, f, e', .taken hb hw hs hr, hc, hs', ?_, hstopped⟩
  simp only [Fetch.step, hp, hreceived, List.mem_singleton]

/-- Two of four bytes are there, and three are allowed. -/
theorem total_of_claim_resumed :
    let begun := start nearby ⟨1⟩ (.backup ⟨3, "archive", "latest"⟩ []) 3 ⟨2, .ofMillis 1, .ofMillis 1, 2, false⟩
      .empty
    let head : Head := ⟨206, [("etag", "a"), ("content-range", "bytes 2-3/4")], some 2⟩
    ∃ e f e', begun.Reads head 2 e ∧ e.call = some (.going f) ∧ e.step? (.net (.chunk [3])) = some e' ∧
      .report 3 (some 4) ∈ (f.step e.files (.chunk [3])).2.2 ∧ head.length = some 2 ∧
      ∃ content, e'.files.get? f.part.path = some content ∧ content.length = 3 ∧ ∀ rest e'', e'.run? rest = some e'' →
        e''.IsStopped 3 4 f.part.path content (rest.countP SessionAction.isOwn) := by
  intro begun head
  have hseen : begun.seen? [.go, .net (.head ⟨200, [("etag", "a")], none⟩), .net (.chunk [1, 2]),
      .net (.broken "reset"), .settle 0, .wake, .go] head [3] = some (true, some (2, some 4), true) := by
    decide +kernel
  obtain ⟨e, f, e', hreads, hc, hs, hreport, -⟩ := reads_of_seen? hseen
  obtain ⟨claimed, -, -, hstop, -⟩ := total_of_claim hreads hc hs hreport rfl
  exact ⟨e, f, e', hreads, hc, hs, hreport, rfl, hstop (by decide) (by decide) (by decide)⟩

/-- Five bytes are there, ten are allowed, and a body is claimed that would make them more than can be counted. -/
theorem claim_wraps :
    let begun := start nearby ⟨1⟩ (.backup ⟨3, "archive", "latest"⟩ []) 10 ⟨2, .ofMillis 1, .ofMillis 1, 2, false⟩
      .empty
    let head : Head := ⟨206, [("etag", "a"), ("content-range", "bytes 5-9/10")], some 18446744073709551613⟩
    ∃ e f e', begun.Reads head 5 e ∧ e.call = some (.going f) ∧ e.step? (.net (.chunk [5])) = some e' ∧
      .report 6 (some 2) ∈ (f.step e.files (.chunk [5])).2.2 ∧ e'.isStopped = false := by
  intro begun head
  have hseen : begun.seen? [.go, .net (.head ⟨200, [("etag", "a")], none⟩), .net (.chunk [0, 1, 2, 3, 4]),
      .net (.broken "reset"), .settle 0, .wake, .go] head [5] = some (true, some (5, some 2), false) := by
    decide +kernel
  exact reads_of_seen? hseen

end SealedDownload.Http.Session
