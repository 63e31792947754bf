import SealedDownload.Proofs.Http.Following

/-! What a call asks for agrees with what is on the disk, whatever the server has answered before. A range begins where
    the file ends and is bound to the object of the response accepted last for the file; a body goes behind what the
    file has only where the response says so; and a call asks again only for all of the object. -/

namespace SealedDownload.Http

/-- A request for what a file on the disk does not have, as long as the object is still the one that the response
    accepted last for the file was of. -/
structure AsksRest (past : List Moment) (files : Files) (path : Path) (sent : Sent) (k : UInt64) : Prop where
  range : ∃ head validator, lastAccepted? past path = some head ∧ head.validator? = some validator ∧
    sent.AsksFrom k validator
  file : ∃ got, files.get? path = some got ∧ got.length = k.toNat
  pos : 0 < k

/-- How what is asked for and taken at a moment agrees with the disk and with what was before. -/
structure Agrees (past : List Moment) (m : Moment) : Prop where
  /-- a request is for all of an object, or for the rest of the file that the call works on -/
  asks : ∀ sent ∈ m.requests, sent.AsksAll ∨
    ∃ f k, m.after.link = .busy f ∧ AsksRest past m.after.files f.part.path sent k
  /-- a response is accepted if it is a success and, where it brings a part, the one that was asked for -/
  accepts : ∀ f head, m.before.link = .busy f → f.isSending = true → m.happening = .input (.head head) →
    ∃ sent, (asked past).head? = some sent ∧ (m.accepted? = some (f.part.path, head) ↔ sent.Accepts head)
  /-- then the file stays if a part of it is asked for and comes, and is emptied otherwise -/
  keeps : ∀ path head, m.accepted? = some (path, head) → ∃ sent, (asked past).head? = some sent ∧
    ((∃ k validator got, head.status = Head.partialContent ∧ sent.AsksFrom k validator ∧ head.start? = some k ∧
        m.before.files.get? path = some got ∧ got.length = k.toNat ∧ m.after.files.get? path = some got) ∨
      (head.status = Head.partialContent → sent.AsksAll) ∧ m.after.files.get? path = some [])
  /-- and what comes of the body goes behind what there is -/
  reads : ∀ f bytes, m.before.link = .busy f → f.isReading = true → m.happening = .input (.chunk bytes) →
    ∃ got, m.before.files.get? f.part.path = some got ∧ m.after.files.get? f.part.path = some (got ++ bytes)
  twice : (asked (m :: past)).length ≤ 2
  /-- the second request of a call is for all of an object; the first one was for a rest, and another part has come -/
  again : ∀ sent ∈ m.requests, m.happening.isCall = false → sent.AsksAll ∧
    ∃ first k validator head, asked past = [first] ∧ first.AsksFrom k validator ∧ m.happening = .input (.head head) ∧
      head.status = Head.partialContent ∧ head.start? ≠ some k

variable {t : HttpTransport} {files files' : Files} {past : List Moment} {m : Moment} {c d : Chain} {f f' : Fetch}
  {effects : List FetchEffect} {input : FetchInput} {head : Head} {again : Bool} {sent : Sent}

/-- Where nothing is asked and nothing comes to the fetch, there is only the number of requests to agree. -/
theorem agrees_of_no_input (hw : (asked (m :: past)).length ≤ 2) (hr : m.requests = [])
    (hh : ∀ input, m.happening ≠ .input input) : Agrees past m where
  asks sent hm := by
    rw [hr] at hm
    cases hm
  accepts _ head _ _ he := absurd he (hh _)
  keeps path head he := by
    obtain ⟨_, _, he, -⟩ := exists_of_accepted? he
    exact absurd he (hh _)
  reads _ bytes _ _ he := absurd he (hh _)
  twice := hw
  again sent hm := by
    rw [hr] at hm
    cases hm

theorem eq_of_link_going (h : (c.going f files).link = .busy f') : f' = f := by
  cases hr : f.result? with
  | none => exact (Link.busy.inj ((c.link_going_of_none files hr).symm.trans h)).symm
  | some result => cases (c.link_going_of_some files hr).symm.trans h

theorem exists_of_isSending (h : f.isSending = true) : ∃ again, f.phase = .sending again := by
  cases hp : f.phase with
  | sending again => exact ⟨again, rfl⟩
  | reading | ended => simp [Fetch.isSending, hp] at h

theorem asks_of_call {request : TransportRequest} (hs : c.Follows past) (hr : AskNoRange request.headers)
    (h : c.happen? (.call request) = some (d, effects)) (hm : sent ∈ effects.filterMap FetchEffect.sent?) :
    sent.AsksAll ∨ ∃ f k, d.link = .busy f ∧ AsksRest past d.files f.part.path sent k := by
  obtain ⟨last, -, ⟨failure, hf, rfl, rfl⟩ | ⟨url, made, part, files, f, files', -, -, hp, hsend, rfl⟩⟩ :=
    Chain.cases_of_call (c := { c with request }) h
  · cases hm
  · rcases requests_of_sends hsend with he | ⟨he, rfl, rfl⟩
    · rw [he] at hm
      cases hm
    · rw [he, List.mem_singleton] at hm
      obtain rfl := hm
      have hk : part.received = 0 ∨ part.IsOn files' ∧ part.validator.isSome = true ∧ Known past part :=
        known_of_picked (c := c) hs hp
      rcases Nat.eq_zero_or_pos part.received.toNat with hz | hpos
      · exact Or.inl (Fetch.asksAll_of_received hr (UInt64.toNat_inj.mp hz))
      · have hpos : 0 < part.received := UInt64.lt_iff_toNat_lt.mpr hpos
        rcases hk with hz | ⟨hon, hv, ⟨head, hlast, hval⟩, -⟩
        · rw [hz] at hpos
          exact absurd hpos (by decide)
        · obtain ⟨validator, hv⟩ := Option.isSome_iff_exists.mp hv
          exact Or.inr ⟨_, part.received, Chain.link_going_of_none _ _ rfl,
            ⟨head, validator, hlast, hval.trans hv, Fetch.asksFrom_of_received hr hpos hv⟩, hon, hpos⟩

theorem agrees_call {request : TransportRequest} (hs : c.Follows past) (hr : AskNoRange request.headers)
    (h : c.happen? (.call request) = some (d, effects)) : Agrees past ⟨c, .call request, effects, d⟩ where
  asks _ hm := asks_of_call hs hr h hm
  accepts _ _ _ _ he := by cases he
  keeps _ _ he := by cases he
  reads _ _ _ _ he := by cases he
  twice := (follows_call hs hr h).few
  again _ _ he := by cases he

/-! ### What comes to a fetch -/

/-- The request that a response comes to, and whether it gives that what it can use. -/
theorem accepts_of_step (hq : AskNoRange f.headers) (hl : c.link = .busy f) (h : f.Follows past c.files)
    (hf : f.isSending = true) (hs : Fetch.Step f c.files (.head head) f' files' effects) :
    (Moment.ofInput c (.head head) effects f' files').accepted? = some (f.part.path, head) ↔
      f.request.Accepts head := by
  have hnone : f'.isReading = false → ¬f.request.Accepts head →
      ((Moment.ofInput c (.head head) effects f' files').accepted? = some (f.part.path, head) ↔
        f.request.Accepts head) := by
    intro hr ha
    rw [accepted?_of_no_reading hl (Or.inr hr)]
    exact iff_of_false (by simp) ha
  cases hs with
  | ignore hfit =>
    cases hp : f.phase <;> simp [Fetch.isSending, Fetch.fits, hp] at hf hfit
  | restart hp hst hr hc hd =>
    obtain ⟨validator, hask, -⟩ := asksFrom_of_follows hq h hp hr
    exact hnone (isReading_of_sends hd) fun ha => hc (ha.2 hst _ _ hask)
  | append hp hst hr hc =>
    obtain ⟨rfl, -⟩ := follows_sending h hp hr
    obtain ⟨validator, hask, -⟩ := asksFrom_of_follows hq h hp hr
    refine iff_of_true (accepted?_of_reading hl hf rfl) ⟨?_, fun _ k other hk => ?_⟩
    · unfold Head.isSuccess
      rw [hst]
      decide
    · rw [hk.eq hask]
      exact hc.resolve_left Bool.false_ne_true
  | begin hp hst hc =>
    refine iff_of_true (accepted?_of_reading hl hf rfl) ⟨hst, fun h206 k other hk => ?_⟩
    exact absurd hk ((Fetch.asksAll_of_received hq (hc.resolve_left fun hne => hne h206)).not_asksFrom k other)
  | refuse hp hst hd =>
    refine hnone (isReading_of_failed hd) fun ha => ?_
    cases hst.symm.trans ha.1
  | fail ht hd =>
    unfold Fetch.trouble? at ht
    split at ht <;> simp_all

/-- A file stays for the rest of it, and is emptied for all else. -/
theorem keeps_of_accepted (hq : AskNoRange f.headers) (h : f.Follows past c.files)
    (hs : Fetch.Step f c.files (.head head) f' files' effects) (hf : f.isSending = true) (hf' : f'.isReading = true) :
    (∃ k validator got, head.status = Head.partialContent ∧ f.request.AsksFrom k validator ∧ head.start? = some k ∧
        c.files.get? f'.part.path = some got ∧ got.length = k.toNat ∧ files'.get? f'.part.path = some got) ∨
      (head.status = Head.partialContent → f.request.AsksAll) ∧ files'.get? f'.part.path = some [] := by
  cases hs with
  | ignore hfit =>
    cases hp : f.phase <;> simp [Fetch.isSending, Fetch.fits, hp] at hf hfit
  | restart hp hst hr hc hd =>
    rw [isReading_of_sends hd] at hf'
    cases hf'
  | append hp hst hr hc =>
    obtain ⟨rfl, -, ⟨got, hg, hlen⟩, -⟩ := follows_sending h hp hr
    obtain ⟨validator, hask, -⟩ := asksFrom_of_follows hq h hp hr
    refine Or.inl ⟨_, validator, got, hst, hask, hc.resolve_left Bool.false_ne_true, hg, hlen, ?_⟩
    rw [← List.append_nil got]
    exact Files.get?_append [] hg
  | begin hp hst hc =>
    refine Or.inr ⟨fun h206 => ?_, Files.get?_write ..⟩
    exact Fetch.asksAll_of_received hq (hc.resolve_left fun hne => hne h206)
  | refuse hp hst hd =>
    rw [isReading_of_failed hd] at hf'
    cases hf'
  | fail ht hd =>
    rw [isReading_of_failed hd] at hf'
    cases hf'

theorem reads_of_step {bytes : Octets} (h : f.Follows past c.files) (hf : f.isReading = true)
    (hs : Fetch.Step f c.files (.chunk bytes) f' files' effects) :
    ∃ got, c.files.get? f.part.path = some got ∧ files'.get? f.part.path = some (got ++ bytes) := by
  cases hs with
  | ignore hfit =>
    cases hp : f.phase <;> simp [Fetch.isReading, Fetch.fits, hp] at hf hfit
  | receive hp =>
    obtain ⟨sent, taken, first, hm, -⟩ := made_of_reading h hp
    exact ⟨_, hm.file_eq, Files.get?_append bytes hm.file_eq⟩
  | fail ht =>
    unfold Fetch.trouble? at ht
    split at ht <;> simp_all

/-- What comes to a fetch makes it ask again only where another part has come than it had asked for. -/
theorem again_of_step (hq : AskNoRange f.headers) (h : f.Follows past c.files)
    (hs : Fetch.Step f c.files input f' files' effects) (hm : sent ∈ effects.filterMap FetchEffect.sent?) :
    sent.AsksAll ∧ ∃ first k validator head, asked past = [first] ∧ first.AsksFrom k validator ∧
      input = .head head ∧ head.status = Head.partialContent ∧ head.start? ≠ some k := by
  cases hs with
  | ignore | append | begin | refuse | receive | complete | fail => cases hm
  | @restart head _ _ _ hp hst hr hc hd =>
    obtain ⟨-, ho, -⟩ := follows_sending h hp hr
    obtain ⟨validator, hask, -⟩ := asksFrom_of_follows hq h hp hr
    rcases requests_of_sends hd with he | ⟨he, -⟩
    · rw [he] at hm
      cases hm
    · rw [he, List.mem_singleton] at hm
      obtain rfl := hm
      exact ⟨Fetch.asksAll_of_received (f := f.anew) hq rfl, f.request, _, validator, head, ho, hask, rfl, hst, hc⟩

theorem effects_of_spoil {kind : IoKind} (h : c.happen? (.spoil kind) = some (d, effects)) : effects = [] := by
  unfold Chain.happen? at h
  cases hl : c.link with
  | idle last =>
    simp only [hl] at h
    cases h
  | busy f =>
    simp only [hl] at h
    cases h
    rfl

theorem agrees_input (hs : c.Follows past) (h : c.happen? (.input input) = some (d, effects)) :
    Agrees past ⟨c, .input input, effects, d⟩ := by
  have hw := (follows_input hs h).few
  obtain ⟨f, f', files', hl, hstep, rfl⟩ := Chain.cases_of_input h
  obtain ⟨-, hq, hf⟩ := hs.kept f hl
  constructor
  case asks => exact fun sent hm => Or.inl (again_of_step hq hf hstep hm).1
  case accepts =>
    intro g head hg hsend he
    cases hl.symm.trans hg
    cases he
    obtain ⟨again, hp⟩ := exists_of_isSending hsend
    exact ⟨f.request, head?_asked hf hp, accepts_of_step hq hl hf hsend hstep⟩
  case keeps =>
    intro path head he
    obtain ⟨g, g', hh, hg, hg', hsend, hread, rfl⟩ := exists_of_accepted? he
    cases hl.symm.trans hg
    cases hh
    obtain rfl := eq_of_link_going hg'
    obtain ⟨again, hp⟩ := exists_of_isSending hsend
    exact ⟨f.request, head?_asked hf hp, keeps_of_accepted hq hf hstep hsend hread⟩
  case reads =>
    intro g bytes hg hread he
    cases hl.symm.trans hg
    cases he
    exact reads_of_step hf hread hstep
  case twice => exact hw
  case again =>
    intro sent hm _
    obtain ⟨ha, first, k, validator, head, ho, hask, rfl, hst, hc⟩ := again_of_step hq hf hstep hm
    exact ⟨ha, first, k, validator, head, ho, hask, rfl, hst, hc⟩

/-! ### A chain that is interrupted once -/

/-- A call that awaits the response to its first request. -/
def awaiting (t : HttpTransport) (files : Files) (url : Url) (path : Path) (received : UInt64)
    (validator : Option String) : Chain :=
  ⟨t, ⟨1, "a", []⟩, files, .busy ⟨url, [], .zero, ⟨url.render, path, received, validator⟩, .sending false⟩⟩

/-- The first call asks for all of the object; its connection breaks behind the first byte, and the next call asks for
    the rest. -/
theorem exists_awaiting : ∃ t url path first files m past,
    History t .empty [first] (awaiting t ⟨[], ["t"], 1⟩ url path 0 none) ∧
    History t .empty (m :: past) (awaiting t files url path 1 (some "a")) ∧
    (∃ sent, m.requests = [sent] ∧ asked (m :: past) = [sent] ∧ sent.AsksFrom 1 "a") ∧ files.get? path = some [1] := by
  obtain ⟨bases, url, hu, hf⟩ : ∃ bases url, HttpTransport.locate ⟨bases, "t", .zero⟩ ⟨1, "a", []⟩ = .ok url ∧
      Fetch.isFetchable url = true :=
    ⟨[(1, ⟨"http", "", "", some (.name "o"), none, .segments [""], none, none⟩)],
      ⟨"http", "", "", some (.name "o"), none, .segments ["a"], none, none⟩, rfl, by decide +kernel⟩
  obtain ⟨path, hpath, hm⟩ : ∃ path, Files.nextPath ⟨[], ["t"], 0⟩ "t" "download" = path ∧
      (((Files.mk [] ["t"] 1).write path []).append path [1]).makeFolder "t" =
        .ok (((Files.mk [] ["t"] 1).write path []).append path [1]) := ⟨_, rfl, rfl⟩
  let t : HttpTransport := ⟨bases, "t", .zero⟩
  let broken : Files := ((Files.mk [] ["t"] 1).write path []).append path [1]
  let token : ResumeToken := Partial.encode ⟨url.render, path, 1, some "a"⟩
  let lost : Chain := ⟨t, ⟨1, "a", []⟩, broken, .idle (some (.error (.network "reset" (some token))))⟩
  have hq : AskNoRange [] := fun header h => by cases h
  have h1 : (Chain.start t ⟨1, "a", []⟩ .empty).happen? (.call ⟨1, "a", []⟩) =
      some (awaiting t ⟨[], ["t"], 1⟩ url path 0 none,
        [.send (Fetch.request ⟨url, [], .zero, ⟨url.render, path, 0, none⟩, .sending false⟩)]) := by
    have hmade : Files.empty.makeFolder "t" = .ok ⟨[], ["t"], 0⟩ := rfl
    have hst := Fetch.start_of_none hu hmade (Bool.and_eq_true_iff.mpr ⟨hf, rfl⟩)
    unfold Fetch.newPart at hst
    rw [hpath] at hst
    exact Chain.call_of_start (c := Chain.start t ⟨1, "a", []⟩ .empty) rfl hst
  have s1 := History.start.call ⟨1, "a", []⟩ hq h1
  have s2 := (s1.input (.head ⟨200, [("etag", "a")], none⟩) rfl).input (.chunk [1]) rfl
  have s3 : History t .empty _ lost := s2.input (.broken "reset") rfl
  have h2 : lost.happen? (.call ⟨1, "a", []⟩) = some (awaiting t broken url path 1 (some "a"),
      [.send (Fetch.request ⟨url, [], .zero, ⟨url.render, path, 1, some "a"⟩, .sending false⟩)]) := by
    have hb : broken.get? path = some [1] := Files.get?_append [1] (Files.get?_write ..)
    have hh : [("range", rangeFrom 1), ("if-range", "a")].all isHeader = true := by decide +kernel
    exact Chain.call_of_start (c := lost) rfl
      (Fetch.start_of_encode hu hm rfl rfl hb rfl (Bool.and_eq_true_iff.mpr ⟨hf, hh⟩))
  have hask : Sent.AsksFrom (Fetch.request ⟨url, [], .zero, ⟨url.render, path, 1, some "a"⟩, .sending false⟩) 1 "a" :=
    Fetch.asksFrom_of_received hq (UInt64.lt_iff_toNat_lt.mpr Nat.one_pos) rfl
  exact ⟨t, url, path, _, _, _, _, s1, s3.call ⟨1, "a", []⟩ hq h2, ⟨_, rfl, rfl, hask⟩,
    Files.get?_append [1] (Files.get?_write ..)⟩

/-! ### Every moment of a chain -/

/-- Every request agrees with the disk, every body is taken where it belongs, and no call asks more than twice. -/
theorem ranges_match_file (h : History t files (m :: past) c) : Agrees past m := by
  cases h with
  | @next _ c _ happening _ h hr hs =>
    have hf := follows_of_history h
    cases happening with
    | call request => exact agrees_call hf hr hs
    | input input => exact agrees_input hf hs
    | spoil kind =>
      have hw := (follows_spoil hf hs).few
      obtain rfl := effects_of_spoil hs
      exact agrees_of_no_input hw rfl fun _ he => by cases he

/-- The request for the rest of an interrupted object is one of those that agree. -/
theorem ranges_match_file_resumed : ∃ t past m c, History t .empty (m :: past) c ∧
    (∃ sent, m.requests = [sent] ∧ sent.AsksFrom 1 "a") ∧ Agrees past m := by
  obtain ⟨t, url, path, first, files, m, past, -, h, ⟨sent, hm, -, hs⟩, -⟩ := exists_awaiting
  exact ⟨t, past, m, _, h, ⟨sent, hm, hs⟩, ranges_match_file h⟩

end SealedDownload.Http
