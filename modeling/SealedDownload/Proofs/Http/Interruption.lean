import SealedDownload.Proofs.Http.History
import SealedDownload.Proofs.Http.Message
import SealedDownload.Proofs.Http.Sessions
import SealedDownload.Proofs.Json.Text

/-! A call that is interrupted in the middle of a body, and the next one, which is given its token. Against an origin
    that serves ranges by the book the next call returns the whole object, if there is something left of it to ask for.
    When all of it has come but not its end, what is asked for lies behind the end of the object, which is refused. -/

namespace SealedDownload.Http

/-- The origin of an object that does not change. -/
def Origin.only (v : Version) : Origin := ⟨fun w => w = v, fun hv hw _ => hv.trans hw.symm⟩

/-- What an origin that serves ranges answers for a version: the rest to a request for the bytes from one on, which
    there must be, and all of it to any other request. -/
inductive Version.Serves (v : Version) (sent : Sent) : Head → Octets → Prop where
  | whole {head : Head} (hn : ∀ k, ¬sent.AsksFrom k v.tag) (hs : head.status = 200)
      (ht : head.header? "etag" = some v.tag) : Serves v sent head v.content
  | rest {head : Head} {k : UInt64} (hr : sent.AsksFrom k v.tag) (hk : k.toNat < v.content.length)
      (hs : head.status = Head.partialContent) (hc : head.start? = some k) (ht : head.header? "etag" = some v.tag) :
      Serves v sent head (v.content.drop k.toNat)
  | unsatisfiable {head : Head} {body : Octets} {k : UInt64} (hr : sent.AsksFrom k v.tag)
      (hk : v.content.length ≤ k.toNat) (hs : head.status = 416) : Serves v sent head body

/-- A chain of calls after all that has come to the call that goes on. -/
def Chain.inputs? (c : Chain) : List FetchInput → Option Chain
  | [] => some c
  | input :: rest => (c.step? (.input input)).bind fun next => next.1.inputs? rest

/-- What is kept of a call and for the next one, so that the next one can go on. -/
structure Fetch.Fit (t : HttpTransport) (request : TransportRequest) (f : Fetch) : Prop where
  located : t.locate request = .ok f.url
  headers_eq : f.headers = request.headers
  url_eq : f.part.url = f.url.render
  drawn : IsDrawn t.folder f.part.path
  /-- what a response has been taken for can be sent back -/
  usable : ∀ total tag, f.phase = .reading total → f.part.validator = some tag → isHeaderValue tag = true
  left : ∀ failure token part, f.phase = .ended (.error failure) → failure.resume? = some token →
    Partial.decode? token = some part → IsDrawn t.folder part.path

/-- What holds of a chain for one request. -/
structure Chain.Fit (t : HttpTransport) (request : TransportRequest) (c : Chain) : Prop where
  transport_eq : c.transport = t
  request_eq : c.request = request
  busy : ∀ f, c.link = .busy f → f.Fit t request ∧ c.files.blocks t.folder = false ∧
    Fetch.isFetchable f.url = true ∧ request.headers.all isHeader = true
  left : ∀ token part, c.token? = some token → Partial.decode? token = some part → IsDrawn t.folder part.path

variable {t : HttpTransport} {request : TransportRequest} {files files' made : Files} {c d e : Chain} {f f' : Fetch}
  {w : Wire} {v : Version} {path folder : Path} {head : Head} {body got bytes : Octets} {k : UInt64} {tag url : String}
  {effects : List FetchEffect} {input : FetchInput} {failure : Failure} {again : Bool} {part : Partial}
  {token : ResumeToken} {total : Option UInt64} {sent : Sent}

/-! ### Headers that can be sent -/

theorem isHeaderValue_of_visible {value : String} (h : ∀ c ∈ value.toList, Head.isVisible c = true) :
    isHeaderValue value = true := by
  refine List.all_eq_true.mpr fun b hb => ?_
  rw [Json.ofText_eq] at hb
  obtain ⟨c, hc, hb⟩ := List.mem_flatMap.mp hb
  have hv := h c hc
  simp only [Head.isVisible, Bool.or_eq_true, Bool.and_eq_true, decide_eq_true_eq] at hv
  rcases hv with rfl | hv
  · rw [Json.utf8EncodeChar_of_lt (by decide), List.mem_singleton] at hb
    rw [hb]
    rfl
  · rw [Json.utf8EncodeChar_of_lt (by omega), List.mem_singleton] at hb
    have hn : b.toNat = c.toNat := by
      rw [hb, UInt8.toNat_ofNat', Nat.mod_eq_of_lt (by omega)]
    simp only [isValueByte, Bool.or_eq_true, Bool.and_eq_true, decide_eq_true_eq]
    refine Or.inr ⟨UInt8.le_iff_toNat_le.mpr (by rw [hn]; exact hv.1), fun he => ?_⟩
    rw [he] at hn
    exact absurd hn (Nat.ne_of_gt hv.2)

/-- What can be read of a response can be sent. -/
theorem isHeaderValue_of_validator? (h : head.validator? = some tag) : isHeaderValue tag = true := by
  obtain ⟨value, -, hu⟩ := Option.bind_eq_some_iff.mp h
  unfold Head.usable? at hu
  split at hu
  · cases hu
    exact isHeaderValue_of_visible (List.all_eq_true.mp ‹_›)
  · cases hu

theorem isHeaderValue_rangeFrom (k : UInt64) : isHeaderValue (rangeFrom k) = true := by
  refine isHeaderValue_of_visible fun c hc => ?_
  rw [toList_rangeFrom] at hc
  simp only [List.mem_append] at hc
  rcases hc with hc | hc | hc
  · exact List.all_eq_true.mp (by decide : "bytes=".toList.all Head.isVisible = true) c hc
  · exact Head.isVisible_of_isDigit (Head.isDigit_toDigits hc)
  · exact List.all_eq_true.mp (by decide : "-".toList.all Head.isVisible = true) c hc

/-- A request for the rest can be sent if the request for the whole can. -/
theorem isSendable_of_fit (hf : Fetch.isFetchable f.url = true) (hh : f.headers.all isHeader = true)
    (hv : ∀ tag, f.part.validator = some tag → isHeaderValue tag = true) : f.isSendable = true := by
  refine Bool.and_eq_true_iff.mpr ⟨hf, ?_⟩
  unfold Fetch.request Fetch.rangeHeaders
  rw [List.all_append, hh, Bool.true_and]
  split
  · split
    · have hn : isHeaderName "range" = true ∧ isHeaderName "if-range" = true := by decide +kernel
      have hr : isHeaderValue s!"bytes={f.part.received}-" = true := isHeaderValue_rangeFrom f.part.received
      simp [isHeader, hn, hr, hv _ ‹_›]
    · rfl
  · rfl

/-! ### What is kept for the next call -/

theorem fit_of_failed (hf : f.Fit t request) (h : Fetch.Failed f files failure f' files')
    (hr : failure.resume? = none) : f'.Fit t request := by
  obtain ⟨failure', hp, hleft⟩ := h.token hr
  obtain ⟨hpart, hurl, hheaders⟩ : f'.part = f.part ∧ f'.url = f.url ∧ f'.headers = f.headers := by
    cases h <;> exact ⟨rfl, rfl, rfl⟩
  refine ⟨hurl ▸ hf.located, hheaders.trans hf.headers_eq, by rw [hpart, hurl, hf.url_eq], hpart ▸ hf.drawn,
    fun total tag hreading => ?_, fun failure token part he ht hd => ?_⟩
  · cases hp.symm.trans hreading
  · cases hp.symm.trans he
    obtain ⟨rfl, -⟩ := hleft token part ht hd
    exact hf.drawn

theorem fit_of_sends (hf : f.Fit t request) (h : Fetch.Sends f files again f' files' effects) : f'.Fit t request := by
  cases h with
  | send =>
    exact ⟨hf.located, hf.headers_eq, hf.url_eq, hf.drawn, fun _ _ hr => (by cases hr), fun _ _ _ he => (by cases he)⟩
  | block _ hfail => exact fit_of_failed hf hfail rfl

theorem fit_of_step (hf : f.Fit t request) (h : Fetch.Step f files input f' files' effects) : f'.Fit t request := by
  have htaking : ∀ (head : Head) (received : UInt64), (f.taking head received).Fit t request := fun head received =>
    ⟨hf.located, hf.headers_eq, hf.url_eq, hf.drawn, fun _ _ _ hv => isHeaderValue_of_validator? hv,
      fun _ _ _ he => (by cases he)⟩
  cases h with
  | ignore => exact hf
  | @restart _ _ _ _ hp _ _ _ hd =>
    have hanew : f.anew.Fit t request :=
      ⟨hf.located, hf.headers_eq, hf.url_eq, hf.drawn, fun _ _ hr => (by cases hp.symm.trans hr),
        fun _ _ _ he => (by cases hp.symm.trans he)⟩
    exact fit_of_sends hanew hd
  | append | begin => exact htaking _ _
  | refuse _ _ hfail => exact fit_of_failed hf hfail rfl
  | receive => exact ⟨hf.located, hf.headers_eq, hf.url_eq, hf.drawn, hf.usable, hf.left⟩
  | complete =>
    exact ⟨hf.located, hf.headers_eq, hf.url_eq, hf.drawn, fun _ _ hr => (by cases hr), fun _ _ _ he => (by cases he)⟩
  | fail ht hfail => exact fit_of_failed hf hfail (Fetch.resume?_of_trouble? ht)

theorem fit_going (ht : c.transport = t) (hr : c.request = request) (hf : f.Fit t request)
    (hc : files.blocks t.folder = false)
    (hs : f.result? = none → Fetch.isFetchable f.url = true ∧ request.headers.all isHeader = true) :
    (c.going f files).Fit t request := by
  cases hp : f.result? with
  | none =>
    have hl := c.link_going_of_none files hp
    refine ⟨ht, hr, fun f' h => ?_, fun token part h => ?_⟩
    · cases hl.symm.trans h
      exact ⟨hf, hc, hs hp⟩
    · unfold Chain.token? at h
      rw [hl] at h
      cases h
  | some result =>
    have hl := c.link_going_of_some files hp
    refine ⟨ht, hr, fun f' h => ?_, fun token part h hd => ?_⟩
    · cases hl.symm.trans h
    · unfold Chain.token? at h
      rw [hl] at h
      cases result with
      | ok path => cases h
      | error failure => exact hf.left failure token part (Fetch.phase_of_result? hp) h hd

theorem clear_of_frame (hc : files.blocks folder = false) (hd : IsDrawn folder path)
    (hs : ∀ other, other ≠ path → files'.get? other = files.get? other) : files'.blocks folder = false := by
  have hdrawn : ∀ other ∈ [path], IsDrawn folder other := fun _ hm => List.mem_singleton.mp hm ▸ hd
  exact clear_of_spared hc hdrawn fun other hm => hs other fun he => hm (List.mem_singleton.mpr he)

/-- A call begins with a file in the folder, and leaves the folder free. -/
theorem drawn_of_picked (hl : ∀ token part, c.token? = some token → Partial.decode? token = some part →
      IsDrawn folder part.path) (hc : made.blocks folder = false)
    (hp : Fetch.Picked folder url made c.token? part files) :
    IsDrawn folder part.path ∧ part.url = url ∧ files.blocks folder = false := by
  cases hp with
  | resumed hd hu =>
    obtain ⟨token, ht, hd⟩ := Option.bind_eq_some_iff.mp hd
    exact ⟨hl token part ht hd, hu, hc⟩
  | @spoilt held hd =>
    obtain ⟨token, ht, hd⟩ := Option.bind_eq_some_iff.mp hd
    exact ⟨⟨_, rfl⟩, rfl, clear_of_frame hc (hl token held ht hd) fun _ hne => Files.get?_erase_of_ne made hne⟩
  | fresh => exact ⟨⟨_, rfl⟩, rfl, hc⟩

theorem fit_call (h : c.Fit t request) (hs : c.step? .call = some (d, effects)) : d.Fit t request := by
  obtain ⟨last, -, ⟨failure, hf, rfl, rfl⟩ | ⟨url, made, part, files, f, files', hu, hm, hp, hsend, rfl⟩⟩ :=
    Chain.cases_of_call hs
  · refine ⟨h.transport_eq, h.request_eq, fun _ hl => (by cases hl), fun token part ht => ?_⟩
    cases (Fetch.resume?_of_start hf).symm.trans ht
  · rw [h.transport_eq] at hu hm hp hsend
    rw [h.request_eq] at hu hsend
    obtain ⟨hdrawn, hurl, hclear⟩ := drawn_of_picked h.left (clear_of_makeFolder hm).2 hp
    have hopening : (Fetch.opening t request url part).Fit t request :=
      ⟨hu, rfl, hurl, hdrawn, fun _ _ hr => (by cases hr), fun _ _ _ he => (by cases he)⟩
    refine fit_going h.transport_eq h.request_eq (fit_of_sends hopening hsend)
      (clear_of_frame hclear hdrawn fun _ hne => frame_of_sends hsend hne) fun hn => ?_
    cases hsend with
    | send hd =>
      obtain ⟨hfetch, hheaders⟩ := Bool.and_eq_true_iff.mp hd
      exact ⟨hfetch, (Bool.and_eq_true_iff.mp (List.all_append ▸ hheaders)).1⟩
    | block _ hf => cases hf <;> cases hn

theorem fit_input (h : c.Fit t request) (hs : c.step? (.input input) = some (d, effects)) : d.Fit t request := by
  obtain ⟨f, f', files', hl, hstep, rfl⟩ := Chain.cases_of_input hs
  obtain ⟨hf, hclear, hfetch, hheaders⟩ := h.busy f hl
  have hf' := fit_of_step hf hstep
  have hurl : f'.url = f.url := Except.ok.inj (hf'.located.symm.trans hf.located)
  exact fit_going h.transport_eq h.request_eq hf'
    (clear_of_frame hclear hf.drawn fun _ hne => frame_of_step hstep hne) fun _ => ⟨hurl ▸ hfetch, hheaders⟩

theorem fit_served {o : Origin} (h : Served o t request files c w) : c.Fit t request := by
  induction h with
  | start => exact ⟨rfl, rfl, fun _ hl => (by cases hl), fun _ _ ht => (by cases ht)⟩
  | call _ hs ih => exact fit_call ih hs
  | input _ _ hs ih => exact fit_input ih hs

/-! ### The interruption, and the next call -/

/-- An interrupted call leaves nothing, or a token for what it has. -/
theorem left_by_interruption (hl : c.link = .busy f) (hp : f.phase = .reading total)
    (hi : input = .silent ∨ ∃ message, input = .broken message) (hs : c.step? (.input input) = some (d, effects))
    (ht : d.token? = some token) :
    (∃ last, d = { c with link := .idle last }) ∧ token = f.part.encode ∧ Fetch.isResumable f.part = true := by
  obtain ⟨g, f', files', hl', hstep, rfl⟩ := Chain.cases_of_input hs
  cases hl.symm.trans hl'
  have hfailed : ∃ failure, failure.resume? = none ∧ Fetch.Failed f c.files failure f' files' := by
    have hfits : Fetch.fits f.phase input = true := by
      rcases hi with rfl | ⟨message, rfl⟩ <;> rw [hp] <;> rfl
    rcases hi with rfl | ⟨message, rfl⟩ <;> cases hstep with
    | ignore hf => cases hfits.symm.trans hf
    | fail htrouble hfail => exact ⟨_, Fetch.resume?_of_trouble? htrouble, hfail⟩
  obtain ⟨failure, hn, hfail⟩ := hfailed
  cases hfail with
  | keep hinterruption hr =>
    have htoken : (failure.withResume (some f.part.encode)).resume? = some token := ht
    rw [Fetch.resume?_withResume hinterruption] at htoken
    exact ⟨⟨_, rfl⟩, (Option.some.inj htoken).symm, hr⟩
  | drop =>
    have htoken : failure.resume? = some token := ht
    cases hn.symm.trans htoken

/-- The next call takes the file up and asks for the rest. -/
theorem call_of_encode {last : Option (Except Failure Path)} (h : c.Fit t request) (hl : c.link = .busy f)
    (hp : f.phase = .reading total) (hg : c.files.get? f.part.path = some got)
    (hk : got.length = f.part.received.toNat) (hr : Fetch.isResumable f.part = true)
    (hd : d = { c with link := .idle last }) (ht : d.token? = some f.part.encode) :
    ∃ e, d.step? .call = some (e, [.send (Fetch.opening t request f.url f.part).request]) ∧
      e.link = .busy (Fetch.opening t request f.url f.part) ∧ e.files.get? f.part.path = some got := by
  obtain ⟨hf, hclear, hfetch, hheaders⟩ := h.busy f hl
  obtain ⟨made, hm⟩ := makeFolder_of_clear hclear
  have hmade := (Files.get?_of_makeFolder hm f.part.path).trans hg
  have hsend : (Fetch.opening t request f.url f.part).isSendable = true :=
    isSendable_of_fit hfetch hheaders fun tag hv => hf.usable total tag hp hv
  have hstart := Fetch.start_of_encode hf.located hm hf.url_eq (Bool.and_eq_true_iff.mp hr).2 hmade hk hsend
  rw [← ht, ← h.transport_eq, ← h.request_eq] at hstart
  subst hd
  rw [← h.transport_eq, ← h.request_eq]
  exact ⟨_, Chain.call_of_start (c := { c with link := .idle last }) rfl hstart, rfl, hmade⟩

/-! ### The response -/

theorem Fetch.step_of_rest (hp : f.phase = .sending again) (hr : 0 < f.part.received)
    (hs : head.status = Head.partialContent) (hc : head.start? = some f.part.received) (files : Files) :
    f.step files (.head head) = (f.taking head f.part.received, files.append f.part.path [], []) := by
  simp [step, respond, accept, taking, hp, hr, hs, hc]

theorem Fetch.step_of_whole (hp : f.phase = .sending again) (hs : head.isSuccess = true)
    (hn : head.status ≠ Head.partialContent) (files : Files) :
    f.step files (.head head) = (f.taking head 0, files.write f.part.path [], []) := by
  simp [step, respond, accept, taking, hp, hs, hn]

theorem Fetch.step_of_refusal (hp : f.phase = .sending again) (hs : head.isSuccess = false)
    (hn : head.status ≠ Head.partialContent) (files : Files) : f.step files (.head head) =
      ({ f with phase := .ended (.error (.httpStatus head.status f.url.render)) }, files.erase f.part.path, []) := by
  simp [step, respond, accept, fail, hp, hs, hn]

theorem inputs?_of_busy (hl : c.link = .busy f) (h : f.step c.files input = (f', files', effects))
    (rest : List FetchInput) : c.inputs? (input :: rest) = (c.going f' files').inputs? rest := by
  simp only [Chain.inputs?, Chain.step?, Chain.input?, hl, h, Option.bind_some]

/-- A body is read to its end, however it is divided. -/
theorem read_to_end (hl : c.link = .busy f) (hp : f.phase = .reading total)
    (hg : c.files.get? f.part.path = some got) (chunks : List Octets) :
    ∃ d, c.inputs? (chunks.map .chunk ++ [.finish]) = some d ∧ d.link = .idle (some (.ok f.part.path)) ∧
      d.files.get? f.part.path = some (got ++ chunks.flatten) := by
  induction chunks generalizing c f got with
  | nil =>
    have hs : f.step c.files .finish = ({ f with phase := .ended (.ok f.part.path) }, c.files, []) := by
      simp only [Fetch.step, hp]
    refine ⟨_, inputs?_of_busy hl hs [], rfl, ?_⟩
    rw [List.flatten_nil, List.append_nil]
    exact hg
  | cons bytes rest ih =>
    have hs : f.step c.files (.chunk bytes) =
        ({ f with part := { f.part with received := f.part.received + UInt64.ofNat bytes.length } },
          c.files.append f.part.path bytes, [.report (f.part.received + UInt64.ofNat bytes.length) total]) := by
      simp only [Fetch.step, hp]
    have hbusy : (c.going { f with part := { f.part with received := f.part.received + UInt64.ofNat bytes.length } }
        (c.files.append f.part.path bytes)).link = .busy _ :=
      c.link_going_of_none _ (by simp only [Fetch.result?, hp])
    obtain ⟨d, hd, hend, hcontent⟩ := ih hbusy hp (Files.get?_append bytes hg)
    refine ⟨d, (inputs?_of_busy hl hs _).trans hd, hend, ?_⟩
    rw [hcontent, List.flatten_cons, List.append_assoc]

/-- The rest of an object goes behind what is there. -/
theorem appended_to_end (hl : c.link = .busy f) (hp : f.phase = .sending again) (hr : 0 < f.part.received)
    (hg : c.files.get? f.part.path = some got) (hs : head.status = Head.partialContent)
    (hc : head.start? = some f.part.received) (chunks : List Octets) :
    ∃ d, c.inputs? (.head head :: (chunks.map .chunk ++ [.finish])) = some d ∧
      d.link = .idle (some (.ok f.part.path)) ∧ d.files.get? f.part.path = some (got ++ chunks.flatten) := by
  have hg' : (c.files.append f.part.path []).get? f.part.path = some got := by
    rw [Files.get?_append [] hg, List.append_nil]
  rw [inputs?_of_busy hl (Fetch.step_of_rest hp hr hs hc c.files)]
  exact read_to_end (f := f.taking head f.part.received) rfl rfl hg' chunks

/-- All of an object is written anew. -/
theorem written_to_end (hl : c.link = .busy f) (hp : f.phase = .sending again) (hs : head.status = 200)
    (chunks : List Octets) : ∃ d, c.inputs? (.head head :: (chunks.map .chunk ++ [.finish])) = some d ∧
      d.link = .idle (some (.ok f.part.path)) ∧ d.files.get? f.part.path = some chunks.flatten := by
  have hsuccess : head.isSuccess = true ∧ head.status ≠ Head.partialContent := by
    rw [Head.isSuccess, hs]
    decide
  have hg : (c.files.write f.part.path []).get? f.part.path = some [] := Files.get?_write ..
  rw [inputs?_of_busy hl (Fetch.step_of_whole hp hsuccess.1 hsuccess.2 c.files)]
  exact read_to_end (c := c.going (f.taking head 0) _) (f := f.taking head 0) rfl rfl hg chunks

/-- A refusal ends the call and takes the file with it. -/
theorem refused_for_good (hl : c.link = .busy f) (hp : f.phase = .sending again) (hs : head.status = 416) :
    ∃ d, c.inputs? [.head head] = some d ∧ d.link = .idle (some (.error (.httpStatus 416 f.url.render))) ∧
      d.token? = none ∧ d.files.get? f.part.path = none := by
  have hrefused : head.isSuccess = false ∧ head.status ≠ Head.partialContent := by
    rw [Head.isSuccess, hs]
    decide
  rw [inputs?_of_busy hl (Fetch.step_of_refusal hp hrefused.1 hrefused.2 c.files), hs]
  exact ⟨_, rfl, rfl, rfl, Files.get?_erase ..⟩

/-! ### What the origin makes of it -/

/-- Where a request asks for the rest its own headers ask for nothing. -/
theorem askNoRange_of_asksFrom (hr : 0 < f.part.received) (hv : f.part.validator = some tag)
    (h : f.request.AsksFrom k url) : AskNoRange f.headers := by
  have hn : Fetch.rangeHeaders f.part = [("range", rangeFrom f.part.received), ("if-range", tag)] := by
    unfold Fetch.rangeHeaders
    rw [hv]
    exact if_pos hr
  have hnone : ∀ {name value : String}, f.request.values name = [value] →
      (Fetch.rangeHeaders f.part).filter (isNamed name) ≠ [] → ∀ header ∈ f.headers, isNamed name header = false := by
    intro name value hvalues hne header hm
    have hlen := congrArg List.length hvalues
    simp only [Sent.values, Fetch.request, List.filter_append, List.map_append, List.length_append, List.length_map,
      List.length_singleton] at hlen
    have hpos := List.length_pos_iff.mpr hne
    have hnil : f.headers.filter (isNamed name) = [] := List.length_eq_zero_iff.mp (by omega)
    exact Bool.eq_false_iff.mpr (List.filter_eq_nil_iff.mp hnil header hm)
  intro header hm
  exact ⟨hnone h.1 (by simp [hn, isNamed]) header hm, hnone h.2 (by simp [hn, isNamed]) header hm⟩

/-- What an interrupted call has of an object that does not change is its beginning. -/
theorem prefix_of_served (hq : AskNoRange request.headers) (h : Served (.only v) t request files c w)
    (hl : c.link = .busy f) (hp : f.phase = .reading total) (hg : c.files.get? f.part.path = some got) :
    got <+: v.content ∧ ∀ tag, f.part.validator = some tag → tag = v.tag := by
  obtain ⟨-, -, hkeeps⟩ := (sound_served hq h).kept f hl
  unfold Origin.Keeps at hkeeps
  rw [hp] at hkeeps
  obtain ⟨v', got', rest, rfl, -, hg', hwhole, htag⟩ := hkeeps
  obtain rfl := Option.some.inj (hg.symm.trans hg')
  exact ⟨⟨rest, hwhole⟩, htag⟩

/-- A call of an object that does not change is interrupted in the middle of a body, when all that is counted is on the
    disk, and leaves a token. The next call asks for the rest. If there is some, it returns the whole, whatever the
    chunks that it comes in; so it does if the headers of the request ask for ranges of their own, which is answered
    with the whole. Otherwise what is asked for begins where the object ends, and the call fails for good. -/
theorem whole_after_interruption (h : Served (.only v) t request files c w) (hl : c.link = .busy f)
    (hp : f.phase = .reading total) (hg : c.files.get? f.part.path = some got)
    (hk : got.length = f.part.received.toNat) (hi : input = .silent ∨ ∃ message, input = .broken message)
    (hs : c.step? (.input input) = some (d, effects)) (ht : d.token? = some token) :
    ∃ e sent, d.step? .call = some (e, [.send sent]) ∧
      (AskNoRange request.headers → sent.AsksFrom f.part.received v.tag) ∧ ∀ head body, v.Serves sent head body →
      (got.length < v.content.length ∨ ¬AskNoRange request.headers → ∀ chunks : List Octets, chunks.flatten = body →
        ∃ e', e.inputs? (.head head :: (chunks.map .chunk ++ [.finish])) = some e' ∧
          e'.link = .idle (some (.ok f.part.path)) ∧ e'.files.get? f.part.path = some v.content) ∧
      (v.content.length ≤ got.length → AskNoRange request.headers → ∃ e', e.inputs? [.head head] = some e' ∧
        e'.link = .idle (some (.error (.httpStatus 416 f.url.render))) ∧ e'.token? = none ∧
          e'.files.get? f.part.path = none) := by
  obtain ⟨⟨last, hd⟩, rfl, hr⟩ := left_by_interruption hl hp hi hs ht
  obtain ⟨e, hcall, hle, hge⟩ := call_of_encode (fit_served h) hl hp hg hk hr hd ht
  obtain ⟨hpos, hv⟩ := Bool.and_eq_true_iff.mp hr
  have hpos := of_decide_eq_true hpos
  obtain ⟨tag, hv⟩ := Option.isSome_iff_exists.mp hv
  let opened := Fetch.opening t request f.url f.part
  have hasks : AskNoRange request.headers → opened.request.AsksFrom f.part.received v.tag := by
    intro hq
    obtain rfl := (prefix_of_served hq h hl hp hg).2 tag hv
    exact Fetch.asksFrom_of_received (f := opened) hq hpos hv
  have hasked : ∀ {k}, opened.request.AsksFrom k v.tag → AskNoRange request.headers ∧ k = f.part.received := by
    intro k hask
    have hq : AskNoRange request.headers := askNoRange_of_asksFrom (f := opened) hpos hv hask
    exact ⟨hq, hask.eq (hasks hq)⟩
  refine ⟨e, opened.request, hcall, hasks, fun head body hserves => ?_⟩
  cases hserves with
  | whole hn hs' =>
    refine ⟨fun _ chunks hchunks => ?_, fun _ hq => absurd (hasks hq) (hn _)⟩
    obtain ⟨e', he', hend, hcontent⟩ := written_to_end (f := opened) hle rfl hs' chunks
    exact ⟨e', he', hend, hchunks ▸ hcontent⟩
  | @rest k hask hlt hs' hc =>
    obtain ⟨hq, rfl⟩ := hasked hask
    rw [← hk] at hlt
    refine ⟨fun _ chunks hchunks => ?_, fun hle' => absurd hlt (Nat.not_lt.mpr hle')⟩
    obtain ⟨e', he', hend, hcontent⟩ := appended_to_end (f := opened) hle rfl hpos hge hs' hc chunks
    have htake : got = v.content.take f.part.received.toNat := by
      rw [← hk]
      exact List.prefix_iff_eq_take.mp (prefix_of_served hq h hl hp hg).1
    refine ⟨e', he', hend, hcontent.trans ?_⟩
    rw [hchunks, htake, List.take_append_drop]
  | @unsatisfiable _ k hask hle' hs' =>
    obtain ⟨hq, rfl⟩ := hasked hask
    refine ⟨fun hrest => ?_, fun _ _ => refused_for_good (f := opened) hle rfl hs'⟩
    rcases hrest with hlt | hne
    · rw [hk] at hlt
      exact absurd hlt (Nat.not_lt.mpr hle')
    · exact absurd hq hne

theorem token_of_silence (hl : c.link = .busy f) (hp : f.phase = .reading total)
    (hr : Fetch.isResumable f.part = true) :
    ∃ d, c.step? (.input .silent) = some (d, []) ∧ d.token? = some f.part.encode := by
  simp only [Chain.step?, Chain.input?, hl, Fetch.step, hp, Fetch.fail, hr]
  exact ⟨_, rfl, rfl⟩

/-- The first bytes of an object have come. -/
theorem exists_reading (kept rest : Octets) : ∃ c w f,
    Served (.only ⟨"a", kept ++ rest⟩) nearby ⟨3, "a", []⟩ .empty c w ∧ c.link = .busy f ∧ f.phase = .reading none ∧
      c.files.get? f.part.path = some kept ∧ f.part.received = 0 + UInt64.ofNat kept.length ∧
      f.part.validator = some "a" := by
  obtain ⟨url, hu, hf⟩ : ∃ url, nearby.locate ⟨3, "a", []⟩ = .ok url ∧ Fetch.isFetchable url = true :=
    ⟨_, rfl, by decide +kernel⟩
  let o : Origin := .only ⟨"a", kept ++ rest⟩
  let opened : Fetch := Fetch.opening nearby ⟨3, "a", []⟩ url (Fetch.newPart nearby.folder url.render ⟨[], ["t"], 0⟩)
  have hmade : Files.empty.makeFolder nearby.folder = .ok ⟨[], ["t"], 0⟩ := rfl
  have hstart := Fetch.start_of_none hu hmade (Bool.and_eq_true_iff.mpr ⟨hf, rfl⟩)
  have hcall : (Chain.start nearby ⟨3, "a", []⟩ .empty).step? .call = _ :=
    Chain.call_of_start (c := Chain.start nearby ⟨3, "a", []⟩ .empty) rfl hstart
  have hanswer : Answers o opened.request ⟨200, [("etag", "a")], none⟩ (kept ++ rest) :=
    .whole (v := ⟨"a", kept ++ rest⟩) rfl rfl rfl
  have hchunk : Feeds o (.flowing (kept ++ rest)) (.chunk kept) (.flowing rest) := .chunk
  have hread := ((Served.call .start hcall).input (.head hanswer) rfl).input hchunk rfl
  exact ⟨_, _, _, hread, rfl, rfl, Files.get?_append kept (Files.get?_write ..), rfl, rfl⟩

/-- The first bytes of an object have come, and then nothing comes for too long. -/
theorem exists_interrupted (kept rest : Octets) (hpos : 0 < kept.length) (hk : kept.length < UInt64.size) :
    ∃ c w f d, Served (.only ⟨"a", kept ++ rest⟩) nearby ⟨3, "a", []⟩ .empty c w ∧ c.link = .busy f ∧
      f.phase = .reading none ∧ c.files.get? f.part.path = some kept ∧ kept.length = f.part.received.toNat ∧
      f.part.validator = some "a" ∧ c.step? (.input .silent) = some (d, []) ∧ d.token? = some f.part.encode := by
  obtain ⟨c, w, f, h, hl, hp, hg, hn, hv⟩ := exists_reading kept rest
  have hcount : kept.length = f.part.received.toNat := by
    rw [hn, UInt64.zero_add]
    exact (UInt64.toNat_ofNat_of_lt' hk).symm
  have hr : Fetch.isResumable f.part = true :=
    Bool.and_eq_true_iff.mpr ⟨decide_eq_true (UInt64.lt_iff_toNat_lt.mpr (hcount ▸ hpos)), by rw [hv]; rfl⟩
  obtain ⟨d, hs, ht⟩ := token_of_silence hl hp hr
  exact ⟨c, w, f, d, h, hl, hp, hg, hcount, hv, hs, ht⟩

/-- One of two bytes has come; the next call gets the other one. -/
theorem whole_after_interruption_first :
    let v : Version := ⟨"a", [1, 2]⟩
    let head : Head := ⟨206, [("etag", "a"), ("content-range", "bytes 1-1/2")], none⟩
    ∃ c w f d token e sent e', Served (.only v) nearby ⟨3, "a", []⟩ .empty c w ∧ c.link = .busy f ∧
      f.phase = .reading none ∧ c.files.get? f.part.path = some [1] ∧ c.step? (.input .silent) = some (d, []) ∧
      d.token? = some token ∧ d.step? .call = some (e, [.send sent]) ∧ v.Serves sent head [2] ∧
      e.inputs? [.head head, .chunk [2], .finish] = some e' ∧ e'.link = .idle (some (.ok f.part.path)) ∧
      e'.files.get? f.part.path = some [1, 2] := by
  intro v head
  obtain ⟨c, w, f, d, h, hl, hp, hg, hk, -, hs, ht⟩ := exists_interrupted [1] [2] (by decide) (by decide)
  obtain ⟨e, sent, hcall, hasks, hends⟩ := whole_after_interruption h hl hp hg hk (Or.inl rfl) hs ht
  have hask := hasks fun header hm => by cases hm
  rw [← UInt64.ofNat_toNat (x := f.part.received), ← hk] at hask
  have hserves : v.Serves sent head [2] := .rest (k := 1) hask (by decide) rfl (by decide +kernel) rfl
  obtain ⟨e', he, hend, hcontent⟩ := (hends head [2] hserves).1 (Or.inl (by decide)) [[2]] rfl
  exact ⟨c, w, f, d, _, e, sent, e', h, hl, hp, hg, hs, ht, hcall, hserves, he, hend, hcontent⟩

/-- Both of two bytes have come, but not their end; the next call fails for good. -/
theorem refused_after_interruption :
    let v : Version := ⟨"a", [1, 2]⟩
    let head : Head := ⟨416, [("content-range", "bytes */2")], none⟩
    ∃ c w f d token e sent e' url, Served (.only v) nearby ⟨3, "a", []⟩ .empty c w ∧ c.link = .busy f ∧
      f.phase = .reading none ∧ c.files.get? f.part.path = some [1, 2] ∧ c.step? (.input .silent) = some (d, []) ∧
      d.token? = some token ∧ d.step? .call = some (e, [.send sent]) ∧ v.Serves sent head [] ∧
      e.inputs? [.head head] = some e' ∧ e'.link = .idle (some (.error (.httpStatus 416 url))) ∧ e'.token? = none ∧
      e'.files.get? f.part.path = none := by
  intro v head
  obtain ⟨c, w, f, d, h, hl, hp, hg, hk, hv, hs, ht⟩ := exists_interrupted [1, 2] [] (by decide) (by decide)
  obtain ⟨⟨last, hd⟩, -, hr⟩ := left_by_interruption hl hp (Or.inl rfl) hs ht
  obtain ⟨e, hcall, hle, -⟩ := call_of_encode (fit_served h) hl hp hg hk hr hd ht
  have hpos := of_decide_eq_true (Bool.and_eq_true_iff.mp hr).1
  let opened : Fetch := Fetch.opening nearby ⟨3, "a", []⟩ f.url f.part
  have hask : opened.request.AsksFrom f.part.received "a" :=
    Fetch.asksFrom_of_received (f := opened) (fun header hm => by cases hm) hpos hv
  have hserves : v.Serves opened.request head [] := .unsatisfiable hask (Nat.le_of_eq hk) rfl
  obtain ⟨e', he, hend, htoken, hgone⟩ := refused_for_good hle (rfl : opened.phase = .sending _) (rfl : head.status = 416)
  exact ⟨c, w, f, d, _, e, _, e', _, h, hl, hp, hg, hs, ht, hcall, hserves, he, hend, htoken, hgone⟩

end SealedDownload.Http
