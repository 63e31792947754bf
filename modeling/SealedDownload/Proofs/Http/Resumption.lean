import SealedDownload.Proofs.Http.Steps
import SealedDownload.Proofs.Http.Tokens

/-! A file that has been fetched from an honest origin is one version of its object, whole, however often the
    object has changed and the connection has broken on the way. -/

namespace SealedDownload.Http

/-! ### The origin -/

/-- A version of an object, and its entity tag. -/
structure Version where
  tag : String
  content : Octets

/-- An origin: the versions of one object that there are over time. Its entity tags are strong. -/
structure Origin where
  IsVersion : Version → Prop
  strong : ∀ {v w : Version}, IsVersion v → IsVersion w → v.tag = w.tag → v = w

/-- Whether a header has a name, in whatever case it is written. -/
def isNamed (name : String) (header : String × String) : Bool := header.1.toList.map Char.toLower = name.toList

/-- Whether the headers leave it to the transport what part of the object is asked for. -/
def AskNoRange (headers : Headers) : Prop :=
  ∀ header ∈ headers, isNamed "range" header = false ∧ isNamed "if-range" header = false

/-- The first header of a name. -/
def Sent.header? (sent : Sent) (name : String) : Option String := (sent.headers.find? (isNamed name)).map (·.2)

/-- The range that begins with a byte and has no end. -/
def rangeFrom (k : UInt64) : String := s!"bytes={k}-"

/-- What an origin may answer. The whole of a version may be the answer to anything; the rest of one goes to a request
    that has named its tag; and an answer may be about another part than the one that was asked for. -/
inductive Answers (o : Origin) (sent : Sent) : Head → Octets → Prop where
  | whole {v : Version} {head : Head} (hv : o.IsVersion v) (hs : head.status = 200)
      (ht : head.header? "etag" = some v.tag) : Answers o sent head v.content
  | rest {v : Version} {head : Head} {k : UInt64} (hv : o.IsVersion v) (hr : sent.header? "range" = some (rangeFrom k))
      (hi : sent.header? "if-range" = some v.tag) (hk : k.toNat < v.content.length)
      (hs : head.status = Head.partialContent) (hc : head.start? = some k) (ht : head.header? "etag" = some v.tag) :
      Answers o sent head (v.content.drop k.toNat)
  | elsewhere {head : Head} {body : Octets} {k : UInt64} (hr : sent.header? "range" = some (rangeFrom k))
      (hs : head.status = Head.partialContent) (hc : head.start? ≠ some k) : Answers o sent head body
  | refused {head : Head} {body : Octets} (hs : head.isSuccess = false) : Answers o sent head body

/-! ### The network -/

/-- What is between a fetch and the origin. -/
inductive Wire where
  | quiet
  /-- a request that has not been answered -/
  | waiting (sent : Sent)
  /-- what is still to come of a body -/
  | flowing (rest : Octets)

/-- What can come over the wire. A body is complete when all of it has come; anything may break off, fall silent or be
    given up by the client. -/
inductive Feeds (o : Origin) : Wire → FetchInput → Wire → Prop where
  | head {sent : Sent} {head : Head} {body : Octets} (ha : Answers o sent head body) :
      Feeds o (.waiting sent) (.head head) (.flowing body)
  | chunk {bytes rest : Octets} : Feeds o (.flowing (bytes ++ rest)) (.chunk bytes) (.flowing rest)
  | finish : Feeds o (.flowing []) .finish (.flowing [])
  | broken {w : Wire} {message : String} : Feeds o w (.broken message) .quiet
  | silent {w : Wire} : Feeds o w .silent .quiet
  | failed {w : Wire} {message : String} : Feeds o w (.failed message) .quiet
  | cancel {w : Wire} : Feeds o w .cancel .quiet

/-- The wire after what a fetch has done. -/
def Wire.after (w : Wire) : List FetchEffect → Wire
  | [] => w
  | .send sent :: rest => Wire.after (.waiting sent) rest
  | .report .. :: rest => w.after rest

/-- The chains of calls that an origin can serve, from the first one on. -/
inductive Served (o : Origin) (t : HttpTransport) (request : TransportRequest) (files : Files) :
    Chain → Wire → Prop where
  | start : Served o t request files (Chain.start t request files) .quiet
  | call {c d : Chain} {w : Wire} {effects : List FetchEffect} (h : Served o t request files c w)
      (hs : c.step? .call = some (d, effects)) : Served o t request files d (w.after effects)
  | input {c d : Chain} {w w' : Wire} {input : FetchInput} {effects : List FetchEffect}
      (h : Served o t request files c w) (hw : Feeds o w input w') (hs : c.step? (.input input) = some (d, effects)) :
      Served o t request files d (w'.after effects)

/-! ### What a fetch has -/

variable {o : Origin} {t : HttpTransport} {request : TransportRequest} {files files' : Files} {f f' : Fetch}
  {part : Partial} {sent : Sent} {head : Head} {body got : Octets} {headers : Headers} {w w' : Wire} {c d : Chain}
  {failure : Failure} {input : FetchInput} {effects : List FetchEffect} {again : Bool} {path : Path}

namespace Origin

/-- The file of a partial file is the beginning of the version that its validator names. -/
def Holds (o : Origin) (files : Files) (part : Partial) (got : Octets) : Prop :=
  ∃ v, o.IsVersion v ∧ part.validator = some v.tag ∧ files.get? part.path = some got ∧ got <+: v.content

/-- What a call leaves: a whole version, or a token for the beginning of one. -/
def Leaves (o : Origin) (files : Files) : Except Failure Path → Prop
  | .ok path => ∃ v, o.IsVersion v ∧ files.get? path = some v.content
  | .error failure => ∀ token part, failure.resume? = some token → Partial.decode? token = some part →
      ∃ got, o.Holds files part got

/-- What a fetch has by where it is. -/
def Keeps (o : Origin) (files : Files) (f : Fetch) (w : Wire) : Prop :=
  match f.phase with
  | .sending again => w = .waiting f.request ∧
      (f.part.received = 0 ∨ again = false ∧ ∃ got, o.Holds files f.part got ∧ got.length = f.part.received.toNat)
  | .reading _ => ∃ v got rest, o.IsVersion v ∧ w = .flowing rest ∧ files.get? f.part.path = some got ∧
      got ++ rest = v.content ∧ ∀ tag, f.part.validator = some tag → tag = v.tag
  | .ended result => o.Leaves files result

end Origin

/-- What a chain of calls has. -/
structure Chain.Sound (o : Origin) (request : TransportRequest) (c : Chain) (w : Wire) : Prop where
  request_eq : c.request = request
  left : ∀ result, c.link = .idle (some result) → o.Leaves c.files result
  kept : ∀ f, c.link = .busy f → f.result? = none ∧ f.headers = request.headers ∧ o.Keeps c.files f w

/-! ### Headers -/

theorem find?_of_askNoRange (h : AskNoRange headers) (rest : List (String × String)) :
    (headers ++ rest).find? (isNamed "range") = rest.find? (isNamed "range") ∧
      (headers ++ rest).find? (isNamed "if-range") = rest.find? (isNamed "if-range") := by
  have hr : headers.find? (isNamed "range") = none :=
    List.find?_eq_none.mpr fun header hm => Bool.not_eq_true _ ▸ (h header hm).1
  have hi : headers.find? (isNamed "if-range") = none :=
    List.find?_eq_none.mpr fun header hm => Bool.not_eq_true _ ▸ (h header hm).2
  simp [List.find?_append, hr, hi]

theorem toList_rangeFrom (k : UInt64) :
    (rangeFrom k).toList = "bytes=".toList ++ (Nat.toDigits 10 k.toNat ++ "-".toList) := by
  have ht : toString k = String.ofList (Nat.toDigits 10 k.toNat) := rfl
  unfold rangeFrom
  rw [String.toList_append, String.toList_append, ht, String.toList_ofList, List.append_assoc]
  rfl

theorem rangeFrom_inj {k l : UInt64} (h : rangeFrom k = rangeFrom l) : k = l := by
  have hl := congrArg String.toList h
  rw [toList_rangeFrom, toList_rangeFrom] at hl
  have hl := List.append_cancel_right (List.append_cancel_left hl)
  have hn := congrArg (Nat.ofDigitChars 10 · 0) hl
  simp only [Nat.ofDigitChars_ten_toDigits] at hn
  exact UInt64.toNat_inj.mp hn

/-- A request asks for a range only if a part of the object is there, and then for all behind it. -/
theorem asked_of_range {k : UInt64} (h : AskNoRange f.headers) (hr : f.request.header? "range" = some (rangeFrom k)) :
    f.part.received = k ∧ 0 < k ∧ f.request.header? "if-range" = f.part.validator := by
  obtain ⟨hrange, hif⟩ := find?_of_askNoRange h (Fetch.rangeHeaders f.part)
  unfold Sent.header? Fetch.request at hr ⊢
  rw [hrange] at hr
  rw [hif]
  unfold Fetch.rangeHeaders at hr ⊢
  cases hv : f.part.validator with
  | none =>
    rw [hv] at hr
    cases hr
  | some validator =>
    rw [hv] at hr
    have hfirst : ∀ range : String,
        ([("range", range), ("if-range", validator)].find? (isNamed "range")).map (·.2) = some range :=
      fun range => by simp [isNamed]
    have hsecond : ∀ range : String,
        ([("range", range), ("if-range", validator)].find? (isNamed "if-range")).map (·.2) = some validator :=
      fun range => by simp [isNamed]
    by_cases hp : 0 < f.part.received
    · simp only [hp, if_true] at hr ⊢
      have hk := rangeFrom_inj (Option.some.inj ((hfirst (rangeFrom f.part.received)).symm.trans hr))
      exact ⟨hk, hk ▸ hp, hsecond _⟩
    · simp only [hp, if_false] at hr
      cases hr

/-! ### Failing and sending -/

/-- A fetch that fails leaves a token only for the beginning of a version. -/
theorem leaves_of_failed (hf : Fetch.Failed f files failure f' files') (hr : failure.resume? = none)
    (hg : Fetch.isResumable f.part = true → ∃ got, o.Holds files f.part got) : o.Keeps files' f' w := by
  obtain ⟨failure', hp, hleft⟩ := hf.token hr
  unfold Origin.Keeps
  rw [hp]
  intro token part ht hd
  obtain ⟨rfl, hres, rfl⟩ := hleft token part ht hd
  exact hg hres

theorem not_isResumable (h : f.part.received = 0) : ¬Fetch.isResumable f.part = true := by
  unfold Fetch.isResumable
  simp [h]

theorem keeps_of_sends (hs : Fetch.Sends f files again f' files' effects)
    (hp : f.part.received = 0 ∨ again = false ∧ ∃ got, o.Holds files f.part got ∧ got.length = f.part.received.toNat) :
    o.Keeps files' f' (w.after effects) := by
  cases hs with
  | send => exact ⟨rfl, hp⟩
  | block _ hf =>
    refine leaves_of_failed hf rfl fun hres => ?_
    rcases hp with hp | ⟨-, got, hg, -⟩
    · exact absurd hres (not_isResumable hp)
    · exact ⟨got, hg⟩

/-- A fetch that could leave a token has the beginning of the version that the token would name. -/
theorem holds_of_keeps (h : o.Keeps files f w) (hn : f.result? = none) (hr : Fetch.isResumable f.part = true) :
    ∃ got, o.Holds files f.part got := by
  unfold Origin.Keeps at h
  cases hp : f.phase with
  | sending again =>
    rw [hp] at h
    obtain ⟨-, hz | ⟨-, got, hg, -⟩⟩ := h
    · exact absurd hr (not_isResumable hz)
    · exact ⟨got, hg⟩
  | reading total =>
    rw [hp] at h
    obtain ⟨v, got, rest, hv, -, hg, he, ht⟩ := h
    obtain ⟨tag, htag⟩ := Option.isSome_iff_exists.mp (Bool.and_eq_true_iff.mp hr).2
    exact ⟨got, v, hv, by rw [htag, ht tag htag], hg, ⟨rest, he⟩⟩
  | ended result =>
    unfold Fetch.result? at hn
    rw [hp] at hn
    cases hn

theorem tag_of_validator? {v : Version} {tag : String} (ht : head.header? "etag" = some v.tag)
    (h : head.validator? = some tag) : tag = v.tag := by
  unfold Head.validator? at h
  rw [ht] at h
  change Head.usable? v.tag = some tag at h
  unfold Head.usable? at h
  split at h
  · exact (Option.some.inj h).symm
  · cases h

/-! ### One step -/

/-- The rest of a version is appended to its beginning. -/
theorem keeps_of_append (hq : AskNoRange f.headers) (ha : Answers o f.request head body)
    (hk : o.Keeps files f (.waiting f.request)) (hp : f.phase = .sending again)
    (hs : head.status = Head.partialContent) (hr : 0 < f.part.received)
    (hc : again = true ∨ head.start? = some f.part.received) :
    o.Keeps (files.append f.part.path []) (f.taking head f.part.received) (.flowing body) := by
  unfold Origin.Keeps at hk
  rw [hp] at hk
  obtain ⟨-, hz | ⟨rfl, got, ⟨v, hv, hval, hg, hpre⟩, hlen⟩⟩ := hk
  · rw [hz] at hr
    exact absurd hr (by decide)
  · have hc : head.start? = some f.part.received := hc.resolve_left Bool.false_ne_true
    cases ha with
    | whole _ hs' =>
      rw [hs'] at hs
      exact absurd hs (by decide)
    | @rest v' _ k hv' hrange hif _ _ _ ht =>
      -- the request has named the tag of the version on disk, so the origin has answered for the same one
      obtain ⟨rfl, -, hi⟩ := asked_of_range hq hrange
      have htag : v'.tag = v.tag := Option.some.inj (hif.symm.trans (hi.trans hval))
      obtain rfl := o.strong hv' hv htag
      have hgot : got = v'.content.take f.part.received.toNat := by
        rw [← hlen]
        exact List.prefix_iff_eq_take.mp hpre
      refine ⟨v', got, _, hv, rfl, ?_, ?_, fun tag h => tag_of_validator? ht h⟩
      · rw [← List.append_nil got]
        exact Files.get?_append [] hg
      · rw [hgot]
        exact List.take_append_drop ..
    | @elsewhere _ _ k hrange _ hne =>
      -- such an answer is not taken in the first place
      obtain ⟨rfl, -, -⟩ := asked_of_range hq hrange
      exact absurd hc hne
    | refused hs' =>
      unfold Head.isSuccess at hs'
      rw [hs] at hs'
      exact absurd hs' (by decide)

/-- A file that is begun anew is begun with a whole version to come. -/
theorem keeps_of_begin (hq : AskNoRange f.headers) (ha : Answers o f.request head body) (hs : head.isSuccess = true)
    (hc : head.status ≠ Head.partialContent ∨ f.part.received = 0) :
    o.Keeps (files.write f.part.path []) (f.taking head 0) (.flowing body) := by
  have hno : ∀ k, f.request.header? "range" = some (rangeFrom k) → head.status = Head.partialContent → False := by
    intro k hrange h206
    obtain ⟨rfl, hpos, -⟩ := asked_of_range hq hrange
    rw [hc.resolve_left fun hne => hne h206] at hpos
    exact absurd hpos (by decide)
  cases ha with
  | @whole v _ hv _ ht =>
    exact ⟨v, [], v.content, hv, rfl, Files.get?_write .., rfl, fun tag h => tag_of_validator? ht h⟩
  | rest _ hrange _ _ h206 => exact (hno _ hrange h206).elim
  | elsewhere hrange h206 => exact (hno _ hrange h206).elim
  | refused hs' =>
    rw [hs] at hs'
    cases hs'

theorem fits_of_feeds (hk : o.Keeps files f w) (hn : f.result? = none) (hw : Feeds o w input w') :
    Fetch.fits f.phase input = true := by
  unfold Origin.Keeps at hk
  unfold Fetch.result? at hn
  cases hp : f.phase with
  | sending again =>
    rw [hp] at hk
    obtain ⟨rfl, -⟩ := hk
    cases hw <;> rfl
  | reading total =>
    rw [hp] at hk
    obtain ⟨v, got, rest, -, rfl, -⟩ := hk
    cases hw <;> rfl
  | ended result =>
    rw [hp] at hn
    cases hn

theorem keeps_of_step (hq : AskNoRange f.headers) (hn : f.result? = none) (hw : Feeds o w input w')
    (hs : Fetch.Step f files input f' files' effects) (hk : o.Keeps files f w) :
    o.Keeps files' f' (w'.after effects) := by
  have hsending : ∀ {again}, f.phase = .sending again → w = .waiting f.request := by
    intro again hp
    unfold Origin.Keeps at hk
    rw [hp] at hk
    exact hk.1
  cases hs with
  | ignore hf =>
    rw [fits_of_feeds hk hn hw] at hf
    cases hf
  | restart hp hs hr hc hd => exact keeps_of_sends hd (Or.inl rfl)
  | append hp hs hr hc =>
    obtain rfl := hsending hp
    cases hw with
    | head ha => exact keeps_of_append hq ha hk hp hs hr hc
  | begin hp hs hc =>
    obtain rfl := hsending hp
    cases hw with
    | head ha => exact keeps_of_begin hq ha hs hc
  | refuse hp hs hf => exact leaves_of_failed hf rfl (holds_of_keeps hk hn)
  | @receive _ bytes hp =>
    unfold Origin.Keeps at hk ⊢
    rw [hp] at hk
    simp only [hp]
    obtain ⟨v, got, rest, hv, rfl, hg, he, ht⟩ := hk
    cases hw with
    | chunk =>
      rw [← List.append_assoc] at he
      exact ⟨v, got ++ bytes, _, hv, rfl, Files.get?_append bytes hg, he, ht⟩
  | complete hp =>
    unfold Origin.Keeps at hk
    rw [hp] at hk
    obtain ⟨v, got, rest, hv, rfl, hg, he, ht⟩ := hk
    cases hw with
    | finish => exact ⟨v, hv, by rw [hg, ← he, List.append_nil]⟩
  | fail ht hf => exact leaves_of_failed hf (Fetch.resume?_of_trouble? ht) (holds_of_keeps hk hn)

/-! ### The chain -/

theorem headers_of_failed (h : Fetch.Failed f files failure f' files') : f'.headers = f.headers := by
  cases h <;> rfl

theorem headers_of_sends (h : Fetch.Sends f files again f' files' effects) : f'.headers = f.headers := by
  cases h with
  | send => rfl
  | block _ hf => exact headers_of_failed hf

theorem headers_of_step (h : Fetch.Step f files input f' files' effects) : f'.headers = f.headers := by
  cases h with
  | ignore | append | begin | receive | complete => rfl
  | restart _ _ _ _ hd => exact (headers_of_sends hd).trans rfl
  | refuse _ _ hf | fail _ hf => exact headers_of_failed hf

theorem sound_going (hr : c.request = request) (hh : f.headers = request.headers) (hk : o.Keeps files f w) :
    (c.going f files).Sound o request w := by
  cases hp : f.result? with
  | none =>
    have hl := c.link_going_of_none files hp
    refine ⟨hr, fun result h => ?_, fun f' h => ?_⟩
    · cases hl.symm.trans h
    · cases hl.symm.trans h
      exact ⟨hp, hh, hk⟩
  | some result =>
    have hl := c.link_going_of_some files hp
    refine ⟨hr, fun result' h => ?_, fun f' h => ?_⟩
    · cases hl.symm.trans h
      unfold Origin.Keeps at hk
      rw [Fetch.phase_of_result? hp] at hk
      exact hk
    · cases hl.symm.trans h

/-- A call begins with the beginning of a version, or with nothing. -/
theorem holds_of_picked {made : Files} {folder : Path} {url : String} (hs : c.Sound o request w)
    (hm : c.files.makeFolder folder = .ok made) (hp : Fetch.Picked folder url made c.token? part files) :
    part.received = 0 ∨ ∃ got, o.Holds files part got ∧ got.length = part.received.toNat := by
  cases hp with
  | @resumed _ bytes hd _ _ hb hl =>
    obtain ⟨token, ht, hd⟩ := Option.bind_eq_some_iff.mp hd
    unfold Chain.token? at ht
    split at ht
    · rename_i failure hlink
      obtain ⟨got, v, hv, htag, hg, hpre⟩ := hs.left _ hlink token part ht hd
      rw [← Files.get?_of_makeFolder hm] at hg
      obtain rfl : got = bytes := Option.some.inj (hg.symm.trans hb)
      exact Or.inr ⟨got, ⟨v, hv, htag, hg, hpre⟩, hl⟩
    · cases ht
  | spoilt | fresh => exact Or.inl rfl

theorem sound_call (hs : c.Sound o request w) (h : c.step? .call = some (d, effects)) :
    d.Sound o request (w.after effects) := by
  obtain ⟨last, -, ⟨failure, hf, rfl, rfl⟩ | ⟨url, made, part, files, f, files', -, hm, hp, hsend, rfl⟩⟩ :=
    Chain.cases_of_call h
  · refine ⟨hs.request_eq, fun result hr => ?_, fun f hf => ?_⟩
    · cases hr
      intro token part ht
      rw [Fetch.resume?_of_start hf] at ht
      cases ht
    · cases hf
  · have hh : f.headers = request.headers := (headers_of_sends hsend).trans (congrArg (·.headers) hs.request_eq)
    refine sound_going hs.request_eq hh (keeps_of_sends hsend ?_)
    exact (holds_of_picked hs hm hp).imp_right fun hg => ⟨rfl, hg⟩

theorem sound_input (hq : AskNoRange request.headers) (hs : c.Sound o request w) (hw : Feeds o w input w')
    (h : c.step? (.input input) = some (d, effects)) : d.Sound o request (w'.after effects) := by
  obtain ⟨f, f', files', hl, hstep, rfl⟩ := Chain.cases_of_input h
  obtain ⟨hn, hh, hk⟩ := hs.kept f hl
  have hq : AskNoRange f.headers := hh ▸ hq
  exact sound_going hs.request_eq ((headers_of_step hstep).trans hh) (keeps_of_step hq hn hw hstep hk)

theorem sound_served (hq : AskNoRange request.headers) (h : Served o t request files c w) : c.Sound o request w := by
  induction h with
  | start =>
    refine ⟨rfl, fun result h => ?_, fun f h => ?_⟩
    · cases h
    · cases h
  | call _ hs ih => exact sound_call ih hs
  | input _ hw hs ih => exact sound_input hq ih hw hs

/-- When a call of a chain ends well, its file is a whole version of the object. -/
theorem fetched_whole (hq : AskNoRange request.headers) (h : Served o t request files c w)
    (hl : c.link = .idle (some (.ok path))) : ∃ v, o.IsVersion v ∧ c.files.get? path = some v.content :=
  (sound_served hq h).left _ hl

/-- The connection breaks behind the first byte, and the next call gets the rest. -/
theorem fetched_whole_resumed :
    let o : Origin := ⟨fun v => v = ⟨"a", [1, 2, 3]⟩, fun hv hw _ => hv.trans hw.symm⟩
    ∃ t request c w path, Served o t request .empty c w ∧ c.link = .idle (some (.ok path)) ∧
      ∃ v, o.IsVersion v ∧ c.files.get? path = some v.content := by
  intro o
  obtain ⟨bases, url, hu, hf⟩ : ∃ bases url, HttpTransport.locate ⟨bases, "t", .zero⟩ ⟨1, "a", []⟩ = .ok url ∧
      Fetch.isFetchable url = true :=
    ⟨[(1, ⟨"http", "", "", some (.name "o"), none, .segments [""], none, none⟩)],
      ⟨"http", "", "", some (.name "o"), none, .segments ["a"], none, none⟩, rfl, by decide +kernel⟩
  obtain ⟨path, hpath, hm⟩ : ∃ path, Files.nextPath ⟨[], ["t"], 0⟩ "t" "download" = path ∧
      (((Files.mk [] ["t"] 1).write path []).append path [1]).makeFolder "t" =
        .ok (((Files.mk [] ["t"] 1).write path []).append path [1]) := ⟨_, rfl, rfl⟩
  let part (received : UInt64) (validator : Option String) : Partial := ⟨url.render, path, received, validator⟩
  let sending (part : Partial) : Fetch := ⟨url, [], .zero, part, .sending false⟩
  let chain (files : Files) (link : Link) : Chain := ⟨⟨bases, "t", .zero⟩, ⟨1, "a", []⟩, files, link⟩
  let broken : Files := ((Files.mk [] ["t"] 1).write path []).append path [1]
  let lost : Link := .idle (some (.error (.network "reset" (some (part 1 (some "a")).encode))))
  have hv : o.IsVersion ⟨"a", [1, 2, 3]⟩ := rfl
  -- the first call
  have h1 : (chain .empty (.idle none)).step? .call =
      some (chain ⟨[], ["t"], 1⟩ (.busy (sending (part 0 none))), [.send (sending (part 0 none)).request]) := by
    have hmade : Files.empty.makeFolder "t" = .ok ⟨[], ["t"], 0⟩ := rfl
    have hst := Fetch.start_of_none hu hmade (Bool.and_eq_true_iff.mpr ⟨hf, rfl⟩)
    unfold Fetch.newPart at hst
    rw [hpath] at hst
    exact Chain.call_of_start (c := chain .empty (.idle none)) rfl hst
  have ha : Answers o (sending (part 0 none)).request ⟨200, [("etag", "a")], none⟩ [1, 2, 3] := .whole hv rfl rfl
  have w1 : Feeds o (.flowing ([1] ++ [2, 3])) (.chunk [1]) (.flowing [2, 3]) := .chunk
  have s1 := ((Served.call .start h1).input (.head ha) rfl).input w1 rfl
  have wb : Feeds o (.flowing [2, 3]) (.broken "reset") .quiet := .broken
  have s2 : Served o _ _ .empty (chain broken lost) .quiet := s1.input wb rfl
  -- the second call
  have h2 : (chain broken lost).step? .call =
      some (chain broken (.busy (sending (part 1 (some "a")))), [.send (sending (part 1 (some "a"))).request]) := by
    have hb : broken.get? path = some [1] := Files.get?_append [1] (Files.get?_write ..)
    have hh : [("range", rangeFrom 1), ("if-range", "a")].all isHeader = true := by decide +kernel
    have hd : (sending (part 1 (some "a"))).isSendable = true := Bool.and_eq_true_iff.mpr ⟨hf, hh⟩
    exact Chain.call_of_start (c := chain broken lost) rfl (Fetch.start_of_encode hu hm rfl rfl hb rfl hd)
  have hr : Answers o (sending (part 1 (some "a"))).request
      ⟨206, [("etag", "a"), ("content-range", "bytes 1-2/3")], none⟩ [2, 3] := by
    refine .rest (k := 1) hv ?_ ?_ (by decide) rfl rfl rfl <;>
      simp [sending, part, Sent.header?, Fetch.request, Fetch.rangeHeaders, isNamed, rangeFrom]
  have w2 : Feeds o (.flowing ([2, 3] ++ [])) (.chunk [2, 3]) (.flowing []) := .chunk
  have s3 := (((s2.call h2).input (.head hr) rfl).input w2 rfl).input .finish rfl
  exact ⟨_, _, _, _, _, s3, rfl, fetched_whole (by intro header h; cases h) s3 rfl⟩

end SealedDownload.Http
