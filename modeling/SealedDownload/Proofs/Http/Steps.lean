import SealedDownload.Http.Chain
import SealedDownload.Proofs.Http.Tokens

/-! The steps of a fetch, one by one. `Step` lists all that an input can make of a fetch, with the conditions
    and the effects; `Picked` lists with which file a fetch can begin, and `Failed` how it can fail. -/

namespace SealedDownload.Http

namespace Fetch

variable {f : Fetch} {files made : Files} {t : HttpTransport} {request : TransportRequest} {url : Url} {part : Partial}
  {bytes : Octets}

/-- Whether a failure is one of the network. -/
def isInterruption : Failure → Bool
  | .network .. => true
  | .timeout .. => true
  | _ => false

/-- Whether the request for a partial file can be sent. -/
def isSendable (f : Fetch) : Bool := isFetchable f.url && f.request.headers.all isHeader

/-- The fetch with nothing received and nothing to check. -/
def anew (f : Fetch) : Fetch := { f with part := { f.part with received := 0, validator := none } }

/-- The fetch with a response whose body goes behind what has been received. -/
def taking (f : Fetch) (head : Head) (received : UInt64) : Fetch :=
  { f with
    part := { f.part with received, validator := head.validator? }
    phase := .reading (head.length.map (· + received)) }

/-- A new partial file of a folder. -/
def newPart (folder : Path) (url : String) (files : Files) : Partial := ⟨url, files.nextPath folder "download", 0, none⟩

/-- What a call begins with. -/
def opening (t : HttpTransport) (request : TransportRequest) (url : Url) (part : Partial) : Fetch :=
  ⟨url, request.headers, t.timeout, part, .sending false⟩

/-- How a fetch fails. -/
inductive Failed (f : Fetch) (files : Files) (failure : Failure) : Fetch → Files → Prop where
  | keep (hi : isInterruption failure = true) (hr : isResumable f.part = true) :
      Failed f files failure { f with phase := .ended (.error (failure.withResume (some f.part.encode))) } files
  | drop (hr : isInterruption failure = true → isResumable f.part = false) :
      Failed f files failure { f with phase := .ended (.error failure) } (files.erase f.part.path)

/-- How a request is sent. -/
inductive Sends (f : Fetch) (files : Files) (again : Bool) : Fetch → Files → List FetchEffect → Prop where
  | send (hd : f.isSendable = true) : Sends f files again { f with phase := .sending again } files [.send f.request]
  | block {f' : Fetch} {files' : Files} (hd : f.isSendable = false)
      (hf : Failed f files (.protocol "builder error") f' files') : Sends f files again f' files' []

/-- With which partial file a fetch begins, and the files then. -/
inductive Picked (folder : Path) (url : String) (files : Files) (resume : Option ResumeToken) :
    Partial → Files → Prop where
  | resumed {part : Partial} {bytes : Octets} (hd : resume.bind Partial.decode? = some part) (hu : part.url = url)
      (hv : part.validator.isSome = true) (hb : files.get? part.path = some bytes)
      (hl : bytes.length = part.received.toNat) : Picked folder url files resume part files
  | spoilt {part : Partial} (hd : resume.bind Partial.decode? = some part)
      (hs : part.url ≠ url ∨ part.validator = none ∨ ∀ bytes, files.get? part.path = some bytes →
        bytes.length ≠ part.received.toNat) :
      Picked folder url files resume (newPart folder url (files.erase part.path)) (files.erase part.path).draw
  | fresh (hd : resume.bind Partial.decode? = none) :
      Picked folder url files resume (newPart folder url files) files.draw

/-- Why a fetch fails on an input. -/
def trouble? (f : Fetch) (input : FetchInput) : Option Failure :=
  match f.phase, input with
  | .sending _, .broken message => some (.network message none)
  | .sending _, .silent =>
    some (.timeout s!"no response from {f.url.render} within {f.timeout.millis}ms" none)
  | .sending _, .failed message => some (.protocol message)
  | .sending _, .cancel => some .cancelled
  | .reading _, .broken message => some (.network message none)
  | .reading _, .silent => some (.timeout s!"no data from {f.url.render} for {f.timeout.millis}ms" none)
  | .reading _, .failed message => some (.protocol message)
  | .reading _, .cancel => some .cancelled
  | _, _ => none

/-- Whether an input fits where a fetch is. -/
def fits : FetchPhase → FetchInput → Bool
  | .sending _, .head _ => true
  | .sending _, .broken _ => true
  | .sending _, .silent => true
  | .sending _, .failed _ => true
  | .sending _, .cancel => true
  | .reading _, .chunk _ => true
  | .reading _, .finish => true
  | .reading _, .broken _ => true
  | .reading _, .silent => true
  | .reading _, .failed _ => true
  | .reading _, .cancel => true
  | _, _ => false

/-- All that an input can make of a fetch and the files, and the effects. -/
inductive Step (f : Fetch) (files : Files) : FetchInput → Fetch → Files → List FetchEffect → Prop where
  | ignore {input : FetchInput} (hf : fits f.phase input = false) : Step f files input f files []
  | restart {head : Head} {f' : Fetch} {files' : Files} {effects : List FetchEffect} (hp : f.phase = .sending false)
      (hs : head.status = Head.partialContent) (hr : 0 < f.part.received) (hc : head.start? ≠ some f.part.received)
      (hd : Sends f.anew files true f' files' effects) : Step f files (.head head) f' files' effects
  | append {again : Bool} {head : Head} (hp : f.phase = .sending again) (hs : head.status = Head.partialContent)
      (hr : 0 < f.part.received) (hc : again = true ∨ head.start? = some f.part.received) :
      Step f files (.head head) (f.taking head f.part.received) (files.append f.part.path []) []
  | begin {again : Bool} {head : Head} (hp : f.phase = .sending again) (hs : head.isSuccess = true)
      (hc : head.status ≠ Head.partialContent ∨ f.part.received = 0) :
      Step f files (.head head) (f.taking head 0) (files.write f.part.path []) []
  | refuse {again : Bool} {head : Head} {f' : Fetch} {files' : Files} (hp : f.phase = .sending again)
      (hs : head.isSuccess = false) (hf : Failed f files (.httpStatus head.status f.url.render) f' files') :
      Step f files (.head head) f' files' []
  | receive {total : Option UInt64} {bytes : Octets} (hp : f.phase = .reading total) :
      Step f files (.chunk bytes)
        { f with part := { f.part with received := f.part.received + UInt64.ofNat bytes.length } }
        (files.append f.part.path bytes) [.report (f.part.received + UInt64.ofNat bytes.length) total]
  | complete {total : Option UInt64} (hp : f.phase = .reading total) :
      Step f files .finish { f with phase := .ended (.ok f.part.path) } files []
  | fail {input : FetchInput} {failure : Failure} {f' : Fetch} {files' : Files} (ht : f.trouble? input = some failure)
      (hf : Failed f files failure f' files') : Step f files input f' files' []

/-! ### Failing, sending, picking -/

theorem resume?_withResume {failure : Failure} (hi : isInterruption failure = true) (token : ResumeToken) :
    (failure.withResume (some token)).resume? = some token := by
  cases failure <;> first | rfl | cases hi

theorem resume?_of_trouble? {input : FetchInput} {failure : Failure} (h : f.trouble? input = some failure) :
    failure.resume? = none := by
  unfold trouble? at h
  split at h <;> cases h <;> rfl

theorem fail_spec (f : Fetch) (files : Files) (failure : Failure) :
    Failed f files failure (f.fail files failure).1 (f.fail files failure).2 := by
  have he : f.fail files failure = if (isInterruption failure && isResumable f.part) = true then
      ({ f with phase := .ended (.error (failure.withResume (some f.part.encode))) }, files)
      else ({ f with phase := .ended (.error failure) }, files.erase f.part.path) := by
    cases failure <;> rfl
  rw [he]
  split
  · rename_i h
    obtain ⟨hi, hr⟩ := Bool.and_eq_true_iff.mp h
    exact .keep hi hr
  · rename_i h
    exact .drop fun hi => Bool.eq_false_iff.mpr fun hr => h (Bool.and_eq_true_iff.mpr ⟨hi, hr⟩)

/-- Only a fetch that can be gone on with leaves a token, for its partial file and with its file as it was. -/
theorem Failed.token {failure : Failure} {f' : Fetch} {files' : Files} (h : Failed f files failure f' files')
    (hr : failure.resume? = none) : ∃ failure', f'.phase = .ended (.error failure') ∧
      ∀ token part, failure'.resume? = some token → Partial.decode? token = some part →
        part = f.part ∧ isResumable f.part = true ∧ files' = files := by
  cases h with
  | keep hi hres =>
    refine ⟨_, rfl, fun token part ht hd => ?_⟩
    obtain rfl : f.part.encode = token := Option.some.inj ((resume?_withResume hi _).symm.trans ht)
    obtain rfl : f.part = part := Option.some.inj (f.part.decode?_encode.symm.trans hd)
    exact ⟨rfl, hres, rfl⟩
  | drop =>
    refine ⟨_, rfl, fun token part ht => ?_⟩
    rw [hr] at ht
    cases ht

theorem phase_of_result? {result : Except Failure Path} (h : f.result? = some result) : f.phase = .ended result := by
  unfold result? at h
  split at h
  · rename_i he
    cases h
    exact he
  · cases h

theorem send_spec (f : Fetch) (files : Files) (again : Bool) :
    Sends f files again (f.send files again).1 (f.send files again).2.1 (f.send files again).2.2 := by
  unfold send
  split
  · rename_i h
    exact .send h
  · rename_i h
    exact .block (Bool.eq_false_iff.mpr h) (fail_spec f files _)

theorem resumePoint_spec (folder : Path) (url : String) (files : Files) (token : ResumeToken) :
    (∃ part, resumePoint files url token = (some part, files) ∧ Picked folder url files (some token) part files) ∨
    ∃ files', resumePoint files url token = (none, files') ∧
      Picked folder url files (some token) (newPart folder url files') files'.draw := by
  unfold resumePoint
  cases hd : Partial.decode? token with
  | none => exact Or.inr ⟨files, rfl, .fresh hd⟩
  | some part =>
    by_cases hu : part.url = url
    · cases hv : part.validator with
      | none => exact Or.inr ⟨files.erase part.path, by simp [hv], .spoilt hd (Or.inr (Or.inl hv))⟩
      | some validator =>
        cases hb : files.get? part.path with
        | none =>
          refine Or.inr ⟨files.erase part.path, by simp [hu, hv, hb], .spoilt hd (Or.inr (Or.inr fun bytes h => ?_))⟩
          rw [hb] at h
          cases h
        | some bytes =>
          by_cases hl : bytes.length = part.received.toNat
          · exact Or.inl ⟨part, by simp [hu, hv, hb, hl], .resumed hd hu (by rw [hv]; rfl) hb hl⟩
          · refine Or.inr ⟨files.erase part.path, by simp [hu, hv, hb, hl],
              .spoilt hd (Or.inr (Or.inr fun bytes' h => ?_))⟩
            rw [hb] at h
            cases h
            exact hl
    · exact Or.inr ⟨files.erase part.path, by simp [hu], .spoilt hd (Or.inl hu)⟩

/-- The request is located, the folder is there, and a partial file is picked; or the call ends with no fetch. -/
theorem start_spec (t : HttpTransport) (request : TransportRequest) (resume : Option ResumeToken) (files : Files) :
    (∃ failure, start t request resume files = (.error failure, files) ∧
      (t.locate request = .error failure ∨ files.makeFolder t.folder = .error failure)) ∨
    ∃ url made part files' f effects files'', t.locate request = .ok url ∧ files.makeFolder t.folder = .ok made ∧
      Picked t.folder url.render made resume part files' ∧
      Sends (opening t request url part) files' false f files'' effects ∧
      start t request resume files = (.ok (f, effects), files'') := by
  cases hu : t.locate request with
  | error failure =>
    refine Or.inl ⟨failure, ?_, Or.inl rfl⟩
    unfold start
    rw [hu]
  | ok url =>
    cases hm : files.makeFolder t.folder with
    | error failure =>
      refine Or.inl ⟨failure, ?_, Or.inr rfl⟩
      unfold start
      rw [hu, hm]
    | ok made =>
      right
      have hsend := fun part files' => send_spec (opening t request url part) files' false
      unfold start
      rw [hu, hm]
      cases resume with
      | none => exact ⟨url, made, _, _, _, _, _, rfl, rfl, .fresh rfl, hsend _ _, rfl⟩
      | some token =>
        rcases resumePoint_spec t.folder url.render made token with ⟨part, hr, hp⟩ | ⟨files', hr, hp⟩
        · refine ⟨url, made, _, _, _, _, _, rfl, rfl, hp, hsend _ _, ?_⟩
          simp only [hr]
          rfl
        · refine ⟨url, made, _, _, _, _, _, rfl, rfl, hp, hsend _ _, ?_⟩
          simp only [hr]
          rfl

theorem resume?_of_locate {failure : Failure} (h : t.locate request = .error failure) : failure.resume? = none := by
  unfold HttpTransport.locate at h
  split at h
  · cases h
    rfl
  · split at h <;> cases h
    rfl

theorem resume?_of_makeFolder {failure : Failure} {path : Path} (h : files.makeFolder path = .error failure) :
    failure.resume? = none := by
  unfold Files.makeFolder at h
  split at h
  · cases h
    rfl
  · split at h <;> cases h

theorem resume?_of_start {failure : Failure} {path : Path} (h : t.locate request = .error failure ∨
    files.makeFolder path = .error failure) : failure.resume? = none :=
  h.elim resume?_of_locate resume?_of_makeFolder

theorem send_of_isSendable {f : Fetch} {again : Bool} (h : f.isSendable = true) :
    f.send files again = ({ f with phase := .sending again }, files, [.send f.request]) := if_pos h

/-- A call that is given no token asks for the whole object. -/
theorem start_of_none (hu : t.locate request = .ok url) (hm : files.makeFolder t.folder = .ok made)
    (hd : (opening t request url (newPart t.folder url.render made)).isSendable = true) :
    start t request none files = (.ok (opening t request url (newPart t.folder url.render made),
      [.send (opening t request url (newPart t.folder url.render made)).request]), made.draw) := by
  have hs : (opening t request url (newPart t.folder url.render made)).send made.draw false = _ := send_of_isSendable hd
  unfold opening newPart at hs ⊢
  unfold start
  simp only [hu, hm, hs]

/-- A call that is given the token of a partial file that is still there asks for the rest. -/
theorem start_of_encode (hu : t.locate request = .ok url) (hm : files.makeFolder t.folder = .ok made)
    (hp : part.url = url.render) (hv : part.validator.isSome = true) (hb : made.get? part.path = some bytes)
    (hl : bytes.length = part.received.toNat) (hd : (opening t request url part).isSendable = true) :
    start t request (some part.encode) files =
      (.ok (opening t request url part, [.send (opening t request url part).request]), made) := by
  have hr : resumePoint made url.render part.encode = (some part, made) := by
    have hn : part.validator.isNone = false := by simpa using hv
    unfold resumePoint
    simp [hp, hn, hb, hl]
  have hs : (opening t request url part).send made false = _ := send_of_isSendable hd
  unfold opening at hs ⊢
  unfold start
  simp only [hu, hm, hr, hs]

/-! ### The steps -/

/-- A response that goes on where the file ends, or need not. -/
theorem accept_spec {again : Bool} {head : Head} (hp : f.phase = .sending again)
    (hc : head.status = Head.partialContent → 0 < f.part.received →
      again = true ∨ head.start? = some f.part.received) :
    Step f files (.head head) (f.accept files head).1 (f.accept files head).2 [] := by
  have he : f.accept files head =
      if head.status = Head.partialContent ∧ 0 < f.part.received then
        (f.taking head f.part.received, files.append f.part.path [])
      else if head.isSuccess = true then (f.taking head 0, files.write f.part.path [])
      else f.fail files (.httpStatus head.status f.url.render) := by
    unfold accept
    by_cases ha : head.status = Head.partialContent ∧ 0 < f.part.received
    · simp [ha, taking]
    · by_cases hs : head.isSuccess = true
      · simp [ha, hs, taking]
      · simp [ha, hs]
  rw [he]
  split
  · rename_i ha
    exact .append hp ha.1 ha.2 (hc ha.1 ha.2)
  · rename_i ha
    split
    · rename_i hs
      refine .begin hp hs ?_
      by_cases h206 : head.status = Head.partialContent
      · exact Or.inr (UInt64.le_antisymm (UInt64.not_lt.mp fun hr => ha ⟨h206, hr⟩) UInt64.zero_le)
      · exact Or.inl h206
    · rename_i hs
      exact .refuse hp (Bool.eq_false_iff.mpr hs) (fail_spec f files _)

theorem respond_spec {again : Bool} {head : Head} (hp : f.phase = .sending again) :
    Step f files (.head head) (f.respond files again head).1 (f.respond files again head).2.1
      (f.respond files again head).2.2 := by
  unfold respond
  split
  · rename_i h
    simp only [Bool.and_eq_true, Bool.not_eq_true', decide_eq_true_eq] at h
    obtain ⟨⟨⟨rfl, hs⟩, hr⟩, hc⟩ := h
    exact .restart hp hs hr hc (send_spec f.anew files true)
  · rename_i h
    refine accept_spec hp fun hs hr => ?_
    by_cases ha : again = true
    · exact Or.inl ha
    · refine Or.inr (Classical.not_not.mp fun hc => h ?_)
      simp [ha, hs, hr, hc]

theorem step_spec (f : Fetch) (files : Files) (input : FetchInput) :
    Step f files input (f.step files input).1 (f.step files input).2.1 (f.step files input).2.2 := by
  have hfail : ∀ failure, f.trouble? input = some failure →
      Step f files input (f.fail files failure).1 (f.fail files failure).2 [] :=
    fun failure ht => .fail ht (fail_spec f files failure)
  obtain ⟨url, headers, timeout, part, phase⟩ := f
  cases phase with
  | sending again =>
    cases input with
    | head head => exact respond_spec rfl
    | chunk | finish => exact .ignore rfl
    | broken | silent | failed | cancel => exact hfail _ rfl
  | reading total =>
    cases input with
    | head => exact .ignore rfl
    | chunk bytes => exact .receive rfl
    | finish => exact .complete rfl
    | broken | silent | failed | cancel => exact hfail _ rfl
  | ended result => cases input <;> exact .ignore rfl

end Fetch

/-! ### The steps of a chain -/

namespace Chain

variable {c d : Chain} {effects : List FetchEffect} {files : Files} {last : Option (Except Failure Path)}

theorem link_going_of_none {f : Fetch} (c : Chain) (files : Files) (h : f.result? = none) :
    (c.going f files).link = .busy f := by
  unfold going
  simp only [h]

theorem link_going_of_some {f : Fetch} {result : Except Failure Path} (c : Chain) (files : Files)
    (h : f.result? = some result) : (c.going f files).link = .idle (some result) := by
  unfold going
  simp only [h]

theorem call_of_start {f : Fetch} (hl : c.link = .idle last)
    (h : Fetch.start c.transport c.request c.token? c.files = (.ok (f, effects), files)) :
    c.step? .call = some (c.going f files, effects) := by
  unfold step? call?
  simp only [hl, h]

/-- A call ends at once with a failure that leaves all as it is, or begins with a partial file. -/
theorem cases_of_call (h : c.step? .call = some (d, effects)) :
    ∃ last, c.link = .idle last ∧
      ((∃ failure, (c.transport.locate c.request = .error failure ∨
          c.files.makeFolder c.transport.folder = .error failure) ∧
        d = { c with link := .idle (some (.error failure)) } ∧ effects = []) ∨
      ∃ url made part files f files', c.transport.locate c.request = .ok url ∧
        c.files.makeFolder c.transport.folder = .ok made ∧
        Fetch.Picked c.transport.folder url.render made c.token? part files ∧
        Fetch.Sends (Fetch.opening c.transport c.request url part) files false f files' effects ∧
        d = c.going f files') := by
  cases hl : c.link with
  | busy f =>
    have hc : c.step? .call = none := by
      unfold step? call?
      simp only [hl]
    rw [hc] at h
    cases h
  | idle last =>
    refine ⟨last, rfl, ?_⟩
    rcases Fetch.start_spec c.transport c.request c.token? c.files with
      ⟨failure, hst, hf⟩ | ⟨url, made, part, files, f, effects', files', hu, hm, hp, hsend, hst⟩
    · have hc : c.step? .call = some ({ c with link := .idle (some (.error failure)) }, []) := by
        unfold step? call?
        simp only [hl, hst]
      cases hc.symm.trans h
      exact Or.inl ⟨failure, hf, rfl, rfl⟩
    · cases (call_of_start hl hst).symm.trans h
      exact Or.inr ⟨url, made, part, files, f, files', hu, hm, hp, hsend, rfl⟩

/-- What comes from outside comes to the call that goes on. -/
theorem cases_of_input {input : FetchInput} (h : c.step? (.input input) = some (d, effects)) :
    ∃ f f' files', c.link = .busy f ∧ Fetch.Step f c.files input f' files' effects ∧ d = c.going f' files' := by
  cases hl : c.link with
  | idle last =>
    have hc : c.step? (.input input) = none := by
      unfold step? input?
      simp only [hl]
    rw [hc] at h
    cases h
  | busy f =>
    have hc : c.step? (.input input) =
        some (c.going (f.step c.files input).1 (f.step c.files input).2.1, (f.step c.files input).2.2) := by
      unfold step? input?
      simp only [hl]
    cases hc.symm.trans h
    exact ⟨f, _, _, rfl, Fetch.step_spec f c.files input, rfl⟩

end Chain
end SealedDownload.Http
