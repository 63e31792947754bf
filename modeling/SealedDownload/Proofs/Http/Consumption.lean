import SealedDownload.Proofs.Http.Custody
import SealedDownload.Proofs.Http.Resumption

/-! A call consumes the token that it is given. Once it is over, the file of the token is what the call returns, or a
    new token remembers it, or it is gone, whatever the server and the disk have done. Only a call whose request has no
    locator ends before it has looked at its token, and leaves the file where it is, with nobody to remember it. -/

namespace SealedDownload.Http

/-- What can happen to a call that goes on. -/
inductive Incident where
  | input (input : FetchInput)
  /-- the file cannot be opened, written or flushed -/
  | spoil (kind : IoKind)

namespace Call

/-- A call begins. -/
def start (t : HttpTransport) (request : TransportRequest) (resume : Option ResumeToken) (files : Files) :
    Call × Files :=
  match Fetch.start t request resume files with
  | (.error failure, files) => (.over (.error failure), files)
  | (.ok (f, _), files) => (.ofFetch f, files)

/-- The call and the files after an incident; nothing happens to a call that is over. -/
def meet (call : Call) (files : Files) (incident : Incident) : Call × Files :=
  match call, incident with
  | .going f, .input input =>
    let (f, files, _) := f.step files input
    (.ofFetch f, files)
  | .going f, .spoil kind =>
    let (f, files) := f.fail files (.io kind none)
    (.ofFetch f, files)
  | .over result, _ => (.over result, files)

/-- Incidents one after the other. -/
def run (call : Call) (files : Files) : List Incident → Call × Files
  | [] => (call, files)
  | incident :: rest =>
    let (call, files) := call.meet files incident
    call.run files rest

/-- A call with what happens to it, from its beginning. -/
def course (t : HttpTransport) (request : TransportRequest) (resume : Option ResumeToken) (files : Files)
    (incidents : List Incident) : Call × Files :=
  (start t request resume files).1.run (start t request resume files).2 incidents

/-- A file is in the hands of a call, or gone. -/
structure Accounts (path : Path) (call : Call) (files : Files) : Prop where
  going : ∀ f, call = .going f → f.result? = none
  hands : (Holding.ofCall call).path? = some path ∨ files.get? path = none

variable {t : HttpTransport} {request : TransportRequest} {token : ResumeToken} {part : Partial} {url : Url}
  {files files' made left : Files} {f f' : Fetch} {failure : Failure} {again : Bool} {input : FetchInput}
  {effects : List FetchEffect} {path : Path} {call : Call} {result : Except Failure Path}

/-! ### The file that a fetch works on -/

theorem accounts_of_going (hr : f.result? = none) (files : Files) :
    Accounts f.part.path (.ofFetch f) files := by
  have hf : Call.ofFetch f = .going f := by simp only [Call.ofFetch, hr]
  rw [hf]
  refine ⟨fun g hg => ?_, Or.inl rfl⟩
  cases hg
  exact hr

theorem accounts_of_over (h : (Holding.ofCall (.over result)).path? = some path ∨ files.get? path = none) :
    Accounts path (.over result) files where
  going _ hg := by cases hg
  hands := h

/-- A fetch that fails leaves a token for its file, or no file. -/
theorem accounts_failed (h : Fetch.Failed f files failure f' files') :
    Accounts f.part.path (.ofFetch f') files' := by
  cases h with
  | keep hi =>
    rw [ofFetch_of_ended rfl]
    refine accounts_of_over (Or.inl ?_)
    simp only [Holding.ofCall, Fetch.resume?_withResume hi, Holding.ofToken, Holding.path?, Partial.decode?_encode,
      Option.map_some]
  | drop =>
    rw [ofFetch_of_ended rfl]
    exact accounts_of_over (Or.inr (Files.get?_erase ..))

theorem accounts_sends (h : Fetch.Sends f files again f' files' effects) :
    Accounts f.part.path (.ofFetch f') files' := by
  cases h with
  | send => exact accounts_of_going (f := { f with phase := .sending again }) rfl files
  | block _ hf => exact accounts_failed hf

theorem accounts_step (h : Fetch.Step f files input f' files' effects) (hr : f.result? = none) :
    Accounts f.part.path (.ofFetch f') files' := by
  cases h with
  | ignore => exact accounts_of_going hr files
  | restart _ _ _ _ hd => exact accounts_sends (f := f.anew) hd
  | @append again head => exact accounts_of_going (f := f.taking head f.part.received) rfl _
  | @begin again head => exact accounts_of_going (f := f.taking head 0) rfl _
  | refuse _ _ hf => exact accounts_failed hf
  | @receive total bytes hp =>
    refine accounts_of_going (f := { f with
      part := { f.part with received := f.part.received + UInt64.ofNat bytes.length } }) ?_ _
    simp only [Fetch.result?, hp]
  | complete hp =>
    rw [ofFetch_of_ended rfl]
    exact accounts_of_over (Or.inl rfl)
  | fail _ hf => exact accounts_failed hf

/-! ### Any file -/

/-- What happens to a call that works on another file leaves a file gone that is gone. -/
theorem Accounts.pass (h : Accounts path (.going f) files) (hown : Accounts f.part.path (.ofFetch f') files')
    (hframe : ∀ other, other ≠ f.part.path → files'.get? other = files.get? other) :
    Accounts path (.ofFetch f') files' := by
  by_cases hp : f.part.path = path
  · exact hp ▸ hown
  · have hgone : files.get? path = none := h.hands.resolve_left fun he => hp (Option.some.inj he)
    exact ⟨hown.going, Or.inr ((hframe path (Ne.symm hp)).trans hgone)⟩

theorem accounts_meet (h : Accounts path call files) (incident : Incident) :
    Accounts path (call.meet files incident).1 (call.meet files incident).2 := by
  rcases call with f | result
  · have hr := h.going f rfl
    cases incident with
    | input input =>
      have hstep := Fetch.step_spec f files input
      exact h.pass (accounts_step hstep hr) fun _ hne => frame_of_step hstep hne
    | spoil kind =>
      have hfail := Fetch.fail_spec f files (.io kind none)
      exact h.pass (accounts_failed hfail) fun _ hne => frame_of_failed hfail hne
  · exact h

theorem accounts_run (h : Accounts path call files) (incidents : List Incident) :
    Accounts path (call.run files incidents).1 (call.run files incidents).2 := by
  induction incidents generalizing call files with
  | nil => exact h
  | cons incident rest ih => exact ih (accounts_meet h incident)

/-! ### The token of a call -/

/-- A call works on the file of its token, or has removed it before it draws another. -/
theorem accounts_of_picked {folder : Path} {text : String} {next : Partial}
    (h : Fetch.Picked folder text made (some token) next files) (hd : Partial.decode? token = some part)
    (hs : Fetch.Sends (Fetch.opening t request url next) files again f files' effects) :
    Accounts part.path (.ofFetch f) files' := by
  have hown : Accounts next.path (.ofFetch f) files' := accounts_sends (f := Fetch.opening t request url next) hs
  cases h with
  | resumed hd' =>
    cases hd'.symm.trans hd
    exact hown
  | spoilt hd' =>
    cases hd'.symm.trans hd
    by_cases hp : (Fetch.newPart folder text (made.erase part.path)).path = part.path
    · exact hp ▸ hown
    · refine ⟨hown.going, Or.inr ?_⟩
      exact (frame_of_sends hs (Ne.symm hp)).trans (Files.get?_erase made part.path)
  | fresh hd' => cases hd'.symm.trans hd

theorem start_of_locate_error (resume : Option ResumeToken) (h : t.locate request = .error failure) :
    start t request resume files = (.over (.error failure), files) := by
  unfold start Fetch.start
  rw [h]

theorem accounts_start (hd : Partial.decode? token = some part) (hu : t.locate request = .ok url)
    (hm : files.makeFolder t.folder = .ok made) :
    Accounts part.path (start t request (some token) files).1 (start t request (some token) files).2 := by
  rcases Fetch.start_spec t request (some token) files with
    ⟨failure, -, h | h⟩ | ⟨url', made', next, files₁, f, effects, files₂, -, -, hp, hs, hst⟩
  · cases h.symm.trans hu
  · cases h.symm.trans hm
  · unfold start
    rw [hst]
    exact accounts_of_picked hp hd hs

theorem run_of_over (result : Except Failure Path) (files : Files) (incidents : List Incident) :
    run (.over result) files incidents = (.over result, files) := by
  induction incidents with
  | nil => rfl
  | cons incident rest ih => exact ih

/-- When a call is over, the file of its token has been returned, or the token of the failure remembers it, or it is
    gone, if the request has a locator. If it has none, the file stays where it is, and no token remembers it. -/
theorem consumes_token (hd : Partial.decode? token = some part) (hm : files.makeFolder t.folder = .ok made)
    (incidents : List Incident) (h : course t request (some token) files incidents = (.over result, left)) :
    (∀ url, t.locate request = .ok url →
      result = .ok part.path ∨
      (∃ failure next rest, result = .error failure ∧ failure.resume? = some next ∧
        Partial.decode? next = some rest ∧ rest.path = part.path) ∨
      left.get? part.path = none) ∧
    ∀ failure, t.locate request = .error failure →
      result = .error failure ∧ failure.resume? = none ∧ left = files := by
  refine ⟨fun url hu => ?_, fun failure hu => ?_⟩
  · have hrun : Accounts part.path (course t request (some token) files incidents).1
        (course t request (some token) files incidents).2 := accounts_run (accounts_start hd hu hm) incidents
    rw [h] at hrun
    rcases hrun.hands with hpath | hgone
    · cases result with
      | ok path => exact Or.inl (congrArg Except.ok (Option.some.inj hpath))
      | error failure =>
        cases hr : failure.resume? with
        | none => simp [Holding.ofCall, hr, Holding.ofToken, Holding.path?] at hpath
        | some next =>
          simp only [Holding.ofCall, hr, Holding.ofToken, Holding.path?, Option.map_eq_some_iff] at hpath
          obtain ⟨rest, hrest, hp⟩ := hpath
          exact Or.inr (Or.inl ⟨failure, next, rest, rfl, hr, hrest, hp⟩)
    · exact Or.inr (Or.inr hgone)
  · rw [course, start_of_locate_error (some token) hu, run_of_over] at h
    cases h
    exact ⟨rfl, Fetch.resume?_of_locate hu, rfl⟩

/-- The rest of a file is asked for, and there is no such object any more: the file goes. -/
theorem consumes_token_refused : ∃ t request url part files left result,
    Partial.decode? part.encode = some part ∧ files.makeFolder t.folder = .ok files ∧ t.locate request = .ok url ∧
    files.get? part.path = some [97] ∧
    course t request (some part.encode) files [.input (.head ⟨404, [], none⟩)] = (.over result, left) ∧
    result = .error (.httpStatus 404 url.render) ∧ left.get? part.path = none := by
  obtain ⟨bases, url, hu, hf⟩ : ∃ bases url, HttpTransport.locate ⟨bases, "t", .zero⟩ ⟨1, "a", []⟩ = .ok url ∧
      Fetch.isFetchable url = true :=
    ⟨[(1, ⟨"http", "", "", some (.name "o"), none, .segments [""], none, none⟩)],
      ⟨"http", "", "", some (.name "o"), none, .segments ["a"], none, none⟩, rfl, by decide +kernel⟩
  obtain ⟨files, hm, hg⟩ : ∃ files : Files, files.makeFolder "t" = .ok files ∧ files.get? "t/p" = some [97] := by
    refine ⟨⟨[("t/p", [97])], ["t"], 0⟩, ?_, by decide +kernel⟩
    unfold Files.makeFolder
    rw [if_neg (by decide +kernel), if_pos (by decide +kernel)]
  let t : HttpTransport := ⟨bases, "t", .zero⟩
  let part : Partial := ⟨url.render, "t/p", 1, some "v"⟩
  have hd := part.decode?_encode
  have hh : [("range", rangeFrom 1), ("if-range", "v")].all isHeader = true := by decide +kernel
  have hst : Fetch.start t ⟨1, "a", []⟩ (some part.encode) files = _ :=
    Fetch.start_of_encode hu hm rfl rfl hg rfl (Bool.and_eq_true_iff.mpr ⟨hf, hh⟩)
  have hrun : course t ⟨1, "a", []⟩ (some part.encode) files [.input (.head ⟨404, [], none⟩)] =
      (.over (.error (.httpStatus 404 url.render)), files.erase part.path) := by
    unfold course start
    rw [hst]
    rfl
  refine ⟨t, _, url, part, files, _, _, hd, hm, hu, hg, hrun, rfl, ?_⟩
  rcases (consumes_token hd hm _ hrun).1 url hu with h | ⟨_, next, _, h, hr, -⟩ | hgone
  · cases h
  · cases h
    cases hr
  · exact hgone

/-- A request for a network without a base fails, and the file of the token is still there. -/
theorem unlocated_keeps_file : ∃ t request part files left failure,
    Partial.decode? part.encode = some part ∧ files.makeFolder t.folder = .ok files ∧
    files.get? part.path = some [97] ∧
    course t request (some part.encode) files [] = (.over (.error failure), left) ∧
    failure = .protocol "no origin configured for CDN 9" ∧ failure.resume? = none ∧
    left.get? part.path = some [97] :=
  ⟨⟨[(2, ⟨"http", "", "", some (.name "o"), none, .segments [""], none, none⟩)], "t", .zero⟩,
    ⟨9, "attachments/obj", []⟩, ⟨"http://o/attachments/obj", "t/p", 1, some "v"⟩, ⟨[("t/p", [97])], ["t"], 0⟩, _, _,
    Partial.decode?_encode _, rfl, rfl, rfl, by decide +kernel, rfl, rfl⟩

end Call
end SealedDownload.Http
