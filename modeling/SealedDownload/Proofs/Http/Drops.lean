import SealedDownload.Proofs.Http.Watch

/-! A download over the HTTP transport that its caller drops. Its slot becomes free at once, and nothing else is done:
    the file that its transfer had in hand stays where it is. So nothing is left where it had none in hand, and one
    file, with all that had been received, where it had one. -/

namespace SealedDownload.Http

/-! ### What is left -/

/-- What there is of a transfer if nothing more is done about it: the file that it has in hand, and no other one. -/
structure Session.Forsaken (s : Session) (files : Files) : Prop where
  alone : ∀ path ∈ s.created, s.holding.path? ≠ some path → files.get? path = none
  /-- nothing while the response to the request for a new file is awaited -/
  unanswered : ∀ f, s.call = some (.going f) → f.phase = .sending false → f.part.received = 0 →
    ∀ path ∈ s.created, files.get? path = none
  /-- the part that was there, while the rest of it or all of the object anew is awaited -/
  resumed : ∀ f again, s.call = some (.going f) → f.phase = .sending again → 0 < f.part.received →
    f.part.path ∈ s.created ∧ f.part.IsOn files
  restarted : ∀ f, s.call = some (.going f) → f.phase = .sending true →
    f.part.path ∈ s.created ∧ ∃ bytes, files.get? f.part.path = some bytes
  /-- all that has been received, between two pieces of a body -/
  reading : ∀ f total, s.call = some (.going f) → f.phase = .reading total →
    f.part.path ∈ s.created ∧ f.part.IsOn files
  /-- nothing in a pause without a token, and the file of the token in one with a token -/
  resting : s.transfer.phase = .resting none → ∀ path ∈ s.created, files.get? path = none
  remembering : ∀ token, s.transfer.phase = .resting (some token) → ∃ part, Partial.decode? token = some part ∧
    part.path ∈ s.created ∧ part.IsOn files ∧ 0 < part.received
  measuring : ∀ file, s.transfer.phase = .measuring file → file ∈ s.created ∧ ∃ bytes, files.get? file = some bytes

namespace Session

variable {s : Session}

theorem Sound.forsaken (hs : s.Sound) (ha : s.Awaits) : s.Forsaken s.files := by
  have hgoing : ∀ {f}, s.call = some (.going f) → s.holding = .fetch f ∧ f.part.path ∈ s.created := by
    intro f hc
    have hh : s.holding = .fetch f := by
      rw [holding, hc]
      rfl
    exact ⟨hh, hs.tidy.mem _ (by rw [hh]; rfl)⟩
  have hbetween : ∀ {p : TransferPhase}, s.transfer.phase = p → p.isCalling = false → s.holding = .ofPhase p := by
    intro p hp hn
    exact holding_of_phase (hs.call_eq_none (by rw [hp, hn])) hp
  constructor
  case alone => exact hs.tidy.gone
  case unanswered =>
    intro f hc hp hzero path hm
    have hnone := ha f hc
    simp only [Fetch.Awaits, hp] at hnone
    by_cases he : path = f.part.path
    · rw [he]
      exact hnone hzero
    · refine hs.tidy.gone path hm fun hh => he ?_
      rw [(hgoing hc).1] at hh
      exact (Option.some.inj hh).symm
  case resumed =>
    intro f again hc hp hpos
    exact ⟨(hgoing hc).2, isOn_of_has (hs.has hc) hpos⟩
  case restarted =>
    intro f hc hp
    have hthere := ha f hc
    simp only [Fetch.Awaits, hp] at hthere
    exact ⟨(hgoing hc).2, hthere⟩
  case reading =>
    intro f total hc hp
    have hhas := hs.has hc
    simp only [Fetch.Has, hp] at hhas
    exact ⟨(hgoing hc).2, hhas⟩
  case resting =>
    intro hp path hm
    have hh := hbetween hp rfl
    refine hs.tidy.gone path hm fun he => ?_
    rw [hh] at he
    cases he
  case remembering =>
    intro token hp
    have hh : s.holding = .remembered token := hbetween hp rfl
    obtain ⟨part, hdec, hon, hpos, -⟩ := hs.isOn hh
    exact ⟨part, hdec, hs.tidy.mem _ (by rw [hh, path?_remembered hdec]), hon, hpos⟩
  case measuring =>
    intro file hp
    have hh : s.holding = .file file := hbetween hp rfl
    exact ⟨hs.tidy.mem _ (by rw [hh]; rfl), hs.isOn hh⟩

end Session

namespace Watch

variable {w w' : Watch} {s : Session} {action : WatchAction} {actions : List WatchAction} {d : Downloader}
  {x : Download} {i : Nat}

/-- What has become of a download that has been dropped at `w`, which is `w'` afterwards. -/
structure Dropped (w w' : Watch) : Prop where
  phase : w'.downloader.phase? w.number = some .dropped
  /-- its place in the line or its slot is given up, and all slots are accounted for without it -/
  freed : (∃ ticket, w.downloader.phase? w.number = some (.waiting ticket) ∧
      w'.downloader.admission = w.downloader.admission.leave ticket) ∨
    ∃ t, w.downloader.phase? w.number = some (.transferring t) ∧
      w'.downloader.admission = w.downloader.admission.release
  accounted : w'.downloader.Accounted
  /-- nothing is done about files, and nothing is demanded of the transport -/
  untouched : w'.files = w.files
  undemanded : w'.downloader.demands = w.downloader.demands
  /-- so nothing is left if no transfer had begun, and otherwise what that had in hand -/
  waiting : w.session? = none → w.created = []
  forsaken : ∀ s, w.session? = some s → s.Forsaken w'.files
  /-- and nothing is done about it later -/
  lasting : ∀ later v, w'.run? later = some v → ∀ path ∈ w.created, v.files.get? path = w.files.get? path

/-- The watched download has nothing to do with a transfer any more. -/
def IsLate (w : Watch) : Prop := ∃ x, w.downloader.downloads[w.number]? = some x ∧ x.phase.isLate = true

theorem IsLate.session?_eq_none (h : w.IsLate) : w.session? = none := by
  obtain ⟨x, hd, hl⟩ := h
  cases hs : w.session? with
  | none => rfl
  | some s =>
    obtain ⟨y, t, hy, hp, -⟩ := session?_eq_some hs
    cases hd.symm.trans hy
    rw [hp] at hl
    cases hl

/-- Once the transfer is not under way, no step is one of its own. -/
theorem late_step (h : w.IsLate) (hw : w.step? action = some w') : w'.IsLate ∧ w'.created = w.created ∧
    ∀ path ∈ w.created, w'.files.get? path = w.files.get? path := by
  have hnone := h.session?_eq_none
  cases action with
  | act act =>
    simp only [step?, act?] at hw
    split at hw
    · rename_i hl
      obtain ⟨d, hd', hw⟩ := Option.bind_eq_some_iff.mp hw
      split at hw <;> cases hw
      rename_i hs
      obtain ⟨x, hd, hlate⟩ := h
      have hstep := Downloader.step_of_step? hd'
      obtain ⟨x', hx', -⟩ := hstep.continues hd
      refine ⟨⟨x', hx', ?_⟩, rfl, (spares_iff.mp hs).1⟩
      rcases hstep.moved w.number x' hx' with ⟨y, hy, -, hm⟩ | ⟨hlen, -⟩
      · cases hd.symm.trans hy
        rw [input?_of_leaves hl] at hm
        generalize x.phase = p at hm hlate
        generalize x'.phase = q at hm ⊢
        cases hm with
        | stay => exact hlate
        | wait hp =>
          rw [DownloadPhase.isLate_of_isEarly hp] at hlate
          cases hlate
        | begin | finish => cases hlate
        | leave _ hq => exact hq
      · rw [List.getElem?_eq_none hlen] at hd
        cases hd
    · cases hw
  | others files =>
    simp only [step?] at hw
    split at hw <;> cases hw
    rename_i hs
    exact ⟨h, rfl, (spares_iff.mp hs).1⟩
  | go | net | spoil | settle | wake =>
    obtain ⟨s, _, _, _, hs, -⟩ := own_spec hw
    cases hnone.symm.trans hs

theorem late_run (h : w.IsLate) (hr : w.run? actions = some w') :
    ∀ path ∈ w.created, w'.files.get? path = w.files.get? path := by
  induction actions generalizing w with
  | nil =>
    cases hr
    exact fun _ _ => rfl
  | cons action rest ih =>
    obtain ⟨e, he, hr⟩ := Option.bind_eq_some_iff.mp hr
    obtain ⟨hlate, hcreated, hsame⟩ := late_step h he
    intro path hm
    exact (ih hlate hr path (hcreated ▸ hm)).trans (hsame path hm)

theorem Steady.dropped (h : w.Steady) (ho : w.downloader.phase? w.number ≠ some .opening)
    (hw : w.step? (.act (.drop w.number)) = some w') : Dropped w w' := by
  have hsteady := h.step hw
  have hforsaken : ∀ s, w.session? = some s → s.Forsaken w.files := by
    intro s hs
    obtain ⟨hsound, hawaits⟩ := h.session s hs
    obtain ⟨x, t, -, -, rfl⟩ := session?_eq_some hs
    exact hsound.forsaken hawaits
  simp only [step?, act?] at hw
  split at hw
  · obtain ⟨d, hd', hw⟩ := Option.bind_eq_some_iff.mp hw
    split at hw <;> cases hw
    have there : ∀ {x y : Download}, w.downloader.downloads[w.number]? = some x →
        (w.downloader.downloads.set w.number y)[w.number]? = some y := fun hd =>
      List.getElem?_set_self (List.getElem?_eq_some_iff.mp hd).1
    have hlast : ∀ y, d.downloads[w.number]? = some y → y.phase.isLate = true → ∀ later v,
        (w.become d).run? later = some v → ∀ path ∈ w.created, v.files.get? path = d.shared.files.get? path :=
      fun y hy hl later v hr => late_run (w := w.become d) ⟨y, hy, hl⟩ hr
    cases Downloader.step_of_step? hd' with
    | @dropWaiting _ ticket x hd hp =>
      have hnone : w.session? = none := by
        cases hs : w.session? with
        | none => rfl
        | some s =>
          obtain ⟨y, t, hy, hq, -⟩ := session?_eq_some hs
          cases hd.symm.trans hy
          cases hp.symm.trans hq
      refine ⟨?_, Or.inl ⟨ticket, ?_, rfl⟩, hsteady.accounted, rfl, rfl, fun _ => ?_, hforsaken, hlast _ (there hd) rfl⟩
      · exact congrArg (Option.map Download.phase) (there hd)
      · simp only [Downloader.phase?, hd, Option.map_some, hp]
      · exact (h.early fun y hy => by
          cases hd.symm.trans hy
          rw [hp]
          rfl).2
    | @dropTransfer _ x t hd hp =>
      refine ⟨?_, Or.inr ⟨t, ?_, rfl⟩, hsteady.accounted, rfl, rfl, fun hn => ?_, hforsaken, hlast _ (there hd) rfl⟩
      · exact congrArg (Option.map Download.phase) (there hd)
      · simp only [Downloader.phase?, hd, Option.map_some, hp]
      · cases hn.symm.trans (session?_of_transferring hd hp)
    | feed hd hp hi =>
      rw [Downloader.input?_drop] at hi
      cases hi
    | @dropOpening _ x hd hp =>
      exact absurd (by simp only [Downloader.phase?, hd, Option.map_some, hp]) ho
  · cases hw

/-- A caller that drops a download before its ciphertext is handed over, wherever that waits, gives its slot or its
    place in the line up at once. Nothing is done about the file that the transfer had in hand, then or later. -/
theorem left_by_drop {transport : HttpTransport} {capacity : Nat} (hf : d.IsFresh)
    (ha : d.admission = .ofCapacity capacity) (hc : d.shared.files.blocks transport.folder = false)
    (hr : (start transport i d).run? actions = some w) (ho : w.downloader.phase? w.number ≠ some .opening)
    (hw : w.step? (.act (.drop w.number)) = some w') : Dropped w w' :=
  (steady_run (steady_start hf ha hc) hr).dropped ho hw

/-- The connection breaks behind the second byte, and the caller drops the download in the pause that follows. -/
theorem left_by_drop_in_pause :
    let first : Downloader := { Downloader.withCancelled with retry := ⟨2, .ofMillis 1, .ofMillis 1, 2, false⟩ }
    let actions : List WatchAction := [.act (.ask (.backup ⟨3, "archive", "latest"⟩ []) 1), .act (.advance 0),
      .act (.advance 0), .act (.advance 0), .go, .net (.head ⟨200, [("etag", "a")], none⟩), .net (.chunk [1, 2]),
      .net (.broken "reset"), .settle 0]
    ∃ w w', (start nearby 0 first).run? actions = some w ∧ w.step? (.act (.drop w.number)) = some w' ∧ Dropped w w' ∧
      (w.session?.map fun s => match s.transfer.phase with
        | .resting resume => resume.isSome
        | _ => false) = some true := by
  intro first actions
  have hrun : ((start nearby 0 first).run? actions).map (fun w =>
      ((w.step? (.act (.drop w.number))).isSome, w.session?.map fun s => match s.transfer.phase with
        | .resting resume => resume.isSome
        | _ => false)) = some (true, some true) := by decide +kernel
  obtain ⟨w, hr, hx⟩ := Option.map_eq_some_iff.mp hrun
  obtain ⟨hdrop, hpause⟩ := Prod.mk.inj hx
  obtain ⟨w', hw⟩ := Option.isSome_iff_exists.mp hdrop
  have ho : w.downloader.phase? w.number ≠ some .opening := by
    intro ho
    obtain ⟨s, hs, -⟩ := Option.map_eq_some_iff.mp hpause
    obtain ⟨x, t, hd, hp, -⟩ := session?_eq_some hs
    rw [Downloader.phase?, hd, Option.map_some, hp] at ho
    cases ho
  have hf : first.IsFresh := ⟨rfl, rfl, rfl⟩
  exact ⟨w, w', hr, hw, left_by_drop hf (rfl : first.admission = .ofCapacity 1) rfl hr ho hw, hpause⟩

/-- The caller drops the download behind the second byte. Its slot is free, and the file is still there. -/
theorem partial_file_outlives_drop :
    let first : Downloader := { Downloader.withCancelled with retry := ⟨2, .ofMillis 1, .ofMillis 1, 2, false⟩ }
    let actions : List WatchAction := [.act (.ask (.backup ⟨3, "archive", "latest"⟩ []) 1), .act (.advance 0),
      .act (.advance 0), .act (.advance 0), .go, .net (.head ⟨200, [("etag", "a")], none⟩), .net (.chunk [1, 2]),
      .act (.drop 0)]
    ∃ w path, (start nearby 0 first).run? actions = some w ∧ w.downloader.phase? 0 = some .dropped ∧
      w.downloader.admission.inFlight = 0 ∧ path ∈ w.created ∧ w.files.get? path = some [1, 2] := by
  intro first actions
  have hrun : ((start nearby 0 first).run? actions).map (fun w => (w.downloader.admission.inFlight,
      w.created.map w.files.get?, (w.downloader.phase? 0).any fun p => match p with
        | .dropped => true
        | _ => false)) = some (0, [some [1, 2]], true) := by decide +kernel
  obtain ⟨w, hr, hx⟩ := Option.map_eq_some_iff.mp hrun
  obtain ⟨hfree, hx⟩ := Prod.mk.inj hx
  obtain ⟨hleft, hphase⟩ := Prod.mk.inj hx
  obtain ⟨p, hp, hdropped⟩ := (Option.any_eq_true ..).mp hphase
  have hm : some [1, 2] ∈ w.created.map w.files.get? := by
    rw [hleft]
    exact List.mem_singleton_self _
  obtain ⟨path, hpath, hbytes⟩ := List.mem_map.mp hm
  refine ⟨w, path, hr, ?_, hfree, hpath, hbytes⟩
  rw [hp]
  cases p <;> first | rfl | cases hdropped

end Watch
end SealedDownload.Http
