import SealedDownload.Http.Watch
import SealedDownload.Proofs.Http.Sessions
import SealedDownload.Proofs.Downloader.Slots

/-! A watched download and its files. The session of its transfer takes every step of the downloader along, so that it
    stays in order whatever happens to the others; and while a call awaits a response, its file is the part that it
    goes on with, or is not there yet. -/

namespace SealedDownload.Http

/-! ### While a response is awaited -/

/-- What is there of the file of a fetch that awaits a response: nothing if nothing has been received, and an older
    part if all is asked for again. -/
def Fetch.Awaits (f : Fetch) (files : Files) : Prop :=
  match f.phase with
  | .sending false => f.part.received = 0 → files.get? f.part.path = none
  | .sending true => ∃ bytes, files.get? f.part.path = some bytes
  | _ => True

theorem Fetch.awaits_of_failed {f f' : Fetch} {files files' : Files} {failure : Failure}
    (h : Fetch.Failed f files failure f' files') : f'.Awaits files' := by
  cases h <;> trivial

theorem Fetch.awaits_step {f f' : Fetch} {files files' : Files} {input : FetchInput} {effects : List FetchEffect}
    (h : Fetch.Step f files input f' files' effects) (hf : f.Has files) (ha : f.Awaits files) : f'.Awaits files' := by
  cases h with
  | ignore => exact ha
  | restart hp hs hr hc hd =>
    cases hd with
    | send =>
      obtain ⟨bytes, hb, -⟩ := isOn_of_has hf hr
      exact ⟨bytes, hb⟩
    | block _ hf => exact awaits_of_failed hf
  | append | begin | complete => trivial
  | receive hp => simp only [Awaits, hp]
  | refuse _ _ hf | fail _ hf => exact awaits_of_failed hf

theorem Fetch.Awaits.congr {f : Fetch} {files files' : Files} (h : f.Awaits files)
    (hg : files'.get? f.part.path = files.get? f.part.path) : f.Awaits files' := by
  unfold Fetch.Awaits at h ⊢
  rw [hg]
  exact h

namespace Session

variable {s s' : Session} {input : Transfer.Input} {resume : Option ResumeToken}

/-- What is there of the file of a call that awaits a response. -/
def Awaits (s : Session) : Prop := ∀ f, s.call = some (.going f) → f.Awaits s.files

theorem awaits_of_call (h : s.call = none) : s.Awaits := by
  intro f hf
  cases h.symm.trans hf

theorem awaits_callFor {request : TransportRequest} (hg : ∀ token, resume = some token → token.IsGood s.files)
    (hd : s.files.get? (s.files.nextPath s.transport.folder "download") = none) :
    (s.callFor request resume).Awaits := by
  unfold callFor
  rcases Fetch.start_spec s.transport request resume s.files with
    ⟨failure, hst, -⟩ | ⟨url, made, part, files', f, effects, files'', -, hm, hpick, hsend, hst⟩
  · rw [hst]
    intro g hg
    cases hg
  · rw [hst]
    intro g hcall
    obtain ⟨rfl, -⟩ := eq_of_ofFetch (Option.some.inj hcall)
    cases hsend with
    | block _ hf => exact Fetch.awaits_of_failed hf
    | send =>
      -- A token that can be used has received something; any other file is new.
      intro hzero
      have hnext : ∀ path, ((made.erase path).get? (made.nextPath s.transport.folder "download")) = none := by
        intro path
        refine Files.get?_erase_eq_none path ?_
        rw [Files.get?_of_makeFolder hm, Files.nextPath, Files.drawn_of_makeFolder hm]
        exact hd
      cases hpick with
      | resumed hdec =>
        obtain ⟨token, rfl, hdec⟩ := Option.bind_eq_some_iff.mp hdec
        obtain ⟨found, hfound, -, hpos, -⟩ := hg token rfl
        cases hdec.symm.trans hfound
        have hzero : part.received = 0 := hzero
        rw [hzero] at hpos
        exact absurd hpos (by decide)
      | spoilt => exact hnext _
      | fresh =>
        change made.get? (made.nextPath s.transport.folder "download") = none
        rw [Files.get?_of_makeFolder hm, Files.nextPath, Files.drawn_of_makeFolder hm]
        exact hd

/-- Where no call is going on, one begins with a new file, or with one of which something has been received. -/
theorem awaits_feed (hc : s.call = none)
    (hg : ∀ token, s.transfer.phase = .ready (some token) → token.IsGood s.files)
    (hd : s.files.get? (s.files.nextPath s.transport.folder "download") = none) : (s.feed input).Awaits := by
  obtain ⟨t, effects, hstep, he⟩ := s.feed_spec input
  rw [he]
  have hquiet : (∀ resume, .call resume ∉ effects) → (effects.foldl perform { s with transfer := t }).Awaits := by
    intro h
    exact awaits_of_call ((call_foldl_perform h _).trans hc)
  have hdiscards : ∀ resume given, .call given ∉ Transfer.discards resume := by
    intro resume given hm
    cases resume with
    | none => cases hm
    | some token => cases List.mem_singleton.mp hm
  cases hstep with
  | @call resume hp =>
    change (Session.perform { s with transfer := _ } (.call resume)).Awaits
    unfold perform
    dsimp only
    split
    · refine awaits_callFor (fun token ht => hg token ?_) hd
      rw [hp, ht]
    · exact awaits_of_call hc
  | stop | abort | fail | interrupt => exact hquiet (hdiscards _)
  | _ =>
    refine hquiet fun resume hm => ?_
    simp [Transfer.restEffects] at hm

theorem awaits_net {f f' : Fetch} {input : FetchInput} {files : Files} {effects : List FetchEffect} (hs : s.Sound)
    (ha : s.Awaits) (hc : s.call = some (.going f)) (hf : f.step s.files input = (f', files, effects)) :
    (effects.foldl hear { s with files, call := some (.ofFetch f') }).Awaits := by
  have hstep := Fetch.step_spec f s.files input
  rw [hf] at hstep
  obtain ⟨t, tripped, he, -⟩ := hear_spec { s with files, call := some (.ofFetch f') } effects (hs.calling hc)
  rw [he]
  intro g hg
  obtain ⟨rfl, -⟩ := eq_of_ofFetch (Option.some.inj hg)
  exact Fetch.awaits_step hstep (hs.has hc) (ha f hc)

theorem awaits_step {action : SessionAction} (hs : s.Sound) (ha : s.Awaits)
    (hd : s.files.get? (s.files.nextPath s.transport.folder "download") = none) (h : s.step? action = some s')
    (hf : action.isForeign = false) : s'.Awaits := by
  have hfeed : ∀ {p : TransferPhase} input, s.transfer.phase = p → p.isCalling = false → (s.feed input).Awaits := by
    intro p input hp hn
    have hc := hs.call_eq_none (by rw [hp, hn])
    refine awaits_feed hc (fun token ht => ?_) hd
    exact hs.isOn (h := .remembered token) (holding_of_phase hc ht)
  cases step_of_step? h with
  | fail hp | begin hp | interrupt hp | measure hp | wake hp => exact hfeed _ hp rfl
  | net hc _ hn => exact awaits_net hs ha hc hn
  | @spoil f f' kind files hc hn =>
    have hfail := Fetch.fail_spec f s.files (.io kind none)
    rw [hn] at hfail
    intro g hg
    obtain ⟨rfl, -⟩ := eq_of_ofFetch (Option.some.inj hg)
    exact Fetch.awaits_of_failed hfail
  | settle hc =>
    -- A transfer that takes a result is not about to begin a call.
    refine awaits_feed (s := { s with call := none }) rfl (fun token ht => ?_) hd
    have hcalling := hs.calling hc
    rw [show s.transfer.phase = .ready (some token) from ht] at hcalling
    cases hcalling
  | cancel => exact ha
  | others => cases hf

/-- Tokens that are cancelled have nothing to do with files. -/
theorem Sound.retoken (hs : s.Sound) (cancelled tripped : Bool) : { s with cancelled, tripped }.Sound :=
  ⟨hs.tidy, hs.drawn, hs.clear, hs.calls, hs.asked, hs.located⟩

end Session

/-! ### A watched download -/

namespace Watch

variable {w w' : Watch} {s s' : Session} {action : WatchAction} {d d' : Downloader} {x : Download} {t : Transfer}
  {i : Nat}

theorem session?_of_transferring (hd : w.downloader.downloads[w.number]? = some x) (hp : x.phase = .transferring t) :
    w.session? = some ⟨w.transport, x.request, t, w.call, w.files, w.downloader.isCancelled x, x.tripped,
      w.created⟩ := by
  simp only [session?, hd, Option.bind_eq_bind, Option.bind_some, hp]

theorem session?_eq_some (h : w.session? = some s) : ∃ x t, w.downloader.downloads[w.number]? = some x ∧
    x.phase = .transferring t ∧ s = ⟨w.transport, x.request, t, w.call, w.files, w.downloader.isCancelled x, x.tripped,
      w.created⟩ := by
  unfold session? at h
  obtain ⟨x, hd, h⟩ := Option.bind_eq_some_iff.mp h
  split at h
  · rename_i t hp
    exact ⟨x, t, hd, hp, (Option.some.inj h).symm⟩
  · cases h

/-- The session as the downloader has it. -/
def Joins (d : Downloader) (i : Nat) (s : Session) : Prop :=
  ∃ x, d.downloads[i]? = some x ∧ x.request = s.request ∧ x.phase = .transferring s.transfer

theorem joins_of_offer {input : Transfer.Input} {act : Downloader.Action} (hd : d.downloads[i]? = some x)
    (hp : x.phase = .transferring t) (ha : act.isAbout i = true) (hst : d.stored act = d)
    (ho : d.offer? (d.isCancelled x) t.phase act = some input) (h : d.step? act = some d')
    (hr : s.request = x.request) (ht : s.transfer = (t.step input).1) : Joins d' i s := by
  have hi := (Downloader.input?_of_transferring hd hp ha).trans ho
  rw [Downloader.step?_of_input? hd hp ha hi, hst] at h
  cases h
  obtain ⟨tripped, hset⟩ := (Downloader.feed_spec hd t input).downloads
  have hl : i < d.downloads.length := (List.getElem?_eq_some_iff.mp hd).1
  have hnew : (d.feed i x t input).downloads[i]? =
      some { x with phase := .transferring (t.step input).1, tripped } := by
    rw [hset, List.getElem?_set_self (by simp [Downloader.move, Downloader.put, hl])]
  exact ⟨_, hnew, hr.symm, congrArg DownloadPhase.transferring ht.symm⟩

/-- The reports of a call reach the transfer in the session as in the downloader. -/
theorem joins_of_reports {effects : List FetchEffect} (hj : Joins d w.number s)
    (hc : s.transfer.phase.isCalling = true) (h : d.run? (effects.filterMap w.report?) = some d') :
    Joins d' w.number (effects.foldl Session.hear s) := by
  induction effects generalizing d s with
  | nil =>
    cases h
    exact hj
  | cons effect rest ih =>
    cases effect with
    | send => exact ih hj hc h
    | report completed total =>
      obtain ⟨e, he, hr⟩ := Option.bind_eq_some_iff.mp h
      obtain ⟨x, hd, hreq, hp⟩ := hj
      obtain ⟨t, tripped, hfeed, ht⟩ := s.feed_report completed.toNat (total.map UInt64.toNat) hc
      have hcalling : (s.hear (.report completed total)).transfer.phase.isCalling = true := by
        change (s.feed _).transfer.phase.isCalling = true
        rw [hfeed]
        exact ht
      obtain ⟨hkt, -, hkr⟩ := s.feed_keeps (.report completed.toNat (total.map UInt64.toNat))
      refine ih ?_ hcalling hr
      have ha : Downloader.Action.isAbout w.number
          (.report w.number completed.toNat (total.map UInt64.toNat)) = true := decide_eq_true rfl
      obtain ⟨noted, hph⟩ := eq_calling hc
      exact joins_of_offer hd hp ha rfl (by rw [hph]; rfl) he (hkr.trans hreq.symm) hkt

/-- What an own step of the watched transfer is. -/
theorem own_spec (h : w.own? action = some w') : ∃ s input s' d, w.session? = some s ∧
    w.forSession s action = some input ∧ s.step? input = some s' ∧
    w.downloader.run? (w.forDownloader s action) = some d ∧ w.drawsFresh = true ∧
    w' = { w with downloader := d, call := s'.call, created := s'.created }.withFiles s'.files := by
  unfold own? at h
  obtain ⟨s, hs, h⟩ := Option.bind_eq_some_iff.mp h
  obtain ⟨input, hi, h⟩ := Option.bind_eq_some_iff.mp h
  obtain ⟨s', hs', h⟩ := Option.bind_eq_some_iff.mp h
  obtain ⟨d, hd, h⟩ := Option.bind_eq_some_iff.mp h
  split at h
  · rename_i hf
    cases h
    exact ⟨s, input, s', d, hs, hi, hs', hd, hf, rfl⟩
  · cases h

theorem not_foreign_of_forSession {input : SessionAction} (h : w.forSession s action = some input) :
    input.isForeign = false := by
  cases action <;> simp only [forSession] at h
  case go => split at h <;> cases h <;> rfl
  all_goals cases h <;> rfl

theorem joins_of_own {input : SessionAction} (hs : w.session? = some s) (hsound : s.Sound)
    (hi : w.forSession s action = some input) (hs' : s.step? input = some s')
    (hd' : w.downloader.run? (w.forDownloader s action) = some d) : Joins d w.number s' := by
  obtain ⟨x, t, hd, hp, rfl⟩ := session?_eq_some hs
  -- In each case the session and the downloader give the transfer the same input.
  have hfed : ∀ {act : Downloader.Action} {input : Transfer.Input} {s : Session}, act.isAbout w.number = true →
      w.downloader.stored act = w.downloader → w.downloader.run? [act] = some d →
      w.downloader.offer? (w.downloader.isCancelled x) t.phase act = some input → s.request = x.request →
      s.transfer = t → Joins d w.number (s.feed input) := by
    intro act input s ha hst hrun ho hr ht
    obtain ⟨hkt, -, hkr⟩ := s.feed_keeps input
    rw [Downloader.run?_singleton] at hrun
    exact joins_of_offer hd hp ha hst ho hrun (hkr.trans hr) (by rw [hkt, ht])
  have hgo := Downloader.isAbout_advance w.number
  cases action with
  | act | others => cases hi
  | go =>
    simp only [forSession] at hi
    split at hi
    · rename_i file hph
      cases hi
      cases Session.step_of_step? hs' with
      | measure hp =>
        cases hph.symm.trans hp
        exact hfed hgo rfl hd' (by rw [hp]; rfl) rfl rfl
    · cases hi
      cases Session.step_of_step? hs' with
      | fail hp | begin hp => exact hfed hgo rfl hd' (by rw [hp]; rfl) rfl rfl
      | interrupt hp hc =>
        have hc : w.downloader.isCancelled x = true := hc
        exact hfed hgo rfl hd' (by rw [hp, hc]; rfl) rfl rfl
  | net input =>
    cases hi
    cases Session.step_of_step? hs' with
    | @net f _ _ _ _ hc _ hf =>
      have hc : w.call = some (.going f) := hc
      have hf : f.step w.files input = _ := hf
      simp only [forDownloader, hc, hf] at hd'
      exact joins_of_reports ⟨x, hd, rfl, hp⟩ (hsound.calling hc) hd'
  | spoil kind =>
    cases hi
    cases hd'
    cases Session.step_of_step? hs' with
    | spoil => exact ⟨x, hd, rfl, hp⟩
  | settle draw =>
    cases hi
    cases Session.step_of_step? hs' with
    | @settle result _ hc =>
      have hc : w.call = some (.over result) := hc
      simp only [forDownloader, hc] at hd'
      have ha : Downloader.Action.isAbout w.number (.settle w.number result none draw) = true := decide_eq_true rfl
      obtain ⟨noted, hph⟩ := eq_calling (hsound.calling hc)
      refine hfed ha ?_ hd' ?_ rfl rfl
      · cases result <;> rfl
      · rw [show t.phase = .calling noted from hph]
        rfl
  | wake =>
    cases hi
    cases Session.step_of_step? hs' with
    | wake hp =>
      have ha : Downloader.Action.isAbout w.number (.wake w.number) = true := decide_eq_true rfl
      exact hfed ha rfl hd' (by rw [hp]; rfl) rfl rfl

/-! ### Steps -/

theorem spares_iff {files : Files} : w.spares files = true ↔
    (∀ path ∈ w.created, files.get? path = w.files.get? path) ∧ files.blocks w.transport.folder = false := by
  simp [spares]

theorem input?_of_leaves {act : Downloader.Action} (h : w.leaves act = true) :
    w.downloader.input? w.number act = none := by
  cases hi : w.downloader.input? w.number act with
  | none => rfl
  | some input =>
    obtain ⟨x, t, hd, hp⟩ := Downloader.transferring_of_input? hi
    have ha := Downloader.isAbout_of_input? hi
    rw [Downloader.input?_of_transferring hd hp ha] at hi
    unfold leaves at h
    rw [session?_of_transferring hd hp] at h
    cases act with
    | advance j =>
      obtain rfl : j = w.number := of_decide_eq_true ha
      have hended : t.result?.isSome = true := by simpa using h
      obtain ⟨result, hr⟩ := Option.isSome_iff_exists.mp hended
      rw [Transfer.phase_of_result? hr] at hi
      cases hi
    | report j | settle j | wake j =>
      obtain rfl : j = w.number := of_decide_eq_true ha
      simp at h
    | drop | link => cases hph : t.phase <;> rw [hph] at hi <;> cases hi
    | _ => cases ha

/-- What holds of a watched download at any time. -/
structure Steady (w : Watch) : Prop where
  clear : w.files.blocks w.transport.folder = false
  session : ∀ s, w.session? = some s → s.Sound ∧ s.Awaits
  early : (∀ x, w.downloader.downloads[w.number]? = some x → x.phase.isEarly = true) → w.call = none ∧ w.created = []
  accounted : w.downloader.Accounted

theorem steady_start {transport : HttpTransport} {capacity : Nat} (hf : d.IsFresh)
    (ha : d.admission = .ofCapacity capacity) (hc : d.shared.files.blocks transport.folder = false) :
    (start transport i d).Steady where
  clear := hc
  session s hs := by
    obtain ⟨x, t, hx, -⟩ := session?_eq_some hs
    have hx : d.downloads[i]? = some x := hx
    rw [hf.downloads] at hx
    cases hx
  early _ := ⟨rfl, rfl⟩
  accounted := hf.accounted ha

theorem Steady.own (h : w.Steady) (hw : w.own? action = some w') : w'.Steady := by
  obtain ⟨s, input, s', d, hs, hi, hs', hd, hfresh, rfl⟩ := own_spec hw
  obtain ⟨hsound, hawaits⟩ := h.session s hs
  have hforeign := not_foreign_of_forSession hi
  have hsound' := (Session.keeps_step hsound hs' hforeign).sound
  obtain ⟨x', hx', hr', hp'⟩ := joins_of_own hs hsound hi hs' hd
  obtain ⟨htransport, -⟩ := Session.step_keeps hs'
  obtain ⟨x, t, hx, hp, rfl⟩ := session?_eq_some hs
  have hnext : w.files.get? (w.files.nextPath w.transport.folder "download") = none := by
    simpa [drawsFresh, Files.contains] using hfresh
  have hawaits' : s'.Awaits := Session.awaits_step hsound hawaits hnext hs' hforeign
  have haccounted : d.Accounted := Downloader.accounted_run h.accounted hd
  -- What the downloader has of the watched download after the step is `s'`, but for its tokens.
  refine ⟨?_, fun u hu => ?_, fun hearly => ?_, haccounted⟩
  · have hclear := hsound'.clear
    rw [htransport] at hclear
    exact hclear
  · obtain ⟨y, t', hy, hq, rfl⟩ := session?_eq_some hu
    cases hx'.symm.trans hy
    cases hp'.symm.trans hq
    have hretoken := hsound'.retoken (d.isCancelled x') x'.tripped
    rw [← hr', htransport] at hretoken
    exact ⟨hretoken, hawaits'⟩
  · have hphase := hearly x' hx'
    rw [hp'] at hphase
    cases hphase

/-- Others leave a session as it should be. -/
theorem session_others {files : Files} (hs : s.Sound) (ha : s.Awaits)
    (hsame : ∀ path ∈ s.created, files.get? path = s.files.get? path)
    (hclear : files.blocks s.transport.folder = false) : { s with files }.Sound ∧ { s with files }.Awaits := by
  refine ⟨Session.sound_others hs hsame hclear, fun f hf => ?_⟩
  have hm : f.part.path ∈ s.created := hs.tidy.mem _ (by rw [Session.holding, hf]; rfl)
  exact (ha f hf).congr (hsame _ hm)

theorem session?_become {d : Downloader} (h : (w.become d).session? = some s) : (w.become d).call = w.call := by
  obtain ⟨x, t, hd, hp, -⟩ := session?_eq_some h
  have hnext : { w with downloader := d }.session?.isSome = true := by
    rw [session?_of_transferring (w := { w with downloader := d }) hd hp]
    rfl
  exact if_pos hnext

theorem Steady.act {act : Downloader.Action} (h : w.Steady) (hw : w.act? act = some w') : w'.Steady := by
  unfold act? at hw
  split at hw
  · rename_i hl
    obtain ⟨d, hd', hw⟩ := Option.bind_eq_some_iff.mp hw
    split at hw <;> cases hw
    rename_i hs
    obtain ⟨hsame, hclear⟩ := spares_iff.mp hs
    have hstep := Downloader.step_of_step? hd'
    have hnone := input?_of_leaves hl
    refine ⟨hclear, fun s hs => ?_, fun hearly => ?_, hstep.accounted h.accounted⟩
    · have hcall := session?_become hs
      obtain ⟨x', t', hx', hp', rfl⟩ := session?_eq_some hs
      simp only [hcall]
      rcases hstep.moved w.number x' hx' with ⟨x, hx, hc, hm⟩ | ⟨-, hnew⟩
      · rw [hnone, hp'] at hm
        rw [hc.request]
        generalize hp : x.phase = p at hm
        cases hm with
        | stay =>
          obtain ⟨hsound, hawaits⟩ := h.session _ (session?_of_transferring hx hp)
          obtain ⟨hsound', hawaits'⟩ := session_others hsound hawaits hsame hclear
          exact ⟨hsound'.retoken _ _, hawaits'⟩
        | begin =>
          -- The transfer is new, so that no call has made a file for it yet.
          obtain ⟨hcall, hcreated⟩ := h.early fun y hy => by
            cases hx.symm.trans hy
            rw [hp]
            rfl
          obtain ⟨made, hmade⟩ := makeFolder_of_clear hclear
          have hstart : (Session.start w.transport x.id x.request x.limit w.downloader.retry d.shared.files).Sound :=
            Session.sound_start hmade
          refine ⟨?_, Session.awaits_of_call hcall⟩
          simp only [hcall]
          have hcreated : (w.become d).created = [] := hcreated
          rw [hcreated]
          exact hstart.retoken _ _
        | wait _ hq => cases hq
        | leave _ hq => cases hq
      · cases hp'.symm.trans hnew
    · have hbefore : ∀ x, w.downloader.downloads[w.number]? = some x → x.phase.isEarly = true := by
        intro x hx
        obtain ⟨x', hx', -⟩ := hstep.continues hx
        have hphase := hearly x' hx'
        rcases hstep.moved w.number x' hx' with ⟨y, hy, -, hm⟩ | ⟨hlen, -⟩
        · cases hx.symm.trans hy
          rw [hnone] at hm
          generalize x.phase = p at hm ⊢
          generalize x'.phase = q at hm hphase
          cases hm with
          | stay => exact hphase
          | wait hp => exact hp
          | begin | finish => cases hphase
          | leave _ hq =>
            rw [DownloadPhase.isLate_of_isEarly hphase] at hq
            cases hq
        · rw [List.getElem?_eq_none hlen] at hx
          cases hx
      obtain ⟨hcall, hcreated⟩ := h.early hbefore
      refine ⟨?_, hcreated⟩
      unfold become
      dsimp only
      split
      · exact hcall
      · rfl
  · cases hw

theorem Steady.step (h : w.Steady) (hw : w.step? action = some w') : w'.Steady := by
  cases action with
  | act act => exact h.act hw
  | others files =>
    simp only [step?] at hw
    split at hw <;> cases hw
    rename_i hs
    obtain ⟨hsame, hclear⟩ := spares_iff.mp hs
    refine ⟨hclear, fun s hs => ?_, h.early, h.accounted⟩
    obtain ⟨x, t, hx, hp, rfl⟩ := session?_eq_some hs
    obtain ⟨hsound, hawaits⟩ := h.session _ (session?_of_transferring hx hp)
    exact session_others hsound hawaits hsame hclear
  | go | net | spoil | settle | wake => exact h.own hw

theorem steady_run {actions : List WatchAction} (h : w.Steady) (hr : w.run? actions = some w') : w'.Steady := by
  induction actions generalizing w with
  | nil =>
    cases hr
    exact h
  | cons action rest ih =>
    obtain ⟨e, he, hr⟩ := Option.bind_eq_some_iff.mp hr
    exact ih (h.step he) hr

end Watch
end SealedDownload.Http
