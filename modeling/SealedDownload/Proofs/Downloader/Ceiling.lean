import SealedDownload.Proofs.Downloader.Transfers
import SealedDownload.Proofs.Transfer.Ceiling

/-! The ceiling in a downloader. A transfer ends with a file only while a file of at most that size is there, what
    it has removed is gone, and a download whose ceiling has been exceeded is never opened. -/

namespace SealedDownload.Downloader

open Transfer (Exceeds)

variable {d₀ d d' : Downloader} {action : Action} {actions : List Action} {i : Nat} {x : Download} {t : Transfer}
  {input : Transfer.Input} {file : Path}

/-- A downloader at which nothing has been asked for. -/
structure IsFresh (d : Downloader) : Prop where
  downloads : d.downloads = []
  pipeline : d.pipeline = .idle
  sent : d.shared.events.sent = []

theorem isFresh_of_start? {config : Config} {ceiling : Nat} {validator : Validator} {files : Files}
    (h : start? config ceiling validator files = some (.ok d)) : d.IsFresh := by
  unfold start? at h
  split at h
  · cases h
  · obtain ⟨events, he, hd⟩ := Option.map_eq_some_iff.mp h
    cases hd
    refine ⟨rfl, rfl, ?_⟩
    unfold Broadcast.open? at he
    split at he
    · cases he
      rfl
    · cases he

theorem IsFresh.traced (h : d.IsFresh) : Traced d.retry (fun _ => []) [] d where
  retry := rfl
  absent _ _ := rfl
  follows i x hx := by
    rw [h.downloads] at hx
    cases hx
  delivered job hj := by
    rw [h.pipeline] at hj
    cases hj
  started := by
    rw [h.sent]
    rfl

theorem IsFresh.traced_run {actions : List Action} {e : Downloader} (h : d.IsFresh) (hr : d.run? actions = some e) :
    Traced d.retry (d.inputs · actions) (d.begun actions) e := by
  simpa only [List.nil_append] using Downloader.traced_run h.traced hr

/-! ### Files -/

theorem offer?_measuring {cancelled : Bool} (h : d.offer? cancelled (.measuring file) action = some input) :
    d.stored action = d ∧ input = .measure (d.sizeOf file) 0 := by
  cases action with
  | advance => exact ⟨rfl, (Option.some.inj h).symm⟩
  | _ => cases h

theorem sizeOf_eq_ok {size : Nat} (h : d.sizeOf file = .ok size) :
    ∃ bytes, d.shared.files.get? file = some bytes ∧ bytes.length = size := by
  unfold sizeOf at h
  split at h
  · exact ⟨_, ‹_›, Except.ok.inj h⟩
  · cases h

/-- A transfer that ends with a file has found it there, at most as large as the ceiling, and leaves it there. -/
theorem exists_of_delivered (hd : d.downloads[i]? = some x) (hp : x.phase = .transferring t)
    (hi : d.input? i action = some input) (he : (t.step input).1.phase = .ended (.ok file)) :
    ∃ bytes, ((d.stored action).feed i x t input).shared.files.get? file = some bytes ∧ bytes.length ≤ t.limit := by
  have ho := hi
  rw [input?_of_transferring hd hp (isAbout_of_input? hi)] at ho
  rcases (Transfer.step_spec t input).delivered he with ⟨hp', -⟩ | ⟨hm, size, draw, hs, rfl, heff⟩
  · rw [hp'] at ho
    cases action <;> cases ho
  · rw [hm] at ho
    obtain ⟨hst, hmeasure⟩ := offer?_measuring ho
    obtain ⟨bytes, hb, rfl⟩ := sizeOf_eq_ok (Transfer.Input.measure.inj hmeasure).1.symm
    rw [hst]
    refine ⟨bytes, ?_, hs⟩
    have hk := (feed_spec hd t (.measure (.ok bytes.length) draw)).kept file (by rw [heff]; nofun)
    exact hk.trans hb

/-! ### Runs -/

/-- What the ceilings mean for a run of a downloader. -/
structure KeepsCeilings (d₀ : Downloader) (actions : List Action) (d : Downloader) : Prop where
  /-- the transfer of a download is the run of its start on the inputs that the actions have been for it -/
  transfers : ∀ i (x : Download) t, d.downloads[i]? = some x → x.phase = .transferring t →
    t = ((x.transfer d₀.retry).run (d₀.inputs i actions)).1
  /-- a transfer that ends with a file leaves it there, at most as large as the ceiling, and what it has removed
      is gone -/
  files : ∀ i (x : Download) t action input d', d.downloads[i]? = some x → x.phase = .transferring t →
    d.input? i action = some input → d.step? action = some d' →
      (∀ file, (t.step input).1.result? = some (.ok file) →
        ∃ bytes, d'.shared.files.get? file = some bytes ∧ bytes.length ≤ x.limit) ∧
      ∀ file, .remove file ∈ (t.step input).2 → d'.shared.files.get? file = none
  /-- every beginning that is announced is that of a job, which belongs to a download -/
  announced : d.shared.events.sent.filterMap Event.startedId? = (d₀.begun actions).map (·.id) ∧
    ∀ job ∈ d₀.begun actions, ∃ x, d.downloads[job.call]? = some x ∧ x.id = job.id
  /-- no beginning is announced for a download of which a report or the file was above the ceiling -/
  unopened : ∀ i (x : Download), d.downloads[i]? = some x →
    ((∃ completed total, .given (.report completed total) ∈ (x.transfer d₀.retry).log (d₀.inputs i actions) ∧
        Exceeds x.limit completed total) ∨
      ∃ size draw, .given (.measure (.ok size) draw) ∈ (x.transfer d₀.retry).log (d₀.inputs i actions) ∧
        x.limit < size) →
    ∀ job ∈ d₀.begun actions, job.call ≠ i

theorem keepsCeilings (hf : d₀.IsFresh) (h : d₀.run? actions = some d) : d₀.KeepsCeilings actions d := by
  have ht := traced_run hf.traced h
  simp only [List.nil_append] at ht
  refine ⟨fun i x t hd hp => ?_, fun i x t action input d' hd hp hi hs => ?_, ⟨ht.started, fun job hj => ?_⟩,
    fun i x hd hx job hj => ?_⟩
  · exact ht.eq_run hd hp
  · rw [step?_of_input? hd hp (isAbout_of_input? hi) hi] at hs
    cases hs
    have hlim : t.limit = x.limit := by
      rw [ht.eq_run hd hp]
      exact Transfer.limit_run _ _
    refine ⟨fun file hr => ?_, fun file hm => ?_⟩
    · rw [← hlim]
      exact exists_of_delivered hd hp hi (Transfer.phase_of_result? hr)
    · have hst := (stored_eq d action).1
      exact (feed_spec (by rw [hst, hd]) t input).removed file hm
  · obtain ⟨x, file, hd, hid, -⟩ := ht.delivered job (List.mem_append_right _ hj)
    exact ⟨x, hd, hid⟩
  · -- A job belongs to a download whose transfer has delivered a file, so that nothing was above the ceiling.
    rintro rfl
    obtain ⟨y, file, hy, -, hr⟩ := ht.delivered job (List.mem_append_right _ hj)
    rw [hd] at hy
    cases hy
    have hk : (x.transfer d₀.retry).KeepsCeiling (d₀.inputs job.call actions) := Transfer.keepsCeiling_start ..
    rcases hx with ⟨completed, total, hm, hx⟩ | ⟨size, draw, hm, hx⟩
    · exact (hk.delivered file hr).2 completed total hm hx
    · obtain ⟨before, after, hl⟩ := List.append_of_mem hm
      have he := (hk.measured before after size draw hl hx).1
      rw [hr] at he
      cases he

/-- The ceiling of a transfer holds whatever the transport reports and answers, and in a downloader no job is
    begun for a download in which something was above it. -/
theorem ceiling_kept :
    (∀ (id : TransferId) (request : Request) (limit : Nat) (policy : RetryPolicy) (inputs : List Transfer.Input),
      (Transfer.start id request limit policy).KeepsCeiling inputs) ∧
    ∀ (d₀ d : Downloader) (actions : List Action), d₀.IsFresh → d₀.run? actions = some d →
      d₀.KeepsCeilings actions d :=
  ⟨Transfer.keepsCeiling_start, fun _ _ _ => keepsCeilings⟩

/-- Two attachments below a ceiling of four bytes: a report for the first one shows nine, and the second one is
    fetched and opened. -/
theorem ceiling_kept_exceeded :
    let metadata : Metadata := ⟨"text/plain", 2, "key", ⟨List.replicate 64 0, by decide⟩, none, none⟩
    let d₀ : Downloader := ⟨⟨3, .ofMillis 500, .ofMillis 8000, 2, true⟩, 100, 4, "plaintext", Validator.keeping, false,
      .ofCapacity 1, .idle, ⟨.empty, ⟨16, []⟩⟩, .empty, ⟨1⟩, [], [], []⟩
    let actions : List Action := [.ask (.attachment metadata ⟨7⟩) 0, .ask (.attachment metadata ⟨8⟩) 0,
      .advance 0, .advance 0, .advance 0, .advance 0, .report 0 3 (some 9), .settle 0 (.ok "a") (some [1, 2, 3]) 0,
      .advance 0, .advance 0, .advance 1, .advance 1, .advance 1, .advance 1, .settle 1 (.ok "b") (some [1, 2]) 0,
      .advance 1, .advance 1, .advance 1, .work, .work]
    ∃ d x, d₀.run? actions = some d ∧ d.downloads[0]? = some x ∧
      Transfer.firstExcess x.limit ((x.transfer d₀.retry).log (d₀.inputs 0 actions)) = some 9 ∧
      (d₀.begun actions).map (·.id) = [⟨2⟩] ∧ ∀ job ∈ d₀.begun actions, job.call ≠ 0 := by
  intro metadata d₀ actions
  have hf : d₀.IsFresh := ⟨rfl, rfl, rfl⟩
  have hx : (d₀.run? actions).map (fun d => (d.shared.events.sent.filterMap Event.startedId?,
      (d.downloads[0]?).map fun x => Transfer.firstExcess x.limit ((x.transfer d₀.retry).log (d₀.inputs 0 actions)))) =
        some ([⟨2⟩], some (some 9)) := by decide +kernel
  obtain ⟨d, hr, hx⟩ := Option.map_eq_some_iff.mp hx
  obtain ⟨hs, hx⟩ := Prod.mk.inj hx
  obtain ⟨x, hd, hx⟩ := Option.map_eq_some_iff.mp hx
  have hk := ceiling_kept.2 d₀ d actions hf hr
  obtain ⟨before, after, completed, total, hl, hlt, -, -⟩ := Transfer.firstExcess_eq_some_iff.mp hx
  have hm : .given (.report completed total) ∈ (x.transfer d₀.retry).log (d₀.inputs 0 actions) := by
    rw [hl]
    exact List.mem_append_right _ List.mem_cons_self
  exact ⟨d, x, hr, hd, hx, hk.announced.1.symm.trans hs, hk.unopened 0 x hd (Or.inl ⟨completed, total, hm, hlt⟩)⟩

end SealedDownload.Downloader
