import SealedDownload.Proofs.Downloader.Ceiling
import SealedDownload.Proofs.Progress.Tracker

/-! What a downloader publishes. A report counts if a byte has come and no size that it shows is above the ceiling of
    its download. The tracker gets exactly the reports that count and are those of an attachment that is not
    transient, in the order in which they are made, and nothing else changes what it shows. -/

namespace SealedDownload

/-- Whether a report counts below a ceiling. -/
def Counts (limit completed : Nat) (total : Option Nat) : Prop :=
  0 < completed ∧ completed ≤ limit ∧ ∀ size ∈ total, size ≤ limit

instance (limit completed : Nat) (total : Option Nat) : Decidable (Counts limit completed total) :=
  inferInstanceAs (Decidable (_ ∧ _ ∧ _))

/-! ### Transfers -/

namespace Transfer

variable {t t' : Transfer} {input : Input} {effects : List Effect} {limit completed : Nat} {total : Option Nat}

/-- The update that an effect publishes. -/
def Effect.update? : Effect → Option (AttachmentId × Float)
  | .publish id fraction => some (id, fraction)
  | _ => none

/-- The report that an input is, if it counts and is one of a tracked attachment. -/
def counted? (t : Transfer) : Input → Option ProgressReport
  | .report completed total =>
    if Counts t.limit completed total then t.attachment.map (⟨·, completed, total⟩) else none
  | _ => none

theorem counted?_eq_none (h : ∀ completed total, input ≠ .report completed total) : t.counted? input = none := by
  cases input with
  | report completed total => exact absurd rfl (h completed total)
  | _ => rfl

theorem counts_iff : Counts limit completed total ↔ completed ≠ 0 ∧ excess? limit completed total = none := by
  rw [Counts, Nat.pos_iff_ne_zero, excess?_eq_none_iff]

/-- What a step publishes where its input fits: the fraction of the report that the input is, if it counts. -/
theorem Step.updates (h : Step t input t' effects) (hf : fits t.phase input = true) :
    t.counted? input = none ∧ effects.filterMap Effect.update? = [] ∨
      ∃ r fraction, t.counted? input = some r ∧ r.fraction? = some fraction ∧
        effects.filterMap Effect.update? = [(r.id, fraction)] := by
  have hdiscards : ∀ token, (discards token).filterMap Effect.update? = [] := by
    intro token
    cases token <;> rfl
  cases h with
  | ignore hi => exact absurd hf (Bool.eq_false_iff.mp hi)
  | @early _ total =>
    have hc : ¬Counts t.limit 0 total := fun hc => Nat.lt_irrefl 0 hc.1
    refine Or.inl ⟨?_, rfl⟩
    rw [counted?, if_neg hc]
  | trip _ _ hx =>
    refine Or.inl ⟨if_neg fun hc => ?_, rfl⟩
    rw [(counts_iff.mp hc).2] at hx
    cases hx
  | @publish _ completed total id fraction _ hc hx ha hfr =>
    refine Or.inr ⟨⟨id, completed, total⟩, fraction, ?_, hfr, rfl⟩
    rw [counted?, if_pos (counts_iff.mpr ⟨hc, hx⟩), ha, Option.map_some]
  | @pass _ completed total _ _ _ ha =>
    refine Or.inl ⟨?_, rfl⟩
    rw [counted?, ha, Option.map_none, ite_self]
  | stop | abort | fail | interrupt => exact Or.inl ⟨rfl, hdiscards _⟩
  | _ => exact Or.inl ⟨rfl, rfl⟩

theorem Step.attachment_eq (h : Step t input t' effects) : t'.attachment = t.attachment := by
  cases h <;> rfl

theorem attachment_run (t : Transfer) (inputs : List Input) : (t.run inputs).1.attachment = t.attachment := by
  induction inputs generalizing t with
  | nil => rfl
  | cons input rest ih =>
    rw [run_cons, ih]
    exact (step_spec t input).attachment_eq

end Transfer

/-! ### Downloads -/

namespace Downloader

variable {d₀ d d' : Downloader} {action : Action} {actions : List Action} {i : Nat} {x : Download} {t : Transfer}
  {input : Transfer.Input} {policy : RetryPolicy} {fed : Nat → List Transfer.Input} {jobs : List Job}
  {reports : List ProgressReport}

/-- The report that an action is, if it counts and the request of its download is that of an attachment with an
    identifier. -/
def counted? (d : Downloader) : Action → Option ProgressReport
  | .report i completed total => do
    let x ← d.downloads[i]?
    match x.request with
    | .attachment _ id => if Counts x.limit completed total then some ⟨id, completed, total⟩ else none
    | _ => none
  | _ => none

/-- The reports of a run that count, first one first. -/
def counted (d : Downloader) : List Action → List ProgressReport
  | [] => []
  | action :: rest => (d.counted? action).toList ++ ((d.step? action).map (·.counted rest)).getD []

theorem tracker_performAll (hd : d.downloads[i]? = some x) (effects : List Transfer.Effect) :
    (d.performAll i effects).tracker =
      (effects.filterMap Transfer.Effect.update?).foldl (fun tracker u => tracker.set u.1 u.2) d.tracker := by
  induction effects generalizing d x with
  | nil => rfl
  | cons effect rest ih =>
    obtain ⟨tripped, hx⟩ := (perform_spec hd effect).downloads
    have hd' : (d.perform i x effect).downloads[i]? = some { x with tripped } := by
      rw [hx, List.getElem?_set_self (List.getElem?_eq_some_iff.mp hd).1]
    rw [performAll_cons effect rest hd, ih hd']
    cases effect with
    | publish => rfl
    | call resume =>
      have htracker : (d.perform i x (.call resume)).tracker = d.tracker := by
        unfold perform
        dsimp only
        split <;> rfl
      rw [htracker]
      rfl
    | _ => rfl

theorem tracker_stored (d : Downloader) (action : Action) : (d.stored action).tracker = d.tracker := by
  unfold stored
  split <;> rfl

theorem tracker_feed (hd : d.downloads[i]? = some x) (t : Transfer) (input : Transfer.Input) :
    ((d.stored action).feed i x t input).tracker =
      ((t.step input).2.filterMap Transfer.Effect.update?).foldl (fun tracker u => tracker.set u.1 u.2) d.tracker := by
  have hs : ((d.stored action).move i x (.transferring (t.step input).1)).downloads[i]? =
      some { x with phase := .transferring (t.step input).1 } :=
    List.getElem?_set_self (List.getElem?_eq_some_iff.mp (getElem?_stored hd)).1
  have hm : ((d.stored action).move i x (.transferring (t.step input).1)).tracker = d.tracker := tracker_stored d action
  rw [feed, tracker_performAll hs, hm]

/-- An input that an action is fits, and it is a report only where the action is that report. -/
theorem offer?_spec {cancelled : Bool} {p : TransferPhase} (h : d.offer? cancelled p action = some input) :
    Transfer.fits p input = true ∧
      ∀ completed total, input = .report completed total ↔ ∃ j, action = .report j completed total := by
  unfold offer? at h
  split at h
  case h_4 =>
    obtain ⟨-, h⟩ := Option.ite_none_right_eq_some.mp h
    cases h
    exact ⟨rfl, fun _ _ => ⟨nofun, nofun⟩⟩
  case h_5 =>
    cases h
    exact ⟨rfl, fun completed total => by simp⟩
  all_goals cases h
  all_goals exact ⟨rfl, fun _ _ => ⟨nofun, nofun⟩⟩

/-- The transfer of a download has the ceiling of the download and the identifier of its request. -/
theorem Traced.transfer_of (ht : Traced policy fed jobs d) (hd : d.downloads[i]? = some x)
    (hp : x.phase = .transferring t) : t.limit = x.limit ∧ t.attachment = x.request.attachmentId? := by
  rw [ht.eq_run hd hp]
  exact ⟨Transfer.limit_run _ _, Transfer.attachment_run _ _⟩

/-- An action that is an input of a transfer is a report that counts where the input is one. -/
theorem counted?_of_input? (ht : Traced policy fed jobs d) (hd : d.downloads[i]? = some x)
    (hp : x.phase = .transferring t) (hi : d.input? i action = some input) :
    d.counted? action = t.counted? input := by
  obtain ⟨hl, ha⟩ := ht.transfer_of hd hp
  have hab := isAbout_of_input? hi
  rw [input?_of_transferring hd hp hab] at hi
  have hr := (offer?_spec hi).2
  cases action with
  | report j completed total =>
    obtain rfl : j = i := of_decide_eq_true hab
    obtain rfl := (hr completed total).mpr ⟨j, rfl⟩
    simp only [counted?, hd, Option.bind_eq_bind, Option.bind_some, Transfer.counted?, hl, ha]
    cases x.request <;> simp [Request.attachmentId?]
  | _ =>
    refine (Transfer.counted?_eq_none fun completed total h => ?_).symm
    obtain ⟨j, hj⟩ := (hr completed total).mp h
    cases hj

/-- What a step makes of the tracker: nothing, unless it is a report that counts. -/
theorem Step.published (h : Step d action d') (ht : Traced policy fed jobs d) :
    d.counted? action = none ∧ d'.tracker = d.tracker ∨
      ∃ r fraction, d.counted? action = some r ∧ r.fraction? = some fraction ∧
        d'.tracker = d.tracker.set r.id fraction := by
  cases h with
  | @feed i x t _ input hd hp hi =>
    have hf : Transfer.fits t.phase input = true := by
      rw [input?_of_transferring hd hp (isAbout_of_input? hi)] at hi
      exact (offer?_spec hi).1
    rw [counted?_of_input? ht hd hp hi, tracker_feed hd]
    rcases (Transfer.step_spec t input).updates hf with ⟨hn, hu⟩ | ⟨r, fraction, hr, hfr, hu⟩
    · exact Or.inl ⟨hn, by rw [hu]; rfl⟩
    · exact Or.inr ⟨r, fraction, hr, hfr, by rw [hu]; rfl⟩
  | _ => exact Or.inl ⟨rfl, rfl⟩

theorem Step.shows (h : Step d action d') (ht : Traced policy fed jobs d) (hs : d.tracker.Shows reports) :
    d'.tracker.Shows (reports ++ (d.counted? action).toList) := by
  rcases h.published ht with ⟨hn, htracker⟩ | ⟨r, fraction, hr, hf, htracker⟩
  · rwa [hn, htracker, Option.toList_none, List.append_nil]
  · rw [hr, htracker]
    exact hs.set hf

/-- In every run, the tracker shows the reports that count. -/
theorem shows_run (ht : Traced policy fed jobs d) (hs : d.tracker.Shows reports) (h : d.run? actions = some d') :
    d'.tracker.Shows (reports ++ d.counted actions) := by
  induction actions generalizing d fed jobs reports with
  | nil =>
    cases h
    rwa [counted, List.append_nil]
  | cons action rest ih =>
    obtain ⟨e, he, hr⟩ := Option.bind_eq_some_iff.mp h
    have hstep := step_of_step? he
    have hn := ih (hstep.traced ht) (hstep.shows ht hs) hr
    simpa only [counted, he, Option.map_some, Option.getD_some, List.append_assoc] using hn

/-- Whatever downloads there are and whatever is reported for them, the tracker shows the reports that count: it has
    published each of them, in order, and the latest fraction of an attachment is that of the last one. No other
    action changes it, so that nothing comes of a report of a backup, of a transient attachment or above a ceiling. -/
theorem published_as_counted (hf : d₀.IsFresh) (ht : d₀.tracker = .empty) (h : d₀.run? actions = some d) :
    d.tracker.Shows (d₀.counted actions) ∧
      ∀ action d', d.step? action = some d' → d.counted? action = none → d'.tracker = d.tracker := by
  refine ⟨?_, fun action d' hs hn => ?_⟩
  · have hs : d₀.tracker.Shows [] := by
      rw [ht]
      exact Tracker.shows_empty
    exact shows_run hf.traced hs h
  · rcases (step_of_step? hs).published (hf.traced_run h) with ⟨-, htracker⟩ | ⟨r, fraction, hr, -, -⟩
    · exact htracker
    · rw [hn] at hr
      cases hr

/-- A tracked attachment, a transient one and a backup below a ceiling of ten bytes: a report before the first byte
    and one above the ceiling do not count, and one that follows does. -/
theorem published_as_counted_mixed :
    let metadata : Metadata := ⟨"text/plain", 2, "key", ⟨List.replicate 64 0, by decide⟩, none, none⟩
    let d₀ : Downloader := ⟨⟨3, .ofMillis 500, .ofMillis 8000, 2, true⟩, 100, 10, "plaintext", Validator.keeping, false,
      .ofCapacity 3, .idle, ⟨.empty, ⟨16, []⟩⟩, .empty, ⟨1⟩, [], [], []⟩
    let actions : List Action := [.ask (.attachment metadata ⟨7⟩) 0, .ask (.transient metadata) 0,
      .ask (.backup ⟨3, "archive", "latest"⟩ []) 0, .advance 0, .advance 0, .advance 0, .advance 0, .advance 1,
      .advance 1, .advance 1, .advance 1, .advance 2, .advance 2, .advance 2, .advance 2, .report 0 0 (some 10),
      .report 0 4 (some 10), .report 1 5 (some 10), .report 2 6 none, .report 0 5 (some 11), .report 0 10 (some 10)]
    ∃ d, d₀.run? actions = some d ∧
      d.tracker.channel.sent.map (fun update => (update.id, some update.fraction)) =
        [(⟨7⟩, Progress.fraction? 4 (some 10)), (⟨7⟩, Progress.fraction? 10 (some 10))] ∧
      d.tracker.get? ⟨7⟩ = Progress.fraction? 10 (some 10) ∧ d.tracker.get? ⟨8⟩ = none := by
  intro metadata d₀ actions
  have hf : d₀.IsFresh := ⟨rfl, rfl, rfl⟩
  have hr : (d₀.run? actions).isSome = true := by decide +kernel
  have hc : d₀.counted actions = [⟨⟨7⟩, 4, some 10⟩, ⟨⟨7⟩, 10, some 10⟩] := by decide +kernel
  obtain ⟨d, hr⟩ := Option.isSome_iff_exists.mp hr
  have hs := (published_as_counted hf rfl hr).1
  rw [hc] at hs
  exact ⟨d, hr, hs.sent, hs.latest ⟨7⟩, hs.latest ⟨8⟩⟩

end Downloader
end SealedDownload
