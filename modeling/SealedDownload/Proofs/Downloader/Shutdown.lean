import SealedDownload.Proofs.Downloader.Numbers

/-! A downloader that has been shut down. It accepts nothing any more: whoever asks leaves no trace, and the object
    of a download is fetched only where it was accepted before. What a caller is told depends on the order of the
    checks, of which the one of the declared length comes first. -/

namespace SealedDownload

/-- The ciphertext size that the declared length of an attachment stands for. -/
def Request.expectedSize? (request : Request) : Option Nat :=
  (request.metadata?.bind (·.plaintextLength)).map fun length => estimatedSize length.toNat

namespace Downloader

variable {d d' e : Downloader} {action : Action} {actions : List Action} {request : Request} {caller : Nat}

theorem limitFor_of_le (h : ∀ size, request.expectedSize? = some size → size ≤ d.ceiling) :
    ∃ limit, d.limitFor request = .ok limit := by
  unfold limitFor
  unfold Request.expectedSize? at h
  cases hm : request.metadata? with
  | none => exact ⟨_, rfl⟩
  | some metadata =>
    cases hl : metadata.plaintextLength with
    | none => exact ⟨d.ceiling, by simp only [hl]⟩
    | some length =>
      have hle : estimatedSize length.toNat ≤ d.ceiling := h _ (by rw [hm, Option.bind_some, hl]; rfl)
      refine ⟨d.ceiling, ?_⟩
      simp only [hl]
      exact if_neg (Nat.not_lt.mpr hle)

theorem limitFor_of_lt {size : Nat} (h : request.expectedSize? = some size) (hl : d.ceiling < size) :
    d.limitFor request = .error (.oversize d.ceiling size) := by
  unfold Request.expectedSize? at h
  obtain ⟨length, hlength, rfl⟩ := Option.map_eq_some_iff.mp h
  obtain ⟨metadata, hm, hp⟩ := Option.bind_eq_some_iff.mp hlength
  unfold limitFor
  simp only [hm, hp]
  exact if_pos hl

theorem ask_of_limitFor {limit : Nat} (hs : d.shutDown = true) (h : d.limitFor request = .ok limit) :
    d.ask request caller = .error .shuttingDown := by
  unfold ask
  rw [h, hs]
  rfl

theorem ask_of_oversize {f : Failure} (h : d.limitFor request = .error f) : d.ask request caller = .error f := by
  unfold ask
  rw [h]
  rfl

/-- What a downloader that has been shut down has in common with a later one. -/
structure Closed (d d' : Downloader) : Prop where
  shutDown : d'.shutDown = true
  nextId : d'.nextId = d.nextId
  length : d'.downloads.length = d.downloads.length
  fetch : ∀ i, ∀ demand ∈ d'.demands, demand.isFetch i = true → demand ∈ d.demands ∨ i < d.downloads.length

theorem Step.closed (h : Step e action d') (hc : Closed d e) : Closed d d' := by
  rcases h.accepts with ⟨request, caller, limit, -, -, hs, -⟩ | ⟨hnext, hlength⟩
  · rw [hc.shutDown] at hs
    cases hs
  · refine ⟨h.shutDown hc.shutDown, hnext.trans hc.nextId, hlength.trans hc.length, fun i demand hm hf => ?_⟩
    rcases h.fetch hm hf with hm | ⟨x, t, input, resume, hx, -⟩
    · exact hc.fetch i demand hm hf
    · have hi : i < e.downloads.length := (List.getElem?_eq_some_iff.mp hx).1
      exact Or.inr (hc.length ▸ hi)

theorem closed_run (hc : Closed d e) (h : e.run? actions = some d') : Closed d d' := by
  induction actions generalizing e with
  | nil =>
    cases h
    exact hc
  | cons action rest ih =>
    obtain ⟨next, he, hr⟩ := Option.bind_eq_some_iff.mp h
    exact ih ((step_of_step? he).closed hc) hr

/-- Once a downloader has been shut down, every request is refused and changes nothing, and the object of a download
    is fetched only if it was accepted before. The refusal says so, unless the declared length of an attachment stands
    for more than the ceiling: that is looked at first. -/
theorem refused_after_shutdown (h : d.shutdown.run? actions = some e) :
    e.nextId = d.nextId ∧ e.downloads.length = d.downloads.length ∧
    (∀ i, ∀ demand ∈ e.demands, demand.isFetch i = true → demand ∈ d.demands ∨ i < d.downloads.length) ∧
    ∀ request caller, e.step? (.ask request caller) = some e ∧
      (((∀ size, request.expectedSize? = some size → size ≤ e.ceiling) ∧
          e.ask request caller = .error .shuttingDown) ∨
        ∃ size, request.expectedSize? = some size ∧ e.ceiling < size ∧
          e.ask request caller = .error (.oversize e.ceiling size)) := by
  have h0 : Closed d d.shutdown := ⟨rfl, rfl, rfl, fun _ _ hm _ => Or.inl hm⟩
  have hc := closed_run h0 h
  refine ⟨hc.nextId, hc.length, hc.fetch, fun request caller => ?_⟩
  by_cases hs : ∀ size, request.expectedSize? = some size → size ≤ e.ceiling
  · obtain ⟨limit, hl⟩ := limitFor_of_le hs
    have ha : e.ask request caller = .error .shuttingDown := ask_of_limitFor hc.shutDown hl
    exact ⟨by rw [step?, ha], Or.inl ⟨hs, ha⟩⟩
  · simp only [not_forall, Nat.not_le] at hs
    obtain ⟨size, hsize, hlt⟩ := hs
    have ha : e.ask request caller = .error (.oversize e.ceiling size) := ask_of_oversize (limitFor_of_lt hsize hlt)
    exact ⟨by rw [step?, ha], Or.inr ⟨size, hsize, hlt, ha⟩⟩

/-- A request for an attachment of one byte. -/
def smallRequest : Request := .transient ⟨"image/jpeg", 2, "abc", ⟨List.replicate 64 0, by decide⟩, none, some 1⟩

theorem expectedSize?_smallRequest : smallRequest.expectedSize? = some 592 := by
  rfl

/-- A download that has been accepted goes on to its end, while others are refused. -/
theorem refused_after_shutdown_waiting :
    let backup : Request := .backup ⟨3, "archive", "latest"⟩ []
    ∃ d e, withCancelled.run? [.ask backup 1, .advance 0, .advance 0, .advance 0] = some d ∧
      d.shutdown.run? [.ask backup 1, .advance 0] = some e ∧ e.downloads.length = 1 ∧
      ∀ caller, e.ask backup caller = .error .shuttingDown := by
  intro backup
  have hrun : ((withCancelled.run? [.ask backup 1, .advance 0, .advance 0, .advance 0]).bind fun d =>
      (d.shutdown.run? [.ask backup 1, .advance 0]).map fun e => d.downloads.length) = some 1 := by decide +kernel
  obtain ⟨d, hd, hrun⟩ := Option.bind_eq_some_iff.mp hrun
  obtain ⟨e, he, hlength⟩ := Option.map_eq_some_iff.mp hrun
  obtain ⟨-, hsame, -, hrefused⟩ := refused_after_shutdown he
  refine ⟨d, e, hd, he, hsame.trans hlength, fun caller => ?_⟩
  rcases (hrefused backup caller).2 with ⟨-, ha⟩ | ⟨size, hsize, -⟩
  · exact ha
  · cases hsize

/-- An attachment that is too large is told so even after everything has been shut down. -/
theorem oversize_after_shutdown :
    ∃ e, withCancelled.shutdown.run? [] = some e ∧
      e.ask smallRequest 1 = .error (.oversize 4 592) ∧ e.ask smallRequest 1 ≠ .error .shuttingDown := by
  have hl : withCancelled.shutdown.limitFor smallRequest = .error (.oversize 4 592) :=
    limitFor_of_lt expectedSize?_smallRequest (by decide)
  have ha : withCancelled.shutdown.ask smallRequest 1 = .error (.oversize 4 592) := ask_of_oversize hl
  refine ⟨_, rfl, ha, ?_⟩
  rw [ha]
  intro hc
  cases hc

end Downloader
end SealedDownload
