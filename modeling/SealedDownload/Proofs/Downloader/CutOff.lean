import SealedDownload.Proofs.Downloader.Custody
import SealedDownload.Proofs.Downloader.Slots
import SealedDownload.Proofs.Pipeline.Progress

/-! Downloads that have been cancelled, wherever they are: waiting for a slot, before an attempt, during one, in a pause,
    or with a job that the worker has not taken up. From that moment on nothing is fetched for them and their job is not
    begun; they come to their end, and if their job has not been begun before, it is a failure that leaves nothing
    behind. -/

namespace SealedDownload

/-- How many steps a download that is cancelled still needs at most, but for those of its job. -/
def DownloadPhase.owed : DownloadPhase → Nat
  | .begun => 3
  | .arriving => 2
  | .waiting _ => 2
  | .admitted => 4
  | .transferring t => match t.phase with
    | .calling _ => 5
    | .measuring _ => 4
    | .ended _ => 2
    | _ => 3
  | .transferred _ => 1
  | .opening => 1
  | .failing _ => 1
  | _ => 0

/-- How a download has failed. -/
def Download.failure? (x : Download) : Option Failure :=
  match x.phase with
  | .over (.error f) => some f
  | _ => none

namespace Downloader

variable {d₀ d d' s t : Downloader} {action : Action} {actions earlier later : List Action} {i : Nat} {x : Download}
  {policy : RetryPolicy} {lost : List Nat}

/-- How many steps a download that is cancelled still needs at most: its own, those of the worker, and the answer of
    the transport. -/
def owed (d : Downloader) (i : Nat) (x : Download) : Nat :=
  match x.phase with
  | .opening => d.pipeline.due i + 1
  | p => p.owed

/-! ### A cancelled download stays cancelled -/

theorem Step.stays_cancelled (h : Step d action d') (hd : d.downloads[i]? = some x) (hc : d.isCancelled x = true) :
    ∃ x', d'.downloads[i]? = some x' ∧ x.Continues x' ∧ d'.isCancelled x' = true := by
  obtain ⟨x', hd', hsame⟩ := h.continues hd
  refine ⟨x', hd', hsame, h.isCancelled (fun hx => ?_) hc⟩
  cases ha : action.isAbout i with
  | false =>
    cases hd'.symm.trans (h.untouched ha hd)
    exact hx
  | true =>
    have there : ∀ {y : Download}, (d.downloads.set i y)[i]? = some y :=
      List.getElem?_set_self (List.getElem?_eq_some_iff.mp hd).1
    cases h with
    | refuse | accept | cancel | shutdown | setCeiling | work => cases ha
    | announce hj | quit hj | enter hj | line hj | giveUp hj | claim hj | begin hj | yield hj | deliver hj | reject hj
    | submit hj | collect hj | fail hj | dropWaiting hj | dropTransfer hj | dropOpening hj | carry hj | unlink hj =>
      obtain rfl := of_decide_eq_true ha
      cases hd.symm.trans hj
      cases there.symm.trans hd'
      first | rfl | exact hx
    | @feed j y t _ input hj hp hi =>
      obtain rfl := isAbout_unique ha (isAbout_of_input? hi)
      cases hd.symm.trans hj
      obtain ⟨tripped, hf⟩ := (feed_spec (by rw [(stored_eq d action).1, hd]) t input).downloads
      rw [hf, move, put, List.set_set, (stored_eq d action).1] at hd'
      cases there.symm.trans hd'
      exact hx

/-! ### Nothing is fetched any more -/

/-- Whether an action brings a download that is cancelled nearer to its end. -/
def Nears (d : Downloader) (i : Nat) (x : Download) : Action → Prop
  | .advance j => j = i
  | .settle j .. => j = i
  | .work => x.phase = .opening ∧ d.pipeline.place i ≠ .gone
  | _ => False

theorem isAbout_of_nears (h : d.Nears i x action) (hw : action ≠ .work) : action.isAbout i = true := by
  cases action <;> first | exact decide_eq_true h | exact absurd rfl hw | exact h.elim

theorem owed_of_phase {p : DownloadPhase} (hp : x.phase = p) (ho : p ≠ .opening) : d.owed i x = p.owed := by
  unfold owed
  rw [hp]
  split
  · exact absurd rfl ho
  · rfl

theorem owed_start (id : TransferId) (request : Request) (limit : Nat) (policy : RetryPolicy) :
    (DownloadPhase.transferring (.start id request limit policy)).owed = 3 := by
  rcases Transfer.phase_start id request limit policy with hp | ⟨message, hp⟩ <;>
    simp only [DownloadPhase.owed, hp]

/-- An input of a transfer that is told that it is cancelled. -/
theorem owed_step {t : Transfer} {input : Transfer.Input} (h : d.offer? true t.phase action = some input) :
    (DownloadPhase.transferring (t.step input).1).owed ≤ (DownloadPhase.transferring t).owed ∧
      (d.Nears i x action →
        (DownloadPhase.transferring (t.step input).1).owed < (DownloadPhase.transferring t).owed) := by
  have hs := Transfer.step_spec t input
  generalize (t.step input).1 = t', (t.step input).2 = effects at hs
  cases hs with
  | ignore hf =>
    cases hp : t.phase <;> rw [hp] at h hf <;> cases action <;> cases h <;> cases hf
  | call hp =>
    rw [hp] at h
    cases action <;> cases h
  | early hp | trip hp | publish hp | pass hp | wake hp =>
    rw [hp] at h
    cases action <;> cases h
    simp [DownloadPhase.owed, hp, Nears]
  | reject hp | stop hp | abortFile hp | abort hp | fetch hp | retry hp | fail hp | retryLost hp | lose hp | exceed hp
  | complete hp | interrupt hp =>
    simp [DownloadPhase.owed, hp, Transfer.finish, Transfer.rest]

/-- The steps of others put off no job, and the worker brings every job nearer to its end. -/
theorem Step.due_le (h : Step d action d') (ht : Told policy lost d) (ha : action.isAbout i = false) :
    d'.pipeline.due i ≤ d.pipeline.due i ∧ (action = .work → d'.pipeline.due i ≤ d.pipeline.due i - 1) := by
  cases h with
  | @feed j y t _ input hd hp hi =>
    rw [pipeline_feed_stored hd]
    refine ⟨Nat.le_refl _, fun hw => ?_⟩
    rw [hw, input?_of_not_about rfl] at hi
    cases hi
  | @submit j y file work hd hp =>
    have hm := ht.not_mem_jobs hd (by simp [hp]) (by simp [hp])
    have hdue : (d.pipeline.push ⟨j, y.id, file, work⟩).due i = d.pipeline.due i :=
      Pipeline.due_push hm (ne_of_isAbout ha (isAbout_advance j)).symm
    exact ⟨Nat.le_of_eq hdue, fun hw => by cases hw⟩
  | collect hd hp hr =>
    obtain ⟨rfl, -⟩ := Pipeline.eq_of_collect? hr
    exact ⟨Nat.le_refl _, fun hw => by cases hw⟩
  | work hw =>
    have hle := (Pipeline.step_of_step? hw).due_le ht.nodup i
    exact ⟨Nat.le_trans hle (Nat.sub_le _ _), fun _ => hle⟩
  | _ => exact ⟨Nat.le_refl _, fun hw => by cases hw⟩

/-- No step takes a download that is cancelled further from its end. -/
theorem Step.owed (h : Step d action d') (ht : Told policy lost d) (hd : d.downloads[i]? = some x)
    (hc : d.isCancelled x = true) : ∃ x', d'.downloads[i]? = some x' ∧ d'.owed i x' ≤ d.owed i x ∧
      (d.Nears i x action → d'.owed i x' < d.owed i x ∧ x'.phase ≠ .dropped) := by
  cases ha : action.isAbout i with
  | false =>
    obtain ⟨hle, hlt⟩ := h.due_le ht ha
    refine ⟨x, h.untouched ha hd, ?_, fun hn => ?_⟩
    · unfold Downloader.owed
      split
      · exact Nat.succ_le_succ hle
      · exact Nat.le_refl _
    · obtain rfl : action = .work := by
        by_contra hw
        rw [isAbout_of_nears hn hw] at ha
        cases ha
      obtain ⟨hp, hplace⟩ : x.phase = .opening ∧ d.pipeline.place i ≠ .gone := hn
      have hpos : d.pipeline.due i ≠ 0 := fun h0 => hplace (Pipeline.place_of_due h0)
      have hlt := hlt rfl
      simp only [Downloader.owed, hp]
      exact ⟨by omega, by simp⟩
  | true =>
    have there : ∀ {y : Download}, (d.downloads.set i y)[i]? = some y :=
      List.getElem?_set_self (List.getElem?_eq_some_iff.mp hd).1
    cases h with
    | refuse | accept | cancel | shutdown | setCeiling | work => cases ha
    | begin hj hp =>
      obtain rfl := of_decide_eq_true ha
      cases hd.symm.trans hj
      refine ⟨_, there, ?_⟩
      rw [owed_of_phase hp (by simp), owed_of_phase rfl (by simp), owed_start]
      exact ⟨by decide, fun _ => ⟨by decide, by simp⟩⟩
    | announce hj hp | quit hj hp | giveUp hj hp | deliver hj hp | reject hj hp | fail hj hp =>
      obtain rfl := of_decide_eq_true ha
      cases hd.symm.trans hj
      refine ⟨_, there, ?_⟩
      simp [Downloader.owed, hp, DownloadPhase.owed]
    | enter hj hp hn | line hj hp hn | claim hj hp hn | submit hj hp _ hn =>
      obtain rfl := of_decide_eq_true ha
      cases hd.symm.trans hj
      rw [hc] at hn
      cases hn
    | @feed j y t _ input hj hp hi =>
      obtain rfl := isAbout_unique ha (isAbout_of_input? hi)
      cases hd.symm.trans hj
      obtain ⟨tripped, hf⟩ := (feed_spec (by rw [(stored_eq d action).1, hd]) t input).downloads
      rw [move, put, List.set_set, (stored_eq d action).1] at hf
      rw [input?_of_transferring hd hp ha, hc] at hi
      obtain ⟨hle, hlt⟩ := owed_step (i := i) (x := x) hi
      refine ⟨_, by rw [hf]; exact there, ?_⟩
      rw [owed_of_phase hp (by simp), owed_of_phase rfl (by simp)]
      exact ⟨hle, fun hn => ⟨hlt hn, by simp⟩⟩
    | @yield j y t result hj hp hr =>
      obtain rfl := of_decide_eq_true ha
      cases hd.symm.trans hj
      refine ⟨_, there, ?_⟩
      cases result <;> simp [Downloader.owed, hp, hr, DownloadPhase.owed, afterTransfer]
    | collect hj hp hr =>
      obtain rfl := of_decide_eq_true ha
      cases hd.symm.trans hj
      refine ⟨_, there, ?_⟩
      simp [Downloader.owed, hp, DownloadPhase.owed]
    | dropWaiting hj hp | dropTransfer hj hp | dropOpening hj hp =>
      obtain rfl := of_decide_eq_true ha
      cases hd.symm.trans hj
      refine ⟨_, there, ?_⟩
      simp [Downloader.owed, DownloadPhase.owed, Nears]
    | carry hj | unlink hj =>
      obtain rfl := of_decide_eq_true ha
      cases hd.symm.trans hj
      exact ⟨_, there, Nat.le_refl _, fun hn => hn.elim⟩

theorem over_of_owed (h : d.owed i x = 0) (hp : x.phase ≠ .dropped) : ∃ result, x.phase = .over result := by
  cases hx : x.phase with
  | opening => simp [Downloader.owed, hx] at h
  | dropped => exact absurd hx hp
  | transferring t =>
    rw [owed_of_phase hx (by simp)] at h
    simp only [DownloadPhase.owed] at h
    split at h <;> cases h
  | begun | arriving | waiting | admitted | transferred | failing =>
    rw [owed_of_phase hx (by simp)] at h
    cases h
  | _ result => exact ⟨result, rfl⟩

theorem works_of_place (hp : d.pipeline.place i ≠ .gone) : d.step? .work ≠ none := by
  intro hn
  have hnone : d.pipeline.step? d.isCancelledAt d.shared = none := by
    simpa only [step?, work?, Option.map_eq_none_iff] using hn
  obtain ⟨hw, hq⟩ := Pipeline.step?_eq_none_iff.mp hnone
  refine hp (Pipeline.place_of_not_mem ?_)
  simp [Pipeline.jobs, hw, hq, Worker.job?]

/-- A step of the download or of the worker is possible, or the answer of the transport is awaited. -/
theorem Told.exists_nears (ht : Told policy lost d) (hd : d.downloads[i]? = some x) (hc : d.isCancelled x = true)
    (hp : d.owed i x ≠ 0) (outcome : Except Failure Path) (content : Option Octets) (draw : Float) :
    ∃ action d', (action = .advance i ∨ action = .work ∨ action = .settle i outcome content draw) ∧
      d.step? action = some d' ∧ d.Nears i x action := by
  cases hfree : x.phase.isFree with
  | true =>
    obtain ⟨d', h⟩ := exists_advance hd hc hfree
    exact ⟨.advance i, d', Or.inl rfl, h, rfl⟩
  | false =>
    cases hx : x.phase with
    | begun | arriving | waiting | admitted | transferred | failing =>
      rw [hx] at hfree
      cases hfree
    | transferring t =>
      cases hph : t.phase with
      | calling noted =>
        have ha : Action.isAbout i (.settle i outcome content draw) = true := decide_eq_true rfl
        have hi : d.input? i (.settle i outcome content draw) = some (.settle outcome draw) := by
          rw [input?_of_transferring hd hx ha, hph]
          rfl
        exact ⟨.settle i outcome content draw, _, Or.inr (Or.inr rfl), step?_of_input? hd hx ha hi, rfl⟩
      | _ => simp [hx, DownloadPhase.isFree, hph] at hfree
    | opening =>
      obtain ⟨events, hs, -⟩ := ht.words i x hd
      simp only [Download.Says, hx] at hs
      obtain ⟨-, pauses, bytes, more, -, -, ho⟩ := hs
      cases hplace : d.pipeline.place i with
      | gone =>
        obtain ⟨result, p, hr⟩ := Pipeline.Opens.exists_collect ho hplace
        refine ⟨.advance i, { d with pipeline := p }.leave i x (.over (result.map .opened)), Or.inl rfl, ?_, rfl⟩
        simp only [step?, advance?, hd, Option.bind_eq_bind, Option.bind_some, hx, hr]
      | line | hand =>
        have hne : d.pipeline.place i ≠ .gone := by simp [hplace]
        obtain ⟨next, hn⟩ := Option.ne_none_iff_exists'.mp (works_of_place hne)
        exact ⟨.work, next, Or.inr (Or.inl rfl), hn, hx, hne⟩
    | _ =>
      rw [owed_of_phase hx (by simp)] at hp
      exact absurd rfl hp

/-- From wherever a download is that is cancelled, no more steps than it is owed bring it to its end, whatever the
    transport answers. -/
theorem Told.ends (ht : Told policy lost d) (hd : d.downloads[i]? = some x) (hc : d.isCancelled x = true)
    (hp : x.phase ≠ .dropped) (outcome : Except Failure Path) (content : Option Octets) (draw : Float) :
    ∃ plan e z result, plan.length ≤ d.owed i x ∧
      (∀ action ∈ plan, action = .advance i ∨ action = .work ∨ action = .settle i outcome content draw) ∧
      d.run? plan = some e ∧ e.downloads[i]? = some z ∧ z.phase = .over result := by
  generalize hn : d.owed i x = count
  induction count using Nat.strongRecOn generalizing d x lost with
  | _ count ih =>
    by_cases h0 : d.owed i x = 0
    · obtain ⟨result, hover⟩ := over_of_owed h0 hp
      exact ⟨[], d, x, result, Nat.zero_le _, fun _ hm => absurd hm List.not_mem_nil, rfl, hd, hover⟩
    · obtain ⟨action, d', ha, hs, hnears⟩ := ht.exists_nears hd hc h0 outcome content draw
      have hstep := step_of_step? hs
      obtain ⟨x', hd', -, hlt⟩ := hstep.owed ht hd hc
      obtain ⟨hlt, hp'⟩ := hlt hnears
      obtain ⟨y, hy, -, hc'⟩ := hstep.stays_cancelled hd hc
      cases hd'.symm.trans hy
      obtain ⟨plan, e, z, result, hl, hplan, hr, hz⟩ := ih _ (hn ▸ hlt) (hstep.told ht) hd' hc' hp' rfl
      refine ⟨action :: plan, e, z, result, ?_, ?_, ?_, hz⟩
      · rw [List.length_cons]
        omega
      · intro other hm
        rcases List.mem_cons.mp hm with rfl | hm
        · exact ha
        · exact hplan other hm
      · rw [run?, hs]
        exact hr

/-! ### Runs -/

end Downloader
end SealedDownload
