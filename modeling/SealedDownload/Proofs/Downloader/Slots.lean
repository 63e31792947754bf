import SealedDownload.Proofs.Admission.Slots
import SealedDownload.Proofs.Downloader.Linking

/-! The slots of a downloader and the downloads that hold them. A download has a slot from its admission until its
    transfer has ended or it is dropped; every step keeps the balance. -/

namespace SealedDownload

namespace DownloadPhase

/-- Whether a download holds a slot that it knows of. -/
def hasSlot : DownloadPhase → Bool
  | .admitted => true
  | .transferring _ => true
  | _ => false

/-- The ticket of a download that waits. -/
def ticket? : DownloadPhase → Option Nat
  | .waiting ticket => some ticket
  | _ => none

end DownloadPhase

namespace Downloader

variable {d d' : Downloader} {action : Action} {actions : List Action} {i : Nat} {x x' : Download}

/-- How many downloads hold a slot that they know of. -/
def permits (d : Downloader) : Nat := d.downloads.countP (·.phase.hasSlot)

/-- The tickets of the downloads that wait. -/
def tickets (d : Downloader) : List Nat := d.downloads.filterMap (·.phase.ticket?)

/-- The slots are in balance with the downloads. -/
def Accounted (d : Downloader) : Prop := d.admission.Balanced d.permits d.tickets

/-- The balance is kept where it is kept for the one download that moves. -/
theorem accounted_set (h : d.Accounted) (hd : d.downloads[i]? = some x) (hd' : d'.downloads = d.downloads.set i x')
    (hb : ∀ permits tickets,
      d.admission.Balanced (permits + if x.phase.hasSlot then 1 else 0) (x.phase.ticket?.toList ++ tickets) →
        d'.admission.Balanced (permits + if x'.phase.hasSlot then 1 else 0) (x'.phase.ticket?.toList ++ tickets)) :
    d'.Accounted := by
  obtain ⟨others, hp, hp'⟩ := Admission.exists_others hd
  have hold := h.congr (Admission.filterMap_others (fun y : Download => y.phase.ticket?) hp)
  rw [permits, Admission.countP_others (·.phase.hasSlot) hp] at hold
  have hnew := (hb _ _ hold).congr (Admission.filterMap_others (fun y : Download => y.phase.ticket?) (hp' x')).symm
  rw [← Admission.countP_others (fun y : Download => y.phase.hasSlot) (hp' x'), ← hd'] at hnew
  exact hnew

/-- A download that moves without its slot, or without a slot, leaves the balance as it is. -/
theorem accounted_same (h : d.Accounted) (hd : d.downloads[i]? = some x) (hd' : d'.downloads = d.downloads.set i x')
    (ha : d'.admission = d.admission) (hs : x'.phase.hasSlot = x.phase.hasSlot)
    (ht : x'.phase.ticket? = x.phase.ticket?) : d'.Accounted := by
  refine accounted_set h hd hd' fun permits tickets hb => ?_
  rw [ha, hs, ht]
  exact hb

theorem accounted_accepted (h : d.Accounted) (request : Request) (caller limit : Nat) :
    (d.accepted request caller limit).Accounted := by
  have hp : (d.accepted request caller limit).permits = d.permits := by
    rw [permits, accepted, List.countP_append]
    rfl
  have ht : (d.accepted request caller limit).tickets = d.tickets := by
    rw [tickets, accepted, List.filterMap_append]
    exact List.append_nil _
  rw [Accounted, hp, ht]
  exact h

theorem admission_feed (t : Transfer) (input : Transfer.Input) :
    ((d.stored action).feed i x t input).admission = d.admission := by
  obtain ⟨shared, tracker, downloads, demands, hf⟩ :=
    performAll_frame ((d.stored action).move i x (.transferring (t.step input).1)) i (t.step input).2
  refine (congrArg Downloader.admission hf).trans ?_
  simp only [move, put, stored]
  split <;> rfl

/-- Every step keeps the slots in balance with the downloads. -/
theorem Step.accounted (h : Step d action d') (hb : d.Accounted) : d'.Accounted := by
  cases h with
  | refuse | cancel | shutdown | setCeiling | work => exact hb
  | accept => exact accounted_accepted hb _ _ _
  | announce hd hp | quit hd hp | begin hd hp | deliver hd hp | reject hd hp | submit hd hp | collect hd hp | fail hd hp
  | dropOpening hd hp =>
    exact accounted_same hb hd rfl rfl (by rw [hp]; rfl) (by rw [hp]; rfl)
  | carry hd | unlink hd => exact accounted_same hb hd rfl rfl rfl rfl
  | enter hd hp hc he | line hd hp hc he =>
    refine accounted_set hb hd rfl fun permits tickets hbal => ?_
    rw [hp] at hbal
    exact Admission.Balanced.enter hbal he
  | giveUp hd hp | dropWaiting hd hp =>
    refine accounted_set hb hd rfl fun permits tickets hbal => ?_
    rw [hp] at hbal
    exact Admission.Balanced.leave hbal
  | claim hd hp hc hg =>
    refine accounted_set hb hd rfl fun permits tickets hbal => ?_
    rw [hp] at hbal
    exact Admission.Balanced.claim hbal (List.contains_iff_mem.mp hg)
  | @feed i x t _ input hd hp hi =>
    obtain ⟨hs, -, -, -⟩ := stored_eq d action
    have hd' : (d.stored action).downloads[i]? = some x := by rw [hs, hd]
    obtain ⟨tripped, hf⟩ := (feed_spec hd' t input).downloads
    rw [move, put, List.set_set, hs] at hf
    exact accounted_same hb hd hf (admission_feed t input) (by rw [hp]; rfl) (by rw [hp]; rfl)
  | yield hd hp =>
    refine accounted_set hb hd rfl fun permits tickets hbal => ?_
    rw [hp] at hbal
    rename_i result _
    cases result <;> exact Admission.Balanced.release hbal
  | dropTransfer hd hp =>
    refine accounted_set hb hd rfl fun permits tickets hbal => ?_
    rw [hp] at hbal
    exact Admission.Balanced.release hbal

theorem accounted_run (hb : d.Accounted) (h : d.run? actions = some d') : d'.Accounted := by
  induction actions generalizing d with
  | nil =>
    cases h
    exact hb
  | cons action rest ih =>
    obtain ⟨e, he, hr⟩ := Option.bind_eq_some_iff.mp h
    exact ih ((step_of_step? he).accounted hb) hr

theorem IsFresh.accounted {capacity : Nat} (hf : d.IsFresh) (ha : d.admission = .ofCapacity capacity) :
    d.Accounted := by
  unfold Accounted permits tickets
  rw [ha, hf.downloads]
  exact Admission.balanced_ofCapacity capacity

end Downloader
end SealedDownload
