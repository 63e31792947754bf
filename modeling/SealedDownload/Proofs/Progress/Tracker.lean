import SealedDownload.Files
import SealedDownload.Progress
import SealedDownload.Proofs.Double.Order

/-! What a tracker shows. Whatever counts are reported, the fractions that come of them lie between the least one and
    one; the channel has one update for each report, in order, and the latest fraction of an attachment is that of its
    last report. -/

namespace SealedDownload

namespace Progress

variable {completed : Nat} {total : Option Nat} {raw fraction : Float}

/-! ### The range of a fraction -/

/-- Whether a fraction lies in the range that is published. -/
def InRange (fraction : Float) : Prop := least ≤ fraction ∧ fraction ≤ 1

theorem inRange_floor (hn : raw ≤ raw) (hr : raw ≤ 1) : InRange (if raw < least then least else raw) := by
  split
  · exact ⟨by decide, by decide⟩
  · rename_i hl
    exact ⟨Double.le_of_not_lt hn (by decide) hl, hr⟩

theorem inRange_of_fraction? (h : fraction? completed total = some fraction) : InRange fraction := by
  unfold fraction? at h
  split at h
  · cases h
  · obtain rfl := Option.some.inj h
    rcases total with _ | _ | total
    · exact @inRange_floor 0 (by decide) (by decide)
    · exact @inRange_floor 0 (by decide) (by decide)
    · -- What is not a number is not below one, so that it counts as one.
      by_cases hlt : (UInt64.ofNat completed).toFloat / (UInt64.ofNat (total + 1)).toFloat < 1
      · simp only [if_pos hlt]
        exact inRange_floor (Double.le_self_of_lt hlt) (Double.le_of_lt hlt)
      · simp only [if_neg hlt]
        exact inRange_floor (by decide) (by decide)

theorem clamp_of_inRange (h : InRange fraction) : clamp fraction = fraction := by
  unfold clamp
  rw [if_neg (Double.not_lt_of_le h.1), if_neg (Double.not_lt_of_le h.2)]

end Progress

/-! ### Reports -/

/-- A report of how many bytes of a tracked attachment there are, and of how many. -/
structure ProgressReport where
  id : AttachmentId
  completed : Nat
  total : Option Nat
deriving DecidableEq

/-- The fraction that comes of a report. -/
def ProgressReport.fraction? (r : ProgressReport) : Option Float := Progress.fraction? r.completed r.total

namespace Tracker

variable {t : Tracker} {reports : List ProgressReport} {r : ProgressReport} {fraction : Float} {id : AttachmentId}

/-- What a tracker shows that has been given some reports, first one first. -/
structure Shows (reports : List ProgressReport) (t : Tracker) : Prop where
  /-- there is one update for each report, in order, with its identifier and its fraction -/
  sent : t.channel.sent.map (fun update => (update.id, some update.fraction)) =
    reports.map fun r => (r.id, r.fraction?)
  /-- there is no fraction of an attachment before its first report, and then it is that of the last one -/
  latest : ∀ id, t.get? id = (reports.filter (·.id = id)).getLast?.bind ProgressReport.fraction?
  /-- which is the last one that has been published for it -/
  published : ∀ id, t.get? id = (t.channel.sent.filter (·.id = id)).getLast?.map (·.fraction)
  inRange : ∀ update ∈ t.channel.sent, Progress.InRange update.fraction

theorem get?_set (t : Tracker) (id : AttachmentId) (fraction : Float) :
    (t.set id fraction).get? id = some (Progress.clamp fraction) :=
  List.lookup_cons_self

theorem get?_set_of_ne {other : AttachmentId} (h : other ≠ id) : (t.set id fraction).get? other = t.get? other := by
  have ho : (other == id) = false := beq_false_of_ne h
  have hs : (t.set id fraction).get? other =
      ((id, Progress.clamp fraction) :: t.latest.filter (·.1 ≠ id)).lookup other := rfl
  rw [hs, List.lookup_cons, ho]
  exact Files.lookup_filter_of_ne h

theorem shows_empty : Shows [] empty where
  sent := rfl
  latest _ := rfl
  published _ := rfl
  inRange _ h := absurd h List.not_mem_nil

/-- Recording the fraction of one more report. -/
theorem Shows.set (h : Shows reports t) (hf : r.fraction? = some fraction) :
    Shows (reports ++ [r]) (t.set r.id fraction) := by
  have hr : Progress.InRange fraction := Progress.inRange_of_fraction? hf
  have hc : Progress.clamp fraction = fraction := Progress.clamp_of_inRange hr
  have hs : (t.set r.id fraction).channel.sent = t.channel.sent ++ [⟨r.id, fraction⟩] := by
    have hsent : (t.set r.id fraction).channel.sent = t.channel.sent ++ [⟨r.id, Progress.clamp fraction⟩] := rfl
    rw [hsent, hc]
  refine ⟨?_, fun id => ?_, fun id => ?_, fun update hu => ?_⟩
  · rw [hs, List.map_append, List.map_append, h.sent, List.map_singleton, List.map_singleton, hf]
  · by_cases hid : r.id = id
    · subst hid
      rw [get?_set, hc]
      simp [hf]
    · rw [get?_set_of_ne (Ne.symm hid), h.latest]
      simp [hid]
  · by_cases hid : r.id = id
    · subst hid
      rw [get?_set, hc, hs]
      simp
    · rw [get?_set_of_ne (Ne.symm hid), h.published, hs]
      simp [hid]
  · rw [hs] at hu
    rcases List.mem_append.mp hu with hu | hu
    · exact h.inRange update hu
    · rw [List.mem_singleton.mp hu]
      exact hr

end Tracker
end SealedDownload
