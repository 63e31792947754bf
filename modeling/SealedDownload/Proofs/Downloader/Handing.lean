import SealedDownload.Proofs.Downloader.Custody
import SealedDownload.Proofs.Pipeline.Works

/-! What the transport hands over for the downloads, and what the works on ciphertexts write. Both are read off the
    actions of a run; a transport that gives every ciphertext a path of its own keeps the files of the downloads apart
    (`HandsOver`). -/

namespace SealedDownload

open Files (drawnPath)

/-! ### What a transfer removes -/

namespace Transfer

variable {t t' : Transfer} {input : Input} {effects : List Effect} {path other : Path}

theorem Has.unique (h : t.Has path) (h' : t.Has other) : path = other := by
  rcases h with h | h <;> rcases h' with h' | h' <;> cases h.symm.trans h' <;> rfl

/-- A transfer has a file that it has had, or that it is given. -/
theorem Step.has_cases (hs : Step t input t' effects) (h : t'.Has path) :
    t.Has path ∨ t.answer? input = some (.ok path) := by
  cases hs with
  | ignore => exact Or.inl h
  | complete hp =>
    rcases h with h | h <;> cases h
    exact Or.inl (Or.inl hp)
  | fetch hp =>
    rcases h with h | h <;> cases h
    simp only [answer?, hp, or_true]
  | early hp | publish hp | pass hp => rcases h with h | h <;> cases hp.symm.trans h
  | reject | stop | call | trip | abortFile | abort | retry | fail | retryLost | lose | exceed | wake | interrupt =>
    rcases h with h | h <;> cases h

/-- A transfer removes only the file that it has or is given, and has none then. -/
theorem Step.removes (hs : Step t input t' effects) (h : .remove path ∈ effects) :
    (t.Has path ∨ t.answer? input = some (.ok path)) ∧ ∀ other, ¬t'.Has other := by
  have hno : ∀ token, .remove path ∉ discards token := by
    intro token hm
    cases token <;> simp [discards] at hm
  cases hs with
  | ignore | reject | early | pass | fetch | wake => cases h
  | stop | abort | fail | interrupt => exact absurd h (hno _)
  | call | trip | publish | complete => simp at h
  | retry => simp [restEffects] at h
  | abortFile hp =>
    obtain rfl : path = _ := by simpa using h
    refine ⟨Or.inr ?_, fun other ho => ?_⟩
    · simp only [answer?, hp]
    · rcases ho with ho | ho <;> cases ho
  | retryLost hp | lose hp | exceed hp =>
    obtain rfl : path = _ := by simpa [restEffects, discards] using h
    refine ⟨Or.inl (Or.inl hp), fun other ho => ?_⟩
    rcases ho with ho | ho <;> cases ho

end Transfer

/-! ### Requests whose ciphertext is opened -/

namespace Request

/-- Whether the ciphertext of a request is opened, where attachments go to a validator. -/
def IsOpened (validator : Validator) : Request → Prop
  | .backup .. => False
  | .transient _ => True
  | .attachment .. => ∃ folder, validator = .decrypting folder

/-- What comes of a request, given the path and the length of the plaintext. -/
def product (request : Request) (path : Path) (count : Nat) : Product :=
  match request with
  | .attachment metadata _ => .attachment ⟨path, metadata.mimeType, count⟩
  | _ => .plaintext path

theorem path_product (request : Request) (path : Path) (count : Nat) : (request.product path count).path = path := by
  cases request <;> rfl

end Request

namespace Downloader

variable {d₀ d d' : Downloader} {action : Action} {actions : List Action} {i j : Nat} {x : Download} {path : Path}
  {bytes : Octets} {job : Job} {policy : RetryPolicy} {lost : List Nat}

theorem workFor_of_isOpened {request : Request} {work : Work} (hk : request.IsOpened d.validator)
    (hw : d.workFor request = some work) : ∃ metadata folder mayBeEmpty, request.metadata? = some metadata ∧
      work = Work.opening folder metadata mayBeEmpty request.product ∧
      (mayBeEmpty = true → request.kind ≠ .attachment) := by
  cases request with
  | backup => exact hk.elim
  | transient metadata =>
    cases hw
    exact ⟨metadata, d.plaintextFolder, true, rfl, decrypt_eq_opening d.plaintextFolder metadata, by intro _ h; cases h⟩
  | attachment metadata id =>
    obtain ⟨folder, hv⟩ := hk
    cases hw
    rw [hv]
    refine ⟨metadata, folder, false, rfl, validate_decrypting_eq_opening folder metadata, ?_⟩
    intro h
    cases h

/-- A downloader whose works all leave the files of others alone. -/
def IsGentle (d : Downloader) : Prop := ∀ request work, d.workFor request = some work → work.IsGentle

/-- The ciphertext that the transport hands over by an action, with the number of the download. -/
def Action.handed? : Action → Option (Nat × Path × Octets)
  | .settle i (.ok path) (some bytes) _ => some (i, path, bytes)
  | _ => none

/-- The ciphertexts that are handed over for a download. -/
def handedTo (i : Nat) (actions : List Action) : List (Path × Octets) :=
  ((actions.filterMap Action.handed?).filter (·.1 = i)).map (·.2)

/-- The transport hands each ciphertext over with a content, at a path of its own, where no work draws any. -/
structure HandsOver (actions : List Action) : Prop where
  full : ∀ i path content draw, .settle i (.ok path) content draw ∈ actions → content.isSome
  apart : ((actions.filterMap Action.handed?).map (·.2.1)).Nodup
  undrawn : ∀ entry ∈ actions.filterMap Action.handed?, ∀ folder n, entry.2.1 ≠ drawnPath folder n

/-- The files that an action writes for a download, by the work on its ciphertext. -/
def writes (d : Downloader) (i : Nat) : Action → List Path
  | .work => match d.pipeline.worker with
    | .operating job =>
      if job.call = i then Files.written d.shared.files (job.work d.shared.files job.ciphertext).2 else []
    | _ => []
  | _ => []

/-- The files that the work on the ciphertext of a download writes in a run. -/
def written (d : Downloader) (i : Nat) : List Action → List Path
  | [] => []
  | action :: rest => d.writes i action ++ ((d.step? action).map (·.written i rest)).getD []

theorem written_append {earlier later : List Action} (h : d.run? earlier = some d') (i : Nat) :
    d.written i (earlier ++ later) = d.written i earlier ++ d'.written i later := by
  induction earlier generalizing d with
  | nil =>
    cases h
    rfl
  | cons action rest ih =>
    obtain ⟨e, he, hr⟩ := Option.bind_eq_some_iff.mp h
    simp only [List.cons_append, written, he, Option.map_some, Option.getD_some, ih hr, List.append_assoc]

theorem written_singleton (d : Downloader) (i : Nat) (action : Action) : d.written i [action] = d.writes i action := by
  cases h : d.step? action <;> simp [written, h]

theorem mem_handedTo : (path, bytes) ∈ handedTo i actions ↔ (i, path, bytes) ∈ actions.filterMap Action.handed? := by
  unfold handedTo
  constructor
  · intro h
    obtain ⟨⟨j, entry⟩, hf, rfl⟩ := List.mem_map.mp h
    obtain ⟨hm, hj⟩ := List.mem_filter.mp hf
    obtain rfl : j = i := of_decide_eq_true hj
    exact hm
  · intro h
    exact List.mem_map.mpr ⟨(i, path, bytes), List.mem_filter.mpr ⟨h, decide_eq_true rfl⟩, rfl⟩

theorem handedTo_append (i : Nat) (earlier later : List Action) :
    handedTo i (earlier ++ later) = handedTo i earlier ++ handedTo i later := by
  simp only [handedTo, List.filterMap_append, List.filter_append, List.map_append]

theorem eq_of_handed? (h : action.handed? = some (i, path, bytes)) :
    ∃ draw, action = .settle i (.ok path) (some bytes) draw := by
  unfold Action.handed? at h
  split at h
  · cases h
    exact ⟨_, rfl⟩
  · cases h

theorem handedTo_of_not_about (h : action.isAbout i = false) : handedTo i [action] = [] := by
  refine List.eq_nil_iff_forall_not_mem.mpr fun entry hm => ?_
  obtain ⟨path, bytes⟩ := entry
  obtain ⟨other, hmem, hh⟩ := List.mem_filterMap.mp (mem_handedTo.mp hm)
  cases List.mem_singleton.mp hmem
  obtain ⟨draw, rfl⟩ := eq_of_handed? hh
  exact absurd (decide_eq_true rfl) (Bool.eq_false_iff.mp h)

theorem HandsOver.earlier {earlier later : List Action} (h : HandsOver (earlier ++ later)) : HandsOver earlier where
  full i path content draw hm := h.full i path content draw (List.mem_append_left _ hm)
  apart := by
    have ha := h.apart
    rw [List.filterMap_append, List.map_append] at ha
    exact (List.nodup_append.mp ha).1
  undrawn entry hm := h.undrawn entry (by rw [List.filterMap_append]; exact List.mem_append_left _ hm)

/-- A path is handed over for one download only, and once. -/
theorem HandsOver.unique {other : Octets} (h : HandsOver actions) (hi : (path, bytes) ∈ handedTo i actions)
    (hj : (path, other) ∈ handedTo j actions) : i = j ∧ bytes = other := by
  have he := List.inj_on_of_nodup_map h.apart (mem_handedTo.mp hi) (mem_handedTo.mp hj) rfl
  cases he
  exact ⟨rfl, rfl⟩

/-! ### Actions that hand something over -/

/-- The transport gives a transfer a file only as it is done. -/
theorem settle_of_answer? {t : Transfer} {input : Transfer.Input} (hd : d.downloads[i]? = some x)
    (hp : x.phase = .transferring t) (hi : d.input? i action = some input)
    (h : t.answer? input = some (.ok path)) : ∃ content draw, action = .settle i (.ok path) content draw := by
  have ha := isAbout_of_input? hi
  rw [input?_of_transferring hd hp ha] at hi
  unfold Transfer.answer? at h
  split at h
  · rename_i hc
    cases h
    rw [hc] at hi
    cases action with
    | settle j outcome content draw =>
      cases hi
      obtain rfl : j = i := of_decide_eq_true ha
      exact ⟨content, _, rfl⟩
    | _ => cases hi
  · cases h

theorem handed?_eq_none {t : Transfer} {input : Transfer.Input} (hd : d.downloads[i]? = some x)
    (hp : x.phase = .transferring t) (hi : d.input? i action = some input)
    (h : ∀ path, t.answer? input ≠ some (.ok path)) : action.handed? = none := by
  refine Option.eq_none_iff_forall_not_mem.mpr fun entry he => ?_
  obtain ⟨k, path, bytes⟩ := entry
  obtain ⟨draw, rfl⟩ := eq_of_handed? he
  rw [input?_of_transferring hd hp (isAbout_of_input? hi)] at hi
  cases hc : t.phase with
  | calling noted =>
    rw [hc] at hi
    cases hi
    exact h path (by simp only [Transfer.answer?, hc])
  | _ =>
    rw [hc] at hi
    cases hi

theorem HandsOver.handed_of_settle {content : Option Octets} {draw : Float} (hh : HandsOver (actions ++ [action]))
    (ha : action = .settle i (.ok path) content draw) : ∃ bytes, action.handed? = some (i, path, bytes) ∧
      (path, bytes) ∈ handedTo i (actions ++ [action]) := by
  have hm : .settle i (.ok path) content draw ∈ actions ++ [action] := by
    rw [ha]
    exact List.mem_append_right _ (List.mem_singleton_self _)
  obtain ⟨bytes, rfl⟩ := Option.isSome_iff_exists.mp (hh.full i path content draw hm)
  subst ha
  refine ⟨bytes, rfl, mem_handedTo.mpr ?_⟩
  rw [List.filterMap_append]
  exact List.mem_append_right _ (List.mem_singleton_self _)

theorem HandsOver.fresh {other : Octets} (hh : HandsOver (actions ++ [action]))
    (ha : action.handed? = some (i, path, bytes)) : (path, other) ∉ handedTo j actions := by
  intro hm
  have hn := hh.apart
  rw [List.filterMap_append, List.map_append] at hn
  have hone : (i, path, bytes) ∈ [action].filterMap Action.handed? :=
    List.mem_filterMap.mpr ⟨action, List.mem_singleton_self _, ha⟩
  exact (List.nodup_append.mp hn).2.2 path (List.mem_map.mpr ⟨_, mem_handedTo.mp hm, rfl⟩) path
    (List.mem_map.mpr ⟨_, hone, rfl⟩) rfl

theorem handedTo_of_handed? (h : action.handed? = none) : handedTo i [action] = [] := by
  simp [handedTo, h]

theorem handedTo_self (h : action.handed? = some (i, path, bytes)) : handedTo i [action] = [(path, bytes)] := by
  simp [handedTo, h]

theorem stored_of_handed? (h : action.handed? = none) : d.stored action = d := by
  unfold stored
  split
  · cases h
  · rfl

theorem get?_stored (h : ∀ i bytes, action.handed? ≠ some (i, path, bytes)) :
    (d.stored action).shared.files.get? path = d.shared.files.get? path := by
  unfold stored
  split
  · exact Files.get?_write_of_ne _ _ fun he => h _ _ (by rw [he]; rfl)
  · rfl

theorem Step.handed?_eq_none (h : Step d action d') (ha : d.acts i action = true) (hi : d.input? i action = none) :
    action.handed? = none := by
  refine Option.eq_none_iff_forall_not_mem.mpr fun entry he => ?_
  obtain ⟨k, path, bytes⟩ := entry
  obtain ⟨draw, rfl⟩ := eq_of_handed? he
  cases h with
  | feed hd hp hk =>
    obtain rfl := acts_unique ha (isAbout_of_input? hk)
    rw [hi] at hk
    cases hk

/-! ### What a step makes of works and jobs -/

theorem writes_of_not_acts (ha : d.acts i action = false) : d.writes i action = [] := by
  cases action with
  | work =>
    simp only [writes]
    split
    · rename_i job hw
      have hhead : d.pipeline.jobs.head? = some job := Pipeline.head?_jobs (by rw [hw]; rfl)
      rw [acts, hhead] at ha
      exact if_neg (of_decide_eq_false ha)
    · rfl
  | _ => rfl

theorem writes_of_isAbout (ha : action.isAbout i = true) (j : Nat) : d.writes j action = [] := by
  cases action <;> first | rfl | cases ha

theorem step?_of_absent (ha : action.isAbout i = true) (hd : d.downloads[i]? = none) : d.step? action = none := by
  cases action with
  | advance | drop | link | report | settle | wake =>
    obtain rfl := of_decide_eq_true ha
    simp [step?, advance?, drop?, link?, report?, settle?, wake?, calling?, hd]
  | _ => cases ha

/-- For a download that is not there nothing is handed over, and nothing is written. -/
theorem absent_of_step (h : d.step? action = some d') (ht : Told policy lost d) (hl : d.downloads.length ≤ i) :
    handedTo i [action] = [] ∧ d.writes i action = [] := by
  have hd := List.getElem?_eq_none hl
  refine ⟨handedTo_of_not_about ?_, writes_of_not_acts ?_⟩
  · refine Bool.eq_false_iff.mpr fun ha => ?_
    rw [step?_of_absent ha hd] at h
    cases h
  · refine Bool.eq_false_iff.mpr fun ha => ?_
    by_cases hw : action = .work
    · subst hw
      obtain ⟨job, hm, he⟩ := (Option.any_eq_true ..).mp ha
      obtain rfl : job.call = i := of_decide_eq_true he
      obtain ⟨x, hx, -⟩ := ht.job job (List.mem_of_head? hm)
      cases hd.symm.trans hx
    · rw [acts_of_ne_work hw] at ha
      rw [step?_of_absent ha hd] at h
      cases h

theorem drawn_performAll (d : Downloader) (i : Nat) (effects : List Transfer.Effect) :
    (d.performAll i effects).shared.files.drawn = d.shared.files.drawn := by
  induction effects generalizing d with
  | nil => rfl
  | cons effect rest ih =>
    cases hd : d.downloads[i]? with
    | none => simpa only [performAll, List.foldl_cons, hd] using ih d
    | some x =>
      rw [performAll_cons effect rest hd, ih]
      cases effect with
      | call resume =>
        unfold perform
        dsimp only
        split <;> rfl
      | _ => rfl

theorem Step.workFor_eq (h : Step d action d') : d'.workFor = d.workFor := by
  cases h with
  | @feed i x t action input hd hp hi =>
    obtain ⟨shared, tracker, downloads, demands, hframe⟩ :=
      performAll_frame ((d.stored action).move i x (.transferring (t.step input).1)) i (t.step input).2
    exact (congrArg Downloader.workFor hframe).trans (stored_keeps d action).2.2.1
  | _ => rfl

/-- A job is that of a download that has its ciphertext, if it has not been there before. -/
theorem Step.job_cases (h : Step d action d') (hm : job ∈ d'.pipeline.jobs) : job ∈ d.pipeline.jobs ∨
    ∃ x, d.downloads[job.call]? = some x ∧ x.phase = .transferred job.ciphertext ∧
      d.workFor x.request = some job.work := by
  cases h with
  | @feed i x t action input hd hp hi =>
    exact Or.inl (pipeline_feed_stored hd t input ▸ hm)
  | @submit i x file work hd hp hw =>
    have hm : job ∈ d.pipeline.worker.job?.toList ++ (d.pipeline.queue ++ [⟨i, x.id, file, work⟩]) := hm
    rw [← List.append_assoc] at hm
    rcases List.mem_append.mp hm with hm | hm
    · exact Or.inl hm
    · obtain rfl := List.mem_singleton.mp hm
      exact Or.inr ⟨x, hd, hp, hw⟩
  | collect hd hp hr =>
    obtain ⟨rfl, -⟩ := Pipeline.eq_of_collect? hr
    exact Or.inl hm
  | work hw => exact Or.inl ((Pipeline.step_of_step? hw).mem_jobs hm)
  | _ => exact Or.inl hm

/-- Products come to the worker only by a work that has just been done. -/
theorem Step.carries_cases {job : Job} {product : Product} (h : Step d action d')
    (hc : d'.pipeline.Carries job product) : d.pipeline.Carries job product ∨
      action = .work ∧ d.pipeline.worker = .operating job ∧
        job.work d.shared.files job.ciphertext = (.returned (.ok product), d'.shared.files) := by
  cases h with
  | @feed i x t action input hd hp hi =>
    exact Or.inl (pipeline_feed_stored hd t input ▸ hc)
  | collect hd hp hr =>
    obtain ⟨rfl, -⟩ := Pipeline.eq_of_collect? hr
    exact Or.inl hc
  | work hw =>
    rcases (Pipeline.step_of_step? hw).carries_cases hc with hc | hc
    · exact Or.inl hc
    · exact Or.inr ⟨rfl, hc⟩
  | _ => exact Or.inl hc

end Downloader
end SealedDownload
