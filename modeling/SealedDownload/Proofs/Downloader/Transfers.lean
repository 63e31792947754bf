import SealedDownload.Proofs.Downloader.Steps
import SealedDownload.Proofs.Pipeline.Steps
import SealedDownload.Proofs.Transfer.Log

/-! The transfer that belongs to a download. Whatever happens to a downloader, it is the run of the download's
    own start on the inputs that the actions have been for it (`inputs`); and a job comes to the pipeline, and
    is begun there, only for a download whose transfer has delivered a file. -/

namespace SealedDownload

/-- The transfer of a download before its first attempt. -/
def Download.transfer (x : Download) (policy : RetryPolicy) : Transfer := .start x.id x.request x.limit policy

/-- What of a download never changes. -/
structure Download.Continues (x x' : Download) : Prop where
  id : x'.id = x.id
  request : x'.request = x.request
  limit : x'.limit = x.limit

theorem Download.Continues.refl (x : Download) : x.Continues x := ⟨rfl, rfl, rfl⟩

theorem Download.Continues.trans {x y z : Download} (h : x.Continues y) (h' : y.Continues z) : x.Continues z :=
  ⟨h'.id.trans h.id, h'.request.trans h.request, h'.limit.trans h.limit⟩

theorem Download.Continues.transfer_eq {x x' : Download} (h : x.Continues x') (policy : RetryPolicy) :
    x'.transfer policy = x.transfer policy := by
  unfold Download.transfer
  rw [h.id, h.request, h.limit]

/-! ### Where a download is, and its transfer -/

namespace DownloadPhase

/-- Whether a download has not begun to transfer. -/
def isEarly : DownloadPhase → Bool
  | .begun => true
  | .arriving => true
  | .waiting _ => true
  | .admitted => true
  | _ => false

/-- Whether a download has nothing to do with a transfer any more. -/
def isLate : DownloadPhase → Bool
  | .opening => true
  | .failing _ => true
  | .over _ => true
  | .dropped => true
  | _ => false

theorem isLate_of_isEarly {p : DownloadPhase} (h : p.isEarly = true) : p.isLate = false := by
  cases p <;> first | rfl | cases h

/-- Whether a transfer is under way. -/
def isTransferring : DownloadPhase → Bool
  | .transferring _ => true
  | _ => false

/-- How a step may move a download, where `start` is its transfer before the first attempt, and the input is the
    one that the step is for the transfer. -/
inductive Moves (start : Transfer) : Option Transfer.Input → DownloadPhase → DownloadPhase → Prop where
  | stay (p : DownloadPhase) : Moves start none p p
  | wait {p q : DownloadPhase} (hp : p.isEarly = true) (hq : q.isEarly = true) : Moves start none p q
  | begin : Moves start none .admitted (.transferring start)
  | feed (t : Transfer) (input : Transfer.Input) :
      Moves start (some input) (.transferring t) (.transferring (t.step input).1)
  | finish {t : Transfer} {file : Path} (h : t.phase = .ended (.ok file)) :
      Moves start none (.transferring t) (.transferred file)
  | leave (p : DownloadPhase) {q : DownloadPhase} (hq : q.isLate = true) : Moves start none p q

/-- Where a download is, given the inputs that its transfer has had. -/
def Follows (start : Transfer) (inputs : List Transfer.Input) : DownloadPhase → Prop
  | .transferring t => t = (start.run inputs).1
  | .transferred file => (start.run inputs).1.result? = some (.ok file)
  | p => p.isEarly = true → inputs = []

theorem follows_of_isEarly {start : Transfer} {p : DownloadPhase} (hp : p.isEarly = true) : p.Follows start [] := by
  cases p <;> first | exact fun _ => rfl | cases hp

theorem follows_of_isLate {start : Transfer} {inputs : List Transfer.Input} {p : DownloadPhase}
    (hp : p.isLate = true) : p.Follows start inputs := by
  cases p <;> first | exact fun h => absurd h Bool.false_ne_true | cases hp

theorem Follows.inputs_eq_nil {start : Transfer} {inputs : List Transfer.Input} {p : DownloadPhase}
    (h : p.Follows start inputs) (hp : p.isEarly = true) : inputs = [] := by
  cases p <;> first | exact h hp | cases hp

theorem Moves.follows {start : Transfer} {input : Option Transfer.Input} {inputs : List Transfer.Input}
    {p q : DownloadPhase} (h : Moves start input p q) (hp : p.Follows start inputs) :
    q.Follows start (inputs ++ input.toList) := by
  cases h with
  | stay => rwa [Option.toList_none, List.append_nil]
  | wait hpe hqe =>
    obtain rfl := hp.inputs_eq_nil hpe
    exact follows_of_isEarly hqe
  | begin =>
    obtain rfl := hp.inputs_eq_nil rfl
    rfl
  | feed t input =>
    obtain rfl : t = (start.run inputs).1 := hp
    exact (Transfer.run_concat inputs input).symm
  | finish ht =>
    obtain rfl : _ = (start.run inputs).1 := hp
    rw [Option.toList_none, List.append_nil]
    exact Transfer.result?_of_phase ht
  | leave _ hq => exact follows_of_isLate hq

end DownloadPhase

namespace Downloader

variable {d d' : Downloader} {action : Action} {earlier : List Action} {i j : Nat} {x : Download}

/-! ### Inputs -/

theorem input?_of_not_about (h : action.isAbout i = false) : d.input? i action = none := by
  unfold input?
  cases d.downloads[i]? with
  | none => rfl
  | some x =>
    rw [Option.bind_eq_bind, Option.bind_some]
    split
    · rw [h, if_neg Bool.false_ne_true]
    · rfl

theorem input?_of_phase {p : DownloadPhase} (hd : d.downloads[i]? = some x) (hp : x.phase = p)
    (hn : p.isTransferring = false) : d.input? i action = none := by
  unfold input?
  rw [hd, Option.bind_eq_bind, Option.bind_some, hp]
  split
  · cases hn
  · rfl

theorem input?_of_offer? (h : ∀ cancelled p, d.offer? cancelled p action = none) (i : Nat) :
    d.input? i action = none := by
  unfold input?
  cases d.downloads[i]? with
  | none => rfl
  | some x =>
    rw [Option.bind_eq_bind, Option.bind_some]
    split
    · rw [h, ite_self]
    · rfl

theorem input?_drop (i j : Nat) : d.input? i (.drop j) = none :=
  input?_of_offer? (fun _ p => by cases p <;> rfl) i

theorem input?_link (i j : Nat) : d.input? i (.link j) = none :=
  input?_of_offer? (fun _ p => by cases p <;> rfl) i

theorem isAbout_of_input? {input : Transfer.Input} (h : d.input? i action = some input) :
    action.isAbout i = true := by
  cases ha : action.isAbout i with
  | true => rfl
  | false =>
    rw [input?_of_not_about ha] at h
    cases h

theorem transferring_of_input? {input : Transfer.Input} (h : d.input? i action = some input) :
    ∃ x t, d.downloads[i]? = some x ∧ x.phase = .transferring t := by
  unfold input? at h
  obtain ⟨x, hd, h⟩ := Option.bind_eq_some_iff.mp h
  split at h
  · exact ⟨x, _, hd, ‹_›⟩
  · cases h

theorem isAbout_unique (hi : action.isAbout i = true) (hj : action.isAbout j = true) : i = j := by
  cases action <;> first
    | exact (of_decide_eq_true hi).symm.trans (of_decide_eq_true hj)
    | cases hi

/-! ### What a transfer wants done -/

/-- What the effects of the transfer of a download may change. -/
structure Performed (i : Nat) (x : Download) (effects : List Transfer.Effect) (d d' : Downloader) : Prop where
  retry : d'.retry = d.retry
  pipeline : d'.pipeline = d.pipeline
  downloads : ∃ tripped, d'.downloads = d.downloads.set i { x with tripped }
  sent : d'.shared.events.sent = d.shared.events.sent ++ effects.filterMap Transfer.Effect.event?
  kept : ∀ path, .remove path ∉ effects → d'.shared.files.get? path = d.shared.files.get? path
  removed : ∀ path, .remove path ∈ effects → d'.shared.files.get? path = none

theorem set_self (hd : d.downloads[i]? = some x) : d.downloads = d.downloads.set i x := by
  obtain ⟨hi, rfl⟩ := List.getElem?_eq_some_iff.mp hd
  exact (List.set_getElem_self hi).symm

theorem performed_nil (hd : d.downloads[i]? = some x) : Performed i x [] d d where
  retry := rfl
  pipeline := rfl
  downloads := ⟨x.tripped, set_self hd⟩
  sent := (List.append_nil _).symm
  kept _ _ := rfl
  removed _ h := absurd h List.not_mem_nil

theorem perform_spec (hd : d.downloads[i]? = some x) (effect : Transfer.Effect) :
    Performed i x [effect] d (d.perform i x effect) := by
  cases effect with
  | call resume =>
    unfold perform
    dsimp only
    split
    · refine ⟨rfl, rfl, ⟨false, rfl⟩, (List.append_nil _).symm, fun _ _ => rfl, fun _ h => ?_⟩
      cases List.mem_singleton.mp h
    · refine ⟨rfl, rfl, ⟨x.tripped, set_self hd⟩, (List.append_nil _).symm, fun _ _ => rfl, fun _ h => ?_⟩
      cases List.mem_singleton.mp h
  | trip =>
    refine ⟨rfl, rfl, ⟨true, rfl⟩, (List.append_nil _).symm, fun _ _ => rfl, fun _ h => ?_⟩
    cases List.mem_singleton.mp h
  | discard | publish | rest =>
    refine ⟨rfl, rfl, ⟨x.tripped, set_self hd⟩, (List.append_nil _).symm, fun _ _ => rfl, fun _ h => ?_⟩
    cases List.mem_singleton.mp h
  | emit event =>
    refine ⟨rfl, rfl, ⟨x.tripped, set_self hd⟩, rfl, fun _ _ => rfl, fun _ h => ?_⟩
    cases List.mem_singleton.mp h
  | remove file =>
    refine ⟨rfl, rfl, ⟨x.tripped, set_self hd⟩, (List.append_nil _).symm, fun path h => ?_, fun path h => ?_⟩
    · exact Files.get?_erase_of_ne _ (fun he => h (by rw [he]; exact List.mem_singleton_self _))
    · cases List.mem_singleton.mp h
      exact Files.get?_erase _ _

theorem performAll_cons (effect : Transfer.Effect) (rest : List Transfer.Effect) (hd : d.downloads[i]? = some x) :
    d.performAll i (effect :: rest) = (d.perform i x effect).performAll i rest := by
  simp only [performAll, List.foldl_cons, hd]

/-- Effects change the attempt's token, the files that are removed, and what is announced and demanded. -/
theorem performAll_spec (hd : d.downloads[i]? = some x) (effects : List Transfer.Effect) :
    Performed i x effects d (d.performAll i effects) := by
  induction effects generalizing d x with
  | nil => exact performed_nil hd
  | cons effect rest ih =>
    rw [performAll_cons effect rest hd]
    have hs := perform_spec hd effect
    obtain ⟨tripped, hx⟩ := hs.downloads
    have hd' : (d.perform i x effect).downloads[i]? = some { x with tripped } := by
      rw [hx, List.getElem?_set_self (List.getElem?_eq_some_iff.mp hd).1]
    have hr := ih hd'
    obtain ⟨tripped', hx'⟩ := hr.downloads
    refine ⟨hr.retry.trans hs.retry, hr.pipeline.trans hs.pipeline, ⟨tripped', ?_⟩, ?_, fun path hp => ?_,
      fun path hp => ?_⟩
    · rw [hx', hx, List.set_set]
    · rw [hr.sent, hs.sent, List.append_assoc, ← List.filterMap_append]
      rfl
    · rw [List.mem_cons, not_or] at hp
      rw [hr.kept path hp.2, hs.kept path fun h => hp.1 (List.mem_singleton.mp h)]
    · by_cases hm : .remove path ∈ rest
      · exact hr.removed path hm
      · rw [hr.kept path hm]
        exact hs.removed path (by simpa [hm] using hp)

/-! ### What a step makes of the downloads -/

theorem stored_eq (d : Downloader) (action : Action) : (d.stored action).downloads = d.downloads ∧
    (d.stored action).retry = d.retry ∧ (d.stored action).pipeline = d.pipeline ∧
      (d.stored action).shared.events = d.shared.events := by
  unfold stored
  split <;> exact ⟨rfl, rfl, rfl, rfl⟩

theorem getElem?_stored (hd : d.downloads[i]? = some x) : (d.stored action).downloads[i]? = some x := by
  rw [(stored_eq d action).1, hd]

theorem feed_spec (hd : d.downloads[i]? = some x) (t : Transfer) (input : Transfer.Input) :
    Performed i { x with phase := .transferring (t.step input).1 } (t.step input).2
      (d.move i x (.transferring (t.step input).1)) (d.feed i x t input) := by
  refine performAll_spec ?_ _
  exact List.getElem?_set_self (List.getElem?_eq_some_iff.mp hd).1

theorem pipeline_feed_stored (hd : d.downloads[i]? = some x) (t : Transfer) (input : Transfer.Input) :
    ((d.stored action).feed i x t input).pipeline = d.pipeline :=
  (feed_spec (getElem?_stored hd) t input).pipeline.trans (stored_eq d action).2.2.1

/-- What a step makes of the downloads: it moves those that are there, and begins others. -/
def Moved (d : Downloader) (action : Action) (d' : Downloader) : Prop :=
  ∀ j x', d'.downloads[j]? = some x' →
    (∃ x, d.downloads[j]? = some x ∧ x.Continues x' ∧
      DownloadPhase.Moves (x.transfer d.retry) (d.input? j action) x.phase x'.phase) ∨
    d.downloads.length ≤ j ∧ x'.phase = .begun

theorem moved_same (hd : d'.downloads = d.downloads) (ha : ∀ j, d.input? j action = none) : d.Moved action d' := by
  intro j x' hj
  rw [hd] at hj
  rw [ha]
  exact Or.inl ⟨x', hj, .refl x', .stay _⟩

theorem moved_set {input : Option Transfer.Input} {x' : Download} (hd : d.downloads[i]? = some x)
    (hd' : d'.downloads = d.downloads.set i x') (ha : action.isAbout i = true) (hi : d.input? i action = input)
    (hx : x.Continues x') (hm : DownloadPhase.Moves (x.transfer d.retry) input x.phase x'.phase) :
    d.Moved action d' := by
  intro j y hj
  rw [hd'] at hj
  by_cases hji : j = i
  · subst hji
    rw [List.getElem?_set_self (List.getElem?_eq_some_iff.mp hd).1] at hj
    cases hj
    exact Or.inl ⟨x, hd, hx, hi ▸ hm⟩
  · rw [List.getElem?_set_ne (Ne.symm hji)] at hj
    have hn : action.isAbout j = false := Bool.eq_false_iff.mpr fun h => hji (isAbout_unique h ha)
    rw [input?_of_not_about hn]
    exact Or.inl ⟨y, hj, .refl y, .stay _⟩

theorem moved_accepted (request : Request) (caller limit : Nat) :
    d.Moved (.ask request caller) (d.accepted request caller limit) := by
  intro j x' hj
  rcases Nat.lt_or_ge j d.downloads.length with hl | hl
  · rw [accepted, List.getElem?_append_left hl] at hj
    rw [input?_of_not_about rfl]
    exact Or.inl ⟨x', hj, .refl x', .stay _⟩
  · rw [accepted, List.getElem?_append_right hl, List.getElem?_singleton] at hj
    split at hj
    · cases hj
      exact Or.inr ⟨hl, rfl⟩
    · cases hj

theorem Step.moved (h : Step d action d') : d.Moved action d' := by
  cases h with
  | refuse | cancel | shutdown | setCeiling | work => exact moved_same rfl fun j => input?_of_not_about rfl
  | accept => exact moved_accepted _ _ _
  | announce hd hp | enter hd hp | line hd hp | claim hd hp =>
    exact moved_set hd rfl (isAbout_advance _) (input?_of_phase hd hp rfl) ⟨rfl, rfl, rfl⟩ (.wait (by rw [hp]; rfl) rfl)
  | begin hd hp =>
    refine moved_set hd rfl (isAbout_advance _) (input?_of_phase hd hp rfl) ⟨rfl, rfl, rfl⟩ ?_
    rw [hp]
    exact .begin
  | quit hd hp | giveUp hd hp | deliver hd hp | reject hd hp | submit hd hp | collect hd hp | fail hd hp =>
    exact moved_set hd rfl (isAbout_advance _) (input?_of_phase hd hp rfl) ⟨rfl, rfl, rfl⟩ (.leave _ rfl)
  | dropWaiting hd hp | dropOpening hd hp =>
    exact moved_set hd rfl (isAbout_drop _) (input?_of_phase hd hp rfl) ⟨rfl, rfl, rfl⟩ (.leave _ rfl)
  | dropTransfer hd =>
    exact moved_set hd rfl (isAbout_drop _) (input?_drop _ _) ⟨rfl, rfl, rfl⟩ (.leave _ rfl)
  | carry hd | unlink hd => exact moved_set hd rfl (isAbout_link _) (input?_link _ _) ⟨rfl, rfl, rfl⟩ (.stay _)
  | @yield i x t result hd hp hr =>
    have hq : d.input? i (.advance i) = none := by
      rw [input?_of_transferring hd hp (isAbout_advance i), hr]
      rfl
    cases result with
    | ok file => exact moved_set hd rfl (isAbout_advance _) hq ⟨rfl, rfl, rfl⟩ (by rw [hp]; exact .finish hr)
    | error failure => exact moved_set hd rfl (isAbout_advance _) hq ⟨rfl, rfl, rfl⟩ (.leave _ rfl)
  | @feed i x t _ input hd hp hi =>
    obtain ⟨hs, -, -, -⟩ := stored_eq d action
    have hd' : (d.stored action).downloads[i]? = some x := by rw [hs, hd]
    obtain ⟨tripped, hf⟩ := (feed_spec hd' t input).downloads
    rw [move, put, List.set_set, hs] at hf
    exact moved_set hd hf (isAbout_of_input? hi) hi ⟨rfl, rfl, rfl⟩ (by rw [hp]; exact .feed t input)

theorem Step.length_le (h : Step d action d') : d.downloads.length ≤ d'.downloads.length := by
  cases h with
  | accept => simp [accepted]
  | @feed i x t _ input hd =>
    obtain ⟨hs, -, -, -⟩ := stored_eq d action
    obtain ⟨tripped, hf⟩ := (feed_spec (by rw [hs, hd]) t input).downloads
    rw [hf, List.length_set]
    exact (by simp [move, put, hs])
  | refuse | cancel | shutdown | setCeiling | work => exact Nat.le_refl _
  | _ => exact Nat.le_of_eq (List.length_set ..).symm

/-- A download stays where it is in the list. -/
theorem Step.continues (h : Step d action d') (hd : d.downloads[i]? = some x) :
    ∃ x', d'.downloads[i]? = some x' ∧ x.Continues x' := by
  have hi := (List.getElem?_eq_some_iff.mp hd).1
  have hd' := List.getElem?_eq_getElem (Nat.lt_of_lt_of_le hi h.length_le)
  refine ⟨_, hd', ?_⟩
  rcases h.moved i _ hd' with ⟨y, hy, hc, -⟩ | ⟨hge, -⟩
  · rw [hd] at hy
    cases hy
    exact hc
  · exact absurd hi (Nat.not_lt_of_le hge)

theorem Step.retry_eq (h : Step d action d') : d'.retry = d.retry := by
  cases h with
  | @feed i x t _ input hd =>
    obtain ⟨hs, hr, -, -⟩ := stored_eq d action
    exact ((feed_spec (by rw [hs, hd]) t input).retry).trans hr
  | _ => rfl

/-! ### Jobs and their beginning -/

/-- The job whose beginning an action announces. -/
def starting? (d : Downloader) : Action → Option Job
  | .work => d.pipeline.starting?
  | _ => none

/-- A job comes to the pipeline for a download that has its file. -/
theorem Step.mem_jobs (h : Step d action d') {job : Job} (hm : job ∈ d'.pipeline.jobs) :
    job ∈ d.pipeline.jobs ∨
      ∃ x file, d.downloads[job.call]? = some x ∧ x.id = job.id ∧ x.phase = .transferred file := by
  cases h with
  | @feed i x t _ input hd =>
    obtain ⟨hs, -, hp, -⟩ := stored_eq d action
    rw [(feed_spec (by rw [hs, hd]) t input).pipeline] at hm
    exact Or.inl (hp ▸ hm)
  | @submit i x file work hd hp =>
    have hm : job ∈ d.pipeline.worker.job?.toList ++ (d.pipeline.queue ++ [⟨i, x.id, file, work⟩]) := hm
    rw [← List.append_assoc] at hm
    rcases List.mem_append.mp hm with hm | hm
    · exact Or.inl hm
    · obtain rfl := List.mem_singleton.mp hm
      exact Or.inr ⟨x, file, hd, rfl, hp⟩
  | collect hd hp hr =>
    obtain ⟨rfl, -⟩ := Pipeline.eq_of_collect? hr
    exact Or.inl hm
  | work hw => exact Or.inl ((Pipeline.step_of_step? hw).mem_jobs hm)
  | _ => exact Or.inl hm

/-- A transfer never announces the beginning of a job. -/
theorem started_of_transfer {t t' : Transfer} {input : Transfer.Input} {effects : List Transfer.Effect}
    (hs : Transfer.Step t input t' effects) : (effects.filterMap Transfer.Effect.event?).filterMap Event.startedId? = [] := by
  have hd : ∀ token, ((Transfer.discards token).filterMap Transfer.Effect.event?).filterMap Event.startedId? = [] := by
    intro token
    cases token <;> rfl
  cases hs with
  | stop | abort | fail | interrupt => exact hd _
  | _ => rfl

theorem Step.started (h : Step d action d') : d'.shared.events.sent.filterMap Event.startedId? =
    d.shared.events.sent.filterMap Event.startedId? ++ (d.starting? action).toList.map (·.id) := by
  cases h with
  | @feed i x t _ input hd hp hi =>
    obtain ⟨hs, -, -, he⟩ := stored_eq d action
    have hn : d.starting? action = none := by
      have ha := isAbout_of_input? hi
      cases action <;> first | rfl | cases ha
    rw [(feed_spec (by rw [hs, hd]) t input).sent, List.filterMap_append,
      started_of_transfer (Transfer.step_spec t input), hn]
    exact congrArg (fun c : Broadcast Event => c.sent.filterMap _ ++ []) he
  | announce | begin | fail =>
    change (d.shared.events.sent ++ [_]).filterMap _ = _
    rw [List.filterMap_append]
    rfl
  | work hw => exact (Pipeline.step_of_step? hw).started
  | _ => exact (List.append_nil _).symm

/-! ### Runs -/

/-- The inputs that actions have been for the transfer of the download of a number. -/
def inputs (d : Downloader) (i : Nat) : List Action → List Transfer.Input
  | [] => []
  | action :: rest => (d.input? i action).toList ++ ((d.step? action).map (·.inputs i rest)).getD []

/-- The jobs whose beginning has been announced. -/
def begun (d : Downloader) : List Action → List Job
  | [] => []
  | action :: rest => (d.starting? action).toList ++ ((d.step? action).map (·.begun rest)).getD []

theorem run?_append (d : Downloader) (earlier later : List Action) :
    d.run? (earlier ++ later) = (d.run? earlier).bind (·.run? later) := by
  induction earlier generalizing d with
  | nil => rfl
  | cons action rest ih =>
    rw [List.cons_append, run?, run?, Option.bind_assoc]
    exact congrArg _ (funext ih)

theorem run?_singleton (d : Downloader) (action : Action) : d.run? [action] = d.step? action := by
  cases h : d.step? action <;> simp [run?, h]

theorem inputs_append (h : d.run? earlier = some d') (i : Nat) (later : List Action) :
    d.inputs i (earlier ++ later) = d.inputs i earlier ++ d'.inputs i later := by
  induction earlier generalizing d with
  | nil =>
    cases h
    rfl
  | cons action rest ih =>
    obtain ⟨e, he, hr⟩ := Option.bind_eq_some_iff.mp h
    simp only [List.cons_append, inputs, he, Option.map_some, Option.getD_some, ih hr, List.append_assoc]

theorem begun_append (h : d.run? earlier = some d') (later : List Action) :
    d.begun (earlier ++ later) = d.begun earlier ++ d'.begun later := by
  induction earlier generalizing d with
  | nil =>
    cases h
    rfl
  | cons action rest ih =>
    obtain ⟨e, he, hr⟩ := Option.bind_eq_some_iff.mp h
    simp only [List.cons_append, begun, he, Option.map_some, Option.getD_some, ih hr, List.append_assoc]

theorem inputs_singleton (d : Downloader) (i : Nat) (action : Action) : d.inputs i [action] = (d.input? i action).toList := by
  cases h : d.step? action <;> simp [inputs, h]

theorem begun_singleton (d : Downloader) (action : Action) : d.begun [action] = (d.starting? action).toList := by
  cases h : d.step? action <;> simp [begun, h]

/-- What is known of the transfers of a downloader, given the inputs they have had and the jobs whose beginning
    has been announced. -/
structure Traced (policy : RetryPolicy) (fed : Nat → List Transfer.Input) (begun : List Job) (d : Downloader) :
    Prop where
  retry : d.retry = policy
  absent : ∀ i, d.downloads.length ≤ i → fed i = []
  follows : ∀ i (x : Download), d.downloads[i]? = some x → x.phase.Follows (x.transfer policy) (fed i)
  /-- the transfer of the download of every job has delivered a file -/
  delivered : ∀ job ∈ d.pipeline.jobs ++ begun, ∃ x file, d.downloads[job.call]? = some x ∧ x.id = job.id ∧
    ((x.transfer policy).run (fed job.call)).1.result? = some (.ok file)
  started : d.shared.events.sent.filterMap Event.startedId? = begun.map (·.id)

variable {policy : RetryPolicy} {fed : Nat → List Transfer.Input} {jobs : List Job}

theorem Step.traced (h : Step d action d') (ht : Traced policy fed jobs d) :
    Traced policy (fun i => fed i ++ (d.input? i action).toList) (jobs ++ (d.starting? action).toList) d' where
  retry := h.retry_eq.trans ht.retry
  absent i hi := by
    have hl := Nat.le_trans h.length_le hi
    have hn : d.input? i action = none := by
      rw [input?, List.getElem?_eq_none hl]
      rfl
    rw [ht.absent i hl, hn]
    rfl
  follows i x' hd' := by
    rcases h.moved i x' hd' with ⟨x, hd, hc, hm⟩ | ⟨hl, hp⟩
    · rw [hc.transfer_eq]
      rw [ht.retry] at hm
      exact hm.follows (ht.follows i x hd)
    · have hn : d.input? i action = none := by
        rw [input?, List.getElem?_eq_none hl]
        rfl
      rw [ht.absent i hl, hn, hp]
      exact fun _ => rfl
  delivered job hj := by
    have hold : ∀ job ∈ d.pipeline.jobs ++ jobs, ∃ x file, d'.downloads[job.call]? = some x ∧ x.id = job.id ∧
        ((x.transfer policy).run (fed job.call ++ (d.input? job.call action).toList)).1.result? =
          some (.ok file) := by
      intro job hj
      obtain ⟨x, file, hd, hi, hr⟩ := ht.delivered job hj
      obtain ⟨x', hd', hc⟩ := h.continues hd
      refine ⟨x', file, hd', hc.id.trans hi, ?_⟩
      rw [hc.transfer_eq]
      exact Transfer.result?_append hr _
    rcases List.mem_append.mp hj with hj | hj
    · rcases h.mem_jobs hj with hj | ⟨x, file, hd, hi, hp⟩
      · exact hold job (List.mem_append_left _ hj)
      · have hf := ht.follows _ x hd
        rw [hp] at hf
        obtain ⟨x', hd', hc⟩ := h.continues hd
        refine ⟨x', file, hd', hc.id.trans hi, ?_⟩
        rw [hc.transfer_eq]
        exact Transfer.result?_append hf _
    · rcases List.mem_append.mp hj with hj | hj
      · exact hold job (List.mem_append_right _ hj)
      · have hs : d.pipeline.starting? = some job := by
          cases action <;> first | exact Option.mem_toList.mp hj | cases hj
        exact hold job (List.mem_append_left _ (Pipeline.mem_jobs_of_starting? hs))
  started := by rw [h.started, ht.started, List.map_append]

/-- In every run, the transfer of a download is the run of its start on the inputs that the actions have been
    for it. -/
theorem traced_run {actions : List Action} (ht : Traced policy fed jobs d) (h : d.run? actions = some d') :
    Traced policy (fun i => fed i ++ d.inputs i actions) (jobs ++ d.begun actions) d' := by
  induction actions generalizing d fed jobs with
  | nil =>
    cases h
    simpa [inputs, begun] using ht
  | cons action rest ih =>
    obtain ⟨e, he, hr⟩ := Option.bind_eq_some_iff.mp h
    have hn := ih ((step_of_step? he).traced ht) hr
    simpa only [inputs, begun, he, Option.map_some, Option.getD_some, List.append_assoc] using hn

/-- A transfer that is under way is the run of its start. -/
theorem Traced.eq_run {t : Transfer} (ht : Traced policy fed jobs d) (hd : d.downloads[i]? = some x)
    (hp : x.phase = .transferring t) : t = ((x.transfer policy).run (fed i)).1 := by
  have hf := ht.follows i x hd
  rwa [hp] at hf

end Downloader
end SealedDownload
