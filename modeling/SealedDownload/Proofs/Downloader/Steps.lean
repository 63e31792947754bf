import SealedDownload.Downloader
import SealedDownload.Proofs.Transfer.Steps

/-! The steps of a downloader, one by one. `Step` lists all that an action can make of a downloader, with the
    conditions; the actions that are an input of a transfer are one case of it, and `Performed` says what
    the effects of a transfer leave alone. -/

namespace SealedDownload.Downloader

/-! ### Inputs of transfers -/

/-- Whether an action is about the download of a number. -/
def Action.isAbout (i : Nat) : Action → Bool
  | .advance j => j = i
  | .drop j => j = i
  | .link j => j = i
  | .report j .. => j = i
  | .settle j .. => j = i
  | .wake j => j = i
  | _ => false

/-- The input that an action is where a transfer is. -/
def offer? (d : Downloader) (cancelled : Bool) : TransferPhase → Action → Option Transfer.Input
  | .doomed _, .advance _ => some (.begin cancelled)
  | .ready _, .advance _ => some (.begin cancelled)
  | .measuring file, .advance _ => some (.measure (d.sizeOf file) 0)
  | .resting _, .advance _ => if cancelled then some .interrupt else none
  | .calling _, .report _ completed total => some (.report completed total)
  | .calling _, .settle _ outcome _ draw => some (.settle outcome draw)
  | .resting _, .wake _ => some .wake
  | _, _ => none

/-- The input that an action is for the transfer of the download of a number. -/
def input? (d : Downloader) (i : Nat) (action : Action) : Option Transfer.Input := do
  let download ← d.downloads[i]?
  match download.phase with
  | .transferring transfer =>
    if action.isAbout i then d.offer? (d.isCancelled download) transfer.phase action else none
  | _ => none

/-- The downloader with the file that an action hands over. -/
def stored (d : Downloader) : Action → Downloader
  | .settle _ (.ok path) (some bytes) _ =>
    { d with shared := { d.shared with files := d.shared.files.write path bytes } }
  | _ => d

/-- The downloader with one more download. -/
def accepted (d : Downloader) (request : Request) (caller limit : Nat) : Downloader :=
  { d with
    nextId := d.nextId.next
    downloads := d.downloads ++ [⟨request, caller, d.nextId, limit, false, true, false, .begun⟩] }

/-- Where a download is once its transfer has ended. -/
def afterTransfer : Except Failure Path → DownloadPhase
  | .ok file => .transferred file
  | .error failure => .failing failure

/-! ### The steps -/

/-- All that an action can make of a downloader. -/
inductive Step (d : Downloader) : Action → Downloader → Prop where
  | refuse {request : Request} {caller : Nat} {f : Failure} (h : d.ask request caller = .error f) :
      Step d (.ask request caller) d
  | accept {request : Request} {caller limit : Nat} (hl : d.limitFor request = .ok limit) (hs : d.shutDown = false) :
      Step d (.ask request caller) (d.accepted request caller limit)
  | announce {i : Nat} {x : Download} (hd : d.downloads[i]? = some x) (hp : x.phase = .begun) :
      Step d (.advance i) ((d.announce (.queued x.id x.request.kind)).move i x .arriving)
  | quit {i : Nat} {x : Download} (hd : d.downloads[i]? = some x) (hp : x.phase = .arriving)
      (hc : d.isCancelled x = true) : Step d (.advance i) (d.move i x (.failing .cancelled))
  | enter {i : Nat} {x : Download} {a : Admission} (hd : d.downloads[i]? = some x) (hp : x.phase = .arriving)
      (hc : d.isCancelled x = false) (he : d.admission.enter = (.slot, a)) :
      Step d (.advance i) ({ d with admission := a }.move i x .admitted)
  | line {i ticket : Nat} {x : Download} {a : Admission} (hd : d.downloads[i]? = some x) (hp : x.phase = .arriving)
      (hc : d.isCancelled x = false) (he : d.admission.enter = (.ticket ticket, a)) :
      Step d (.advance i) ({ d with admission := a }.move i x (.waiting ticket))
  | giveUp {i ticket : Nat} {x : Download} (hd : d.downloads[i]? = some x) (hp : x.phase = .waiting ticket)
      (hc : d.isCancelled x = true) :
      Step d (.advance i) ({ d with admission := d.admission.leave ticket }.move i x (.failing .cancelled))
  | claim {i ticket : Nat} {x : Download} (hd : d.downloads[i]? = some x) (hp : x.phase = .waiting ticket)
      (hc : d.isCancelled x = false) (hg : d.admission.isGranted ticket = true) :
      Step d (.advance i) ({ d with admission := d.admission.claim ticket }.move i x .admitted)
  | begin {i : Nat} {x : Download} (hd : d.downloads[i]? = some x) (hp : x.phase = .admitted) :
      Step d (.advance i) ((d.announce (.admitted x.id)).move i x
        (.transferring (.start x.id x.request x.limit d.retry)))
  | feed {i : Nat} {x : Download} {t : Transfer} {action : Action} {input : Transfer.Input}
      (hd : d.downloads[i]? = some x) (hp : x.phase = .transferring t) (hi : d.input? i action = some input) :
      Step d action ((d.stored action).feed i x t input)
  | yield {i : Nat} {x : Download} {t : Transfer} {result : Except Failure Path} (hd : d.downloads[i]? = some x)
      (hp : x.phase = .transferring t) (hr : t.phase = .ended result) :
      Step d (.advance i) (d.release.move i x (afterTransfer result))
  | deliver {i : Nat} {x : Download} {file : Path} (hd : d.downloads[i]? = some x) (hp : x.phase = .transferred file)
      (hw : d.workFor x.request = none) :
      Step d (.advance i) (d.leave i x (.over (.ok (.ciphertext file))))
  | reject {i : Nat} {x : Download} {file : Path} {work : Work} (hd : d.downloads[i]? = some x)
      (hp : x.phase = .transferred file) (hw : d.workFor x.request = some work) (hc : d.isCancelled x = true) :
      Step d (.advance i) ({ d with shared := d.shared.erase file }.leave i x (.over (.error .cancelled)))
  | submit {i : Nat} {x : Download} {file : Path} {work : Work} (hd : d.downloads[i]? = some x)
      (hp : x.phase = .transferred file) (hw : d.workFor x.request = some work) (hc : d.isCancelled x = false) :
      Step d (.advance i) ({ d with pipeline := d.pipeline.push ⟨i, x.id, file, work⟩ }.move i x .opening)
  | collect {i : Nat} {x : Download} {result : Except Failure Product} {p : Pipeline}
      (hd : d.downloads[i]? = some x) (hp : x.phase = .opening) (hr : d.pipeline.collect? i = some (result, p)) :
      Step d (.advance i) ({ d with pipeline := p }.leave i x (.over (result.map .opened)))
  | fail {i : Nat} {x : Download} {f : Failure} (hd : d.downloads[i]? = some x) (hp : x.phase = .failing f) :
      Step d (.advance i) ((d.announce (.transferFailed x.id f.message)).leave i x (.over (.error f)))
  | dropWaiting {i ticket : Nat} {x : Download} (hd : d.downloads[i]? = some x) (hp : x.phase = .waiting ticket) :
      Step d (.drop i) ({ d with admission := d.admission.leave ticket }.leave i x .dropped)
  | dropTransfer {i : Nat} {x : Download} {t : Transfer} (hd : d.downloads[i]? = some x)
      (hp : x.phase = .transferring t) : Step d (.drop i) (d.release.leave i x .dropped)
  | dropOpening {i : Nat} {x : Download} (hd : d.downloads[i]? = some x) (hp : x.phase = .opening) :
      Step d (.drop i) ({ d with pipeline := d.pipeline.hangUp i }.leave i x .dropped)
  | carry {i : Nat} {x : Download} (hd : d.downloads[i]? = some x) (hl : x.linking = true)
      (hc : d.cancelledCallers.contains x.caller = true) :
      Step d (.link i) (d.put i { x with cancelled := true, linking := false })
  | unlink {i : Nat} {x : Download} (hd : d.downloads[i]? = some x) (hl : x.linking = true)
      (hc : d.isCancelled x = true) : Step d (.link i) (d.put i { x with linking := false })
  | work {p : Pipeline} {s : Shared} (h : d.pipeline.step? d.isCancelledAt d.shared = some (p, s)) :
      Step d .work { d with pipeline := p, shared := s }
  | cancel {caller : Nat} : Step d (.cancel caller) (d.cancel caller)
  | shutdown : Step d .shutdown d.shutdown
  | setCeiling {ceiling : Nat} : Step d (.setCeiling ceiling) (d.setCeiling ceiling)

variable {d d' : Downloader} {i j : Nat} {x : Download} {t : Transfer} {action : Action}

theorem step_ask {request : Request} {caller : Nat} (h : d.ask request caller = .ok d') :
    Step d (.ask request caller) d' := by
  unfold ask at h
  cases hl : d.limitFor request with
  | error f =>
    rw [hl] at h
    cases h
  | ok limit =>
    rw [hl] at h
    change (if d.shutDown then Except.error Failure.shuttingDown else Except.ok (d.accepted request caller limit)) =
      Except.ok d' at h
    split at h
    · cases h
    · rename_i hs
      cases h
      exact .accept hl (Bool.eq_false_iff.mpr hs)

theorem isAbout_advance (i : Nat) : (Action.advance i).isAbout i = true := decide_eq_true rfl

theorem isAbout_drop (i : Nat) : (Action.drop i).isAbout i = true := decide_eq_true rfl

theorem isAbout_link (i : Nat) : (Action.link i).isAbout i = true := decide_eq_true rfl

theorem input?_of_transferring (hd : d.downloads[i]? = some x) (hp : x.phase = .transferring t)
    (ha : action.isAbout i = true) : d.input? i action = d.offer? (d.isCancelled x) t.phase action := by
  simp [input?, hd, hp, ha]

theorem step_transfer (hd : d.downloads[i]? = some x) (hp : x.phase = .transferring t)
    (h : d.stepTransfer? i x t = some d') : Step d (.advance i) d' := by
  have hi := input?_of_transferring hd hp (isAbout_advance i)
  unfold stepTransfer? at h
  split at h
  · rename_i ht
    rw [ht] at hi
    cases h
    exact .feed hd hp hi
  · rename_i ht
    rw [ht] at hi
    cases h
    exact .feed hd hp hi
  · cases h
  · rename_i ht
    rw [ht] at hi
    cases h
    exact .feed hd hp hi
  · rename_i ht
    rw [ht] at hi
    split at h
    · rename_i hc
      cases h
      exact .feed hd hp (hi.trans (if_pos hc))
    · cases h
  · rename_i result ht
    cases h
    cases result <;> exact .yield hd hp ht

theorem step_handOver {file : Path} (hd : d.downloads[i]? = some x) (hp : x.phase = .transferred file) :
    Step d (.advance i) (d.handOver i x file) := by
  unfold handOver
  cases hw : d.workFor x.request with
  | none => exact .deliver hd hp hw
  | some work =>
    cases hc : d.isCancelled x with
    | true => exact .reject hd hp hw hc
    | false => exact .submit hd hp hw hc

theorem step_advance (h : d.advance? i = some d') : Step d (.advance i) d' := by
  unfold advance? at h
  obtain ⟨x, hd, h⟩ := Option.bind_eq_some_iff.mp h
  split at h
  · rename_i hp
    cases h
    exact .announce hd hp
  · rename_i hp
    split at h
    · rename_i hc
      cases h
      exact .quit hd hp hc
    · rename_i hc
      split at h
      · rename_i he
        cases h
        exact .enter hd hp (Bool.eq_false_iff.mpr hc) he
      · rename_i he
        cases h
        exact .line hd hp (Bool.eq_false_iff.mpr hc) he
  · rename_i hp
    split at h
    · rename_i hc
      cases h
      exact .giveUp hd hp hc
    · rename_i hc
      split at h
      · rename_i hg
        cases h
        exact .claim hd hp (Bool.eq_false_iff.mpr hc) hg
      · cases h
  · rename_i hp
    cases h
    exact .begin hd hp
  · rename_i hp
    exact step_transfer hd hp h
  · rename_i hp
    cases h
    exact step_handOver hd hp
  · rename_i hp
    split at h
    · rename_i hr
      cases h
      exact .collect hd hp hr
    · cases h
  · rename_i hp
    cases h
    exact .fail hd hp
  · cases h
  · cases h

theorem step_drop (h : d.drop? i = some d') : Step d (.drop i) d' := by
  unfold drop? at h
  obtain ⟨x, hd, h⟩ := Option.bind_eq_some_iff.mp h
  split at h
  · rename_i hp
    cases h
    exact .dropWaiting hd hp
  · rename_i hp
    split at h
    all_goals first
      | cases h
        exact .dropTransfer hd hp
      | cases h
  · rename_i hp
    cases h
    exact .dropOpening hd hp
  · cases h

theorem step_link (h : d.link? i = some d') : Step d (.link i) d' := by
  unfold link? at h
  obtain ⟨x, hd, h⟩ := Option.bind_eq_some_iff.mp h
  split at h
  · cases h
  · rename_i hl
    have hl : x.linking = true := by simpa using hl
    split at h
    · rename_i hc
      cases h
      exact .carry hd hl hc
    · split at h
      · rename_i hc
        cases h
        exact .unlink hd hl hc
      · cases h

theorem calling?_eq_some (h : d.calling? i = some (x, t)) :
    d.downloads[i]? = some x ∧ x.phase = .transferring t ∧ ∃ noted, t.phase = .calling noted := by
  unfold calling? at h
  obtain ⟨y, hd, h⟩ := Option.bind_eq_some_iff.mp h
  split at h
  · rename_i hp
    split at h
    · rename_i ht
      cases h
      exact ⟨hd, hp, _, ht⟩
    · cases h
  · cases h

theorem step_report {completed : Nat} {total : Option Nat} (h : d.report? i completed total = some d') :
    Step d (.report i completed total) d' := by
  obtain ⟨⟨x, t⟩, hc, rfl⟩ := Option.map_eq_some_iff.mp h
  obtain ⟨hd, hp, noted, ht⟩ := calling?_eq_some hc
  have ha : Action.isAbout i (.report i completed total) = true := decide_eq_true rfl
  have hi := input?_of_transferring hd hp ha
  rw [ht] at hi
  exact .feed hd hp hi

theorem step_settle {outcome : Except Failure Path} {content : Option Octets} {draw : Float}
    (h : d.settle? i outcome content draw = some d') : Step d (.settle i outcome content draw) d' := by
  obtain ⟨⟨x, t⟩, hc, rfl⟩ := Option.map_eq_some_iff.mp h
  obtain ⟨hd, hp, noted, ht⟩ := calling?_eq_some hc
  have ha : Action.isAbout i (.settle i outcome content draw) = true := decide_eq_true rfl
  have hi := input?_of_transferring hd hp ha
  rw [ht] at hi
  have hf := Step.feed hd hp hi
  cases outcome <;> cases content <;> exact hf

theorem step_wake (h : d.wake? i = some d') : Step d (.wake i) d' := by
  unfold wake? at h
  obtain ⟨x, hd, h⟩ := Option.bind_eq_some_iff.mp h
  split at h
  · rename_i hp
    split at h
    · rename_i ht
      have ha : Action.isAbout i (.wake i) = true := decide_eq_true rfl
      have hi := input?_of_transferring hd hp ha
      rw [ht] at hi
      cases h
      exact .feed hd hp hi
    · cases h
  · cases h

/-- Every action makes one of the listed steps. -/
theorem step_of_step? (h : d.step? action = some d') : Step d action d' := by
  cases action with
  | ask request caller =>
    simp only [step?] at h
    split at h
    · rename_i ha
      cases h
      exact step_ask ha
    · rename_i ha
      cases h
      exact .refuse ha
  | advance i => exact step_advance h
  | drop i => exact step_drop h
  | link i => exact step_link h
  | report i completed total => exact step_report h
  | settle i outcome content draw => exact step_settle h
  | wake i => exact step_wake h
  | work =>
    obtain ⟨⟨p, s⟩, hw, rfl⟩ := Option.map_eq_some_iff.mp h
    exact .work hw
  | cancel caller =>
    cases h
    exact .cancel
  | shutdown =>
    cases h
    exact .shutdown
  | setCeiling ceiling =>
    cases h
    exact .setCeiling

/-! ### Inputs are taken -/

theorem step?_advance (hd : d.downloads[i]? = some x) (hp : x.phase = .transferring t) :
    d.step? (.advance i) = d.stepTransfer? i x t := by
  simp only [step?, advance?, hd, Option.bind_eq_bind, Option.bind_some, hp]

theorem calling?_of_phase {noted : Nat} (hd : d.downloads[i]? = some x) (hp : x.phase = .transferring t)
    (ht : t.phase = .calling noted) : d.calling? i = some (x, t) := by
  simp only [calling?, hd, Option.bind_eq_bind, Option.bind_some, hp, ht]

theorem wake?_of_phase {resume : Option ResumeToken} (hd : d.downloads[i]? = some x)
    (hp : x.phase = .transferring t) (ht : t.phase = .resting resume) : d.wake? i = some (d.feed i x t .wake) := by
  simp only [wake?, hd, Option.bind_eq_bind, Option.bind_some, hp, ht]

/-- An action that is an input of a transfer does nothing but give it that input. -/
theorem step?_of_input? {input : Transfer.Input} (hd : d.downloads[i]? = some x) (hp : x.phase = .transferring t)
    (ha : action.isAbout i = true) (hi : d.input? i action = some input) :
    d.step? action = some ((d.stored action).feed i x t input) := by
  rw [input?_of_transferring hd hp ha] at hi
  cases action with
  | advance j =>
    obtain rfl : j = i := of_decide_eq_true ha
    rw [step?_advance hd hp, stepTransfer?]
    cases ht : t.phase with
    | doomed | ready | measuring =>
      rw [ht] at hi
      cases hi
      rfl
    | calling | ended =>
      rw [ht] at hi
      cases hi
    | resting =>
      rw [ht] at hi
      change (if d.isCancelled x = true then _ else _) = _ at hi
      split at hi
      · rename_i hc
        cases hi
        exact if_pos hc
      · cases hi
  | report j completed total =>
    obtain rfl : j = i := of_decide_eq_true ha
    cases ht : t.phase with
    | calling =>
      rw [ht] at hi
      cases hi
      simp only [step?, report?, calling?_of_phase hd hp ht, Option.map_some, stored]
    | _ =>
      rw [ht] at hi
      cases hi
  | settle j outcome content draw =>
    obtain rfl : j = i := of_decide_eq_true ha
    cases ht : t.phase with
    | calling =>
      rw [ht] at hi
      cases hi
      simp only [step?, settle?, calling?_of_phase hd hp ht, Option.map_some]
      cases outcome <;> cases content <;> rfl
    | _ =>
      rw [ht] at hi
      cases hi
  | wake j =>
    obtain rfl : j = i := of_decide_eq_true ha
    cases ht : t.phase with
    | resting =>
      rw [ht] at hi
      cases hi
      exact wake?_of_phase hd hp ht
    | _ =>
      rw [ht] at hi
      cases hi
  | _ => cases hp' : t.phase <;> rw [hp'] at hi <;> cases hi

end SealedDownload.Downloader
