import SealedDownload.Transfer

/-! The steps of a transfer, one by one. `Step` lists all that an input can make of a transfer, with the
    conditions and the effects; what a step keeps is then shown case by case. -/

namespace SealedDownload.Transfer

/-- Whether an input fits where a transfer is. -/
def fits : TransferPhase → Input → Bool
  | .doomed _, .begin _ => true
  | .ready _, .begin _ => true
  | .calling _, .report .. => true
  | .calling _, .settle .. => true
  | .measuring _, .measure .. => true
  | .resting _, .wake => true
  | .resting _, .interrupt => true
  | _, _ => false

/-- Whether a failure of the attempt at hand is followed by another attempt. -/
def Retries (t : Transfer) (failure : Failure) : Prop := failure.isRetryable = true ∧ t.number < t.maxAttempts

/-- The transfer after an attempt that is followed by another one. -/
def rest (t : Transfer) (failure : Failure) : Transfer :=
  { t with phase := .resting failure.resume?, backoff := t.backoff.advance }

/-- What is done before another attempt. -/
def restEffects (t : Transfer) (failure : Failure) (draw : Float) : List Effect :=
  [.emit (.retrying t.id (UInt32.ofNat t.number) (t.pause draw).millisWord failure.message), .rest (t.pause draw)]

/-- The event that an effect announces. -/
def Effect.event? : Effect → Option Event
  | .emit event => some event
  | _ => none

/-- All that an input can make of a transfer: the transfer after it, and the effects. -/
inductive Step (t : Transfer) : Input → Transfer → List Effect → Prop where
  | ignore {input : Input} (hf : fits t.phase input = false) : Step t input t []
  | reject {f : Failure} {c : Bool} (hp : t.phase = .doomed f) : Step t (.begin c) (t.finish (.error f)) []
  | stop {r : Option ResumeToken} (hp : t.phase = .ready r) :
      Step t (.begin true) (t.finish (.error .cancelled)) (discards r)
  | call {r : Option ResumeToken} (hp : t.phase = .ready r) :
      Step t (.begin false) { t with phase := .calling noViolation } [.call r]
  | early {v : Nat} {total : Option Nat} (hp : t.phase = .calling v) : Step t (.report 0 total) t []
  | trip {v completed observed : Nat} {total : Option Nat} (hp : t.phase = .calling v) (hc : completed ≠ 0)
      (hx : excess? t.limit completed total = some observed) :
      Step t (.report completed total) { t with phase := .calling (note v observed) } [.trip]
  | publish {v completed : Nat} {total : Option Nat} {id : AttachmentId} {fraction : Float}
      (hp : t.phase = .calling v) (hc : completed ≠ 0) (hx : excess? t.limit completed total = none)
      (ha : t.attachment = some id) (hf : Progress.fraction? completed total = some fraction) :
      Step t (.report completed total) t [.publish id fraction]
  | pass {v completed : Nat} {total : Option Nat} (hp : t.phase = .calling v) (hc : completed ≠ 0)
      (hx : excess? t.limit completed total = none) (ha : t.attachment = none) :
      Step t (.report completed total) t []
  | abortFile {v : Nat} {file : Path} {draw : Float} (hp : t.phase = .calling v) (hv : v ≠ noViolation) :
      Step t (.settle (.ok file) draw) (t.finish (.error (.oversize t.limit v))) [.remove file]
  | abort {v : Nat} {f : Failure} {draw : Float} (hp : t.phase = .calling v) (hv : v ≠ noViolation) :
      Step t (.settle (.error f) draw) (t.finish (.error (.oversize t.limit v))) (discards f.resume?)
  | fetch {file : Path} {draw : Float} (hp : t.phase = .calling noViolation) :
      Step t (.settle (.ok file) draw) { t with phase := .measuring file } []
  | retry {f : Failure} {draw : Float} (hp : t.phase = .calling noViolation) (hr : t.Retries f) :
      Step t (.settle (.error f) draw) (t.rest f) (t.restEffects f draw)
  | fail {f : Failure} {draw : Float} (hp : t.phase = .calling noViolation) (hr : ¬t.Retries f) :
      Step t (.settle (.error f) draw) (t.finish (.error f.withoutResume)) (discards f.resume?)
  | retryLost {file : Path} {kind : IoKind} {draw : Float} (hp : t.phase = .measuring file)
      (hr : t.Retries (.io kind none)) :
      Step t (.measure (.error kind) draw) (t.rest (.io kind none))
        (.remove file :: t.restEffects (.io kind none) draw)
  | lose {file : Path} {kind : IoKind} {draw : Float} (hp : t.phase = .measuring file)
      (hr : ¬t.Retries (.io kind none)) :
      Step t (.measure (.error kind) draw) (t.finish (.error (.io kind none))) [.remove file]
  | exceed {file : Path} {size : Nat} {draw : Float} (hp : t.phase = .measuring file) (hs : t.limit < size) :
      Step t (.measure (.ok size) draw) (t.finish (.error (.oversize t.limit size))) [.remove file]
  | complete {file : Path} {size : Nat} {draw : Float} (hp : t.phase = .measuring file) (hs : size ≤ t.limit) :
      Step t (.measure (.ok size) draw) (t.finish (.ok file)) [.emit (.transferComplete t.id (UInt64.ofNat size))]
  | wake {r : Option ResumeToken} (hp : t.phase = .resting r) :
      Step t .wake { t with phase := .ready r, number := t.number + 1 } []
  | interrupt {r : Option ResumeToken} (hp : t.phase = .resting r) :
      Step t .interrupt (t.finish (.error .cancelled)) (discards r)

/-! ### The start -/

theorem path_error {request : Request} {f : Failure} (h : request.path = .error f) :
    ∃ message, f = .protocol message := by
  have key : ∀ {cdnKey : String}, Request.attachmentPath cdnKey = .error f → ∃ message, f = .protocol message := by
    intro cdnKey hk
    unfold Request.attachmentPath at hk
    split at hk <;> cases hk
    exact ⟨_, rfl⟩
  cases request with
  | backup location headers =>
    simp only [Request.path] at h
    split at h <;> cases h
    exact ⟨_, rfl⟩
  | transient metadata => exact key h
  | attachment metadata id => exact key h

/-- A transfer starts before its first attempt, without a token, or bound to fail for its request. -/
theorem phase_start (id : TransferId) (request : Request) (limit : Nat) (policy : RetryPolicy) :
    (start id request limit policy).phase = .ready none ∨
      ∃ message, (start id request limit policy).phase = .doomed (.protocol message) := by
  unfold start Request.forTransport
  cases hp : request.path with
  | ok path => exact Or.inl rfl
  | error f =>
    obtain ⟨message, rfl⟩ := path_error hp
    exact Or.inr ⟨message, rfl⟩

/-! ### The steps -/

variable {t : Transfer}

theorem fraction?_isSome {completed : Nat} (hc : completed ≠ 0) (total : Option Nat) :
    ∃ fraction, Progress.fraction? completed total = some fraction := by
  simp only [Progress.fraction?, if_neg hc]
  exact ⟨_, rfl⟩

theorem fail_of_retries {f : Failure} (hr : t.Retries f) (draw : Float) :
    t.fail f draw = (t.rest f, t.restEffects f draw) := by
  have hr : f.isRetryable = true ∧ t.number < t.maxAttempts := hr
  unfold fail
  rw [if_pos hr]
  rfl

theorem fail_of_not_retries {f : Failure} (hr : ¬t.Retries f) (draw : Float) :
    t.fail f draw = (t.finish (.error f.withoutResume), discards f.resume?) := by
  have hr : ¬(f.isRetryable = true ∧ t.number < t.maxAttempts) := hr
  unfold fail
  rw [if_neg hr]

theorem step_of_not_fits {input : Input} (hf : fits t.phase input = false) : t.step input = (t, []) := by
  unfold step
  split <;> simp_all [fits]

theorem step_report {v completed : Nat} {total : Option Nat} (hp : t.phase = .calling v) :
    Step t (.report completed total) (t.report v completed total).1 (t.report v completed total).2 := by
  unfold report
  by_cases hc : completed = 0
  · subst hc
    exact .early hp
  · rw [if_neg hc]
    cases hx : excess? t.limit completed total with
    | some observed => exact .trip hp hc hx
    | none =>
      obtain ⟨fraction, hf⟩ := fraction?_isSome hc total
      cases ha : t.attachment with
      | none => exact .pass hp hc hx ha
      | some id =>
        simp only [hf]
        exact .publish hp hc hx ha hf

theorem step_settle {v : Nat} {outcome : Except Failure Path} {draw : Float} (hp : t.phase = .calling v) :
    Step t (.settle outcome draw) (t.settle v outcome draw).1 (t.settle v outcome draw).2 := by
  unfold settle
  by_cases hv : v = noViolation
  · subst hv
    rw [if_neg (not_not_intro rfl)]
    cases outcome with
    | ok file => exact .fetch hp
    | error f =>
      by_cases hr : t.Retries f
      · simp only [fail_of_retries hr]
        exact .retry hp hr
      · simp only [fail_of_not_retries hr]
        exact .fail hp hr
  · rw [if_pos hv]
    cases outcome with
    | ok file => exact .abortFile hp hv
    | error f => exact .abort hp hv

theorem step_measure {file : Path} {size : Except IoKind Nat} {draw : Float} (hp : t.phase = .measuring file) :
    Step t (.measure size draw) (t.measure file size draw).1 (t.measure file size draw).2 := by
  cases size with
  | error kind =>
    by_cases hr : t.Retries (.io kind none)
    · simp only [measure, fail_of_retries hr]
      exact .retryLost hp hr
    · simp only [measure, fail_of_not_retries hr]
      exact .lose hp hr
  | ok size =>
    unfold measure
    by_cases hs : t.limit < size
    · simp only [if_pos hs]
      exact .exceed hp hs
    · simp only [if_neg hs]
      exact .complete hp (Nat.le_of_not_lt hs)

/-- Every input makes one of the listed steps. -/
theorem step_spec (t : Transfer) (input : Input) : Step t input (t.step input).1 (t.step input).2 := by
  cases hf : fits t.phase input with
  | false =>
    rw [step_of_not_fits hf]
    exact .ignore hf
  | true =>
    cases hp : t.phase with
    | doomed f =>
      cases input with
      | begin c =>
        simp only [step, hp]
        exact .reject hp
      | _ => simp [hp, fits] at hf
    | ready r =>
      cases input with
      | begin c =>
        cases c <;> simp only [step, hp]
        · exact .call hp
        · exact .stop hp
      | _ => simp [hp, fits] at hf
    | calling v =>
      cases input with
      | report completed total =>
        simp only [step, hp]
        exact step_report hp
      | settle outcome draw =>
        simp only [step, hp]
        exact step_settle hp
      | _ => simp [hp, fits] at hf
    | measuring file =>
      cases input with
      | measure size draw =>
        simp only [step, hp]
        exact step_measure hp
      | _ => simp [hp, fits] at hf
    | resting r =>
      cases input with
      | wake =>
        simp only [step, hp]
        exact .wake hp
      | interrupt =>
        simp only [step, hp]
        exact .interrupt hp
      | _ => simp [hp, fits] at hf
    | ended result => simp [hp, fits] at hf

/-! ### The result -/

theorem phase_of_result? {result : Except Failure Path} (h : t.result? = some result) : t.phase = .ended result := by
  unfold result? at h
  split at h
  · rename_i hp
    rw [hp, Option.some.inj h]
  · cases h

end SealedDownload.Transfer
