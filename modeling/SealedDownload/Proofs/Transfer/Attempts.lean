import SealedDownload.Proofs.Transfer.Course

/-! Attempt after attempt. What a transport makes of one attempt is an `Attempt`, and its `outcome` is what is left of
    that below the ceiling. A transfer that is not cancelled goes through the attempts up to the first outcome that
    decides, or to the last attempt that is allowed, and pauses in between; its `course` is all that can be seen of
    that from outside. -/

namespace SealedDownload.Transfer

/-! ### Attempts -/

/-- What a transport makes of one attempt. -/
structure Attempt where
  reports : List (Nat × Option Nat)
  answer : Except Failure Path
  /-- the size of the file that is handed over, or why it cannot be looked up -/
  size : Except IoKind Nat
  /-- what stretches the pause that may follow -/
  draw : Float

/-- Whether an outcome is followed by no other attempt, however many are left. -/
def isDecisive : Except Failure (Path × Nat) → Bool
  | .ok _ => true
  | .error failure => !failure.isRetryable

/-- Reports as inputs. -/
def told (reports : List (Nat × Option Nat)) : List Input := reports.map fun report => .report report.1 report.2

namespace Attempt

/-- The answer and the size as inputs; where no file has come, its size is ignored. -/
def answers (a : Attempt) : List Input := [.settle a.answer a.draw, .measure a.size a.draw]

/-- The inputs of an attempt before which nobody has cancelled. -/
def inputs (a : Attempt) : List Input := .begin false :: (told a.reports ++ a.answers)

/-- How an attempt ends below a ceiling: with a file and its size, or with a failure. -/
def outcome (limit : Nat) (a : Attempt) : Except Failure (Path × Nat) :=
  match firstExcess limit ((told a.reports).map .given) with
  | some observed => .error (.oversize limit observed)
  | none => match a.answer with
    | .error failure => .error failure
    | .ok file => match a.size with
      | .error kind => .error (.io kind none)
      | .ok size => if limit < size then .error (.oversize limit size) else .ok (file, size)

end Attempt

/-- The inputs of attempts and of the pauses after them. -/
def script (attempts : List Attempt) : List Input := attempts.flatMap fun a => a.inputs ++ [.wake]

variable {t t' : Transfer} {input : Input} {inputs : List Input} {a : Attempt} {r : Option ResumeToken}
  {result : Except Failure Path}

/-! ### One attempt -/

/-- A transfer whose transport is at work. -/
def atWork (t : Transfer) (noted : Nat) : Transfer := { t with phase := .calling noted }

/-- A transfer whose object has come. -/
def sizing (t : Transfer) (file : Path) : Transfer := { t with phase := .measuring file }

/-- A report leaves the transport at work, and is noted if it is the first one above the ceiling. -/
theorem step_told {seen : Option Nat} (hs : ∀ n, seen = some n → t.limit < n) (completed : Nat) (total : Option Nat) :
    let seen' := seen.or ((Moment.given (.report completed total)).excess? t.limit)
    ∃ effects, (t.atWork (seen.getD noViolation)).step (.report completed total) =
      (t.atWork (seen'.getD noViolation), effects) ∧ effects.filterMap Effect.turn? = [] := by
  intro seen'
  have hspec := step_spec (t.atWork (seen.getD noViolation)) (.report completed total)
  generalize (t.atWork (seen.getD noViolation)).step (.report completed total) = out at hspec ⊢
  obtain ⟨t', effects⟩ := out
  refine ⟨effects, Prod.ext ?_ rfl, ?_⟩
  · cases hspec with
    | ignore hf => cases hf
    | early =>
      have hseen : seen' = seen := Option.or_none
      rw [hseen]
      rfl
    | publish hp hc hx | pass hp hc hx =>
      have hseen : seen' = seen := by
        simp only [seen', Moment.excess?, if_neg hc, show Transfer.excess? t.limit completed total = none from hx,
          Option.or_none]
      rw [hseen]
      rfl
    | trip hp hc hx =>
      obtain rfl := TransferPhase.calling.inj hp
      simp only [seen', Moment.excess?, if_neg hc, show Transfer.excess? t.limit completed total = _ from hx,
        ← note_getD seen hs]
      rfl
  · cases hspec <;> rfl

/-- Reports leave the transport at work, with the first excess noted, and nothing can be seen of them. -/
theorem run_told (seen : Option Nat) (hs : ∀ n, seen = some n → t.limit < n) (reports : List (Nat × Option Nat)) :
    ((t.atWork (seen.getD noViolation)).run (told reports)).1 =
      t.atWork ((seen.or (firstExcess t.limit ((told reports).map .given))).getD noViolation) ∧
    (t.atWork (seen.getD noViolation)).course (told reports) = [] := by
  induction reports generalizing seen with
  | nil =>
    have hn : firstExcess t.limit ((told []).map Moment.given) = none := rfl
    refine ⟨?_, rfl⟩
    rw [hn, Option.or_none]
    rfl
  | cons report rest ih =>
    obtain ⟨completed, total⟩ := report
    obtain ⟨effects, hstep, hturns⟩ := step_told hs completed total
    have hs' : ∀ n, seen.or ((Moment.given (.report completed total)).excess? t.limit) = some n → t.limit < n := by
      intro n hn
      rcases Option.or_eq_some_iff.mp hn with hn | ⟨-, hn⟩
      · exact hs n hn
      · exact Moment.lt_of_excess? hn
    obtain ⟨hrun, hcourse⟩ := ih _ hs'
    have htold : told ((completed, total) :: rest) = .report completed total :: told rest := rfl
    have hfirst : firstExcess t.limit ((told ((completed, total) :: rest)).map .given) =
        ((Moment.given (.report completed total)).excess? t.limit).or (firstExcess t.limit ((told rest).map .given)) := by
      simp only [htold, List.map_cons, firstExcess, List.findSome?_cons]
      cases (Moment.given (.report completed total)).excess? t.limit <;> rfl
    refine ⟨?_, ?_⟩
    · rw [hfirst, ← Option.or_assoc, ← hrun, htold, run_cons, hstep]
    · rw [htold, course, turns, hstep, hturns, hcourse]
      rfl

/-- All that an attempt can make of a transfer, and what can be seen of it after the call. -/
inductive Attempt.Makes (t : Transfer) (a : Attempt) : Transfer → List Turn → Prop where
  | succeed {file : Path} {size : Nat} (ho : a.outcome t.limit = .ok (file, size)) :
      Makes t a (t.finish (.ok file)) [.event (.transferComplete t.id (UInt64.ofNat size)), .state .succeeded]
  | retry {f : Failure} (ho : a.outcome t.limit = .error f) (hr : t.Retries f) :
      Makes t a (t.rest f) [.event (.retrying t.id (UInt32.ofNat t.number) (t.pause a.draw).millisWord f.message),
        .pause (t.pause a.draw), .state .retrying]
  | fail {f : Failure} (ho : a.outcome t.limit = .error f) (hr : ¬t.Retries f) :
      Makes t a (t.finish (.error f.withoutResume)) [.state .failed]

/-- A failure either makes the transfer rest or ends it. -/
theorem fail_makes {f : Failure} (ho : a.outcome t.limit = .error f) :
    a.Makes t (t.fail f a.draw).1 ((t.fail f a.draw).2.filterMap Effect.turn? ++ [.state (t.fail f a.draw).1.state]) := by
  by_cases hr : t.Retries f
  · rw [fail_of_retries hr]
    exact .retry ho hr
  · rw [fail_of_not_retries hr, filterMap_discards]
    exact .fail ho hr

theorem fail_state_ne (t : Transfer) (f : Failure) (draw : Float) : (t.fail f draw).1.state ≠ .inFlight := by
  by_cases hr : t.Retries f
  · rw [fail_of_retries hr]
    simp [state, rest]
  · rw [fail_of_not_retries hr]
    simp [state, finish]

@[simp]
theorem state_atWork (t : Transfer) (noted : Nat) : (t.atWork noted).state = .inFlight := rfl

@[simp]
theorem state_sizing (t : Transfer) (file : Path) : (t.sizing file).state = .inFlight := rfl

theorem fail_ignores (t : Transfer) (f : Failure) (draw : Float) (size : Except IoKind Nat) :
    fits (t.fail f draw).1.phase (.measure size draw) = false := by
  by_cases hr : t.Retries f
  · rw [fail_of_retries hr]
    rfl
  · rw [fail_of_not_retries hr]
    rfl

theorem run_answers (t : Transfer) (a : Attempt) : a.Makes t
    ((t.atWork ((firstExcess t.limit ((told a.reports).map .given)).getD noViolation)).run a.answers).1
    ((t.atWork ((firstExcess t.limit ((told a.reports).map .given)).getD noViolation)).course a.answers) := by
  generalize hu : t.atWork ((firstExcess t.limit ((told a.reports).map .given)).getD noViolation) = u
  change a.Makes t ((u.step (.settle a.answer a.draw)).1.step (.measure a.size a.draw)).1
    (u.turns _ ++ ((u.step (.settle a.answer a.draw)).1.turns _ ++ []))
  cases hx : firstExcess t.limit ((told a.reports).map .given) with
  | some observed =>
    have hv : observed ≠ noViolation := Nat.ne_of_gt (Nat.zero_lt_of_lt (lt_of_firstExcess hx))
    have hstep : u.step (.settle a.answer a.draw) =
        (t.finish (.error (.oversize t.limit observed)), leftOf a.answer) := by
      rw [← hu, hx]
      exact if_pos hv
    have hstate : u.state = .inFlight := by rw [← hu, state_atWork]
    rw [turns_of_step hstep, hstep, step_of_not_fits rfl, turns_of_not_fits rfl, filterMap_leftOf, hstate]
    refine .fail (f := .oversize t.limit observed) ?_ fun hr => ?_
    · simp only [Attempt.outcome, hx]
    · cases hr.1
  | none =>
    obtain rfl : t.atWork noViolation = u := by rw [← hu, hx, Option.getD_none]
    cases ha : a.answer with
    | error f =>
      have hstep : (t.atWork noViolation).step (.settle (.error f) a.draw) =
          ((t.fail f a.draw).1, (t.fail f a.draw).2) := rfl
      rw [turns_of_step hstep, hstep, step_of_not_fits (fail_ignores ..), turns_of_not_fits (fail_ignores ..),
        state_atWork, if_neg (fail_state_ne _ _ _), List.append_nil, List.append_nil]
      exact fail_makes (by simp only [Attempt.outcome, hx, ha])
    | ok file =>
      have hstep : (t.atWork noViolation).step (.settle (.ok file) a.draw) = (t.sizing file, []) := rfl
      rw [turns_of_step hstep, hstep]
      change a.Makes t _ (Transfer.turns _ _ ++ [])
      rw [List.append_nil]
      cases hz : a.size with
      | error kind =>
        have hlost : (t.sizing file).step (.measure (.error kind) a.draw) =
            ((t.fail (.io kind none) a.draw).1, .remove file :: (t.fail (.io kind none) a.draw).2) := rfl
        rw [turns_of_step hlost, hlost, state_sizing, if_neg (fail_state_ne _ _ _)]
        exact fail_makes (by simp only [Attempt.outcome, hx, ha, hz])
      | ok size =>
        by_cases hl : t.limit < size
        · have hover : (t.sizing file).step (.measure (.ok size) a.draw) =
              (t.finish (.error (.oversize t.limit size)), [.remove file]) := if_pos hl
          rw [turns_of_step hover, hover]
          refine .fail (f := .oversize t.limit size) ?_ fun hr => ?_
          · simp only [Attempt.outcome, hx, ha, hz, if_pos hl]
          · cases hr.1
        · have hdone : (t.sizing file).step (.measure (.ok size) a.draw) =
              (t.finish (.ok file), [.emit (.transferComplete t.id (UInt64.ofNat size))]) := if_neg hl
          rw [turns_of_step hdone, hdone]
          exact .succeed (by simp only [Attempt.outcome, hx, ha, hz, if_neg hl])

theorem run_attempt (hp : t.phase = .ready r) (a : Attempt) :
    ∃ more, a.Makes t (t.run a.inputs).1 more ∧ t.course a.inputs = .call r :: .state .inFlight :: more := by
  have hbegin : t.step (.begin false) = (t.atWork noViolation, [.call r]) := by
    simp only [step, hp, atWork]
  have hstate : (t.atWork noViolation).state ≠ t.state := by
    simp only [state, atWork, hp]
    split <;> simp
  obtain ⟨hrun, hcourse⟩ := run_told (t := t) none (by simp) a.reports
  rw [Option.none_or] at hrun
  have hmakes := run_answers t a
  rw [← hrun] at hmakes
  refine ⟨((t.atWork noViolation).run (told a.reports)).1.course a.answers, ?_, ?_⟩
  · rw [Attempt.inputs, run_cons, hbegin, run_append]
    exact hmakes
  · rw [Attempt.inputs, course, turns_of_step hbegin, if_neg hstate, hbegin, course_append]
    exact congrArg (Turn.call r :: .state .inFlight :: ·) (congrArg (· ++ _) hcourse)

/-! ### One attempt after the other -/

/-- The pauses after attempts, where a schedule tells how long they are and each attempt how far they are stretched. -/
def pauses (jitter : Bool) (attempts : List Attempt) (delays : List Span) : List Span :=
  List.zipWith (fun a delay => if jitter then delay.stretch a.draw else delay) attempts delays

/-- The states of that many attempts with a pause after each. -/
def rounds (count : Nat) : List TransferState := (List.replicate count [.inFlight, .retrying]).flatten

theorem script_cons (a : Attempt) (rest : List Attempt) : script (a :: rest) = a.inputs ++ .wake :: script rest := by
  simp [script]

/-- The transfer before the attempt that follows a failure. -/
def again (t : Transfer) (f : Failure) : Transfer :=
  { t.rest f with phase := .ready f.resume?, number := t.number + 1 }

theorem run_round {f : Failure} (hp : t.phase = .ready r) (hn : 1 ≤ t.number) (ho : a.outcome t.limit = .error f)
    (hr : t.Retries f) (later : List Input) :
    (t.run (a.inputs ++ .wake :: later)).1 = ((t.again f).run later).1 ∧
    t.course (a.inputs ++ .wake :: later) = [.call r, .state .inFlight,
      .event (.retrying t.id (UInt32.ofNat t.number) (t.pause a.draw).millisWord f.message),
      .pause (t.pause a.draw), .state .retrying] ++ (t.again f).course later := by
  obtain ⟨more, hmakes, hcourse⟩ := run_attempt hp a
  generalize hrun : (t.run a.inputs).1 = u at hmakes
  cases hmakes with
  | succeed ho' => cases ho.symm.trans ho'
  | fail ho' hr' =>
    cases ho.symm.trans ho'
    exact absurd hr hr'
  | retry ho' =>
    cases ho.symm.trans ho'
    have hwake : (t.rest f).step .wake = (t.again f, []) := rfl
    have hstate : (t.again f).state = (t.rest f).state := if_neg (by simp [again]; omega)
    refine ⟨?_, ?_⟩
    · rw [run_append, hrun, run_cons, hwake]
    · rw [course_append, hcourse, hrun, course, turns_of_step hwake, hwake, if_pos hstate]
      rfl

theorem run_rounds {attempts : List Attempt} {failures : List Failure} (hp : t.phase = .ready r)
    (hn : 1 ≤ t.number) (hb : t.number + attempts.length ≤ t.maxAttempts)
    (ho : attempts.map (Attempt.outcome t.limit) = failures.map .error) (hf : ∀ f ∈ failures, f.isRetryable) :
    (∃ r b, (t.run (script attempts)).1 =
      { t with phase := .ready r, backoff := b, number := t.number + attempts.length }) ∧
    Shows (t.course (script attempts)) attempts.length
      (pauses t.jitter attempts (t.backoff.delays attempts.length))
      (retries t.id t.number ((pauses t.jitter attempts (t.backoff.delays attempts.length)).zip
        (failures.map Failure.message)))
      (rounds attempts.length) := by
  induction attempts generalizing t r failures with
  | nil => exact ⟨⟨r, t.backoff, by rw [← hp]; rfl⟩, rfl, rfl, rfl, rfl⟩
  | cons a rest ih =>
    cases failures with
    | nil => cases ho
    | cons f failures =>
      obtain ⟨ha, ho⟩ := List.cons.inj ho
      rw [List.length_cons] at hb
      have hr : t.Retries f := ⟨hf f List.mem_cons_self, by omega⟩
      obtain ⟨hrun, hcourse⟩ := run_round hp hn ha hr (script rest)
      obtain ⟨⟨r', b, hrest⟩, hshows⟩ := ih (t := t.again f) rfl (Nat.le_add_left 1 _)
        (show t.number + 1 + rest.length ≤ t.maxAttempts by omega) ho fun f hm => hf f (List.mem_cons_of_mem _ hm)
      refine ⟨⟨r', b, ?_⟩, ?_⟩
      · rw [script_cons, hrun, hrest, List.length_cons, Nat.add_comm rest.length, ← Nat.add_assoc]
        rfl
      · have hround : Shows [.call r, .state .inFlight,
            .event (.retrying t.id (UInt32.ofNat t.number) (t.pause a.draw).millisWord f.message),
            .pause (t.pause a.draw), .state .retrying] 1 [t.pause a.draw]
            [.retrying t.id (UInt32.ofNat t.number) (t.pause a.draw).millisWord f.message]
            [.inFlight, .retrying] := ⟨rfl, rfl, rfl, rfl⟩
        have hboth := hround.append hshows
        rw [Nat.add_comm 1] at hboth
        rw [script_cons, hcourse, List.length_cons]
        exact hboth

/-! ### The attempt that decides, or the last one -/

/-- The attempt of that number ends the transfer: it decides, or it is the last one allowed, and none before decides.
    Attempts are numbered from one. -/
structure EndsAt (limit allowed : Nat) (transport : Nat → Attempt) (number : Nat) : Prop where
  pos : 1 ≤ number
  le : number ≤ allowed
  before : ∀ k, 1 ≤ k → k < number → isDecisive ((transport k).outcome limit) = false
  last : isDecisive ((transport number).outcome limit) = true ∨ number = allowed

theorem exists_endsAt (limit : Nat) {allowed : Nat} (h : 1 ≤ allowed) (transport : Nat → Attempt) :
    ∃ number, EndsAt limit allowed transport number := by
  induction h with
  | refl => exact ⟨1, Nat.le_refl 1, Nat.le_refl 1, fun k h1 h2 => absurd h1 (Nat.not_le_of_lt h2), .inr rfl⟩
  | @step allowed ha ih =>
    obtain ⟨number, hn⟩ := ih
    by_cases hd : isDecisive ((transport number).outcome limit) = true
    · exact ⟨number, hn.pos, Nat.le_succ_of_le hn.le, hn.before, .inl hd⟩
    · obtain rfl : number = allowed := hn.last.resolve_left hd
      refine ⟨number + 1, Nat.le_add_left 1 _, Nat.le_refl _, fun k h1 h2 => ?_, .inr rfl⟩
      rcases Nat.lt_succ_iff_lt_or_eq.mp h2 with h2 | rfl
      · exact hn.before k h1 h2
      · exact Bool.eq_false_iff.mpr hd

/-- What is announced of the last attempt. -/
def completion (id : TransferId) : Except Failure (Path × Nat) → List Event
  | .ok (_, size) => [.transferComplete id (UInt64.ofNat size)]
  | .error _ => []

/-- What the last attempt makes the result: the file, or the failure without its token. -/
def delivery : Except Failure (Path × Nat) → Except Failure Path
  | .ok (file, _) => .ok file
  | .error failure => .error failure.withoutResume

/-- The state at the end. -/
def final : Except Failure (Path × Nat) → TransferState
  | .ok _ => .succeeded
  | .error _ => .failed

theorem run_last (hp : t.phase = .ready r)
    (hd : isDecisive (a.outcome t.limit) = true ∨ t.number = t.maxAttempts) :
    (t.run (script [a])).1.result? = some (delivery (a.outcome t.limit)) ∧
    Shows (t.course (script [a])) 1 [] (completion t.id (a.outcome t.limit)) [.inFlight, final (a.outcome t.limit)] := by
  obtain ⟨more, hmakes, hcourse⟩ := run_attempt hp a
  rw [script_cons, run_append, course_append, hcourse]
  generalize (t.run a.inputs).1 = u at hmakes ⊢
  cases hmakes with
  | succeed ho =>
    rw [ho]
    exact ⟨rfl, rfl, rfl, rfl, rfl⟩
  | fail ho =>
    rw [ho]
    exact ⟨rfl, rfl, rfl, rfl, rfl⟩
  | retry ho hr =>
    rw [ho] at hd
    rcases hd with hd | hd
    · simp [isDecisive, hr.1] at hd
    · exact absurd hr.2 (Nat.not_lt_of_ge (Nat.le_of_eq hd.symm))

/-- A size that is accepted fits in a word. -/
theorem toNat_size {limit : UInt64} {file : Path} {size : Nat} (h : a.outcome limit.toNat = .ok (file, size)) :
    (UInt64.ofNat size).toNat = size := by
  have hs : size ≤ limit.toNat := by
    unfold Attempt.outcome at h
    split at h
    · cases h
    · split at h
      · cases h
      · split at h
        · cases h
        · split at h
          · cases h
          · cases h
            omega
  exact UInt64.toNat_ofNat_of_lt' (Nat.lt_of_le_of_lt hs limit.toNat_lt)

/-- What a transfer makes of the attempts up to the one of that number: the attempts before it have failed, and each
    is followed by an announcement and a pause. -/
structure Goes (t : Transfer) (policy : RetryPolicy) (transport : Nat → Attempt) (number : Nat) : Prop where
  shows : ∃ failures : List Failure,
    (List.range' 1 (number - 1)).map (fun k => (transport k).outcome t.limit) = failures.map .error ∧
    Shows (t.course (script ((List.range' 1 number).map transport))) number
      (pauses policy.jitter ((List.range' 1 (number - 1)).map transport)
        ((Backoff.ofPolicy policy).delays (number - 1)))
      (retries t.id 1 ((pauses policy.jitter ((List.range' 1 (number - 1)).map transport)
        ((Backoff.ofPolicy policy).delays (number - 1))).zip (failures.map Failure.message)) ++
        completion t.id ((transport number).outcome t.limit))
      (rounds (number - 1) ++ [.inFlight, final ((transport number).outcome t.limit)])
  result : (t.run (script ((List.range' 1 number).map transport))).1.result? =
    some (delivery ((transport number).outcome t.limit))
  size : ∀ file size, (transport number).outcome t.limit = .ok (file, size) → (UInt64.ofNat size).toNat = size

theorem exists_failures (limit : Nat) (attempts : List Attempt)
    (h : ∀ a ∈ attempts, isDecisive (a.outcome limit) = false) :
    ∃ failures : List Failure, attempts.map (Attempt.outcome limit) = failures.map .error ∧
      ∀ f ∈ failures, f.isRetryable := by
  induction attempts with
  | nil => exact ⟨[], rfl, fun f hm => absurd hm List.not_mem_nil⟩
  | cons a rest ih =>
    obtain ⟨failures, ho, hf⟩ := ih fun a hm => h a (List.mem_cons_of_mem _ hm)
    have ha := h a List.mem_cons_self
    cases hx : a.outcome limit with
    | ok got =>
      rw [hx] at ha
      cases ha
    | error f =>
      rw [hx] at ha
      refine ⟨f :: failures, by rw [List.map_cons, hx, ho]; rfl, fun g hm => ?_⟩
      rcases List.mem_cons.mp hm with rfl | hm
      · simpa [isDecisive] using ha
      · exact hf g hm

theorem goes_start {id : TransferId} {request : Request} {path : String} (hr : request.path = .ok path)
    {limit : UInt64} {policy : RetryPolicy} {transport : Nat → Attempt} {number : Nat}
    (he : EndsAt limit.toNat policy.attempts transport number) :
    (start id request limit.toNat policy).Goes policy transport number := by
  have hp : (start id request limit.toNat policy).phase = .ready none := by
    simp only [start, Request.forTransport, hr]
    rfl
  obtain ⟨k, rfl⟩ : ∃ k, number = k + 1 := ⟨number - 1, by have := he.pos; omega⟩
  generalize hb : (List.range' 1 k).map transport = before
  have hlen : before.length = k := by rw [← hb, List.length_map, List.length_range']
  have hsplit : (List.range' 1 (k + 1)).map transport = before ++ [transport (k + 1)] := by
    rw [List.range'_concat, List.map_append, hb, List.map_singleton, Nat.one_mul, Nat.add_comm 1]
  have hscript : script (before ++ [transport (k + 1)]) = script before ++ script [transport (k + 1)] :=
    List.flatMap_append
  obtain ⟨failures, ho, hf⟩ := exists_failures limit.toNat before <| by
    rintro a hm
    rw [← hb] at hm
    obtain ⟨n, hn, rfl⟩ := List.mem_map.mp hm
    obtain ⟨h1, h2⟩ := List.mem_range'_1.mp hn
    exact he.before n h1 (by omega)
  -- First the attempts that fail, and from where they leave the transfer the last one.
  obtain ⟨⟨r, b, hrun⟩, hshows⟩ := run_rounds hp (Nat.le_refl 1)
    (show 1 + before.length ≤ policy.attempts by have := he.le; omega) ho hf
  have hlast := run_last (t := ((start id request limit.toNat policy).run (script before)).1)
    (a := transport (k + 1)) (r := r) (by rw [hrun]) <| by
      rw [hrun, hlen, Nat.add_comm]
      exact he.last
  have hlimit : ((start id request limit.toNat policy).run (script before)).1.limit = limit.toNat := limit_run ..
  have hid : ((start id request limit.toNat policy).run (script before)).1.id = id := id_run ..
  rw [hlimit, hid] at hlast
  obtain ⟨hresult, hlast⟩ := hlast
  refine ⟨⟨failures, ?_, ?_⟩, ?_, fun file size h => toNat_size h⟩
  · rw [Nat.add_sub_cancel, ← ho, ← hb, List.map_map]
    rfl
  · have hboth := hshows.append hlast
    rw [← course_append, ← hscript, ← hsplit, List.append_nil, hlen] at hboth
    rw [Nat.add_sub_cancel, hb]
    exact hboth
  · rw [hsplit, hscript, run_append]
    exact hresult

/-- What holds in any run, and of a cancellation in it. -/
structure Bounded (t : Transfer) (policy : RetryPolicy) (inputs : List Input) : Prop where
  /-- the attempts are counted in words -/
  number : (t.run inputs).1.number ≤ policy.attempts ∧ policy.attempts < UInt32.size
  calls : ((t.course inputs).filterMap Turn.call?).length ≤ (t.run inputs).1.number
  /-- cancelled before an attempt -/
  stopped : ∀ r later, (t.run inputs).1.phase = .ready r →
    (t.run (inputs ++ .begin true :: later)).1.result? = some (.error .cancelled) ∧
      t.course (inputs ++ .begin true :: later) = t.course inputs ++ [.state .failed]
  /-- cancelled in a pause -/
  interrupted : ∀ r later, (t.run inputs).1.phase = .resting r →
    (t.run (inputs ++ .interrupt :: later)).1.result? = some (.error .cancelled) ∧
      t.course (inputs ++ .interrupt :: later) = t.course inputs ++ [.state .failed]

/-- An input that cancels the transfer is the last of which anything can be seen. -/
theorem course_cancelled {effects : List Effect} (hs : (t.run inputs).1.state ≠ .failed)
    (hstep : (t.run inputs).1.step input = ((t.run inputs).1.finish (.error .cancelled), effects))
    (he : effects.filterMap Effect.turn? = []) (later : List Input) :
    (t.run (inputs ++ input :: later)).1.result? = some (.error .cancelled) ∧
      t.course (inputs ++ input :: later) = t.course inputs ++ [.state .failed] := by
  have hend : ((t.run inputs).1.finish (.error .cancelled)).phase = .ended (.error .cancelled) := rfl
  refine ⟨?_, ?_⟩
  · rw [run_append, run_cons, hstep, run_of_ended hend]
    rfl
  · have hfailed : ((t.run inputs).1.finish (.error .cancelled)).state = .failed := rfl
    rw [course_append, course, turns_of_step hstep, he, hstep, course_of_ended hend, hfailed, if_neg hs.symm]
    rfl

theorem bounded_start (id : TransferId) (request : Request) (limit : Nat) (policy : RetryPolicy)
    (inputs : List Input) : (start id request limit policy).Bounded policy inputs := by
  have htally := tally_run (tally_start id request limit policy) inputs
  refine ⟨⟨?_, attempts_lt policy⟩, ?_, ?_, ?_⟩
  · have hn := htally.2.1
    rwa [maxAttempts_run] at hn
  · have hc := htally.calls_le
    rwa [Nat.zero_add] at hc
  · intro r later hp
    refine course_cancelled ?_ ?_ (filterMap_discards r) later
    · simp only [state, hp]
      split <;> simp
    · simp only [step, hp]
  · intro r later hp
    refine course_cancelled ?_ ?_ (filterMap_discards r) later
    · simp [state, hp]
    · simp only [step, hp]

/-- A transfer of a request that can be built goes through the attempts up to the first one that decides, or to the
    last one allowed: it announces each further attempt with its number and pauses before it, as long as the schedule
    says; its result is what the last attempt gives. In any run the attempts are counted in words, and after a
    cancellation there is nothing but the failure. -/
theorem attempted_in_turn (id : TransferId) {request : Request} {path : String} (hr : request.path = .ok path)
    (limit : UInt64) (policy : RetryPolicy) :
    (start id request limit.toNat policy).state = .idle ∧
    (∀ transport : Nat → Attempt, ∃ number, EndsAt limit.toNat policy.attempts transport number ∧
      (start id request limit.toNat policy).Goes policy transport number) ∧
    ∀ inputs, (start id request limit.toNat policy).Bounded policy inputs := by
  refine ⟨?_, fun transport => ?_, bounded_start id request limit.toNat policy⟩
  · simp only [start, state, Request.forTransport, hr]
    rfl
  · obtain ⟨number, he⟩ := exists_endsAt limit.toNat (Nat.le_max_left 1 policy.maxAttempts.toNat) transport
    exact ⟨number, he, goes_start hr he⟩

/-- A transport that fails at first and then hands over a file of ten octets. -/
def secondTime : Nat → Attempt
  | 1 => ⟨[(3, some 10)], .error (.network "reset" none), .ok 0, 0⟩
  | _ => ⟨[(10, some 10)], .ok "object", .ok 10, 0⟩

theorem attempted_in_turn_twice :
    let request : Request := .backup ⟨3, "archive", "latest"⟩ []
    let policy : RetryPolicy := ⟨3, .ofMillis 500, .ofMillis 8000, 2, true⟩
    request.path = .ok "backups/archive/latest" ∧ EndsAt 100 policy.attempts secondTime 2 ∧
      (start ⟨7⟩ request 100 policy).Goes policy secondTime 2 := by
  intro request policy
  have hpath : request.path = .ok "backups/archive/latest" := by decide
  obtain ⟨-, hgoes, -⟩ := attempted_in_turn ⟨7⟩ hpath 100 policy
  obtain ⟨number, he, hg⟩ := hgoes secondTime
  have h1 : isDecisive ((secondTime 1).outcome 100) = false := by decide
  have h2 : isDecisive ((secondTime 2).outcome 100) = true := by decide
  -- The first attempt does not decide, and no attempt is made after the second one, which does.
  have hnumber : number = 2 := by
    have hpos := he.pos
    have hle : number ≤ 3 := he.le
    obtain rfl | rfl | rfl : number = 1 ∨ number = 2 ∨ number = 3 := by omega
    · rcases he.last with hd | hd
      · exact absurd (h1.symm.trans hd) Bool.false_ne_true
      · cases hd
    · rfl
    · exact absurd (h2.symm.trans (he.before 2 (by decide) (by decide))) (by decide)
  rw [hnumber] at he hg
  exact ⟨hpath, he, hg⟩

end SealedDownload.Transfer
