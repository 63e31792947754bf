import SealedDownload.Proofs.Transfer.Steps

/-! Where the tokens of failed attempts go. What passes between a transfer and its transport is a `ledger`:
    each token that the transport attaches to a failure goes into the next call as it is, or, after the
    last call, is given up once. -/

namespace SealedDownload.Transfer

/-! ### What passes between a transfer and its transport -/

/-- The token that the transport attaches to an answer. -/
def tokenOf : Except Failure Path → Option ResumeToken
  | .ok _ => none
  | .error failure => failure.resume?

/-- What passes between a transfer and its transport. -/
inductive Dealing where
  | call (resume : Option ResumeToken)
  | answer (outcome : Except Failure Path)
  | discard (token : ResumeToken)

/-- The part of an effect in these dealings. -/
def Effect.dealing? : Effect → Option Dealing
  | .call resume => some (.call resume)
  | .discard token => some (.discard token)
  | _ => none

/-- The token, or the absence of one, that an attempt begins with. -/
def Dealing.resume? : Dealing → Option (Option ResumeToken)
  | .call resume => some resume
  | _ => none

/-- The token that is given up. -/
def Dealing.discarded? : Dealing → Option ResumeToken
  | .discard token => some token
  | _ => none

/-- The token, or the absence of one, that an effect begins an attempt with. -/
def Effect.resume? (effect : Effect) : Option (Option ResumeToken) := effect.dealing?.bind Dealing.resume?

/-- The token that an effect gives up. -/
def Effect.discarded? (effect : Effect) : Option ResumeToken := effect.dealing?.bind Dealing.discarded?

/-- The answer of the transport in an input, if the transport is at work. -/
def answer? (t : Transfer) (input : Input) : Option (Except Failure Path) :=
  match t.phase, input with
  | .calling _, .settle outcome _ => some outcome
  | _, _ => none

/-- The answers of the transport in a run. -/
def answers (t : Transfer) : List Input → List (Except Failure Path)
  | [] => []
  | input :: rest => (t.answer? input).toList ++ (t.step input).1.answers rest

/-- The dealings of a run, in order. -/
def dealings (t : Transfer) : List Input → List Dealing
  | [] => []
  | input :: rest =>
    ((t.answer? input).map .answer).toList ++ (t.step input).2.filterMap Effect.dealing? ++
      (t.step input).1.dealings rest

/-- The dealings in which each call begins with the token of the answer before it, the first one with
    `carried`, and the token of the last answer is given up. -/
def ledger (carried : Option ResumeToken) : List (Except Failure Path) → List Dealing
  | [] => (carried.map .discard).toList
  | answer :: rest => .call carried :: .answer answer :: ledger (tokenOf answer) rest

variable {t t' : Transfer} {input : Input} {inputs : List Input} {effects : List Effect}
  {later : List (Except Failure Path)} {dealt : List Dealing}

theorem answers_append (t : Transfer) (earlier later : List Input) :
    t.answers (earlier ++ later) = t.answers earlier ++ (t.run earlier).1.answers later := by
  induction earlier generalizing t with
  | nil => rfl
  | cons input rest ih =>
    rw [List.cons_append, answers, answers, ih, List.append_assoc]
    rfl

theorem dealings_discards (token : Option ResumeToken) :
    (discards token).filterMap Effect.dealing? = (token.map .discard).toList := by
  cases token <;> rfl

/-- The dealings of a run other than the answers are those of its effects. -/
theorem dealings_effects {α : Type} {part : Dealing → Option α} (ha : ∀ outcome, part (.answer outcome) = none)
    (t : Transfer) (inputs : List Input) :
    (t.run inputs).2.filterMap (fun effect => effect.dealing?.bind part) = (t.dealings inputs).filterMap part := by
  induction inputs generalizing t with
  | nil => rfl
  | cons input rest ih =>
    have hn : ((t.answer? input).map Dealing.answer).toList.filterMap part = [] := by
      cases t.answer? input with
      | none => rfl
      | some outcome => exact List.filterMap_cons_none (ha outcome)
    have hr : (t.run (input :: rest)).2 = (t.step input).2 ++ ((t.step input).1.run rest).2 := rfl
    rw [hr, dealings, List.filterMap_append, List.filterMap_append, List.filterMap_append, hn, ih,
      List.filterMap_filterMap, List.nil_append]

/-- In a ledger, each call begins with the token of the answer before it. -/
theorem calls_ledger (carried : Option ResumeToken) (answers : List (Except Failure Path)) :
    (ledger carried answers).filterMap Dealing.resume? = (carried :: answers.map tokenOf).take answers.length := by
  induction answers generalizing carried with
  | nil => cases carried <;> rfl
  | cons answer rest ih =>
    have hc : (ledger carried (answer :: rest)).filterMap Dealing.resume? =
        carried :: (ledger (tokenOf answer) rest).filterMap Dealing.resume? := rfl
    rw [hc, ih]
    rfl

/-- In a ledger, only the token of the last answer is given up. -/
theorem discards_ledger (carried : Option ResumeToken) (answers : List (Except Failure Path)) :
    (ledger carried answers).filterMap Dealing.discarded? =
      ((answers.getLast?.map tokenOf).getD carried).toList := by
  induction answers generalizing carried with
  | nil => cases carried <;> rfl
  | cons answer rest ih =>
    have hd : (ledger carried (answer :: rest)).filterMap Dealing.discarded? =
        (ledger (tokenOf answer) rest).filterMap Dealing.discarded? := rfl
    rw [hd, ih]
    cases rest with
    | nil => rfl
    | cons next rest => simp [List.getLast?_cons]

/-! ### The dealings of a phase -/

/-- The dealings that are still to come, with their answers, from a phase to the end. -/
def Remaining (later : List (Except Failure Path)) (dealt : List Dealing) : TransferPhase → Prop
  | .doomed _ => later = [] ∧ dealt = []
  | .ready resume => dealt = ledger resume later
  | .calling _ => ∃ answer rest, later = answer :: rest ∧ dealt = .answer answer :: ledger (tokenOf answer) rest
  | .measuring _ => dealt = ledger none later
  | .resting resume => dealt = ledger resume later
  | .ended _ => later = [] ∧ dealt = []

theorem answer?_of_not_fits (hf : fits t.phase input = false) : t.answer? input = none := by
  unfold answer?
  split
  · rename_i hp
    rw [hp] at hf
    cases hf
  · rfl

/-- Where a transfer ends, what passes last is the token that is given up. -/
theorem remaining_finish {result : Except Failure Path} (token : Option ResumeToken)
    (h : Remaining later dealt (t.finish result).phase) :
    (discards token).filterMap Effect.dealing? ++ dealt = ledger token later := by
  obtain ⟨rfl, rfl⟩ := h
  rw [dealings_discards, List.append_nil]
  rfl

/-- The dealings from before a step are those of the step and those from after it. -/
theorem Step.remaining (hs : Step t input t' effects) (h : Remaining later dealt t'.phase) :
    Remaining ((t.answer? input).toList ++ later)
      (((t.answer? input).map .answer).toList ++ effects.filterMap Effect.dealing? ++ dealt) t.phase := by
  cases hs with
  | ignore hf =>
    rw [answer?_of_not_fits hf]
    exact h
  | reject hp | trip hp | wake hp | retryLost hp =>
    simp only [answer?, hp]
    exact h
  | early hp | publish hp | pass hp =>
    rw [hp] at h
    simp only [answer?, hp]
    exact h
  | call hp =>
    obtain ⟨answer, rest, rfl, rfl⟩ := h
    simp only [answer?, hp]
    rfl
  | fetch hp | retry hp =>
    -- The answer is the first one to come, and its token goes into the next call.
    have hl : dealt = ledger _ later := h
    simp only [answer?, hp]
    exact ⟨_, _, rfl, congrArg _ hl⟩
  | abort hp | fail hp =>
    simp only [answer?, hp]
    exact ⟨_, _, rfl, congrArg _ (remaining_finish _ h)⟩
  | abortFile hp =>
    simp only [answer?, hp]
    exact ⟨_, _, rfl, congrArg _ (remaining_finish none h)⟩
  | lose hp | exceed hp | complete hp =>
    simp only [answer?, hp]
    exact remaining_finish none h
  | stop hp | interrupt hp =>
    simp only [answer?, hp]
    exact remaining_finish _ h

/-- The dealings of a run that comes to an end. -/
theorem remaining_run {result : Except Failure Path} (h : (t.run inputs).1.result? = some result) :
    Remaining (t.answers inputs) (t.dealings inputs) t.phase := by
  induction inputs generalizing t with
  | nil =>
    have hp : t.phase = .ended result := phase_of_result? h
    rw [hp]
    exact ⟨rfl, rfl⟩
  | cons input rest ih => exact (step_spec t input).remaining (ih h)

/-! ### The token of the result -/

/-- A transfer that has failed, or is bound to, carries no token in its failure. -/
def Spent : TransferPhase → Prop
  | .doomed failure => failure.resume? = none
  | .ended (.error failure) => failure.resume? = none
  | _ => True

theorem resume?_withoutResume (failure : Failure) : failure.withoutResume.resume? = none := by
  cases failure <;> rfl

theorem Step.spent (hs : Step t input t' effects) (h : Spent t.phase) : Spent t'.phase := by
  cases hs with
  | ignore | early | publish | pass => exact h
  | reject hp =>
    rw [hp] at h
    exact h
  | fail hp => exact resume?_withoutResume _
  | _ => trivial

theorem spent_run (h : Spent t.phase) (inputs : List Input) : Spent (t.run inputs).1.phase := by
  induction inputs generalizing t with
  | nil => exact h
  | cons input rest ih => exact ih ((step_spec t input).spent h)

variable (id : TransferId) (request : Request) (limit : Nat) (policy : RetryPolicy)

theorem spent_start : Spent (start id request limit policy).phase := by
  obtain hp | ⟨message, hp⟩ := phase_start id request limit policy <;> rw [hp]
  · trivial
  · rfl

theorem dealings_start {result : Except Failure Path}
    (h : ((start id request limit policy).run inputs).1.result? = some result) :
    (start id request limit policy).dealings inputs =
      ledger none ((start id request limit policy).answers inputs) := by
  have hr := remaining_run h
  obtain hp | ⟨message, hp⟩ := phase_start id request limit policy <;> rw [hp] at hr
  · exact hr
  · obtain ⟨ha, hd⟩ := hr
    rw [ha, hd]
    rfl

/-- After the last call its token is given up, if it has left one, and no other one is. -/
theorem discarded_start {result : Except Failure Path}
    (h : ((start id request limit policy).run inputs).1.result? = some result) :
    ((start id request limit policy).run inputs).2.filterMap Effect.discarded? =
      (((start id request limit policy).answers inputs).getLast?.bind tokenOf).toList := by
  calc ((start id request limit policy).run inputs).2.filterMap Effect.discarded?
      = ((start id request limit policy).dealings inputs).filterMap Dealing.discarded? :=
        dealings_effects (fun _ => rfl) _ inputs
    _ = ((((start id request limit policy).answers inputs).getLast?.map tokenOf).getD none).toList := by
        rw [dealings_start id request limit policy h, discards_ledger]
    _ = (((start id request limit policy).answers inputs).getLast?.bind tokenOf).toList := by
        cases ((start id request limit policy).answers inputs).getLast? <;> rfl

/-- A failure that a transfer ends with carries no token. -/
theorem resume?_of_failed_start {failure : Failure}
    (h : ((start id request limit policy).run inputs).1.result? = some (.error failure)) : failure.resume? = none := by
  have hs := spent_run (spent_start id request limit policy) inputs
  rw [phase_of_result? h] at hs
  exact hs

/-- Each token that the transport attaches to the answer of a call is the token that the next call begins
    with, or, after the last call, is given up once. The first call begins with none, and a failure that a
    transfer ends with carries none. -/
theorem tokens_conserved {result : Except Failure Path}
    (h : ((start id request limit policy).run inputs).1.result? = some result) :
    let t := start id request limit policy
    let tokens := (t.answers inputs).map tokenOf
    t.dealings inputs = ledger none (t.answers inputs) ∧
    (t.run inputs).2.filterMap Effect.resume? = (none :: tokens).take tokens.length ∧
    (t.run inputs).2.filterMap Effect.discarded? = tokens.getLast?.join.toList ∧
    ∀ failure, result = .error failure → failure.resume? = none := by
  intro t tokens
  have hd : t.dealings inputs = ledger none (t.answers inputs) := dealings_start id request limit policy h
  refine ⟨hd, ?_, ?_, ?_⟩
  · calc (t.run inputs).2.filterMap Effect.resume?
        = (t.dealings inputs).filterMap Dealing.resume? := dealings_effects (fun _ => rfl) t inputs
      _ = (none :: tokens).take (t.answers inputs).length := by rw [hd, calls_ledger]
      _ = (none :: tokens).take tokens.length := by rw [List.length_map]
  · calc (t.run inputs).2.filterMap Effect.discarded?
        = ((t.answers inputs).getLast?.bind tokenOf).toList := discarded_start id request limit policy h
      _ = tokens.getLast?.join.toList := by
        rw [List.getLast?_map]
        cases (t.answers inputs).getLast? <;> rfl
  · rintro failure rfl
    exact resume?_of_failed_start id request limit policy h

/-- A transfer whose first call leaves a token for the second one, and which is cancelled in the pause
    after that. -/
theorem tokens_conserved_interrupted :
    let request : Request := .backup ⟨3, "archive", "latest"⟩ []
    let policy : RetryPolicy := ⟨3, .ofMillis 500, .ofMillis 8000, 2, true⟩
    let t := start ⟨7⟩ request 100 policy
    let first : ResumeToken := ⟨[1], by decide⟩
    let second : ResumeToken := ⟨[2], by decide⟩
    let inputs : List Input := [.begin false, .settle (.error (.network "reset" (some first))) 0, .wake,
      .begin false, .settle (.error (.timeout "late" (some second))) 0, .interrupt]
    (t.run inputs).1.result? = some (.error .cancelled) ∧
    (t.run inputs).2.filterMap Effect.resume? = [none, some first] ∧
    (t.run inputs).2.filterMap Effect.discarded? = [second] := by
  intro request policy t first second inputs
  have hr : (t.run inputs).1.result? = some (.error .cancelled) := rfl
  obtain ⟨-, hc, hd, -⟩ := tokens_conserved ⟨7⟩ request 100 policy hr
  exact ⟨hr, hc, hd⟩

end SealedDownload.Transfer
