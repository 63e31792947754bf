import SealedDownload.Proofs.Transfer.Ceiling
import SealedDownload.Proofs.Transfer.Tokens

/-! What can be seen of a transfer from outside: the calls, the events, the pauses, and the states that it shows. In
    any run there are no more calls than attempts are allowed, and the announcements of further attempts count them
    from one. -/

namespace SealedDownload.Transfer

/-! ### What can be seen of a transfer -/

/-- What can be seen of a transfer from outside. -/
inductive Turn where
  | call (resume : Option ResumeToken)
  | event (event : Event)
  | pause (delay : Span)
  /-- it shows another state than before -/
  | state (state : TransferState)

namespace Turn

def call? : Turn → Option (Option ResumeToken)
  | .call r => some r
  | _ => none

def event? : Turn → Option Event
  | .event e => some e
  | _ => none

def pause? : Turn → Option Span
  | .pause d => some d
  | _ => none

def state? : Turn → Option TransferState
  | .state s => some s
  | _ => none

end Turn

/-- What an effect lets be seen. -/
def Effect.turn? : Effect → Option Turn
  | .call resume => some (.call resume)
  | .emit event => some (.event event)
  | .rest delay => some (.pause delay)
  | _ => none

/-- What can be seen of one step; a change of the state is named last. -/
def turns (t : Transfer) (input : Input) : List Turn :=
  (t.step input).2.filterMap Effect.turn? ++
    if (t.step input).1.state = t.state then [] else [.state (t.step input).1.state]

/-- What can be seen of a run. -/
def course (t : Transfer) : List Input → List Turn
  | [] => []
  | input :: rest => t.turns input ++ (t.step input).1.course rest

variable {t t' : Transfer} {input : Input} {result : Except Failure Path}

theorem course_append (t : Transfer) (earlier later : List Input) :
    t.course (earlier ++ later) = t.course earlier ++ (t.run earlier).1.course later := by
  induction earlier generalizing t with
  | nil => rfl
  | cons input rest ih =>
    rw [List.cons_append, course, course, ih, List.append_assoc]
    rfl

theorem turns_of_not_fits (hf : fits t.phase input = false) : t.turns input = [] := by
  rw [turns, step_of_not_fits hf]
  exact if_pos rfl

theorem course_of_ended (hp : t.phase = .ended result) (inputs : List Input) : t.course inputs = [] := by
  induction inputs with
  | nil => rfl
  | cons input rest ih =>
    rw [course, turns_of_not_fits (by rw [hp]; rfl), step_of_ended hp, ih]
    rfl

theorem filterMap_discards (token : Option ResumeToken) : (discards token).filterMap Effect.turn? = [] := by
  cases token <;> rfl

theorem filterMap_leftOf (answer : Except Failure Path) : (leftOf answer).filterMap Effect.turn? = [] := by
  cases answer with
  | ok file => rfl
  | error failure => exact filterMap_discards _

theorem turns_of_step {effects : List Effect} (h : t.step input = (t', effects)) : t.turns input =
    effects.filterMap Effect.turn? ++ if t'.state = t.state then [] else [.state t'.state] := by
  rw [turns, h]

/-- What a course shows, kind by kind: how many calls, and the pauses, events and states in their order. -/
structure Shows (course : List Turn) (calls : Nat) (pauses : List Span) (events : List Event)
    (states : List TransferState) : Prop where
  calls : (course.filterMap Turn.call?).length = calls
  pauses : course.filterMap Turn.pause? = pauses
  events : course.filterMap Turn.event? = events
  states : course.filterMap Turn.state? = states

theorem Shows.append {course course' : List Turn} {calls calls' : Nat} {pauses pauses' : List Span}
    {events events' : List Event} {states states' : List TransferState} (h : Shows course calls pauses events states)
    (h' : Shows course' calls' pauses' events' states') :
    Shows (course ++ course') (calls + calls') (pauses ++ pauses') (events ++ events') (states ++ states') where
  calls := by rw [List.filterMap_append, List.length_append, h.calls, h'.calls]
  pauses := by rw [List.filterMap_append, h.pauses, h'.pauses]
  events := by rw [List.filterMap_append, h.events, h'.events]
  states := by rw [List.filterMap_append, h.states, h'.states]

/-- The announcements of further attempts, each with its pause and the message of what has gone wrong, in turn. -/
def retries (id : TransferId) (number : Nat) : List (Span × String) → List Event
  | [] => []
  | (delay, message) :: rest =>
    .retrying id (UInt32.ofNat number) delay.millisWord message :: retries id (number + 1) rest

/-! ### How many calls and announcements there are -/

theorem retries_concat (id : TransferId) (number : Nat) (pauses : List (Span × String)) (delay : Span)
    (message : String) : retries id number (pauses ++ [(delay, message)]) =
      retries id number pauses ++
        [.retrying id (UInt32.ofNat (number + pauses.length)) delay.millisWord message] := by
  induction pauses generalizing number with
  | nil => rfl
  | cons first rest ih =>
    obtain ⟨d, m⟩ := first
    rw [List.cons_append, retries, retries, ih, List.length_cons, Nat.add_assoc, Nat.add_comm 1]
    rfl

/-- How many calls there have been, and which events, where a transfer is: the attempts are announced from the second
    one on, and a file when it is accepted. -/
def Tally (t : Transfer) (calls : Nat) (events : List Event) : Prop :=
  1 ≤ t.number ∧ t.number ≤ t.maxAttempts ∧ ∃ pauses : List (Span × String), match t.phase with
    | .doomed _ => events = [] ∧ calls = 0
    | .ready _ => events = retries t.id 1 pauses ∧ pauses.length + 1 = t.number ∧ calls + 1 = t.number
    | .calling _ => events = retries t.id 1 pauses ∧ pauses.length + 1 = t.number ∧ calls = t.number
    | .measuring _ => events = retries t.id 1 pauses ∧ pauses.length + 1 = t.number ∧ calls = t.number
    | .resting _ => events = retries t.id 1 pauses ∧ pauses.length = t.number ∧ calls = t.number ∧
        t.number < t.maxAttempts
    | .ended (.ok _) => (∃ bytes, events = retries t.id 1 pauses ++ [.transferComplete t.id bytes]) ∧
        pauses.length < t.maxAttempts ∧ calls ≤ t.number
    | .ended (.error _) => events = retries t.id 1 pauses ∧ pauses.length < t.maxAttempts ∧ calls ≤ t.number

theorem tally_start (id : TransferId) (request : Request) (limit : Nat) (policy : RetryPolicy) :
    (start id request limit policy).Tally 0 [] := by
  have hn : (start id request limit policy).number ≤ (start id request limit policy).maxAttempts := Nat.le_max_left 1 _
  rcases phase_start id request limit policy with hp | ⟨message, hp⟩ <;>
    refine ⟨Nat.le_refl 1, hn, [], ?_⟩ <;> rw [hp]
  · exact ⟨rfl, rfl, rfl⟩
  · exact ⟨rfl, rfl⟩

theorem attempts_lt (policy : RetryPolicy) : policy.attempts < UInt32.size :=
  Nat.max_lt.mpr ⟨by decide, policy.maxAttempts.toNat_lt⟩

/-- Effects that neither call nor announce. -/
def Quiet (effects : List Effect) : Prop :=
  effects.filterMap Effect.resume? = [] ∧ effects.filterMap Effect.event? = []

theorem quiet_discards (token : Option ResumeToken) : Quiet (discards token) := by
  cases token <;> exact ⟨rfl, rfl⟩

variable {effects : List Effect} {calls : Nat} {events : List Event} {pauses : List (Span × String)} {f : Failure}

theorem Tally.keep (hq : Quiet effects) (h : t'.Tally calls events) :
    t'.Tally (calls + (effects.filterMap Effect.resume?).length) (events ++ effects.filterMap Effect.event?) := by
  rw [hq.1, hq.2, List.append_nil]
  exact h

theorem Tally.fail (h1 : 1 ≤ t.number) (hn : t.number ≤ t.maxAttempts) (hl : pauses.length < t.maxAttempts)
    (hc : calls ≤ t.number) : (t.finish (.error f)).Tally calls (retries t.id 1 pauses) :=
  ⟨h1, hn, pauses, rfl, hl, hc⟩

theorem Tally.rest {draw : Float} (h1 : 1 ≤ t.number) (hr : t.Retries f) (hl : pauses.length + 1 = t.number)
    (hc : calls = t.number) :
    (t.rest f).Tally calls (retries t.id 1 pauses ++ (t.restEffects f draw).filterMap Effect.event?) := by
  have hlt : t.number < t.maxAttempts := hr.2
  refine ⟨h1, Nat.le_of_lt hlt, pauses ++ [(t.pause draw, f.message)], ?_, ?_, hc, hlt⟩
  · rw [retries_concat, Nat.add_comm 1, hl]
    rfl
  · rw [List.length_append]
    exact hl

/-- What a transfer announces: a further attempt, or the arrival of its object. -/
theorem Step.announced (hs : Step t input t' effects) {event : Event} (hm : event ∈ effects.filterMap Effect.event?) :
    (∃ number delay message, event = .retrying t.id number delay message) ∨
      ∃ bytes, event = .transferComplete t.id bytes := by
  cases hs with
  | stop | abort | fail | interrupt =>
    rw [(quiet_discards _).2] at hm
    cases hm
  | retry | retryLost =>
    cases List.mem_singleton.mp hm
    exact Or.inl ⟨_, _, _, rfl⟩
  | complete =>
    cases List.mem_singleton.mp hm
    exact Or.inr ⟨_, rfl⟩
  | _ => cases hm

theorem Step.maxAttempts_eq {effects : List Effect} (hs : Step t input t' effects) :
    t'.maxAttempts = t.maxAttempts := by
  cases hs <;> rfl

theorem maxAttempts_run (t : Transfer) (inputs : List Input) : (t.run inputs).1.maxAttempts = t.maxAttempts := by
  induction inputs generalizing t with
  | nil => rfl
  | cons input rest ih =>
    rw [run_cons, ih]
    exact (step_spec t input).maxAttempts_eq

theorem Tally.calls_le (h : t.Tally calls events) : calls ≤ t.number := by
  obtain ⟨h1, -, pauses, h⟩ := h
  split at h <;> omega

theorem Step.tally (hs : Step t input t' effects) (h : t.Tally calls events) :
    t'.Tally (calls + (effects.filterMap Effect.resume?).length) (events ++ effects.filterMap Effect.event?) := by
  cases hs with
  | ignore | early | pass => exact .keep ⟨rfl, rfl⟩ h
  | publish => exact .keep ⟨rfl, rfl⟩ h
  | reject hp =>
    obtain ⟨h1, hn, pauses, h⟩ := h
    rw [hp] at h
    obtain ⟨rfl, rfl⟩ := h
    have hl : ([] : List (Span × String)).length < t.maxAttempts := Nat.lt_of_lt_of_le h1 hn
    exact .keep ⟨rfl, rfl⟩ (.fail h1 hn hl (Nat.zero_le _))
  | stop hp =>
    obtain ⟨h1, hn, pauses, h⟩ := h
    rw [hp] at h
    obtain ⟨rfl, hl, hc⟩ := h
    exact .keep (quiet_discards _) (.fail h1 hn (by omega) (by omega))
  | call hp =>
    obtain ⟨h1, hn, pauses, h⟩ := h
    rw [hp] at h
    obtain ⟨rfl, hl, hc⟩ := h
    exact ⟨h1, hn, pauses, List.append_nil _, hl, hc⟩
  | trip hp | fetch hp =>
    obtain ⟨h1, hn, pauses, h⟩ := h
    rw [hp] at h
    exact .keep ⟨rfl, rfl⟩ ⟨h1, hn, pauses, h⟩
  | abortFile hp | lose hp | exceed hp =>
    obtain ⟨h1, hn, pauses, h⟩ := h
    rw [hp] at h
    obtain ⟨rfl, hl, hc⟩ := h
    exact .keep ⟨rfl, rfl⟩ (.fail h1 hn (by omega) (Nat.le_of_eq hc))
  | abort hp | fail hp =>
    obtain ⟨h1, hn, pauses, h⟩ := h
    rw [hp] at h
    obtain ⟨rfl, hl, hc⟩ := h
    exact .keep (quiet_discards _) (.fail h1 hn (by omega) (Nat.le_of_eq hc))
  | retry hp hr | retryLost hp hr =>
    obtain ⟨h1, hn, pauses, h⟩ := h
    rw [hp] at h
    obtain ⟨rfl, hl, hc⟩ := h
    exact .rest h1 hr hl hc
  | complete hp =>
    obtain ⟨h1, hn, pauses, h⟩ := h
    rw [hp] at h
    obtain ⟨rfl, hl, hc⟩ := h
    have hlt : pauses.length < t.maxAttempts := by omega
    exact ⟨h1, hn, pauses, ⟨_, rfl⟩, hlt, Nat.le_of_eq hc⟩
  | wake hp =>
    obtain ⟨h1, hn, pauses, h⟩ := h
    rw [hp] at h
    obtain ⟨rfl, hl, hc, hm⟩ := h
    exact ⟨Nat.le_add_left 1 _, hm, pauses, List.append_nil _, congrArg (· + 1) hl, congrArg (· + 1) hc⟩
  | interrupt hp =>
    obtain ⟨h1, hn, pauses, h⟩ := h
    rw [hp] at h
    obtain ⟨rfl, hl, hc, hm⟩ := h
    exact .keep (quiet_discards _) (.fail h1 hn (by omega) (Nat.le_of_eq hc))

/-- What a step lets be seen apart from its state comes from its effects. -/
theorem filterMap_turns {α : Type} (pick : Turn → Option α) (hs : ∀ state, pick (.state state) = none) (t : Transfer)
    (input : Input) :
    (t.turns input).filterMap pick = (t.step input).2.filterMap fun effect => effect.turn?.bind pick := by
  rw [turns, List.filterMap_append, List.filterMap_filterMap]
  split
  · exact List.append_nil _
  · rw [List.filterMap_cons_none (hs _)]
    exact List.append_nil _

theorem call?_turn? (effect : Effect) : effect.turn?.bind Turn.call? = effect.resume? := by
  cases effect <;> rfl

theorem event?_turn? (effect : Effect) : effect.turn?.bind Turn.event? = effect.event? := by
  cases effect <;> rfl

theorem tally_run (h : t.Tally calls events) (inputs : List Input) :
    (t.run inputs).1.Tally (calls + ((t.course inputs).filterMap Turn.call?).length)
      (events ++ (t.course inputs).filterMap Turn.event?) := by
  induction inputs generalizing t calls events with
  | nil =>
    rw [course, List.filterMap_nil, List.filterMap_nil, List.append_nil]
    exact h
  | cons input rest ih =>
    have hstep := (step_spec t input).tally h
    have hcalls : (t.turns input).filterMap Turn.call? = (t.step input).2.filterMap Effect.resume? := by
      simp only [filterMap_turns Turn.call? (fun _ => rfl), call?_turn?]
    have hevents : (t.turns input).filterMap Turn.event? = (t.step input).2.filterMap Effect.event? := by
      simp only [filterMap_turns Turn.event? (fun _ => rfl), event?_turn?]
    rw [← hcalls, ← hevents] at hstep
    rw [run_cons, course, List.filterMap_append, List.filterMap_append, List.length_append, ← Nat.add_assoc,
      ← List.append_assoc]
    exact ih hstep

end SealedDownload.Transfer
