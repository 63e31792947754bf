import SealedDownload.Proofs.Transfer.Steps

/-! The log of a run: each input that fits where the transfer is, followed by the effects it has. A log can
    be taken apart at any input in it (`log_split`), and the run with it. -/

namespace SealedDownload.Transfer

/-- A moment in the life of a transfer. -/
inductive Moment where
  | given (input : Input)
  | done (effect : Effect)

/-- The moments of one input. -/
def moments (t : Transfer) (input : Input) : List Moment :=
  (if fits t.phase input then [.given input] else []) ++ (t.step input).2.map .done

/-- The moments of a run, in order. -/
def log (t : Transfer) : List Input → List Moment
  | [] => []
  | input :: rest => t.moments input ++ (t.step input).1.log rest

variable {t t' : Transfer} {input : Input} {inputs : List Input} {effects : List Effect}
  {before after : List Moment} {result : Except Failure Path}

/-! ### Runs -/

theorem run_cons (t : Transfer) (input : Input) (rest : List Input) :
    (t.run (input :: rest)).1 = ((t.step input).1.run rest).1 := rfl

theorem run_append (t : Transfer) (earlier later : List Input) :
    (t.run (earlier ++ later)).1 = ((t.run earlier).1.run later).1 := by
  induction earlier generalizing t with
  | nil => rfl
  | cons input rest ih =>
    rw [List.cons_append, run_cons, run_cons]
    exact ih _

theorem effects_append (t : Transfer) (earlier later : List Input) :
    (t.run (earlier ++ later)).2 = (t.run earlier).2 ++ ((t.run earlier).1.run later).2 := by
  induction earlier generalizing t with
  | nil => rfl
  | cons input rest ih =>
    have hc : ∀ inputs, (t.run (input :: inputs)).2 = (t.step input).2 ++ ((t.step input).1.run inputs).2 :=
      fun _ => rfl
    rw [List.cons_append, hc, hc, ih, List.append_assoc]
    rfl

theorem run_concat (inputs : List Input) (input : Input) :
    (t.run (inputs ++ [input])).1 = ((t.run inputs).1.step input).1 := by
  rw [run_append]
  rfl

theorem result?_of_phase (hp : t.phase = .ended result) : t.result? = some result := by
  rw [result?, hp]

theorem step_of_ended (hp : t.phase = .ended result) (input : Input) : t.step input = (t, []) :=
  step_of_not_fits (by rw [hp]; rfl)

theorem run_of_ended (hp : t.phase = .ended result) (inputs : List Input) : (t.run inputs).1 = t := by
  induction inputs with
  | nil => rfl
  | cons input rest ih => rw [run_cons, step_of_ended hp, ih]

/-- The result of a transfer that has ended stays. -/
theorem result?_append {earlier : List Input} (h : (t.run earlier).1.result? = some result) (later : List Input) :
    (t.run (earlier ++ later)).1.result? = some result := by
  rw [run_append, run_of_ended (phase_of_result? h)]
  exact h

/-! ### Logs -/

theorem log_append (t : Transfer) (earlier later : List Input) :
    t.log (earlier ++ later) = t.log earlier ++ (t.run earlier).1.log later := by
  induction earlier generalizing t with
  | nil => rfl
  | cons input rest ih =>
    rw [List.cons_append, log, log, ih, List.append_assoc]
    rfl

theorem log_concat (inputs : List Input) (input : Input) :
    t.log (inputs ++ [input]) = t.log inputs ++ (t.run inputs).1.moments input := by
  rw [log_append, log, log, List.append_nil]

theorem moments_of_not_fits (hf : fits t.phase input = false) : t.moments input = [] := by
  rw [moments, step_of_not_fits hf, hf]
  rfl

theorem moments_of_fits (hf : fits t.phase input = true) :
    t.moments input = .given input :: (t.step input).2.map .done := by
  rw [moments, hf]
  rfl

theorem log_of_ended (hp : t.phase = .ended result) (inputs : List Input) : t.log inputs = [] := by
  induction inputs with
  | nil => rfl
  | cons input rest ih =>
    rw [log, moments_of_not_fits (by rw [hp]; rfl), step_of_ended hp, ih]
    rfl

theorem given_not_mem_done {input : Input} : .given input ∉ effects.map Moment.done := by
  intro hm
  obtain ⟨effect, -, he⟩ := List.mem_map.mp hm
  cases he

theorem done_mem_done {effect : Effect} : .done effect ∈ effects.map Moment.done ↔ effect ∈ effects := by
  constructor
  · intro hm
    obtain ⟨other, hm, he⟩ := List.mem_map.mp hm
    cases he
    exact hm
  · exact fun hm => List.mem_map_of_mem hm

theorem eq_of_given_mem_moments {other : Input} (hm : .given other ∈ t.moments input) : other = input := by
  rcases List.mem_append.mp hm with hm | hm
  · split at hm
    · exact Moment.given.inj (List.mem_singleton.mp hm)
    · cases hm
  · exact absurd hm given_not_mem_done

theorem mem_of_done_mem_moments {effect : Effect} (hm : .done effect ∈ t.moments input) :
    effect ∈ (t.step input).2 := by
  rcases List.mem_append.mp hm with hm | hm
  · split at hm
    · cases List.mem_singleton.mp hm
    · cases hm
  · exact done_mem_done.mp hm

/-- The only input among the moments of an input is that input, and it comes first. -/
theorem moments_split {other : Input} (h : t.moments input = before ++ .given other :: after) :
    fits t.phase input = true ∧ input = other ∧ before = [] ∧ after = (t.step input).2.map .done := by
  cases hf : fits t.phase input with
  | false =>
    rw [moments_of_not_fits hf] at h
    simp at h
  | true =>
    rw [moments_of_fits hf] at h
    cases before with
    | nil =>
      obtain ⟨hi, ha⟩ := List.cons.inj h
      exact ⟨rfl, Moment.given.inj hi, rfl, ha.symm⟩
    | cons moment before =>
      have hm : .given other ∈ (t.step input).2.map Moment.done := by
        rw [(List.cons.inj h).2]
        simp
      exact absurd hm given_not_mem_done

/-- A log taken apart at an input in it: the run up to that input, the input, and the run after it. -/
theorem log_split (h : t.log inputs = before ++ .given input :: after) :
    ∃ earlier later, inputs = earlier ++ input :: later ∧ before = t.log earlier ∧
      fits (t.run earlier).1.phase input = true ∧
      after = ((t.run earlier).1.step input).2.map .done ++ ((t.run earlier).1.step input).1.log later := by
  induction inputs generalizing t before with
  | nil => simp [log] at h
  | cons other rest ih =>
    rw [log] at h
    rcases List.append_eq_append_iff.mp h with ⟨more, hb, hl⟩ | ⟨more, hm, hl⟩
    · obtain ⟨earlier, later, rfl, rfl, hf, ha⟩ := ih hl
      exact ⟨other :: earlier, later, rfl, hb, hf, ha⟩
    · cases more with
      | nil =>
        obtain ⟨earlier, later, rfl, he, hf, ha⟩ := ih (show _ = [] ++ Moment.given input :: after from hl.symm)
        refine ⟨other :: earlier, later, rfl, ?_, hf, ha⟩
        rw [log, hm, ← he, List.append_nil, List.append_nil]
      | cons moment more =>
        obtain ⟨rfl, ha⟩ := List.cons.inj hl
        obtain ⟨hf, rfl, rfl, rfl⟩ := moments_split hm
        exact ⟨[], rest, rfl, rfl, hf, ha⟩

end SealedDownload.Transfer
