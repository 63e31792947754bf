import Mathlib.Data.List.Induction
import SealedDownload.Proofs.Transfer.Log

/-! Reports above the ceiling. The first one that a transport makes is noted, and from then on the attempt
    can end in one way only: whatever the transport answers is given up, and the failure names the size
    that the report showed. As such a size is above the ceiling, it is never mistaken for `noViolation`. -/

namespace SealedDownload.Transfer

/-! ### Reports above the ceiling -/

/-- Something has come, and the bytes so far or the total, if it is known, are above the ceiling. -/
def Exceeds (limit completed : Nat) (total : Option Nat) : Prop :=
  0 < completed ∧ (limit < completed ∨ ∃ n, total = some n ∧ limit < n)

/-- The size that a report above the ceiling shows: the total if that is above it, else the bytes so far. -/
def shownSize (limit completed : Nat) : Option Nat → Nat
  | some total => if limit < total then total else completed
  | none => completed

/-- The size above the ceiling that a moment shows. -/
def Moment.excess? (limit : Nat) : Moment → Option Nat
  | .given (.report completed total) => if completed = 0 then none else Transfer.excess? limit completed total
  | _ => none

/-- The size that the first report above the ceiling in a log shows. -/
def firstExcess (limit : Nat) (log : List Moment) : Option Nat := log.findSome? (Moment.excess? limit)

/-- What is given up of an answer that comes too late: the file, or the token. -/
def leftOf : Except Failure Path → List Effect
  | .ok file => [.remove file]
  | .error failure => discards failure.resume?

variable {t t' : Transfer} {input : Input} {inputs : List Input} {effects : List Effect} {log : List Moment}
  {limit completed observed : Nat} {total seen : Option Nat}

theorem excess?_eq_some_iff : Transfer.excess? limit completed total = some observed ↔
    (limit < completed ∨ ∃ n, total = some n ∧ limit < n) ∧ observed = shownSize limit completed total := by
  cases total with
  | none =>
    unfold Transfer.excess? shownSize
    by_cases hc : limit < completed <;> simp [hc, eq_comm]
  | some n =>
    unfold Transfer.excess? shownSize
    by_cases hn : limit < n <;> by_cases hc : limit < completed <;> simp [hn, hc, eq_comm]

theorem excess?_eq_none_iff :
    Transfer.excess? limit completed total = none ↔ completed ≤ limit ∧ ∀ size ∈ total, size ≤ limit := by
  cases total with
  | none => simp [Transfer.excess?]
  | some n =>
    unfold Transfer.excess?
    by_cases hn : limit < n
    · simp [hn]
    · by_cases hc : limit < completed
      · simp [hn, hc]
      · simp [hn, hc, Nat.le_of_not_lt]

theorem lt_of_excess? (h : Transfer.excess? limit completed total = some observed) : limit < observed := by
  unfold Transfer.excess? at h
  split at h
  · split at h
    · cases h
      assumption
    · split at h
      · cases h
        assumption
      · cases h
  · split at h
    · cases h
      assumption
    · cases h

theorem Exceeds.lt_shownSize (h : Exceeds limit completed total) : limit < shownSize limit completed total :=
  lt_of_excess? (excess?_eq_some_iff.mpr ⟨h.2, rfl⟩)

theorem Moment.excess?_eq_some_iff {m : Moment} : m.excess? limit = some observed ↔
    ∃ completed total, m = .given (.report completed total) ∧ Exceeds limit completed total ∧
      observed = shownSize limit completed total := by
  constructor
  · intro h
    unfold Moment.excess? at h
    split at h
    · rename_i completed total
      by_cases hc : completed = 0
      · rw [if_pos hc] at h
        cases h
      · rw [if_neg hc] at h
        obtain ⟨hx, ho⟩ := Transfer.excess?_eq_some_iff.mp h
        exact ⟨completed, total, rfl, ⟨Nat.pos_of_ne_zero hc, hx⟩, ho⟩
    · cases h
  · rintro ⟨completed, total, rfl, ⟨hc, hx⟩, ho⟩
    exact (if_neg (Nat.ne_of_gt hc)).trans (Transfer.excess?_eq_some_iff.mpr ⟨hx, ho⟩)

theorem Moment.lt_of_excess? {m : Moment} (h : m.excess? limit = some observed) : limit < observed := by
  unfold Moment.excess? at h
  split at h
  · split at h
    · cases h
    · exact Transfer.lt_of_excess? h
  · cases h

/-- There is no report above the ceiling in a log that shows no size. -/
theorem firstExcess_eq_none_iff : firstExcess limit log = none ↔
    ∀ completed total, .given (.report completed total) ∈ log → ¬Exceeds limit completed total := by
  unfold firstExcess
  rw [List.findSome?_eq_none_iff]
  constructor
  · intro h completed total hm hx
    have hn := h _ hm
    rw [Moment.excess?_eq_some_iff.mpr ⟨completed, total, rfl, hx, rfl⟩] at hn
    cases hn
  · intro h m hm
    cases hx : m.excess? limit with
    | none => rfl
    | some observed =>
      obtain ⟨completed, total, rfl, he, -⟩ := Moment.excess?_eq_some_iff.mp hx
      exact absurd he (h completed total hm)

/-- The size is taken from the first report above the ceiling. -/
theorem firstExcess_eq_some_iff : firstExcess limit log = some observed ↔
    ∃ before after completed total, log = before ++ .given (.report completed total) :: after ∧
      Exceeds limit completed total ∧ observed = shownSize limit completed total ∧
      ∀ c n, .given (.report c n) ∈ before → ¬Exceeds limit c n := by
  unfold firstExcess
  rw [List.findSome?_eq_some_iff]
  constructor
  · rintro ⟨before, m, after, rfl, hm, hb⟩
    obtain ⟨completed, total, rfl, hx, ho⟩ := Moment.excess?_eq_some_iff.mp hm
    exact ⟨before, after, completed, total, rfl, hx, ho,
      firstExcess_eq_none_iff.mp (List.findSome?_eq_none_iff.mpr hb)⟩
  · rintro ⟨before, after, completed, total, rfl, hx, ho, hb⟩
    exact ⟨before, _, after, rfl, Moment.excess?_eq_some_iff.mpr ⟨completed, total, rfl, hx, ho⟩,
      List.findSome?_eq_none_iff.mp (firstExcess_eq_none_iff.mpr hb)⟩

theorem lt_of_firstExcess (h : firstExcess limit log = some observed) : limit < observed := by
  obtain ⟨-, m, -, -, hm, -⟩ := List.findSome?_eq_some_iff.mp h
  exact Moment.lt_of_excess? hm

theorem firstExcess_append (log later : List Moment) :
    firstExcess limit (log ++ later) = (firstExcess limit log).or (firstExcess limit later) :=
  List.findSome?_append

theorem firstExcess_done (effects : List Effect) : firstExcess limit (effects.map .done) = none := by
  rw [firstExcess_eq_none_iff]
  exact fun _ _ hm => absurd hm given_not_mem_done

theorem firstExcess_moments (t : Transfer) (input : Input) : firstExcess limit (t.moments input) =
    if fits t.phase input then (Moment.given input).excess? limit else none := by
  cases hf : fits t.phase input with
  | false =>
    rw [moments_of_not_fits hf]
    rfl
  | true =>
    have hs : t.moments input = [.given input] ++ (t.step input).2.map .done := moments_of_fits hf
    rw [hs, firstExcess_append, firstExcess_done, Option.or_none, firstExcess, List.findSome?_singleton]
    rfl

/-! ### What is noted -/

/-- What a transfer knows of the sizes above the ceiling that have been shown: the first one is noted, and an
    attempt in which there is one ends with it. -/
def Noted (limit : Nat) (seen : Option Nat) : TransferPhase → Prop
  | .calling noted => noted = seen.getD noViolation ∧ ∀ observed, seen = some observed → limit < observed
  | .ended (.error failure) => ∀ observed, seen = some observed → failure = .oversize limit observed
  | _ => seen = none

theorem Step.limit_eq (hs : Step t input t' effects) : t'.limit = t.limit := by
  cases hs <;> rfl

theorem Step.id_eq (hs : Step t input t' effects) : t'.id = t.id := by
  cases hs <;> rfl

theorem id_run (t : Transfer) (inputs : List Input) : (t.run inputs).1.id = t.id := by
  induction inputs generalizing t with
  | nil => rfl
  | cons input rest ih =>
    rw [run_cons, ih]
    exact (step_spec t input).id_eq

theorem limit_run (t : Transfer) (inputs : List Input) : (t.run inputs).1.limit = t.limit := by
  induction inputs generalizing t with
  | nil => rfl
  | cons input rest ih =>
    rw [run_cons, ih]
    exact (step_spec t input).limit_eq

theorem note_getD (seen : Option Nat) (h : ∀ n, seen = some n → limit < n) :
    note (seen.getD noViolation) observed = (seen.or (some observed)).getD noViolation := by
  cases seen with
  | none => rfl
  | some n => exact if_neg (Nat.ne_of_gt (Nat.zero_lt_of_lt (h n rfl)))

theorem Step.noted (hs : Step t input t' effects) (h : Noted t.limit seen t.phase) :
    Noted t.limit (seen.or (firstExcess t.limit (t.moments input))) t'.phase := by
  rw [firstExcess_moments]
  cases hs with
  | ignore hf =>
    rw [hf, if_neg Bool.false_ne_true, Option.or_none]
    exact h
  | reject hp | stop hp | call hp | retryLost hp | lose hp | exceed hp | complete hp | wake hp | interrupt hp =>
    rw [hp] at h ⊢
    obtain rfl : seen = none := h
    simp [Noted, Moment.excess?, fits, finish, rest]
  | early hp =>
    rw [hp] at h ⊢
    simpa [Moment.excess?, fits] using h
  | publish hp hc hx | pass hp hc hx =>
    rw [hp] at h ⊢
    simpa [Moment.excess?, fits, hc, hx] using h
  | trip hp hc hx =>
    rw [hp] at h ⊢
    obtain ⟨rfl, hl⟩ := h
    have hm : (Moment.given (.report _ _)).excess? t.limit = some _ := (if_neg hc).trans hx
    rw [show fits (.calling _) (.report _ _) = true from rfl, if_pos rfl, hm]
    refine ⟨note_getD seen hl, fun n hn => ?_⟩
    cases seen with
    | none => exact Option.some.inj hn ▸ lt_of_excess? hx
    | some first => exact hl n hn
  | abortFile hp hv | abort hp hv =>
    rw [hp] at h ⊢
    obtain ⟨rfl, hl⟩ := h
    rw [show (Moment.given (.settle _ _)).excess? t.limit = none from rfl, ite_self, Option.or_none]
    rintro n rfl
    rfl
  | fetch hp | retry hp | fail hp =>
    rw [hp] at h ⊢
    obtain ⟨hn, hl⟩ := h
    have hs : seen = none := by
      cases seen with
      | none => rfl
      | some first => exact absurd hn (Nat.ne_of_lt (Nat.zero_lt_of_lt (hl first rfl)))
    subst hs
    simp [Noted, Moment.excess?, fits, finish, rest]

/-- A run notes the first report above the ceiling. -/
theorem noted_run (h : Noted t.limit seen t.phase) (inputs : List Input) :
    Noted t.limit (seen.or (firstExcess t.limit (t.log inputs))) (t.run inputs).1.phase := by
  induction inputs generalizing t seen with
  | nil =>
    rw [show firstExcess t.limit (t.log []) = none from rfl, Option.or_none]
    exact h
  | cons input rest ih =>
    have hs := step_spec t input
    have hn := hs.noted h
    rw [← hs.limit_eq] at hn ⊢
    rw [run_cons, log, firstExcess_append, ← Option.or_assoc]
    exact ih hn

/-! ### An attempt in which a size above the ceiling is noted -/

variable {v : Nat} {file : Path} {outcome : Except Failure Path} {draw : Float} {before after : List Moment}

theorem Step.tripped (hs : Step t input t' effects) (hp : t.phase = .calling v) (hv : v ≠ noViolation) :
    (t'.phase = .calling v ∧ (∀ outcome draw, input ≠ .settle outcome draw) ∧ ∀ resume, .call resume ∉ effects) ∨
      ∃ outcome draw, input = .settle outcome draw ∧ t' = t.finish (.error (.oversize t.limit v)) ∧
        effects = leftOf outcome := by
  cases hs with
  | ignore hf =>
    refine Or.inl ⟨hp, ?_, fun _ => List.not_mem_nil⟩
    rintro outcome draw rfl
    rw [hp] at hf
    cases hf
  | early => exact Or.inl ⟨hp, fun _ _ => nofun, fun _ => List.not_mem_nil⟩
  | pass => exact Or.inl ⟨hp, fun _ _ => nofun, fun _ => List.not_mem_nil⟩
  | publish => exact Or.inl ⟨hp, fun _ _ => nofun, fun resume hm => by cases List.mem_singleton.mp hm⟩
  | trip hp' =>
    obtain rfl : _ = v := TransferPhase.calling.inj (hp'.symm.trans hp)
    exact Or.inl ⟨congrArg _ (if_neg hv), fun _ _ => nofun, fun resume hm => by cases List.mem_singleton.mp hm⟩
  | abortFile hp' | abort hp' =>
    obtain rfl : _ = v := TransferPhase.calling.inj (hp'.symm.trans hp)
    exact Or.inr ⟨_, _, rfl, rfl, rfl⟩
  | fetch hp' | retry hp' | fail hp' => exact absurd (TransferPhase.calling.inj (hp'.symm.trans hp)).symm hv
  | reject hp' | stop hp' | call hp' | retryLost hp' | lose hp' | exceed hp' | complete hp' | wake hp'
  | interrupt hp' => cases hp'.symm.trans hp

/-- A report leaves the transport at work. -/
theorem Step.reported (hs : Step t (.report completed total) t' effects)
    (hf : fits t.phase (.report completed total) = true) :
    (∃ v, t'.phase = .calling v) ∧ ∀ resume, .call resume ∉ effects := by
  cases hs with
  | ignore hn =>
    rw [hf] at hn
    cases hn
  | early hp | pass hp => exact ⟨⟨_, hp⟩, fun _ => List.not_mem_nil⟩
  | publish hp => exact ⟨⟨_, hp⟩, fun _ hm => by cases List.mem_singleton.mp hm⟩
  | trip => exact ⟨⟨_, rfl⟩, fun _ hm => by cases List.mem_singleton.mp hm⟩

theorem call_not_mem_leftOf (resume : Option ResumeToken) : .call resume ∉ leftOf outcome := by
  intro hm
  cases outcome with
  | ok file => cases List.mem_singleton.mp hm
  | error failure => cases hr : failure.resume? <;> simp [leftOf, discards, hr] at hm

/-- After a size above the ceiling has been noted there is no further call; and the answer of the transport,
    once it comes, is given up, and the transfer has failed. -/
theorem tripped_run (hp : t.phase = .calling v) (hv : v ≠ noViolation) (inputs : List Input) :
    (∀ resume, .done (.call resume) ∉ t.log inputs) ∧
      ∀ outcome draw, .given (.settle outcome draw) ∈ t.log inputs →
        (∃ failure, (t.run inputs).1.result? = some (.error failure)) ∧
          ∀ effect ∈ leftOf outcome, .done effect ∈ t.log inputs := by
  induction inputs generalizing t with
  | nil => exact ⟨fun _ => List.not_mem_nil, fun _ _ hm => absurd hm List.not_mem_nil⟩
  | cons input rest ih =>
    rw [log, run_cons]
    rcases (step_spec t input).tripped hp hv with ⟨hp', hi, hc⟩ | ⟨outcome, draw, rfl, ht, he⟩
    · obtain ⟨hcalls, hanswers⟩ := ih hp'
      refine ⟨fun resume hr => ?_, fun outcome draw ha => ?_⟩
      · rcases List.mem_append.mp hr with hr | hr
        · exact hc resume (mem_of_done_mem_moments hr)
        · exact hcalls resume hr
      · rcases List.mem_append.mp ha with ha | ha
        · exact absurd (eq_of_given_mem_moments ha).symm (hi outcome draw)
        · obtain ⟨hr, hl⟩ := hanswers outcome draw ha
          exact ⟨hr, fun effect he => List.mem_append_right _ (hl effect he)⟩
    · -- The answer has come, and the transfer is over.
      have hf : fits t.phase (.settle outcome draw) = true := by rw [hp]; rfl
      have hend : (t.step (.settle outcome draw)).1.phase = .ended (.error (.oversize t.limit v)) := by
        rw [ht]
        rfl
      rw [log_of_ended hend, List.append_nil, run_of_ended hend]
      refine ⟨fun resume hr => ?_, fun outcome' draw' ha => ⟨⟨_, result?_of_phase hend⟩, fun effect hl => ?_⟩⟩
      · have hl := mem_of_done_mem_moments hr
        rw [he] at hl
        exact call_not_mem_leftOf resume hl
      · cases eq_of_given_mem_moments ha
        rw [moments_of_fits hf, he]
        exact List.mem_cons_of_mem _ (List.mem_map_of_mem hl)

/-! ### How a transfer comes to measure a file, and to deliver it -/

theorem Step.measuring (hs : Step t input t' effects) (hp : t'.phase = .measuring file) :
    (t.phase = .measuring file ∧ fits t.phase input = false) ∨
      ∃ draw, input = .settle (.ok file) draw ∧ fits t.phase input = true ∧ effects = [] := by
  cases hs with
  | ignore hf => exact Or.inl ⟨hp, hf⟩
  | fetch hp' =>
    obtain rfl : _ = file := TransferPhase.measuring.inj hp
    exact Or.inr ⟨_, rfl, by rw [hp']; rfl, rfl⟩
  | early hp' | publish hp' | pass hp' => cases hp'.symm.trans hp
  | _ => cases hp

theorem Step.delivered (hs : Step t input t' effects) (hp : t'.phase = .ended (.ok file)) :
    (t.phase = .ended (.ok file) ∧ fits t.phase input = false) ∨
      t.phase = .measuring file ∧ ∃ size draw, size ≤ t.limit ∧ input = .measure (.ok size) draw ∧
        effects = [.emit (.transferComplete t.id (UInt64.ofNat size))] := by
  cases hs with
  | ignore hf => exact Or.inl ⟨hp, hf⟩
  | complete hp' hs =>
    obtain rfl : _ = file := Except.ok.inj (TransferPhase.ended.inj hp)
    exact Or.inr ⟨hp', _, _, hs, rfl, rfl⟩
  | early hp' | publish hp' | pass hp' => cases hp'.symm.trans hp
  | _ => cases hp

theorem Step.exceeded {size : Nat} (hs : Step t (.measure (.ok size) draw) t' effects)
    (hf : fits t.phase (.measure (.ok size) draw) = true) (hl : t.limit < size) :
    ∃ file, t.phase = .measuring file ∧ t'.phase = .ended (.error (.oversize t.limit size)) ∧
      effects = [.remove file] := by
  cases hs with
  | ignore hn =>
    rw [hf] at hn
    cases hn
  | exceed hp => exact ⟨_, hp, rfl, rfl⟩
  | complete hp hle => exact absurd hl (Nat.not_lt_of_le hle)

/-- A file is measured right after the transport has handed it over. -/
theorem log_of_measuring (h0 : ∀ file, t.phase ≠ .measuring file) (hp : (t.run inputs).1.phase = .measuring file) :
    ∃ before draw, t.log inputs = before ++ [.given (.settle (.ok file) draw)] := by
  induction inputs using List.reverseRecOn with
  | nil => exact absurd hp (h0 file)
  | append_singleton inputs input ih =>
    rw [run_concat] at hp
    rw [log_concat]
    rcases (step_spec _ input).measuring hp with ⟨hp, hf⟩ | ⟨draw, rfl, hf, he⟩
    · rw [moments_of_not_fits hf, List.append_nil]
      exact ih hp
    · rw [moments_of_fits hf, he]
      exact ⟨_, draw, rfl⟩

/-- A file is delivered right after its size has been found to be at most the ceiling. -/
theorem log_of_delivered (h0 : ∀ file, t.phase ≠ .measuring file) (h1 : t.result? = none)
    (hp : (t.run inputs).1.phase = .ended (.ok file)) :
    ∃ before size draw draw', size ≤ t.limit ∧ t.log inputs = before ++ [.given (.settle (.ok file) draw),
      .given (.measure (.ok size) draw'), .done (.emit (.transferComplete t.id (UInt64.ofNat size)))] := by
  induction inputs using List.reverseRecOn with
  | nil =>
    have hr : t.result? = some (.ok file) := result?_of_phase hp
    rw [h1] at hr
    cases hr
  | append_singleton inputs input ih =>
    rw [run_concat] at hp
    rw [log_concat]
    rcases (step_spec _ input).delivered hp with ⟨hp, hf⟩ | ⟨hm, size, draw, hs, rfl, he⟩
    · rw [moments_of_not_fits hf, List.append_nil]
      exact ih hp
    · obtain ⟨before, draw', hb⟩ := log_of_measuring h0 hm
      rw [limit_run] at hs
      rw [id_run] at he
      refine ⟨before, size, draw', draw, hs, ?_⟩
      rw [moments_of_fits (by rw [hm]; rfl), he, hb, List.append_assoc]
      rfl

/-! ### Runs from the start -/

/-- What a ceiling means for a run. -/
structure KeepsCeiling (t : Transfer) (inputs : List Input) : Prop where
  /-- a file is delivered right after its size has been found to be at most the ceiling, and no report was
      above it -/
  delivered : ∀ file, (t.run inputs).1.result? = some (.ok file) →
    (∃ before size draw draw', size ≤ t.limit ∧ t.log inputs = before ++ [.given (.settle (.ok file) draw),
      .given (.measure (.ok size) draw'), .done (.emit (.transferComplete t.id (UInt64.ofNat size)))]) ∧
    ∀ completed total, .given (.report completed total) ∈ t.log inputs → ¬Exceeds t.limit completed total
  /-- with a report above the ceiling, the result is a failure that names the size that the first one shows -/
  refused : ∀ completed total, .given (.report completed total) ∈ t.log inputs → Exceeds t.limit completed total →
    ∀ result, (t.run inputs).1.result? = some result →
      ∃ before after first firstTotal, t.log inputs = before ++ .given (.report first firstTotal) :: after ∧
        Exceeds t.limit first firstTotal ∧
        (∀ c n, .given (.report c n) ∈ before → ¬Exceeds t.limit c n) ∧
        t.limit < shownSize t.limit first firstTotal ∧
        result = .error (.oversize t.limit (shownSize t.limit first firstTotal))
  /-- after a report above the ceiling there is no further call, and the answer of the transport ends the
      transfer and is given up -/
  stopped : ∀ before after completed total, t.log inputs = before ++ .given (.report completed total) :: after →
    Exceeds t.limit completed total → (∀ resume, .done (.call resume) ∉ after) ∧
      ∀ outcome draw, .given (.settle outcome draw) ∈ after →
        (t.run inputs).1.result?.isSome ∧ ∀ effect ∈ leftOf outcome, .done effect ∈ after
  /-- a file that is found to be above the ceiling is the last that the transport hands over, and is removed -/
  measured : ∀ before after size draw, t.log inputs = before ++ .given (.measure (.ok size) draw) :: after →
    t.limit < size → (t.run inputs).1.result? = some (.error (.oversize t.limit size)) ∧
      ∃ earlier file draw', before = earlier ++ [.given (.settle (.ok file) draw')] ∧ after = [.done (.remove file)]
  /-- while the transport is at work, what is noted is `noViolation` exactly as long as no report was above the
      ceiling -/
  noted : ∀ noted, (t.run inputs).1.phase = .calling noted → (noted = noViolation ↔
    ∀ completed total, .given (.report completed total) ∈ t.log inputs → ¬Exceeds t.limit completed total)

section Start

variable {t : Transfer} (h : t.phase = .ready none ∨ ∃ failure, t.phase = .doomed failure)
include h

theorem noted_start : Noted t.limit none t.phase := by
  rcases h with hp | ⟨failure, hp⟩ <;> rw [hp] <;> rfl

theorem noted_log (inputs : List Input) :
    Noted t.limit (firstExcess t.limit (t.log inputs)) (t.run inputs).1.phase := by
  have hn := noted_run (noted_start h) inputs
  rwa [Option.none_or] at hn

theorem not_measuring_start (file : Path) : t.phase ≠ .measuring file := by
  rcases h with hp | ⟨failure, hp⟩ <;> rw [hp] <;> nofun

theorem result?_start : t.result? = none := by
  rcases h with hp | ⟨failure, hp⟩ <;> rw [result?, hp]

/-- After a report above the ceiling the transport is still at work, with a size noted. -/
theorem tripped_of_split (hl : t.log inputs = before ++ .given (.report completed total) :: after)
    (hx : Exceeds t.limit completed total) : ∃ (u : Transfer) (v : Nat) (later : List Input) (effects : List Effect),
      (t.run inputs).1 = (u.run later).1 ∧ u.phase = .calling v ∧ v ≠ noViolation ∧
        after = effects.map .done ++ u.log later ∧ ∀ resume, .call resume ∉ effects := by
  obtain ⟨earlier, later, rfl, rfl, hf, rfl⟩ := log_split hl
  have hn := noted_log h (earlier ++ [.report completed total])
  have hm : (Moment.given (.report completed total)).excess? t.limit = some (shownSize t.limit completed total) :=
    Moment.excess?_eq_some_iff.mpr ⟨completed, total, rfl, hx, rfl⟩
  rw [log_concat, run_concat, firstExcess_append, firstExcess_moments, if_pos hf, hm] at hn
  obtain ⟨⟨v, hv⟩, hc⟩ := (step_spec (t.run earlier).1 (.report completed total)).reported hf
  refine ⟨_, v, later, _, ?_, hv, ?_, rfl, hc⟩
  · rw [run_append]
    rfl
  · rw [hv] at hn
    obtain ⟨rfl, hlt⟩ := hn
    cases hs : firstExcess t.limit (t.log earlier) with
    | none =>
      rw [hs] at hlt
      exact Nat.ne_of_gt (Nat.zero_lt_of_lt (hlt _ rfl))
    | some first =>
      rw [hs] at hlt
      exact Nat.ne_of_gt (Nat.zero_lt_of_lt (hlt first rfl))

theorem delivered_start (hr : (t.run inputs).1.result? = some (.ok file)) :
    (∃ before size draw draw', size ≤ t.limit ∧ t.log inputs = before ++ [.given (.settle (.ok file) draw),
      .given (.measure (.ok size) draw'), .done (.emit (.transferComplete t.id (UInt64.ofNat size)))]) ∧
    ∀ completed total, .given (.report completed total) ∈ t.log inputs → ¬Exceeds t.limit completed total := by
  have hp := phase_of_result? hr
  have hn := noted_log h inputs
  rw [hp] at hn
  exact ⟨log_of_delivered (not_measuring_start h) (result?_start h) hp, firstExcess_eq_none_iff.mp hn⟩

theorem refused_start (hm : .given (.report completed total) ∈ t.log inputs) (hx : Exceeds t.limit completed total)
    {result : Except Failure Path} (hr : (t.run inputs).1.result? = some result) :
    ∃ observed, firstExcess t.limit (t.log inputs) = some observed ∧ result = .error (.oversize t.limit observed) := by
  have hn := noted_log h inputs
  rw [phase_of_result? hr] at hn
  cases hs : firstExcess t.limit (t.log inputs) with
  | none => exact absurd hx (firstExcess_eq_none_iff.mp hs completed total hm)
  | some observed =>
    rw [hs] at hn
    cases result with
    | ok file => cases hn
    | error failure => exact ⟨observed, rfl, congrArg _ (hn observed rfl)⟩

theorem stopped_start (hl : t.log inputs = before ++ .given (.report completed total) :: after)
    (hx : Exceeds t.limit completed total) : (∀ resume, .done (.call resume) ∉ after) ∧
      ∀ outcome draw, .given (.settle outcome draw) ∈ after →
        (t.run inputs).1.result?.isSome ∧ ∀ effect ∈ leftOf outcome, .done effect ∈ after := by
  obtain ⟨u, v, later, effects, hu, hp, hv, rfl, hc⟩ := tripped_of_split h hl hx
  obtain ⟨hcalls, hanswers⟩ := tripped_run hp hv later
  refine ⟨fun resume hm => ?_, fun outcome draw hm => ?_⟩
  · rcases List.mem_append.mp hm with hm | hm
    · exact hc resume (done_mem_done.mp hm)
    · exact hcalls resume hm
  · rcases List.mem_append.mp hm with hm | hm
    · exact absurd hm given_not_mem_done
    · obtain ⟨⟨failure, hr⟩, hleft⟩ := hanswers outcome draw hm
      refine ⟨?_, fun effect he => List.mem_append_right _ (hleft effect he)⟩
      rw [hu, hr]
      rfl

theorem measured_start {size : Nat} (hl : t.log inputs = before ++ .given (.measure (.ok size) draw) :: after)
    (hs : t.limit < size) : (t.run inputs).1.result? = some (.error (.oversize t.limit size)) ∧
      ∃ earlier file draw', before = earlier ++ [.given (.settle (.ok file) draw')] ∧
        after = [.done (.remove file)] := by
  obtain ⟨earlier, later, rfl, rfl, hf, rfl⟩ := log_split hl
  obtain ⟨file, hp, hend, he⟩ := (step_spec (t.run earlier).1 _).exceeded hf (by rwa [limit_run])
  rw [limit_run] at hend
  obtain ⟨first, draw', hb⟩ := log_of_measuring (not_measuring_start h) hp
  refine ⟨?_, first, file, draw', hb, ?_⟩
  · rw [run_append, run_cons, run_of_ended hend]
    exact result?_of_phase hend
  · rw [he, log_of_ended hend]
    rfl

theorem noted_iff {noted : Nat} (hp : (t.run inputs).1.phase = .calling noted) : noted = noViolation ↔
    ∀ completed total, .given (.report completed total) ∈ t.log inputs → ¬Exceeds t.limit completed total := by
  have hn := noted_log h inputs
  rw [hp] at hn
  obtain ⟨rfl, hlt⟩ := hn
  rw [← firstExcess_eq_none_iff]
  cases hs : firstExcess t.limit (t.log inputs) with
  | none => exact ⟨fun _ => rfl, fun _ => rfl⟩
  | some observed =>
    exact ⟨fun h0 => absurd h0 (Nat.ne_of_gt (Nat.zero_lt_of_lt (hlt observed hs))), nofun⟩

theorem keepsCeiling (inputs : List Input) : t.KeepsCeiling inputs where
  delivered _ hr := delivered_start h hr
  refused _ _ hm hx _ hr := by
    obtain ⟨observed, ho, rfl⟩ := refused_start h hm hx hr
    have hlt := lt_of_firstExcess ho
    obtain ⟨before, after, first, firstTotal, hl, hx, rfl, hb⟩ := firstExcess_eq_some_iff.mp ho
    exact ⟨before, after, first, firstTotal, hl, hx, hb, hlt, rfl⟩
  stopped _ _ _ _ hl hx := stopped_start h hl hx
  measured _ _ _ _ hl hs := measured_start h hl hs
  noted _ hp := noted_iff h hp

end Start

theorem keepsCeiling_start (id : TransferId) (request : Request) (limit : Nat) (policy : RetryPolicy)
    (inputs : List Input) : (start id request limit policy).KeepsCeiling inputs :=
  keepsCeiling ((phase_start id request limit policy).imp_right fun ⟨_, hp⟩ => ⟨_, hp⟩) inputs

end SealedDownload.Transfer
