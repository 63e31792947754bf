import SealedDownload.Proofs.Pipeline.Progress

/-! What becomes of the result of a work that has succeeded. It is with the worker until the worker sends it; from
    then on it waits for its caller to take it, or, where nobody listens, the file that it owns is removed. A caller
    that stops waiting after the result has come and before it has been taken is the exception: nothing is left to
    remove the file. -/

namespace SealedDownload.Pipeline

/-- A story that entitles to a result holds no other one. -/
theorem eq_of_verdict? {told : List Mark} {result found : Except Failure Product} (h : verdict? told = some result)
    (hf : .finished (.returned found) ∈ told) : result = found := by
  unfold verdict? at h
  split at h <;> simp_all

variable {isCancelled : Nat → Bool} {p p' : Pipeline} {s s' : Shared} {job : Job} {product : Product}

/-- The worker has the result of a job. -/
def Carries (p : Pipeline) (job : Job) (product : Product) : Prop :=
  p.worker = .operated job (.ok product) ∨ p.worker = .announced job (.ok product) ∨
    p.worker = .cleared job (.ok product)

theorem Carries.job? (h : p.Carries job product) : p.worker.job? = some job := by
  rcases h with h | h | h <;> rw [h] <;> rfl

theorem Carries.left_le (h : p.Carries job product) : p.worker.left ≤ 3 := by
  rcases h with h | h | h <;> rw [h] <;> simp [Worker.left]

theorem Carries.place (h : p.Carries job product) : p.place job.call ≠ .gone := by
  rw [place_hand h.job?]
  exact Place.hand_ne_gone _

/-- The worker keeps a result until it sends it, and comes nearer to that. -/
theorem Step.carries (h : Step isCancelled p s p' s') (hc : p.Carries job product) :
    p'.Carries job product ∧ p'.worker.left + 1 = p.worker.left ∨ p' = ({ p with worker := .idle }.send s job.call (.ok product)).1 ∧
      s' = ({ p with worker := .idle }.send s job.call (.ok product)).2 := by
  have hno : p.worker ≠ .idle ∧ (∀ other start, p.worker ≠ .decided other start) ∧ ∀ other, p.worker ≠ .operating other := by
    rcases hc with hc | hc | hc <;> simp [hc]
  cases h with
  | take hw => exact absurd hw hno.1
  | begin hw | skip hw => exact absurd hw (hno.2.1 _ _)
  | operate hw | crash hw => exact absurd hw (hno.2.2 _)
  | announce hw =>
    rcases hc with hc | hc | hc <;> cases hw.symm.trans hc
    exact Or.inl ⟨Or.inr (Or.inl rfl), by rw [hw]; rfl⟩
  | keep hw =>
    rcases hc with hc | hc | hc <;> cases hw.symm.trans hc
    exact Or.inl ⟨Or.inr (Or.inr rfl), by rw [hw]; rfl⟩
  | clear hw => rcases hc with hc | hc | hc <;> cases hw.symm.trans hc
  | reply hw =>
    rcases hc with hc | hc | hc <;> cases hw.symm.trans hc
    exact Or.inr ⟨rfl, rfl⟩

/-- Where nobody listens, the file of a result is removed as it is sent. -/
theorem get?_send (h : p.reply? job.call = none) :
    (p.send s job.call (.ok product)).2.files.get? product.path = none := by
  have hn : ¬(p.reply? job.call).isSome = true := by
    rw [h]
    exact Bool.false_ne_true
  unfold send
  rw [if_neg hn]
  exact Files.get?_erase s.files product.path

namespace Calls

variable {c d e : Calls} {log : List (Nat × Mark)} {i : Nat} {x y : Call} {action : Action} {actions : List Action}
  {shared : Shared}

/-- The call of which the caller stops waiting by an action although its result has come. -/
def forsaken? (c : Calls) : Action → Option Nat
  | .abandon i =>
    match c.pipeline.reply? i with
    | some (.arrived _) => some i
    | _ => none
  | _ => none

/-- The calls that are left so in a run. -/
def forsaken (c : Calls) : List Action → List Nat
  | [] => []
  | action :: rest => (c.forsaken? action).toList ++ ((c.step? action).map (·.forsaken rest)).getD []

/-- The job of a call is over, and the file that its result owns is not there. -/
def Discarded (c : Calls) (i : Nat) (product : Product) : Prop :=
  c.pipeline.place i = .gone ∧ c.shared.files.get? product.path = none

/-- What has become of the result of a call, or will once the worker has gone on. -/
inductive Fate (first : Calls) (actions : List Action) (c : Calls) (i : Nat) (product : Product) : Prop where
  | returned {x : Call} (hx : c.calls[i]? = some x) (hr : x.result? = some (.ok product))
  | discarded {earlier later : List Action} {d : Calls} (he : actions = earlier ++ later)
      (hr : first.run? earlier = some d) (hf : .finished (.returned (.ok product)) ∈ story i (first.log earlier))
      (hd : d.Discarded i product)
  /-- the call returns it as soon as it goes on -/
  | comes {count : Nat} {d e : Calls} {x : Call} (hc : count ≤ 3)
      (hr : c.run? (List.replicate count .work) = some d) (he : d.step? (.collect i) = some e)
      (hx : e.calls[i]? = some x) (hd : x.result? = some (.ok product))
  /-- nobody listens, and it is removed -/
  | goes {count : Nat} {d : Calls} (hc : count ≤ 3) (hr : c.run? (List.replicate count .work) = some d)
      (hd : d.Discarded i product)

/-! ### Where the result is -/

/-- Where the result of a call is. -/
inductive Whereabouts (c : Calls) (i : Nat) (product : Product) (x : Call) : Prop where
  | carried {job : Job} (hi : job.call = i) (hc : c.pipeline.Carries job product) (hs : x.stage = .waiting ∨ x.stage = .abandoned)
  | arrived (hs : x.stage = .waiting) (hr : c.pipeline.reply? i = some (.arrived (.ok product)))
  | taken (hs : x.stage = .ended (.ok product))
  | left (hs : x.stage = .abandoned) (hp : c.pipeline.place i = .gone)

theorem carried_of_tells {place : Place} {rest : List Mark} (hp : c.pipeline.place i = place) (ht : place.Tells rest)
    (hf : .finished (.returned (.ok product)) ∈ rest) :
    place = .gone ∨ ∃ job, job.call = i ∧ c.pipeline.Carries job product := by
  have hv : ∀ {result}, verdict? (.looked false :: .queued :: rest) = some result → result = .ok product :=
    fun h => eq_of_verdict? h (List.mem_cons_of_mem _ (List.mem_cons_of_mem _ hf))
  cases place with
  | gone => exact Or.inl rfl
  | line =>
    obtain rfl : rest = [] := ht
    cases hf
  | hand w =>
    obtain ⟨hw, job, hj, rfl⟩ := place_eq_hand hp
    refine Or.inr ⟨job, rfl, ?_⟩
    unfold Carries
    cases w with
    | idle => exact ht.elim
    | decided other start =>
      obtain rfl : rest = [.taken (!start)] := ht
      simp at hf
    | operating other =>
      obtain rfl : rest = [.taken false, .began] := ht
      simp at hf
    | operated other result =>
      obtain rfl : rest = [.taken false, .began, .finished (.returned result)] := ht
      obtain rfl : .ok product = result := by simpa using hf
      rw [← hw] at hj ⊢
      cases hj
      exact Or.inl rfl
    | announced other result =>
      obtain rfl := hv ht
      rw [← hw] at hj ⊢
      cases hj
      exact Or.inr (Or.inl rfl)
    | cleared other result =>
      obtain rfl := hv ht
      rw [← hw] at hj ⊢
      cases hj
      exact Or.inr (Or.inr rfl)

/-- By its story, a result is in one of those places. -/
theorem Told.whereabouts (h : c.Told log) (hx : c.calls[i]? = some x)
    (hf : .finished (.returned (.ok product)) ∈ story i log) : Whereabouts c i product x := by
  have ht := h.tells i x hx
  cases hs : x.stage with
  | fresh | ready | refused =>
    rw [hs] at ht
    rw [ht.2.2] at hf
    simp at hf
  | ended result =>
    rw [hs] at ht
    obtain rfl := eq_of_verdict? ht.2.2 hf
    exact .taken hs
  | waiting =>
    rw [hs] at ht
    obtain ⟨rest, hl, hp, hr⟩ := ht
    have hfr : .finished (.returned (.ok product)) ∈ rest := by simpa [hl] using hf
    rcases carried_of_tells rfl hp hfr with hg | ⟨job, hi, hc⟩
    · cases hreply : c.pipeline.reply? i with
      | none =>
        rw [hreply] at hr
        exact hr.elim
      | some reply =>
        rw [hreply] at hr
        cases reply with
        | expected => exact absurd hg hr
        | arrived result =>
          obtain rfl := eq_of_verdict? hr.2 hf
          exact .arrived hs hreply
        | lost => cases eq_of_verdict? hr.2 hf
    · exact .carried hi hc (Or.inl hs)
  | abandoned =>
    rw [hs] at ht
    obtain ⟨-, ⟨-, hl⟩ | ⟨rest, hl, hp⟩⟩ := ht
    · rcases hl with hl | hl <;> simp [hl] at hf
    · have hfr : .finished (.returned (.ok product)) ∈ rest := by simpa [hl] using hf
      rcases carried_of_tells rfl hp hfr with hg | ⟨job, hi, hc⟩
      · exact .left hs hg
      · exact .carried hi hc (Or.inr hs)

/-! ### A caller that has gone away -/

/-- The caller of a call has gone away, and its job is over. -/
structure Left (c : Calls) (log : List (Nat × Mark)) (i : Nat) (product : Product) : Prop where
  call : ∃ x, c.calls[i]? = some x ∧ x.stage = .abandoned
  place : c.pipeline.place i = .gone
  finished : .finished (.returned (.ok product)) ∈ story i log

theorem get?_set {j : Nat} {z : Call} (h : (c.calls.set j z)[i]? = some y) :
    i = j ∧ y = z ∨ i ≠ j ∧ c.calls[i]? = some y := by
  by_cases hij : i = j
  · subst hij
    rw [List.getElem?_set] at h
    split at h
    · split at h
      · exact Or.inl ⟨rfl, (Option.some.inj h).symm⟩
      · cases h
    · exact absurd rfl ‹_›
  · exact Or.inr ⟨hij, (List.getElem?_set_ne (Ne.symm hij)).symm.trans h⟩

theorem forsaken?_of_arrived {result : Except Failure Product} (h : c.pipeline.reply? i = some (.arrived result)) :
    c.forsaken? (.abandon i) = some i := by
  simp only [forsaken?, h]

/-- With the caller away, the worker's reply removes the file. -/
theorem left_of_work {p : Pipeline} {s : Shared} (hs : Pipeline.Step c.isCancelledAt c.pipeline c.shared p s)
    (h : c.Told log) (hd : Left { c with pipeline := p, shared := s } (log ++ (c.mark? .work).toList) i product) :
    Left c log i product ∨ s.files.get? product.path = none := by
  obtain ⟨⟨x, hx, hst⟩, hp, hf⟩ := hd
  have hx : c.calls[i]? = some x := hx
  have hnone : c.pipeline.reply? i = none := by
    have ht := h.tells i x hx
    rw [hst] at ht
    exact ht.1
  -- A mark of this step would be the end of the work, and then the worker still has the result.
  have hf : .finished (.returned (.ok product)) ∈ story i log := by
    rw [story_append, List.mem_append] at hf
    refine hf.resolve_right fun hm => ?_
    have hm := mem_story.mp hm
    cases hs with
    | take hw hq => simp [mark?, hw, hq] at hm
    | begin hw | skip hw | announce hw | keep hw | clear hw | reply hw => simp [mark?, hw] at hm
    | crash hw ho => simp [mark?, hw, ho] at hm
    | @operate job result files hw ho =>
      obtain ⟨rfl, -⟩ : i = job.call ∧ _ := by simpa [mark?, hw, ho] using hm
      have hhand : Pipeline.place { c.pipeline with worker := .operated job result } job.call = .hand _ := place_hand rfl
      rw [hhand] at hp
      cases hp
  cases h.whereabouts hx hf with
  | arrived hs' => cases hst.symm.trans hs'
  | taken hs' => cases hst.symm.trans hs'
  | left _ hg => exact Or.inl ⟨⟨x, hx, hst⟩, hg, hf⟩
  | carried hi hc =>
    obtain rfl := hi
    rcases hs.carries hc with ⟨hc', -⟩ | ⟨-, rfl⟩
    · exact absurd hp hc'.place
    · exact Or.inr (get?_send hnone)

/-- A job that is lost has no result yet. -/
theorem left_of_loss {p : Pipeline} {entry : Nat × Mark} (h : c.Told log)
    (hk : ∀ job, c.pipeline.Carries job product → p.Carries job product) (hm : ∀ outcome, entry.2 ≠ .finished outcome)
    (hd : Left { c with pipeline := p } (log ++ [entry]) i product) : Left c log i product := by
  obtain ⟨⟨x, hx, hst⟩, hp, hf⟩ := hd
  have hf : .finished (.returned (.ok product)) ∈ story i log := by
    rw [story_append, List.mem_append] at hf
    refine hf.resolve_right fun he => ?_
    exact hm _ (congrArg Prod.snd (List.mem_singleton.mp (mem_story.mp he))).symm
  have hx : c.calls[i]? = some x := hx
  cases h.whereabouts hx hf with
  | arrived hs => cases hst.symm.trans hs
  | taken hs => cases hst.symm.trans hs
  | left _ hg => exact ⟨⟨x, hx, hst⟩, hg, hf⟩
  | carried hi hc =>
    obtain rfl := hi
    exact absurd hp (hk _ hc).place

/-- The caller goes away only where the worker still has the result, or has just been forsaken. -/
theorem Step.left (hs : Step c action d) (h : c.Told log)
    (hd : Left d (log ++ (c.mark? action).toList) i product) :
    Left c log i product ∨ c.forsaken? action = some i ∨ d.shared.files.get? product.path = none := by
  obtain ⟨⟨y, hy, hst⟩, hp, hf⟩ := hd
  have hkeep : c.calls[i]? = some y → c.pipeline.place i = .gone → story i (c.mark? action).toList = [] →
      Left c log i product := by
    intro hx hg hm
    rw [story_append, hm, List.append_nil] at hf
    exact ⟨⟨y, hx, hst⟩, hg, hf⟩
  have hother : ∀ {j : Nat} {mark : Mark}, i ≠ j → story i (Option.toList (some (j, mark))) = [] := by
    intro j mark hij
    simp [story, Ne.symm hij]
  cases hs with
  | @enter id ciphertext work token content =>
    rcases Nat.lt_or_ge i c.calls.length with hl | hl
    · exact Or.inl (hkeep ((List.getElem?_append_left hl).symm.trans hy) hp rfl)
    · have hy : (c.calls ++ [⟨id, ciphertext, work, token, .fresh⟩])[i]? = some y := hy
      rw [List.getElem?_append_right hl, List.getElem?_singleton] at hy
      split at hy
      · cases hy
        cases hst
      · cases hy
  | cancel | close => exact Or.inl (hkeep hy hp rfl)
  | work _ hs =>
    rcases left_of_work hs h ⟨⟨y, hy, hst⟩, hp, hf⟩ with hl | hn
    · exact Or.inl hl
    · exact Or.inr (Or.inr hn)
  | @look j x hc =>
    rcases get?_set hy with ⟨rfl, rfl⟩ | ⟨hij, hx⟩
    · cases hx : c.isCancelled x <;> simp [hx] at hst
    · exact Or.inl (hkeep hx hp (by simp [mark?, hc, story, Ne.symm hij]))
  | @push j x hc hs' hg =>
    rcases get?_set hy with ⟨rfl, rfl⟩ | ⟨hij, hx⟩
    · cases hst
    · have hj := h.tells j x hc
      rw [hs'] at hj
      have hplace := place_push c.pipeline (x.job j) (not_mem_of_gone hj.1) i
      rw [if_neg (show i ≠ (x.job j).call from hij)] at hplace
      exact Or.inl (hkeep hx (hplace.symm.trans hp) (by rw [mark?, hg]; exact hother hij))
  | @turn j x hc hs' hg =>
    rcases get?_set hy with ⟨rfl, rfl⟩ | ⟨hij, hx⟩
    · cases hst
    · exact Or.inl (hkeep hx hp (by rw [mark?, hg]; exact hother hij))
  | @clear j x heard hc hs' =>
    rcases get?_set hy with ⟨rfl, rfl⟩ | ⟨hij, hx⟩
    · have hi := h.tells i x hc
      rw [hs'] at hi
      rw [show (c.mark? (.clear i)).toList = [] from rfl, List.append_nil, hi.2.2] at hf
      simp at hf
    · exact Or.inl (hkeep hx hp rfl)
  | @collect j x result p hc hs' hr =>
    obtain ⟨rfl, -⟩ := eq_of_collect? hr
    rcases get?_set hy with ⟨rfl, rfl⟩ | ⟨hij, hx⟩
    · cases hst
    · exact Or.inl (hkeep hx hp rfl)
  | @drop j x hc hs' =>
    rcases get?_set hy with ⟨rfl, rfl⟩ | ⟨hij, hx⟩
    · have hi := h.tells i x hc
      rw [hs'] at hi
      rw [show (c.mark? (.abandon i)).toList = [] from rfl, List.append_nil, hi.2.2] at hf
      cases hf
    · exact Or.inl (hkeep hx hp rfl)
  | flee hc hs' =>
    rcases get?_set hy with ⟨rfl, rfl⟩ | ⟨hij, hx⟩
    · cases hst
    · exact Or.inl (hkeep hx hp rfl)
  | @hangUp j x hc hs' =>
    rcases get?_set hy with ⟨rfl, rfl⟩ | ⟨hij, hx⟩
    · rw [show (c.mark? (.abandon i)).toList = [] from rfl, List.append_nil] at hf
      cases h.whereabouts hc hf with
      | taken hs => cases hs'.symm.trans hs
      | left hs => cases hs'.symm.trans hs
      | arrived _ hr => exact Or.inr (Or.inl (forsaken?_of_arrived hr))
      | carried hi hcarries =>
        obtain rfl := hi
        exact absurd hp hcarries.place
    · exact Or.inl (hkeep hx hp rfl)
  | @lose job rest _ hq =>
    have hmark : (c.mark? .lose).toList = [(job.call, .lost)] := by simp [mark?, hq]
    rw [hmark] at hf
    refine Or.inl (left_of_loss h (fun other hc => ?_) (fun _ he => by cases he) ⟨⟨y, hy, hst⟩, hp, hf⟩)
    unfold Carries at hc ⊢
    rwa [(breakOff_eq { c.pipeline with queue := rest } job.call).2]
  | @miss job start _ hw =>
    have hmark : (c.mark? .miss).toList = [(job.call, .missed (!start))] := by simp [mark?, hw]
    rw [hmark] at hf
    refine Or.inl (left_of_loss h (fun other hc => ?_) (fun _ he => by cases he) ⟨⟨y, hy, hst⟩, hp, hf⟩)
    rcases hc with hc | hc | hc <;> cases hw.symm.trans hc

/-- In a run, a result whose caller has gone away has been removed, unless the call has been forsaken. -/
theorem left_run (h : c.Told log) (hr : c.run? actions = some d) (hd : Left d (log ++ c.log actions) i product) :
    Left c log i product ∨ i ∈ c.forsaken actions ∨
      ∃ earlier later e, actions = earlier ++ later ∧ c.run? earlier = some e ∧
        .finished (.returned (.ok product)) ∈ story i (log ++ c.log earlier) ∧ e.Discarded i product := by
  induction actions generalizing c log with
  | nil =>
    cases hr
    rw [Calls.log, List.append_nil] at hd
    exact Or.inl hd
  | cons action rest ih =>
    obtain ⟨e, he, hr⟩ := Option.bind_eq_some_iff.mp hr
    have hs := step_of_step? he
    have hforsaken : c.forsaken (action :: rest) = (c.forsaken? action).toList ++ e.forsaken rest := by
      rw [forsaken, he, Option.map_some, Option.getD_some]
    rw [log_cons he, ← List.append_assoc] at hd
    rw [hforsaken, List.mem_append, Option.mem_toList]
    rcases ih (hs.told h) hr hd with hl | hi | ⟨earlier, later, b, rfl, hb, hf, hdiscarded⟩
    · rcases hs.left h hl with hl | hi | hn
      · exact Or.inl hl
      · exact Or.inr (Or.inl (Or.inl hi))
      · refine Or.inr (Or.inr ⟨[action], rest, e, rfl, ?_, ?_, hl.place, hn⟩)
        · rw [run?, he]
          rfl
        · rw [log_cons he, Calls.log, List.append_nil]
          exact hl.finished
    · exact Or.inr (Or.inl (Or.inr hi))
    · refine Or.inr (Or.inr ⟨action :: earlier, later, b, rfl, ?_, ?_, hdiscarded⟩)
      · rw [run?, he]
        exact hb
      · rw [log_cons he, ← List.append_assoc]
        exact hf

/-! ### The rest of the way -/

theorem collect_of_arrived {result : Except Failure Product} (hx : c.calls[i]? = some x) (hs : x.stage = .waiting)
    (hr : c.pipeline.reply? i = some (.arrived result)) :
    ∃ d y, c.step? (.collect i) = some d ∧ d.calls[i]? = some y ∧ y.result? = some result := by
  have hcollect : c.pipeline.collect? i = some (result, c.pipeline.hangUp i) := by
    simp only [Pipeline.collect?, hr]
  refine ⟨({ c with pipeline := c.pipeline.hangUp i }.move i x (.ended result)), { x with stage := .ended result }, ?_,
    List.getElem?_set_self (List.getElem?_eq_some_iff.mp hx).1, rfl⟩
  simp only [step?, collect?, hx, Option.bind_eq_bind, Option.bind_some, hs, hcollect]

/-- A result that is sent comes to the caller or is removed. -/
theorem Told.sent (h : c.Told log) (hc : c.pipeline.Carries job product) (hx : c.calls[job.call]? = some x)
    (hs : x.stage = .waiting ∨ x.stage = .abandoned)
    (hd : d = { c with
      pipeline := ({ c.pipeline with worker := .idle }.send c.shared job.call (.ok product)).1
      shared := ({ c.pipeline with worker := .idle }.send c.shared job.call (.ok product)).2 }) :
    (∃ e y, d.step? (.collect job.call) = some e ∧ e.calls[job.call]? = some y ∧ y.result? = some (.ok product)) ∨
      d.Discarded job.call product := by
  subst hd
  have ht := h.tells _ x hx
  rcases hs with hs | hs
  · rw [hs] at ht
    obtain ⟨rest, -, -, hr⟩ := ht
    refine Or.inl (collect_of_arrived hx hs ?_)
    have hsend := reply?_send { c.pipeline with worker := .idle } c.shared job.call job.call (.ok product)
    rw [if_pos rfl] at hsend
    refine hsend.trans ?_
    cases hreply : c.pipeline.reply? job.call with
    | none =>
      rw [hreply] at hr
      exact hr.elim
    | some reply =>
      rw [show Pipeline.reply? { c.pipeline with worker := .idle } job.call = some reply from hreply]
      rfl
  · rw [hs] at ht
    obtain ⟨hq, hi, -⟩ := send_eq { c.pipeline with worker := .idle } c.shared job.call (.ok product)
    have hp := place_of_done h.nodup hc.job? hi hq job.call
    rw [if_pos rfl] at hp
    exact Or.inr ⟨hp, get?_send ht.1⟩

/-- A result that the worker has comes to the caller or is removed, after some steps of the worker. -/
theorem Told.ends {n : Nat} (h : c.Told log) (hc : c.pipeline.Carries job product)
    (hx : c.calls[job.call]? = some x) (hs : x.stage = .waiting ∨ x.stage = .abandoned)
    (hn : c.pipeline.worker.left ≤ n) :
    ∃ count d, count ≤ n ∧ c.run? (List.replicate count .work) = some d ∧
      ((∃ e y, d.step? (.collect job.call) = some e ∧ e.calls[job.call]? = some y ∧ y.result? = some (.ok product)) ∨
        d.Discarded job.call product) := by
  induction n generalizing c log with
  | zero => exact absurd hn (Nat.not_le_of_lt (Worker.left_pos hc.job?))
  | succ n ih =>
    obtain ⟨d, hd⟩ := Option.isSome_iff_exists.mp (step?_work_isSome hc.job?)
    have hstep := step_of_step? hd
    have htold := hstep.told h
    have hrun : ∀ count, c.run? (List.replicate (count + 1) .work) = d.run? (List.replicate count .work) := by
      intro count
      rw [List.replicate_succ, run?, hd]
      rfl
    cases hstep with
    | work _ hw =>
      rcases hw.carries hc with ⟨hc', hl⟩ | ⟨hp, hshared⟩
      · obtain ⟨count, e, hle, hr, he⟩ := ih htold hc' hx (Nat.le_of_succ_le_succ (Nat.le_trans (Nat.le_of_eq hl) hn))
        exact ⟨count + 1, e, Nat.succ_le_succ hle, (hrun count).trans hr, he⟩
      · refine ⟨1, _, Nat.succ_le_succ (Nat.zero_le n), (hrun 0).trans rfl, h.sent hc hx hs ?_⟩
        rw [hp, hshared]

/-- The result of a work that has succeeded is returned to its caller, or the file that it owns is removed, whatever
    happens in between; a call that is left after its result has come, and before it has taken it, is the only
    exception. -/
theorem delivered_or_discarded (hr : (start shared).run? actions = some c) (hx : c.calls[i]? = some x)
    (hf : .finished (.returned (.ok product)) ∈ story i ((start shared).log actions))
    (hn : i ∉ (start shared).forsaken actions) : Fate (start shared) actions c i product := by
  have h := told_run (told_start shared) hr
  rw [List.nil_append] at h
  cases h.whereabouts hx hf with
  | taken hs => exact .returned hx (by rw [Call.result?, hs])
  | arrived hs hreply =>
    obtain ⟨e, y, he, hy, hresult⟩ := collect_of_arrived hx hs hreply
    exact .comes (Nat.zero_le 3) rfl he hy hresult
  | carried hi hc hs =>
    obtain rfl := hi
    obtain ⟨count, d, hle, hrun, ⟨e, y, he, hy, hresult⟩ | hd⟩ := h.ends hc hx hs hc.left_le
    · exact .comes hle hrun he hy hresult
    · exact .goes hle hrun hd
  | left hs hp =>
    rcases left_run (told_start shared) hr ⟨⟨x, hx, hs⟩, hp, by rwa [List.nil_append]⟩ with
      hl | hi | ⟨earlier, later, e, he, hrun, hfe, hd⟩
    · obtain ⟨y, hy, -⟩ := hl.call
      cases hy
    · exact absurd hi hn
    · rw [List.nil_append] at hfe
      exact .discarded he hrun hfe hd

/-- A work that succeeds, and makes one file. -/
def making (path : Path) : Work := fun files _ => (.returned (.ok (.plaintext path)), files.write path [1])

/-- The caller of a work stops waiting while the work is being done. -/
theorem delivered_or_discarded_midway :
    let shared : Shared := ⟨.empty, ⟨16, []⟩⟩
    let actions : List Action := [.enter ⟨1⟩ "a" (making "out") none (some [120]), .begin 0, .push 0, .work, .work,
      .abandon 0, .work, .work, .work, .work]
    ∃ c, (start shared).run? actions = some c ∧ Fate (start shared) actions c 0 (.plaintext "out") ∧
      c.shared.files.get? "out" = none := by
  intro shared actions
  have hr : ∃ c x, (start shared).run? actions = some c ∧ c.calls[0]? = some x ∧ c.shared.files.get? "out" = none :=
    ⟨_, _, rfl, rfl, rfl⟩
  obtain ⟨c, x, hr, hx, hgone⟩ := hr
  have hf : .finished (.returned (.ok (.plaintext "out"))) ∈ story 0 ((start shared).log actions) := by
    have hl : story 0 ((start shared).log actions) =
        [.looked false, .queued, .taken false, .began, .finished (.returned (.ok (.plaintext "out")))] := rfl
    rw [hl]
    simp
  have hn : 0 ∉ (start shared).forsaken actions := by
    have hl : (start shared).forsaken actions = [] := rfl
    rw [hl]
    exact List.not_mem_nil
  exact ⟨c, hr, delivered_or_discarded hr hx hf hn, hgone⟩

/-- The caller of a work stops waiting when the result has come: it is not returned, and its file stays. -/
theorem forsaken_keeps_result :
    let shared : Shared := ⟨.empty, ⟨16, []⟩⟩
    let actions : List Action := [.enter ⟨1⟩ "a" (making "out") none (some [120]), .begin 0, .push 0, .work, .work,
      .work, .work, .work, .work, .abandon 0]
    story 0 ((start shared).log actions) =
        [.looked false, .queued, .taken false, .began, .finished (.returned (.ok (.plaintext "out")))] ∧
      ((start shared).run? actions).map (fun c => (c.calls.map Call.result?, c.pipeline.worker.job?.isNone,
        c.shared.files.get? "out")) = some ([none], true, some [1]) := by
  intro shared actions
  exact ⟨rfl, rfl⟩

end Calls
end SealedDownload.Pipeline
