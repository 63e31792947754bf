import SealedDownload.Proofs.Pipeline.Marks
import SealedDownload.Proofs.Sealing.Authentication

/-! By the time a call fails its ciphertext has been removed: after a refusal, after a job that was skipped, after a
    work that has returned a failure, and after a call that came when the worker was gone. A job that ends without a
    reply is the exception, for nothing is left to remove its ciphertext: its work has crashed, or it has been lost
    with the worker. -/

namespace SealedDownload.Pipeline

/-- Whether a job has broken off: its work has crashed, or it has been lost with the worker. -/
@[simp] def Mark.isBreak : Mark → Bool
  | .finished .crashed => true
  | .lost => true
  | .missed _ => true
  | _ => false

namespace Calls

variable {c d : Calls} {log : List (Nat × Mark)} {i j : Nat} {x x' y : Call} {action : Action} {actions : List Action}
  {shared : Shared} {path : Path} {files : Files}

/-- The calls have a ciphertext each, and no work makes the ciphertext of another call. -/
def Apart (c : Calls) : Prop :=
  ∀ (i j : Nat) (x y : Call), c.calls[i]? = some x → c.calls[j]? = some y → i ≠ j → x.ciphertext ≠ y.ciphertext ∧
    ∀ files : Files, files.get? x.ciphertext = none → (y.work files y.ciphertext).2.get? x.ciphertext = none

/-- A failure is on its way to a call: the worker is about to reply with it, or has replied. -/
def Failing (c : Calls) (i : Nat) : Prop :=
  (∃ job failure, c.pipeline.worker = .cleared job (.error failure) ∧ job.call = i) ∨
    ∃ failure, c.pipeline.reply? i = some (.arrived (.error failure))

/-- Where a failure is on its way, the ciphertext has been removed, and only a job that has broken off leaves a call
    without a reply. -/
structure Cleared (c : Calls) (log : List (Nat × Mark)) : Prop where
  removed : ∀ i (x : Call), c.calls[i]? = some x → c.Failing i → c.shared.files.get? x.ciphertext = none
  lost : ∀ i, c.pipeline.reply? i = some .lost → ∃ mark ∈ story i log, mark.isBreak = true

/-! ### What the works leave alone -/

/-- A ciphertext that is opened makes no file but the one that is drawn for it. -/
theorem get?_decrypt {folder ciphertext : Path} {metadata : Metadata}
    (h : ∀ n, path ≠ folder ++ "/" ++ Files.drawnName n "plaintext") (hn : files.get? path = none) :
    (Work.decrypt folder metadata files ciphertext).2.get? path = none := by
  unfold Work.decrypt
  cases hm : files.makeFolder folder with
  | error failure => exact hn
  | ok made =>
    have hmade : made.draw.get? path = none := (Files.get?_of_makeFolder hm path).trans hn
    have ho : (Envelope.openFile made.draw ciphertext metadata.key metadata.digest
        (metadata.plaintextLength.map UInt32.toNat) (made.nextPath folder "plaintext")).2.get? path = none :=
      (Envelope.get?_openFile (h made.drawn)).trans hmade
    revert ho
    dsimp only
    generalize Envelope.openFile made.draw ciphertext metadata.key metadata.digest
      (metadata.plaintextLength.map UInt32.toNat) (made.nextPath folder "plaintext") = opened
    obtain ⟨(failure | _) | count, left⟩ := opened <;> intro ho
    · exact Files.get?_erase_eq_none _ ho
    · exact ho
    · exact Files.get?_erase_eq_none _ ho

/-! ### Calls of one run -/

theorem Step.apart (h : Step c action d) (ha : d.Apart) : c.Apart := by
  intro i j x y hx hy hij
  obtain ⟨sx, hdx, -⟩ := h.call hx
  obtain ⟨sy, hdy, -⟩ := h.call hy
  have hxy := ha i j _ _ hdx hdy hij
  exact hxy

theorem apart_of_run (hr : c.run? actions = some d) (ha : d.Apart) : c.Apart := by
  induction actions generalizing c with
  | nil =>
    cases hr
    exact ha
  | cons action rest ih =>
    obtain ⟨e, he, hr⟩ := Option.bind_eq_some_iff.mp hr
    exact (step_of_step? he).apart (ih hr)

theorem Step.call_back (h : Step c action d) (hi : i < c.calls.length) (hy : d.calls[i]? = some y) :
    ∃ x, c.calls[i]? = some x ∧ y.ciphertext = x.ciphertext := by
  have hx := List.getElem?_eq_getElem hi
  obtain ⟨stage, hd, -⟩ := h.call hx
  rw [hy] at hd
  cases hd
  exact ⟨_, hx, rfl⟩

theorem Told.lt_of_failing (h : c.Told log) (hf : c.Failing i) : i < c.calls.length := by
  refine Nat.lt_of_not_le fun hle => ?_
  rcases hf with ⟨job, failure, hw, rfl⟩ | ⟨failure, hr⟩
  · obtain ⟨x, hx, -⟩ := h.own job (List.mem_append_left _ (by rw [hw]; exact List.mem_singleton_self _))
    rw [List.getElem?_eq_none hle] at hx
    cases hx
  · rw [(h.absent i hle).1] at hr
    cases hr

/-- A call to which a failure has come has no job any more. -/
theorem Told.gone_of_arrived {result : Except Failure Product} (h : c.Told log)
    (hr : c.pipeline.reply? i = some (.arrived result)) : c.pipeline.place i = .gone := by
  cases hx : c.calls[i]? with
  | none => exact h.gone_of_absent (List.getElem?_eq_none_iff.mp hx)
  | some x =>
    have ht := h.tells i x hx
    rw [hr] at ht
    cases hs : x.stage with
    | fresh | ready | refused | ended =>
      rw [hs] at ht
      exact ht.1
    | waiting =>
      rw [hs] at ht
      obtain ⟨rest, -, -, hp, -⟩ := ht
      exact hp
    | abandoned =>
      rw [hs] at ht
      cases ht.1

/-! ### The steps -/

/-- A step after which no failure is on its way that was not before. -/
theorem Cleared.keep (h : c.Cleared log) (ht : c.Told log) (hs : Step c action d)
    (hf : ∀ i, d.Failing i → c.Failing i)
    (hfiles : ∀ i (x : Call), c.calls[i]? = some x → c.Failing i → c.shared.files.get? x.ciphertext = none →
      d.shared.files.get? x.ciphertext = none)
    (hl : ∀ i, d.pipeline.reply? i = some .lost →
      c.pipeline.reply? i = some .lost ∨ ∃ mark ∈ story i (c.mark? action).toList, mark.isBreak = true) :
    d.Cleared (log ++ (c.mark? action).toList) where
  removed i y hy hi := by
    have hi := hf i hi
    obtain ⟨x, hx, he⟩ := hs.call_back (ht.lt_of_failing hi) hy
    rw [he]
    exact hfiles i x hx hi (h.removed i x hx hi)
  lost i hr := by
    simp only [story_append, List.mem_append, or_and_right, exists_or]
    exact (hl i hr).imp_left (h.lost i)

/-- A work that is done leaves the ciphertexts of the other calls removed. -/
theorem get?_work_eq_none {job : Job} (ht : c.Told log) (ha : c.Apart) (hw : c.pipeline.worker = .operating job)
    (hx : c.calls[i]? = some x) (hf : c.Failing i) (hn : c.shared.files.get? x.ciphertext = none) :
    (job.work c.shared.files job.ciphertext).2.get? x.ciphertext = none := by
  have hjob : c.pipeline.worker.job? = some job := by
    rw [hw]
    rfl
  obtain ⟨y, hy, he⟩ := ht.own job (List.mem_append_left _ (Option.mem_toList.mpr hjob))
  have hne : i ≠ job.call := by
    rintro rfl
    rcases hf with ⟨other, failure, hc, -⟩ | ⟨failure, hr⟩
    · rw [hw] at hc
      cases hc
    · have hg := ht.gone_of_arrived hr
      rw [place_hand hjob] at hg
      cases hg
  have hwork := (ha i job.call x y hx hy hne).2 _ hn
  rw [he]
  exact hwork

/-- A job that breaks off brings its call no failure, but the lack of a reply. -/
theorem Cleared.breakOff {q : Pipeline} {s : Shared} {job : Job} {mark : Mark} (h : c.Cleared log) (ht : c.Told log)
    (hs : Step c action { c with pipeline := q.breakOff job.call, shared := s })
    (hq : q.replies = c.pipeline.replies) (hw : ∀ other failure, q.worker = .cleared other (.error failure) →
      c.pipeline.worker = .cleared other (.error failure))
    (hf : ∀ i (x : Call), c.calls[i]? = some x → c.Failing i → c.shared.files.get? x.ciphertext = none →
      s.files.get? x.ciphertext = none)
    (hm : c.mark? action = some (job.call, mark)) (hb : mark.isBreak = true) :
    { c with pipeline := q.breakOff job.call, shared := s }.Cleared (log ++ (c.mark? action).toList) := by
  have hreply : ∀ i, (q.breakOff job.call).reply? i =
      if i = job.call then (c.pipeline.reply? i).map fun _ => .lost else c.pipeline.reply? i := by
    intro i
    rw [reply?_breakOff, show q.reply? i = c.pipeline.reply? i from congrArg (·.lookup i) hq]
  refine h.keep ht hs (fun i hi => ?_) hf fun i hr => ?_
  · rcases hi with ⟨other, failure, hc, hi⟩ | ⟨failure, hr⟩
    · rw [(breakOff_eq q job.call).2] at hc
      exact Or.inl ⟨other, failure, hw other failure hc, hi⟩
    · have hr := (hreply i).symm.trans hr
      split at hr
      · obtain ⟨reply, -, he⟩ := Option.map_eq_some_iff.mp hr
        cases he
      · exact Or.inr ⟨failure, hr⟩
  · have hr := (hreply i).symm.trans hr
    split at hr
    · rename_i hi
      refine Or.inr ⟨mark, ?_, hb⟩
      rw [hm, hi]
      exact mem_story.mpr List.mem_cons_self
    · exact Or.inl hr

/-- The ciphertext of a job that has failed is removed before anyone is told. -/
theorem Cleared.clear {job : Job} {failure : Failure} (h : c.Cleared log) (ht : c.Told log)
    (hw : c.pipeline.worker = .announced job (.error failure)) (more : List (Nat × Mark)) :
    { c with
      pipeline := { c.pipeline with worker := .cleared job (.error failure) }
      shared := c.shared.erase job.ciphertext }.Cleared (log ++ more) := by
  have hjob : c.pipeline.worker.job? = some job := by
    rw [hw]
    rfl
  refine ⟨fun i y hy hi => ?_, fun i hr => ?_⟩
  · rcases hi with ⟨other, other', hc, rfl⟩ | ⟨failure', hr⟩
    · cases hc
      obtain ⟨x, hx, he⟩ := ht.own job (List.mem_append_left _ (Option.mem_toList.mpr hjob))
      have hy : c.calls[job.call]? = some y := hy
      rw [hx] at hy
      cases hy
      have hp : job.ciphertext = y.ciphertext := congrArg Job.ciphertext he
      rw [← hp]
      exact Files.get?_erase c.shared.files job.ciphertext
    · exact Files.get?_erase_eq_none _ (h.removed i y hy (Or.inr ⟨failure', hr⟩))
  · obtain ⟨mark, hm, hb⟩ := h.lost i hr
    rw [story_append]
    exact ⟨mark, List.mem_append_left _ hm, hb⟩

/-- A failure that comes to a call has been on its way to it. -/
theorem Cleared.reply {job : Job} {result : Except Failure Product} (h : c.Cleared log) (ht : c.Told log)
    (hw : c.pipeline.worker = .cleared job result)
    (hd : d = { c with
      pipeline := ({ c.pipeline with worker := .idle }.send c.shared job.call result).1
      shared := ({ c.pipeline with worker := .idle }.send c.shared job.call result).2 }) (hs : Step c .work d) :
    d.Cleared (log ++ (c.mark? .work).toList) := by
  subst hd
  have hreply := reply?_send { c.pipeline with worker := .idle } c.shared job.call
  refine h.keep ht hs (fun i hi => ?_) (fun i x hx hi hn => ?_) fun i hr => ?_
  · rcases hi with ⟨other, failure, hc, -⟩ | ⟨failure, hr⟩
    · rw [(send_eq _ _ _ _).2.1] at hc
      cases hc
    · have hr := (hreply i result).symm.trans hr
      split at hr
      · rename_i hi
        obtain ⟨reply, -, he⟩ := Option.map_eq_some_iff.mp hr
        cases he
        exact Or.inl ⟨job, failure, hw, hi.symm⟩
      · exact Or.inr ⟨failure, hr⟩
  · unfold send
    split
    · exact hn
    · split
      · exact Files.get?_erase_eq_none _ hn
      · exact hn
  · have hr := (hreply i result).symm.trans hr
    split at hr
    · obtain ⟨reply, -, he⟩ := Option.map_eq_some_iff.mp hr
      cases he
    · exact Or.inl hr

theorem Cleared.step_work {p : Pipeline} {s : Shared} (h : c.Cleared log) (ht : c.Told log) (ha : c.Apart)
    (hb : c.gone = true → c.pipeline.worker ≠ .idle) (hs : Pipeline.Step c.isCancelledAt c.pipeline c.shared p s) :
    { c with pipeline := p, shared := s }.Cleared (log ++ (c.mark? .work).toList) := by
  have hstep := Step.work hb hs
  cases hs with
  | take | begin | skip | announce | keep =>
    refine h.keep ht hstep (fun i hi => ?_) (fun _ _ _ _ hn => hn) fun i hr => Or.inl hr
    rcases hi with ⟨job, failure, hw, -⟩ | hi
    · cases hw
    · exact Or.inr hi
  | operate hw ho =>
    refine h.keep ht hstep (fun i hi => ?_) (fun i x hx hi hn => ?_) fun i hr => Or.inl hr
    · rcases hi with ⟨job, failure, hw, -⟩ | hi
      · cases hw
      · exact Or.inr hi
    · have hwork := get?_work_eq_none ht ha hw hx hi hn
      rwa [ho] at hwork
  | @crash job files hw ho =>
    have hm : c.mark? .work = some (job.call, .finished .crashed) := by simp [mark?, hw, ho]
    refine h.breakOff ht hstep rfl (fun _ _ hw => by cases hw) (fun i x hx hi hn => ?_) hm rfl
    have hwork := get?_work_eq_none ht ha hw hx hi hn
    rwa [ho] at hwork
  | clear hw => exact h.clear ht hw _
  | reply hw => exact h.reply ht hw rfl hstep

/-- A step that leaves the files and the worker alone, and brings no reply. -/
theorem Cleared.quiet (h : c.Cleared log) (ht : c.Told log) (hs : Step c action d)
    (hw : d.pipeline.worker = c.pipeline.worker) (hf : d.shared.files = c.shared.files)
    (hr : ∀ i reply, d.pipeline.reply? i = some reply → c.pipeline.reply? i = some reply ∨ reply = .expected) :
    d.Cleared (log ++ (c.mark? action).toList) := by
  refine h.keep ht hs (fun i hi => ?_) (fun i x hx _ hn => hf ▸ hn) fun i hl => ?_
  · rcases hi with hi | ⟨failure, hi⟩
    · exact Or.inl (hw ▸ hi)
    · rcases hr i _ hi with hi | hi
      · exact Or.inr ⟨failure, hi⟩
      · cases hi
  · rcases hr i _ hl with hl | hl
    · exact Or.inl hl
    · cases hl

theorem reply?_of_hangUp {p : Pipeline} {reply : Reply} (h : (p.hangUp j).reply? i = some reply) :
    p.reply? i = some reply := by
  by_cases hi : i = j
  · rw [hi, reply?_hangUp] at h
    cases h
  · rwa [reply?_hangUp_of_ne hi] at h

theorem Cleared.enter {content : Option Octets} (h : c.Cleared log) (ht : c.Told log)
    (ha : (c.enter x content).Apart) : (c.enter x content).Cleared log := by
  refine ⟨fun i y hy hi => ?_, h.lost⟩
  have hlt := ht.lt_of_failing (c := c) hi
  have hy : (c.calls ++ [x])[i]? = some y := hy
  have hold : c.calls[i]? = some y := (List.getElem?_append_left hlt).symm.trans hy
  have hn := h.removed i y hold hi
  have hx : (c.calls ++ [x])[c.calls.length]? = some x := by simp
  cases content with
  | none => exact hn
  | some bytes =>
    have hne := (ha i c.calls.length y x hy hx (Nat.ne_of_lt hlt)).1
    exact (Files.get?_write_of_ne c.shared.files bytes hne).trans hn

theorem Step.cleared (hs : Step c action d) (ht : c.Told log) (ha : d.Apart) (h : c.Cleared log) :
    d.Cleared (log ++ (c.mark? action).toList) := by
  have hc := hs.apart ha
  have hstep := hs
  cases hs with
  | enter =>
    rw [show (c.mark? _).toList = [] from rfl, List.append_nil]
    exact h.enter ht ha
  | cancel | look | drop | flee | close => exact h.quiet ht hstep rfl rfl fun _ _ hr => Or.inl hr
  | @push i x hx hst =>
    refine h.quiet ht hstep rfl rfl fun j reply hr => ?_
    by_cases hj : j = i
    · subst hj
      have hn : (c.pipeline.push (x.job j)).reply? j = some .expected := reply?_setReply ..
      exact Or.inr (Option.some.inj (hr.symm.trans hn))
    · exact Or.inl ((reply?_setReply_of_ne _ hj).symm.trans hr)
  | clear | turn =>
    exact h.keep ht hstep (fun _ hi => hi) (fun _ _ _ _ hn => Files.get?_erase_eq_none _ hn) fun _ hr => Or.inl hr
  | collect hx hst hr =>
    obtain ⟨rfl, -⟩ := eq_of_collect? hr
    exact h.quiet ht hstep rfl rfl fun _ _ hr => Or.inl (reply?_of_hangUp hr)
  | hangUp => exact h.quiet ht hstep rfl rfl fun _ _ hr => Or.inl (reply?_of_hangUp hr)
  | work hb hs => exact h.step_work ht hc hb hs
  | @lose job rest _ hq =>
    have hm : c.mark? .lose = some (job.call, .lost) := by simp [mark?, hq]
    exact h.breakOff ht hstep rfl (fun _ _ hw => hw) (fun _ _ _ _ hn => hn) hm rfl
  | @miss job start _ hw =>
    have hm : c.mark? .miss = some (job.call, .missed (!start)) := by simp [mark?, hw]
    exact h.breakOff ht hstep rfl (fun _ _ hw => by cases hw) (fun _ _ _ _ hn => hn) hm rfl

theorem cleared_run (ht : c.Told log) (h : c.Cleared log) (hr : c.run? actions = some d) (ha : d.Apart) :
    d.Cleared (log ++ c.log actions) := by
  induction actions generalizing c log with
  | nil =>
    cases hr
    simpa [Calls.log] using h
  | cons action rest ih =>
    obtain ⟨e, he, hr⟩ := Option.bind_eq_some_iff.mp hr
    have hs := step_of_step? he
    have hd := ih (hs.told ht) (hs.cleared ht (apart_of_run hr ha) h) hr
    rwa [log_cons he, ← List.append_assoc]

/-! ### Failures -/

theorem eq_of_move {stage : Stage} {failure : Failure} (hx : c.calls[i]? = some x) (hn : x.result? = none)
    (hy : (c.calls.set j { y with stage })[i]? = some x') (he : x'.result? = some (.error failure)) :
    i = j ∧ x' = { y with stage } := by
  by_cases hij : j = i
  · subst hij
    rw [List.getElem?_set_self (List.getElem?_eq_some_iff.mp hx).1] at hy
    exact ⟨rfl, (Option.some.inj hy).symm⟩
  · rw [List.getElem?_set_ne hij, hx] at hy
    cases hy
    rw [hn] at he
    cases he

/-- A call fails as it is refused, or with what has come for it. -/
theorem Step.failed {failure : Failure} (h : Step c action d) (hx : c.calls[i]? = some x) (hn : x.result? = none)
    (hy : d.calls[i]? = some y) (he : y.result? = some (.error failure)) :
    d.shared.files.get? y.ciphertext = none ∨ d.shared = c.shared ∧ y.ciphertext = x.ciphertext ∧
      (c.pipeline.reply? i = some (.arrived (.error failure)) ∨ c.pipeline.reply? i = some .lost) := by
  have hsame : ∀ {z : Call}, c.calls[i]? = some z → z.result? = some (.error failure) → False := by
    intro z hz hr
    rw [hx] at hz
    cases hz
    rw [hn] at hr
    cases hr
  cases h with
  | enter =>
    have hold := (List.getElem?_append_left (List.getElem?_eq_some_iff.mp hx).1).symm.trans hy
    exact (hsame hold he).elim
  | cancel | work | close | lose | miss => exact (hsame hy he).elim
  | @look j z =>
    obtain ⟨-, rfl⟩ := eq_of_move hx hn hy he
    cases hz : c.isCancelled z <;> rw [hz] at he <;> cases he
  | push | drop | flee | hangUp =>
    obtain ⟨-, rfl⟩ := eq_of_move hx hn hy he
    cases he
  | @clear j z | @turn j z =>
    obtain ⟨-, rfl⟩ := eq_of_move hx hn hy he
    exact Or.inl (Files.get?_erase c.shared.files z.ciphertext)
  | @collect j z result p hz hs hr =>
    obtain ⟨rfl, rfl⟩ := eq_of_move hx hn hy he
    rw [hx] at hz
    cases hz
    obtain rfl : result = .error failure := Option.some.inj he
    obtain ⟨-, hr | ⟨hr, -⟩⟩ := eq_of_collect? hr
    · exact Or.inr ⟨rfl, rfl, Or.inl hr⟩
    · exact Or.inr ⟨rfl, rfl, Or.inr hr⟩

/-- When a call fails, its ciphertext is not there: it was refused, turned away or skipped, or its work has returned the
    failure. Only a job that has broken off, for its work has crashed or the worker is gone, is no such case. -/
theorem removed_before_failure {failure : Failure} (hr : (start shared).run? actions = some c)
    (hs : c.step? action = some d) (ha : d.Apart) (hx : c.calls[i]? = some x) (hn : x.result? = none)
    (hy : d.calls[i]? = some y) (he : y.result? = some (.error failure))
    (hb : ∀ mark ∈ story i ((start shared).log actions), mark.isBreak = false) :
    d.shared.files.get? y.ciphertext = none := by
  have hstep := step_of_step? hs
  have h0 : (start shared).Cleared [] := by
    refine ⟨fun i x hx => ?_, fun i hr => ?_⟩
    · cases hx
    · cases hr
  have h := cleared_run (told_start shared) h0 hr (hstep.apart ha)
  rw [List.nil_append] at h
  rcases hstep.failed hx hn hy he with hf | ⟨hf, hp, hr | hr⟩
  · exact hf
  · rw [hf, hp]
    exact h.removed i x hx (Or.inr ⟨failure, hr⟩)
  · obtain ⟨mark, hm, hbreak⟩ := h.lost i hr
    cases hbreak.symm.trans (hb mark hm)

/-- An attachment is found bad while another one waits to be opened. -/
theorem removed_before_failure_rejected :
    let metadata : Metadata := ⟨"image/png", 2, "k", ⟨List.replicate 64 0, rfl⟩, none, none⟩
    let reject : Work := .validate .rejecting metadata
    let shared : Shared := ⟨.empty, ⟨16, []⟩⟩
    let actions : List Action := [.enter ⟨1⟩ "a" reject none (some [120]),
      .enter ⟨2⟩ "b" (.decrypt "out" metadata) none (some [120]), .begin 0, .push 0, .work, .work, .work, .work, .work, .work]
    ∃ c d y, (start shared).run? actions = some c ∧ c.step? (.collect 0) = some d ∧ d.calls[0]? = some y ∧
      y.result? = some (.error (.validation "rejected image/png")) ∧ d.shared.files.get? y.ciphertext = none := by
  intro metadata reject shared actions
  have hr : ∃ c d x y, (start shared).run? actions = some c ∧ c.step? (.collect 0) = some d ∧
      c.calls[0]? = some x ∧ x.result? = none ∧ y.result? = some (.error (.validation "rejected image/png")) ∧
      d.calls = [y, ⟨⟨2⟩, "b", .decrypt "out" metadata, none, .fresh⟩] ∧ y.ciphertext = "a" ∧ y.work = reject :=
    ⟨_, _, _, _, rfl, rfl, rfl, rfl, rfl, rfl, rfl, rfl⟩
  obtain ⟨c, d, x, y, hr, hs, hx, hn, he, hd, hp, hw⟩ := hr
  have hdraw : ∀ n, "a" ≠ "out" ++ "/" ++ Files.drawnName n "plaintext" := by
    intro n h
    simpa using congrArg (·.toList.head?) h
  have ha : d.Apart := by
    intro i j u v hu hv hij
    rw [hd] at hu hv
    rcases i with _ | _ | i <;> rcases j with _ | _ | j <;> cases hu <;> cases hv
    · exact absurd rfl hij
    · rw [hp]
      exact ⟨by decide, fun files hf => get?_decrypt hdraw hf⟩
    · rw [hp, hw]
      exact ⟨by decide, fun _ hf => hf⟩
    · exact absurd rfl hij
  have hy : d.calls[0]? = some y := by
    rw [hd]
    rfl
  have hl : story 0 ((start shared).log actions) = [.looked false, .queued, .taken false, .began,
      .finished (.returned (.error (.validation ("rejected " ++ metadata.mimeType))))] := rfl
  have hb : ∀ mark ∈ story 0 ((start shared).log actions), mark.isBreak = false := by
    rw [hl]
    simp
  exact ⟨c, d, y, hr, hs, hy, he, removed_before_failure hr hs ha hx hn hy he hb⟩

/-- A call fails and leaves its ciphertext behind: its work crashes, or the worker goes while its job is in line. -/
theorem break_keeps_ciphertext :
    let crash : Work := fun files _ => (.crashed, files)
    let handed : List Action := [.enter ⟨1⟩ "a" crash none (some [120]), .begin 0, .push 0]
    ∀ rest ∈ [[.work, .work, .work, .collect 0], [.close, .lose, .collect 0]],
      ((start ⟨.empty, ⟨16, []⟩⟩).run? (handed ++ rest)).map (fun c =>
          (c.calls.map Call.result?, c.shared.files.get? "a")) =
        some ([some (.error .shuttingDown)], some [120]) := by
  intro crash handed rest hr
  rcases List.mem_pair.mp hr with rfl | rfl
  · rfl
  · rfl

end Calls
end SealedDownload.Pipeline
