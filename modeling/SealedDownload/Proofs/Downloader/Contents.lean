import SealedDownload.Proofs.Downloader.Handing

/-! Which files there are for a download, and what is in them. A ciphertext that the transport has handed over is there
    as it came as long as the transfer, the download or its job has it, and is gone after that; the product of the job
    holds the plaintext of the last one until its caller has it. Files of different downloads never meet, because every
    ciphertext has a path of its own and every path is drawn once. -/

namespace SealedDownload.Downloader

open Files (drawnPath)

variable {d₀ d d' : Downloader} {action : Action} {actions : List Action} {i j : Nat} {x : Download} {path : Path}
  {bytes : Octets} {policy : RetryPolicy} {lost : List Nat}

/-! ### Where the files of a download are -/

/-- Nothing is left of what has been handed over. -/
def Bare (files : Files) (given : List (Path × Octets)) : Prop := ∀ entry ∈ given, files.get? entry.1 = none

/-- The last file that has been handed over is there as it came, and nothing is left of the others. -/
structure Held (files : Files) (given : List (Path × Octets)) (path : Path) (bytes : Octets) : Prop where
  last : given.getLast? = some (path, bytes)
  others : Bare files given.dropLast
  there : files.get? path = some bytes

/-- A product is the plaintext of the last ciphertext that has been handed over, and nothing is left of that and of
    the others. -/
structure Whole (files : Files) (given : List (Path × Octets)) (request : Request) (limit : Nat) (product : Product)
    (metadata : Metadata) (path : Path) (bytes plain : Octets) : Prop where
  described : request.metadata? = some metadata
  last : given.getLast? = some (path, bytes)
  small : bytes.length ≤ limit
  opened : Envelope.openWith metadata.key metadata.digest (metadata.plaintextLength.map UInt32.toNat) bytes = .ok plain
  filled : request.kind = .attachment → plain ≠ []
  shaped : product = request.product product.path plain.length
  stored : files.get? product.path = some plain
  bare : Bare files given

/-- A product belongs to a download alone: its path has been drawn, and the worker has no other product there. -/
structure Owned (d : Downloader) (i : Nat) (product : Product) : Prop where
  drawn : ∃ folder n, product.path = drawnPath folder n ∧ n < d.shared.files.drawn
  apart : ∀ job other, d.pipeline.Carries job other → job.call ≠ i → other.path ≠ product.path

/-- What the result of a job means for the files, where `gone` is what must not be left of the ciphertexts if it is a
    failure. -/
def Leaves (d : Downloader) (i : Nat) (request : Request) (limit : Nat) (given gone : List (Path × Octets))
    (made : List Path) : Except Failure Product → Prop
  | .ok product => d.Owned i product ∧
      ∃ metadata path bytes plain, Whole d.shared.files given request limit product metadata path bytes plain
  | .error _ => made = [] ∧ Bare d.shared.files gone

/-- The ciphertext of a download is there and small enough, and nothing has been made of it. -/
def Uncut (files : Files) (limit : Nat) (given : List (Path × Octets)) (made : List Path) : Prop :=
  made = [] ∧ ∃ path bytes, Held files given path bytes ∧ bytes.length ≤ limit

/-- The files of a download with a job, which depend on where its job and the reply to it are. -/
def Works (d : Downloader) (i : Nat) (request : Request) (limit : Nat) (given : List (Path × Octets))
    (made : List Path) : Pipeline.Place → Option Reply → Prop
  | .line, _ => Uncut d.shared.files limit given made
  | .hand (.decided ..), _ => Uncut d.shared.files limit given made
  | .hand (.operating _), _ => Uncut d.shared.files limit given made
  | .hand (.operated _ result), _ => d.Leaves i request limit given given.dropLast made result
  | .hand (.announced _ result), _ => d.Leaves i request limit given given.dropLast made result
  | .hand (.cleared _ result), _ => d.Leaves i request limit given given made result
  | .gone, some (.arrived result) => d.Leaves i request limit given given made result
  | _, _ => False

/-- The files of a download, which depend on where it is; `opened` tells whether its ciphertext is opened, and `ended`
    whether its transfer has come to an end. -/
def Stands (d : Downloader) (i : Nat) (x : Download) (opened ended : Prop) (given : List (Path × Octets))
    (made : List Path) : Prop :=
  match x.phase with
  | .transferring t => made = [] ∧
      ((∃ path bytes, t.Has path ∧ Held d.shared.files given path bytes ∧
          (t.phase = .ended (.ok path) → bytes.length ≤ x.limit)) ∨
        (∀ path, ¬t.Has path) ∧ Bare d.shared.files given)
  | .transferred path => made = [] ∧ ∃ bytes, Held d.shared.files given path bytes ∧ bytes.length ≤ x.limit
  | .opening => opened → d.Works i x.request x.limit given made (d.pipeline.place i) (d.pipeline.reply? i)
  | .over (.ok (.opened product)) => opened → d.Leaves i x.request x.limit given given made (.ok product)
  | .over (.ok (.ciphertext _)) => ¬opened
  | .over (.error failure) => opened → ended ∧ d.Leaves i x.request x.limit given given made (.error failure)
  | .dropped => True
  | _ => made = [] ∧ Bare d.shared.files given

/-- What is known of the files of the downloads after a run. -/
structure Filed (d₀ : Downloader) (actions : List Action) (d : Downloader) : Prop where
  absent : ∀ i, d.downloads.length ≤ i → handedTo i actions = [] ∧ d₀.written i actions = []
  works : d.workFor = d₀.workFor
  job : ∀ job ∈ d.pipeline.jobs, ∃ x bytes, d.downloads[job.call]? = some x ∧ d₀.workFor x.request = some job.work ∧
    (handedTo job.call actions).getLast? = some (job.ciphertext, bytes)
  carried : ∀ job product, d.pipeline.Carries job product →
    product.path = job.ciphertext ∨ ∃ folder n, product.path = drawnPath folder n
  stands : ∀ i (x : Download), d.downloads[i]? = some x → d.Stands i x (x.request.IsOpened d₀.validator)
    (d₀.inputs i actions = [] ∨ ∃ result, ((x.transfer d₀.retry).run (d₀.inputs i actions)).1.result? = some result)
    (handedTo i actions) (d₀.written i actions)

/-! ### What is left of ciphertexts -/

theorem Bare.erase {files : Files} {given : List (Path × Octets)} (h : Bare files given) (path : Path) :
    Bare (files.erase path) given := fun entry he => Files.get?_erase_eq_none path (h entry he)

theorem bare_of_last {files : Files} {given : List (Path × Octets)} (hl : given.getLast? = some (path, bytes))
    (ho : Bare files given.dropLast) (hn : files.get? path = none) : Bare files given := by
  intro entry he
  rw [← List.dropLast_append_getLast? _ hl] at he
  rcases List.mem_append.mp he with he | he
  · exact ho entry he
  · obtain rfl := List.mem_singleton.mp he
    exact hn

theorem bare_erase_last {files : Files} {given : List (Path × Octets)} (hl : given.getLast? = some (path, bytes))
    (ho : Bare files given.dropLast) : Bare (files.erase path) given :=
  bare_of_last hl (ho.erase path) (Files.get?_erase ..)

/-! ### Steps of others -/

theorem Bare.congr {files files' : Files} {given : List (Path × Octets)} (h : Bare files given)
    (hs : ∀ entry ∈ given, files'.get? entry.1 = files.get? entry.1) : Bare files' given := by
  intro entry hm
  rw [hs entry hm]
  exact h entry hm

theorem Held.congr {files files' : Files} {given : List (Path × Octets)} (h : Held files given path bytes)
    (hs : ∀ entry ∈ given, files'.get? entry.1 = files.get? entry.1) : Held files' given path bytes where
  last := h.last
  others := h.others.congr fun entry hm => hs entry (List.dropLast_subset _ hm)
  there := (hs _ (List.mem_of_getLast? h.last)).trans h.there

theorem Leaves.congr {request : Request} {limit : Nat} {given gone : List (Path × Octets)} {made : List Path}
    {result : Except Failure Product} (h : d.Leaves i request limit given gone made result)
    (hs : ∀ entry ∈ given, d'.shared.files.get? entry.1 = d.shared.files.get? entry.1) (hg : gone ⊆ given)
    (ho : ∀ product, d.Owned i product →
      d'.Owned i product ∧ d'.shared.files.get? product.path = d.shared.files.get? product.path) :
    d'.Leaves i request limit given gone made result := by
  cases result with
  | error failure => exact ⟨h.1, h.2.congr fun entry hm => hs entry (hg hm)⟩
  | ok product =>
    obtain ⟨hown, metadata, path, bytes, plain, hw⟩ := h
    obtain ⟨hown', hsame⟩ := ho product hown
    exact ⟨hown', metadata, path, bytes, plain,
      { hw with stored := hsame.trans hw.stored, bare := hw.bare.congr hs }⟩

theorem Uncut.congr {files files' : Files} {limit : Nat} {given : List (Path × Octets)} {made : List Path}
    (h : Uncut files limit given made) (hs : ∀ entry ∈ given, files'.get? entry.1 = files.get? entry.1) :
    Uncut files' limit given made := by
  obtain ⟨hm, path, bytes, hh, hl⟩ := h
  exact ⟨hm, path, bytes, hh.congr hs, hl⟩

theorem Stands.congr {x' : Download} {opened ended : Prop} {given : List (Path × Octets)} {made : List Path}
    (h : d.Stands i x opened ended given made) (hx : x.Continues x') (hp : x'.phase = x.phase) (hplace : d'.pipeline.place i = d.pipeline.place i)
    (hreply : d'.pipeline.reply? i = d.pipeline.reply? i)
    (hs : ∀ entry ∈ given, d'.shared.files.get? entry.1 = d.shared.files.get? entry.1)
    (ho : ∀ product, d.Owned i product →
      d'.Owned i product ∧ d'.shared.files.get? product.path = d.shared.files.get? product.path) :
    d'.Stands i x' opened ended given made := by
  have hdrop : given.dropLast ⊆ given := List.dropLast_subset given
  unfold Stands at h ⊢
  rw [hp, hx.request, hx.limit, hplace, hreply]
  split at h
  · obtain ⟨hm, ⟨path, bytes, hhas, hh, hl⟩ | ⟨hno, hb⟩⟩ := h
    · exact ⟨hm, Or.inl ⟨path, bytes, hhas, hh.congr hs, hl⟩⟩
    · exact ⟨hm, Or.inr ⟨hno, hb.congr hs⟩⟩
  · obtain ⟨hm, bytes, hh, hl⟩ := h
    exact ⟨hm, bytes, hh.congr hs, hl⟩
  · intro hk
    have hw := h hk
    unfold Works at hw ⊢
    split at hw
    · exact hw.congr hs
    · exact hw.congr hs
    · exact hw.congr hs
    · exact hw.congr hs hdrop ho
    · exact hw.congr hs hdrop ho
    · exact hw.congr hs (List.Subset.refl given) ho
    · exact hw.congr hs (List.Subset.refl given) ho
    · exact hw
  · exact fun hk => (h hk).congr hs (List.Subset.refl given) ho
  · exact h
  · exact fun hk => ⟨(h hk).1, (h hk).2.congr hs (List.Subset.refl given) ho⟩
  · exact h
  · exact ⟨h.1, h.2.congr hs⟩

/-- A path with which no other download has anything to do. -/
def Belongs (actions : List Action) (d : Downloader) (i : Nat) (path : Path) : Prop :=
  (∃ bytes, (path, bytes) ∈ handedTo i actions) ∨
    (∃ folder n, path = drawnPath folder n ∧ n < d.shared.files.drawn) ∧
      ∀ job product, d.pipeline.Carries job product → job.call ≠ i → product.path ≠ path

theorem Belongs.ne {other : Path} (hb : Belongs actions d i path) (hh : HandsOver (actions ++ [action]))
    (hm : (other, bytes) ∈ handedTo j (actions ++ [action])) (hij : i ≠ j) : path ≠ other := by
  rintro rfl
  rcases hb with ⟨own, ho⟩ | ⟨⟨folder, n, rfl, -⟩, -⟩
  · have ho' : (path, own) ∈ handedTo i (actions ++ [action]) := by
      rw [handedTo_append]
      exact List.mem_append_left _ ho
    exact hij (hh.unique ho' hm).1
  · exact hh.undrawn _ (mem_handedTo.mp hm) folder n rfl

theorem Filed.mem_of_has {t : Transfer} (hf : Filed d₀ actions d) (hd : d.downloads[i]? = some x)
    (hp : x.phase = .transferring t) (h : t.Has path) : ∃ bytes, (path, bytes) ∈ handedTo i actions := by
  have hs := hf.stands i x hd
  simp only [Stands, hp] at hs
  obtain ⟨-, ⟨file, bytes, hhas, hh, -⟩ | ⟨hno, -⟩⟩ := hs
  · cases h.unique hhas
    exact ⟨bytes, List.mem_of_getLast? hh.last⟩
  · exact absurd h (hno path)

theorem Filed.isGentle (hf : Filed d₀ actions d) (hg : d₀.IsGentle) {job : Job}
    (hw : d.pipeline.worker = .operating job) : job.work.IsGentle := by
  have hm : job ∈ d.pipeline.jobs := List.mem_append_left _ (by rw [hw]; exact List.mem_singleton_self _)
  obtain ⟨x, bytes, -, hwork, -⟩ := hf.job job hm
  exact hg x.request job.work hwork

theorem Filed.mem_of_job (hf : Filed d₀ actions d) {job : Job} (hm : job ∈ d.pipeline.jobs) (later : List Action) :
    ∃ bytes, (job.ciphertext, bytes) ∈ handedTo job.call (actions ++ later) := by
  obtain ⟨x, bytes, -, -, hl⟩ := hf.job job hm
  rw [handedTo_append]
  exact ⟨bytes, List.mem_append_left _ (List.mem_of_getLast? hl)⟩

/-- The step of another download, or of the worker with the job of another one, leaves the files of a download alone. -/
theorem Step.get?_eq (h : Step d action d') (hf : Filed d₀ actions d) (hg : d₀.IsGentle)
    (hh : HandsOver (actions ++ [action])) (ha : d.acts i action = false) (hb : Belongs actions d i path) :
    d'.shared.files.get? path = d.shared.files.get? path := by
  have hn : action.isAbout i = false := by
    cases action <;> first | rfl | exact ha
  cases h with
  | @feed j y t action input hd hp hi =>
    have hij : i ≠ j := (ne_of_isAbout hn (isAbout_of_input? hi)).symm
    have hs : (d.stored action).downloads[j]? = some y := getElem?_stored hd
    have hstored : (d.stored action).shared.files.get? path = d.shared.files.get? path := by
      refine get?_stored fun k bytes hk => ?_
      obtain ⟨draw, hk⟩ := eq_of_handed? hk
      obtain ⟨own, -, hm⟩ := hh.handed_of_settle hk
      have hkj : k = j := isAbout_unique (by rw [hk]; exact decide_eq_true rfl) (isAbout_of_input? hi)
      exact hb.ne hh hm (hkj ▸ hij) rfl
    refine ((feed_spec hs t input).kept path fun hm => ?_).trans hstored
    rcases ((Transfer.step_spec t input).removes hm).1 with hhas | hans
    · obtain ⟨bytes, hown⟩ := hf.mem_of_has hd hp hhas
      have hown' : (path, bytes) ∈ handedTo j (actions ++ [action]) := by
        rw [handedTo_append]
        exact List.mem_append_left _ hown
      exact hb.ne hh hown' hij rfl
    · obtain ⟨content, draw, hact⟩ := settle_of_answer? hd hp hi hans
      obtain ⟨bytes, -, hown⟩ := hh.handed_of_settle hact
      exact hb.ne hh hown hij rfl
  | @reject j y file work hd hp =>
    have hij : i ≠ j := (ne_of_isAbout hn (isAbout_advance j)).symm
    have hs := hf.stands j y hd
    simp only [Stands, hp] at hs
    obtain ⟨-, bytes, hheld, -⟩ := hs
    have hown : (file, bytes) ∈ handedTo j (actions ++ [.advance j]) := by
      rw [handedTo_append]
      exact List.mem_append_left _ (List.mem_of_getLast? hheld.last)
    exact Files.get?_erase_of_ne _ (hb.ne hh hown hij)
  | work hw =>
    -- The worker's job is that of another download, and so is its product.
    have hother : ∀ job, d.pipeline.worker.job? = some job → i ≠ job.call ∧ path ≠ job.ciphertext := by
      intro job hj
      have hhead := Pipeline.head?_jobs hj
      have hij : i ≠ job.call := by
        rintro rfl
        rw [acts, hhead] at ha
        exact absurd (decide_eq_true rfl) (Bool.eq_false_iff.mp ha)
      obtain ⟨bytes, hown⟩ := hf.mem_of_job (List.mem_of_head? hhead) [.work]
      exact ⟨hij, hb.ne hh hown hij⟩
    refine (Pipeline.step_of_step? hw).get?_eq (fun job hj => hf.isGentle hg hj) ?_
    refine ⟨fun job hj => (hother job hj).2.symm, fun folder n hn he => ?_, fun job product hc => Or.inr fun he => ?_⟩
    · rcases hb with ⟨bytes, hown⟩ | ⟨⟨other, m, rfl, hm⟩, -⟩
      · exact hh.earlier.undrawn _ (mem_handedTo.mp hown) folder n he
      · obtain rfl := Files.drawnPath_injective he
        omega
    · obtain ⟨hij, hne⟩ := hother job hc.job?
      rcases hb with ⟨bytes, hown⟩ | ⟨-, hcarry⟩
      · rcases hf.carried job product hc with hp | ⟨folder, n, hp⟩
        · exact hne (he.symm.trans hp)
        · exact hh.earlier.undrawn _ (mem_handedTo.mp hown) folder n (he.symm.trans hp)
      · exact hcarry job product hc hij.symm he
  | _ => rfl

theorem Step.drawn_le (h : Step d action d') (hf : Filed d₀ actions d) (hg : d₀.IsGentle) :
    d.shared.files.drawn ≤ d'.shared.files.drawn := by
  cases h with
  | feed =>
    refine Nat.le_of_eq (Eq.symm ((drawn_performAll ..).trans ?_))
    change (d.stored action).shared.files.drawn = d.shared.files.drawn
    unfold stored
    split <;> rfl
  | work hw => exact (Pipeline.step_of_step? hw).drawn_le fun job hj => hf.isGentle hg hj
  | _ => exact Nat.le_refl _

/-- A product that a work has just made is its ciphertext, or at a path that has not been drawn before. -/
theorem Filed.product_path (hf : Filed d₀ actions d) (hg : d₀.IsGentle) {job : Job} {product : Product} {files : Files}
    (hw : d.pipeline.worker = .operating job)
    (ho : job.work d.shared.files job.ciphertext = (.returned (.ok product), files)) :
    product.path = job.ciphertext ∨ ∃ folder n, d.shared.files.drawn ≤ n ∧ n < files.drawn ∧
      product.path = drawnPath folder n := by
  have hp := (hf.isGentle hg hw).product d.shared.files job.ciphertext product (by rw [ho])
  rwa [ho] at hp

/-- A product stays with its download. -/
theorem Owned.step {product : Product} (ho : d.Owned i product) (h : Step d action d') (hf : Filed d₀ actions d)
    (hg : d₀.IsGentle) (hh : HandsOver (actions ++ [action])) : d'.Owned i product := by
  obtain ⟨folder, n, hp, hn⟩ := ho.drawn
  refine ⟨⟨folder, n, hp, Nat.lt_of_lt_of_le hn (h.drawn_le hf hg)⟩, fun job other hc hj => ?_⟩
  rcases h.carries_cases hc with hc | ⟨rfl, hw, hwork⟩
  · exact ho.apart job other hc hj
  · rw [hp]
    have hm : job ∈ d.pipeline.jobs := List.mem_append_left _ (by rw [hw]; exact List.mem_singleton_self _)
    rcases hf.product_path hg hw hwork with he | ⟨folder', m, hm, -, he⟩ <;> rw [he]
    · obtain ⟨bytes, hown⟩ := hf.mem_of_job hm [.work]
      exact hh.undrawn _ (mem_handedTo.mp hown) folder n
    · intro heq
      obtain rfl := Files.drawnPath_injective heq
      omega

/-! ### The steps of a transfer -/

/-- A transfer that is given a file has it as it came, or has removed it at once. -/
theorem stands_given {t : Transfer} {input : Transfer.Input} {opened ended ended' : Prop} {made : List Path}
    (hh : HandsOver (actions ++ [action])) (hd : d.downloads[i]? = some x) (hp : x.phase = .transferring t)
    (hi : d.input? i action = some input) (hans : t.answer? input = some (.ok path))
    (hs : d.Stands i x opened ended (handedTo i actions) made) (tripped : Bool) :
    ((d.stored action).feed i x t input).Stands i { x with phase := .transferring (t.step input).1, tripped } opened
      ended' (handedTo i (actions ++ [action])) made := by
  have hstep := Transfer.step_spec t input
  have hd' : (d.stored action).downloads[i]? = some x := getElem?_stored hd
  have hfeed := feed_spec hd' t input
  obtain ⟨content, draw, hact⟩ := settle_of_answer? hd hp hi hans
  obtain ⟨bytes, hhanded, -⟩ := hh.handed_of_settle hact
  have hno : ∀ file, ¬t.Has file := by
    intro file hhas
    rw [hhas.answer?_eq_none] at hans
    cases hans
  simp only [Stands, hp] at hs ⊢
  obtain ⟨hm, ⟨file, -, hhas, -⟩ | ⟨-, hbare⟩⟩ := hs
  · exact absurd hhas (hno file)
  · rw [handedTo_append, handedTo_self hhanded]
    have hstored : (d.stored action).shared.files.get? path = some bytes := by
      obtain ⟨draw, rfl⟩ := eq_of_handed? hhanded
      exact Files.get?_write ..
    have hold : Bare ((d.stored action).feed i x t input).shared.files (handedTo i actions) := by
      intro entry he
      by_cases hr : .remove entry.1 ∈ (t.step input).2
      · exact hfeed.removed entry.1 hr
      · rw [hfeed.kept entry.1 hr]
        refine (get?_stored fun k own hk => ?_).trans (hbare entry he)
        exact hh.fresh hk he
    refine ⟨hm, ?_⟩
    by_cases hr : .remove path ∈ (t.step input).2
    · refine Or.inr ⟨(hstep.removes hr).2, bare_of_last List.getLast?_concat ?_ (hfeed.removed path hr)⟩
      rw [List.dropLast_concat]
      exact hold
    · refine Or.inl ⟨path, bytes, (hstep.given hans).resolve_right hr, ⟨List.getLast?_concat, ?_, ?_⟩, fun he => ?_⟩
      · rw [List.dropLast_concat]
        exact hold
      · exact (hfeed.kept path hr).trans hstored
      · rcases hstep.delivered he with ⟨hended, -⟩ | ⟨hmeasuring, -⟩
        · exact absurd (Or.inr hended) (hno path)
        · exact absurd (Or.inl hmeasuring) (hno path)

/-- A transfer that is given no file keeps the one it has, or removes it. -/
theorem stands_ungiven {t : Transfer} {input : Transfer.Input} {opened ended ended' : Prop} {made : List Path}
    (hlim : t.limit = x.limit) (hd : d.downloads[i]? = some x) (hp : x.phase = .transferring t)
    (hi : d.input? i action = some input) (hans : ∀ path, t.answer? input ≠ some (.ok path))
    (hs : d.Stands i x opened ended (handedTo i actions) made) (tripped : Bool) :
    ((d.stored action).feed i x t input).Stands i { x with phase := .transferring (t.step input).1, tripped } opened
      ended' (handedTo i (actions ++ [action])) made := by
  have hstep := Transfer.step_spec t input
  have hnone := handed?_eq_none hd hp hi hans
  rw [stored_of_handed? hnone, handedTo_append, handedTo_of_handed? hnone, List.append_nil]
  have hfeed := feed_spec hd t input
  have hbare : ∀ entry ∈ handedTo i actions, d.shared.files.get? entry.1 = none →
      (d.feed i x t input).shared.files.get? entry.1 = none := by
    intro entry _ hn
    by_cases hr : .remove entry.1 ∈ (t.step input).2
    · exact hfeed.removed entry.1 hr
    · exact (hfeed.kept entry.1 hr).trans hn
  simp only [Stands, hp] at hs ⊢
  obtain ⟨hm, ⟨path, bytes, hhas, hheld, hl⟩ | ⟨hno, hb⟩⟩ := hs
  · refine ⟨hm, ?_⟩
    have hothers : Bare (d.feed i x t input).shared.files (handedTo i actions).dropLast := fun entry he =>
      hbare entry (List.dropLast_subset _ he) (hheld.others entry he)
    by_cases hr : .remove path ∈ (t.step input).2
    · exact Or.inr ⟨(hstep.removes hr).2, bare_of_last hheld.last hothers (hfeed.removed path hr)⟩
    · have hhas' := (hstep.has hhas).resolve_right hr
      refine Or.inl ⟨path, bytes, hhas', ⟨hheld.last, hothers, (hfeed.kept path hr).trans hheld.there⟩, fun he => ?_⟩
      rcases hstep.delivered he with ⟨hended, -⟩ | ⟨hmeasuring, size, draw, hle, rfl, -⟩
      · exact hl hended
      · rw [input?_of_transferring hd hp (isAbout_of_input? hi), hmeasuring] at hi
        obtain ⟨-, hsize⟩ := offer?_measuring hi
        obtain ⟨found, hfound, rfl⟩ := sizeOf_eq_ok (Transfer.Input.measure.inj hsize).1.symm
        cases hheld.there.symm.trans hfound
        exact hlim ▸ hle
  · refine ⟨hm, Or.inr ⟨fun path hhas => ?_, fun entry he => hbare entry he (hb entry he)⟩⟩
    rcases hstep.has_cases hhas with hh | ha
    · exact hno path hh
    · exact hans path ha

/-! ### The steps of the worker -/

variable {job : Job} {p : Pipeline} {s : Shared} {given : List (Path × Octets)} {made : List Path}

/-- The work on the ciphertext of a download that is opened, and what it finds. -/
theorem exists_opening (hf : Filed d₀ actions d) (hh : HandsOver actions) (hm : job ∈ d.pipeline.jobs)
    (hd : d.downloads[job.call]? = some x) (hk : x.request.IsOpened d₀.validator)
    (hu : Uncut d.shared.files x.limit (handedTo job.call actions) made) :
    made = [] ∧ ∃ metadata folder mayBeEmpty bytes, x.request.metadata? = some metadata ∧
      job.work = Work.opening folder metadata mayBeEmpty x.request.product ∧
      (mayBeEmpty = true → x.request.kind ≠ .attachment) ∧
      Held d.shared.files (handedTo job.call actions) job.ciphertext bytes ∧ bytes.length ≤ x.limit ∧
      job.ciphertext ≠ drawnPath folder d.shared.files.drawn := by
  obtain ⟨y, own, hy, hwork, hlast⟩ := hf.job job hm
  cases hd.symm.trans hy
  obtain ⟨hmade, path, bytes, hheld, hsmall⟩ := hu
  cases hlast.symm.trans hheld.last
  obtain ⟨metadata, folder, mayBeEmpty, hmeta, hopening, hempty⟩ := workFor_of_isOpened hk hwork
  have hdrawn := hh.undrawn _ (mem_handedTo.mp (List.mem_of_getLast? hheld.last)) folder d.shared.files.drawn
  exact ⟨hmade, metadata, folder, mayBeEmpty, _, hmeta, hopening, hempty, hheld, hsmall, hdrawn⟩

/-- What the work on the ciphertext of a download that is opened comes to. -/
theorem leaves_of_work {result : Except Failure Product} {files : Files} (hf : Filed d₀ actions d)
    (hh : HandsOver actions) (hg : d₀.IsGentle) (hd : d.downloads[job.call]? = some x)
    (hk : x.request.IsOpened d₀.validator) (hw : d.pipeline.worker = .operating job)
    (ho : job.work d.shared.files job.ciphertext = (.returned result, files))
    (hu : Uncut d.shared.files x.limit (handedTo job.call actions) made) :
    { d with
      pipeline := { d.pipeline with worker := .operated job result }
      shared := { d.shared with files } : Downloader }.Leaves job.call x.request x.limit (handedTo job.call actions)
        (handedTo job.call actions).dropLast (made ++ Files.written d.shared.files files) result := by
  have hm : job ∈ d.pipeline.jobs := List.mem_append_left _ (by rw [hw]; exact List.mem_singleton_self _)
  obtain ⟨rfl, metadata, folder, mayBeEmpty, bytes, hmeta, hopening, hempty, hheld, hsmall, hdrawn⟩ :=
    exists_opening hf hh hm hd hk hu
  have hkeeps := (hf.isGentle hg hw).keeps d.shared.files job.ciphertext
  have hpresent := opening_of_present metadata mayBeEmpty x.request.product hheld.there hdrawn
  rw [ho] at hkeeps
  rw [← hopening, ho] at hpresent
  rcases hpresent with ⟨failure, hres, hleft⟩ | ⟨plain, hplain, hmay, hres, hout, hgone⟩
  · cases hres
    refine ⟨Files.written_eq_nil hleft, fun entry he => ?_⟩
    rcases hleft entry.1 with hsame | hnone
    · exact hsame.trans (hheld.others entry he)
    · exact hnone
  · cases hres
    have hpath := Request.path_product x.request (drawnPath folder d.shared.files.drawn) plain.length
    refine ⟨⟨?_, fun other product hc hne => ?_⟩, metadata, job.ciphertext, bytes, plain, ?_⟩
    · rcases hf.product_path hg hw ho with he | ⟨folder', n, -, hlt, he⟩
      · exact absurd (he.symm.trans hpath) hdrawn
      · exact ⟨folder', n, he, hlt⟩
    · rcases hc with hc | hc | hc <;> cases hc
      exact absurd rfl hne
    · refine ⟨hmeta, hheld.last, hsmall, hplain, fun hkind hnil => hempty (hmay hnil) hkind, by rw [hpath], ?_,
        bare_of_last hheld.last (fun entry he => ?_) hgone⟩
      · rw [hpath]
        exact hout
      · by_cases hc : entry.1 = job.ciphertext
        · rw [hc]
          exact hgone
        · have hown := mem_handedTo.mp (List.dropLast_subset _ he)
          exact (hkeeps entry.1 hc fun folder n _ => hh.undrawn _ hown folder n).trans (hheld.others entry he)

/-- A result keeps its meaning while it is passed on and the files stay as they are. -/
theorem Leaves.pass {request : Request} {limit : Nat} {result : Except Failure Product} {gone : List (Path × Octets)}
    (h : d.Leaves i request limit given gone made result) (hfiles : s.files = d.shared.files)
    (hp : ∀ job product, p.Carries job product → job.call = i) :
    { d with pipeline := p, shared := s : Downloader }.Leaves i request limit given gone made result := by
  cases result with
  | error failure => exact ⟨h.1, hfiles ▸ h.2⟩
  | ok product =>
    obtain ⟨hown, metadata, path, bytes, plain, hw⟩ := h
    obtain ⟨folder, n, he, hn⟩ := hown.drawn
    exact ⟨⟨⟨folder, n, he, hfiles ▸ hn⟩, fun job other hc hne => absurd (hp job other hc) hne⟩, metadata, path, bytes,
      plain, hfiles ▸ hw⟩

/-- A worker that passes its job on, and does not do it now. -/
theorem works_passed {request : Request} {limit : Nat} {w : Worker} (hj : d.pipeline.worker.job? = some job)
    (hn : ∀ other, d.pipeline.worker ≠ .operating other) (hw : w.job? = some job)
    (h : { d with pipeline := { d.pipeline with worker := w }, shared := s : Downloader }.Works job.call request limit
      given made (.hand w) (d.pipeline.reply? job.call)) :
    { d with pipeline := { d.pipeline with worker := w }, shared := s : Downloader }.Works job.call request limit given
      (made ++ d.writes job.call .work) ({ d.pipeline with worker := w }.place job.call)
      ({ d.pipeline with worker := w }.reply? job.call) := by
  have hnone : d.writes job.call .work = [] := by simp only [writes]
  rw [Pipeline.place_of_worker hj hw, if_pos rfl, hnone, List.append_nil]
  exact h

theorem works_work (h : Pipeline.Step d.isCancelledAt d.pipeline d.shared p s) (ht : Told policy lost d)
    (hf : Filed d₀ actions d) (hh : HandsOver actions) (hg : d₀.IsGentle) (hj : d.pipeline.jobs.head? = some job)
    (hd : d.downloads[job.call]? = some x) (hk : x.request.IsOpened d₀.validator)
    (hw : d.Works job.call x.request x.limit (handedTo job.call actions) made (d.pipeline.place job.call) (d.pipeline.reply? job.call))
    (hr : (d.pipeline.reply? job.call).isSome) :
    { d with pipeline := p, shared := s : Downloader }.Works job.call x.request x.limit (handedTo job.call actions)
      (made ++ d.writes job.call .work) (p.place job.call) (p.reply? job.call) := by
  -- Unless the worker takes the job now, it has it at hand already.
  have hand : ∀ {w : Worker} {first : Job}, d.pipeline.worker = w → w.job? = some first →
      first = job ∧ d.pipeline.worker.job? = some job ∧ d.Works job.call x.request x.limit
        (handedTo job.call actions) made (.hand w) (d.pipeline.reply? job.call) := by
    rintro w first rfl hfirst
    obtain rfl : first = job := Option.some.inj ((Pipeline.head?_jobs hfirst).symm.trans hj)
    rw [Pipeline.place_hand hfirst] at hw
    exact ⟨rfl, hfirst, hw⟩
  cases h with
  | @take first rest hi hq =>
    obtain rfl : first = job := by simpa [Pipeline.jobs, hi, hq, Worker.job?] using hj
    have hplace : d.pipeline.place first.call = .line := by
      rw [Pipeline.place_of_idle hi, if_pos]
      simp [hq]
    have hn : d.writes first.call .work = [] := by simp only [writes, hi]
    rw [hplace] at hw
    rw [Pipeline.place_of_taken (w := .decided first (!d.isCancelledAt first.call)) hi hq rfl, if_pos rfl, hn,
      List.append_nil]
    exact hw
  | begin hi =>
    obtain ⟨rfl, hjob, hw⟩ := hand hi rfl
    exact works_passed hjob (fun _ ho => by cases hi.symm.trans ho) rfl hw
  | skip hi =>
    obtain ⟨rfl, hjob, hmade, path, bytes, hheld, -⟩ := hand hi rfl
    exact works_passed hjob (fun _ ho => by cases hi.symm.trans ho) rfl ⟨hmade, hheld.others⟩
  | @operate first result files hi ho =>
    obtain ⟨rfl, hjob, hw⟩ := hand hi rfl
    have hn : d.writes first.call .work = Files.written d.shared.files files := by
      simp only [writes, hi, if_true, ho]
    rw [Pipeline.place_of_worker (w := .operated first result) hjob rfl, if_pos rfl, hn]
    exact leaves_of_work hf hh hg hd hk hi ho hw
  | @crash first files hi ho =>
    obtain ⟨rfl, -, hw⟩ := hand hi rfl
    obtain ⟨-, metadata, folder, mayBeEmpty, bytes, -, hopening, -, hheld, -, hdrawn⟩ :=
      exists_opening hf hh (List.mem_of_head? hj) hd hk hw
    have hpresent := opening_of_present metadata mayBeEmpty x.request.product hheld.there hdrawn
    rw [← hopening, ho] at hpresent
    rcases hpresent with ⟨failure, he, -⟩ | ⟨plain, -, -, he, -⟩ <;> cases he
  | @announce first result hi =>
    obtain ⟨rfl, hjob, hw⟩ := hand hi rfl
    refine works_passed hjob (fun _ ho => by cases hi.symm.trans ho) rfl ?_
    refine Leaves.pass hw rfl fun other product hc => ?_
    rcases hc with hc | hc | hc <;> cases hc
    rfl
  | @keep first product hi =>
    obtain ⟨rfl, hjob, hw⟩ := hand hi rfl
    have hw : d.Leaves first.call x.request x.limit (handedTo first.call actions) (handedTo first.call actions) made
      (.ok product) := hw
    refine works_passed hjob (fun _ ho => by cases hi.symm.trans ho) rfl ?_
    refine Leaves.pass hw rfl fun other product hc => ?_
    rcases hc with hc | hc | hc <;> cases hc
    rfl
  | @clear first failure hi =>
    obtain ⟨rfl, hjob, hmade, hothers⟩ := hand hi rfl
    obtain ⟨y, bytes, -, -, hlast⟩ := hf.job first (List.mem_of_head? hj)
    exact works_passed hjob (fun _ ho => by cases hi.symm.trans ho) rfl ⟨hmade, bare_erase_last hlast hothers⟩
  | @reply first result hi =>
    obtain ⟨rfl, hjob, hw⟩ := hand hi rfl
    have hn : d.writes first.call .work = [] := by simp only [writes, hi]
    obtain ⟨hq, hidle, -⟩ := Pipeline.send_eq { d.pipeline with worker := .idle } d.shared first.call result
    obtain ⟨reply, hreply⟩ := Option.isSome_iff_exists.mp hr
    have hold : { d.pipeline with worker := .idle }.reply? first.call = some reply := hreply
    have hshared : ({ d.pipeline with worker := .idle }.send d.shared first.call result).2 = d.shared := by
      simp only [Pipeline.send, hold, Option.isSome_some, if_true]
    rw [Pipeline.place_of_done ht.nodup hjob hidle hq, if_pos rfl, Pipeline.reply?_send, if_pos rfl, hold, hn,
      List.append_nil, hshared]
    refine Leaves.pass hw rfl fun other product hc => ?_
    rcases hc with hc | hc | hc <;> cases hidle.symm.trans hc

/-! ### The steps of a download -/

theorem not_has_start (x : Download) (policy : RetryPolicy) (path : Path) : ¬(x.transfer policy).Has path := by
  rintro (h | h) <;> rcases Transfer.phase_start x.id x.request x.limit policy with hp | ⟨message, hp⟩ <;>
    cases h.symm.trans hp

/-- The step of a download itself that is no input of its transfer. -/
theorem Step.stands {ended : Prop} {start : Transfer} {fed : List Transfer.Input} {unbegun : Prop} {gone : Path → Prop}
    (h : Step d action d') (ht : Told policy lost d) (ha : action.isAbout i = true)
    (hd : d.downloads[i]? = some x) (hi : d.input? i action = none) (hfollows : x.phase.Follows start fed)
    (hsettles : x.Settles start fed unbegun gone (d.pipeline.place i) (d.pipeline.reply? i))
    (hended : (fed = [] ∨ ∃ result, (start.run fed).1.result? = some result) → ended)
    (hs : d.Stands i x (x.request.IsOpened d₀.validator) ended given made) :
    ∃ x', d'.downloads[i]? = some x' ∧ x.Continues x' ∧
      d'.Stands i x' (x.request.IsOpened d₀.validator) ended given made := by
  have there : ∀ {y : Download}, (d.downloads.set i y)[i]? = some y :=
    List.getElem?_set_self (List.getElem?_eq_some_iff.mp hd).1
  cases h with
  | refuse | accept | cancel | shutdown | setCeiling | work => cases ha
  | announce hd' hp | enter hd' hp | line hd' hp | claim hd' hp | quit hd' hp | giveUp hd' hp =>
    obtain rfl := of_decide_eq_true ha
    cases hd.symm.trans hd'
    simp only [Stands, hp] at hs
    exact ⟨_, there, ⟨rfl, rfl, rfl⟩, hs⟩
  | begin hd' hp =>
    obtain rfl := of_decide_eq_true ha
    cases hd.symm.trans hd'
    simp only [Stands, hp] at hs
    exact ⟨_, there, ⟨rfl, rfl, rfl⟩, hs.1, Or.inr ⟨not_has_start x d.retry, hs.2⟩⟩
  | feed hd' hp hij =>
    obtain rfl := isAbout_unique ha (isAbout_of_input? hij)
    rw [hi] at hij
    cases hij
  | @yield j y t result hd' hp hr =>
    obtain rfl := of_decide_eq_true ha
    cases hd.symm.trans hd'
    simp only [Stands, hp] at hs
    obtain ⟨hm, ⟨path, bytes, hhas, hheld, hl⟩ | ⟨hno, hbare⟩⟩ := hs
    · rcases hhas with hhas | hhas <;> cases hr.symm.trans hhas
      exact ⟨_, there, ⟨rfl, rfl, rfl⟩, hm, bytes, hheld, hl hr⟩
    · cases result with
      | ok file => exact absurd (Or.inr hr) (hno file)
      | error failure => exact ⟨_, there, ⟨rfl, rfl, rfl⟩, hm, hbare⟩
  | deliver hd' hp hw =>
    obtain rfl := of_decide_eq_true ha
    cases hd.symm.trans hd'
    refine ⟨_, there, ⟨rfl, rfl, rfl⟩, fun ho : x.request.IsOpened d₀.validator => ?_⟩
    have hk := workFor_eq_none_iff.mp hw
    cases hr : x.request <;> rw [hr] at hk ho <;> first | exact ho | cases hk
  | @reject j y file work hd' hp hw hc =>
    obtain rfl := of_decide_eq_true ha
    cases hd.symm.trans hd'
    rw [hp] at hfollows
    simp only [Stands, hp] at hs
    obtain ⟨hm, bytes, hheld, -⟩ := hs
    have hbare := bare_erase_last hheld.last hheld.others
    exact ⟨_, there, ⟨rfl, rfl, rfl⟩, fun _ => ⟨hended (Or.inr ⟨_, hfollows⟩), hm, hbare⟩⟩
  | @submit j y file work hd' hp hw hc =>
    obtain rfl := of_decide_eq_true ha
    cases hd.symm.trans hd'
    simp only [Stands, hp] at hs
    obtain ⟨hm, bytes, hheld, hl⟩ := hs
    have hmem := ht.not_mem_jobs hd (by simp [hp]) (by simp [hp])
    have hplace := (Pipeline.place_push d.pipeline ⟨j, x.id, file, work⟩ hmem j).trans (if_pos rfl)
    refine ⟨_, there, ⟨rfl, rfl, rfl⟩, fun _ => ?_⟩
    change Works _ _ _ _ _ _ ((d.pipeline.push ⟨j, x.id, file, work⟩).place j) _
    rw [hplace]
    exact ⟨hm, file, bytes, hheld, hl⟩
  | @collect j y result p hd' hp hr =>
    obtain rfl := of_decide_eq_true ha
    cases hd.symm.trans hd'
    simp only [Stands, hp] at hs
    simp only [Download.Settles, hp] at hsettles
    obtain ⟨path, hres, -⟩ := hsettles
    have hgone := ht.collected hd hp hr
    obtain ⟨rfl, hreply⟩ := Pipeline.eq_of_collect? hr
    refine ⟨_, there, ⟨rfl, rfl, rfl⟩, ?_⟩
    have harrived : x.request.IsOpened d₀.validator → d.Leaves j x.request x.limit given given made result := by
      intro ho
      have hw := hs ho
      rw [hgone] at hw
      rcases hreply with hreply | ⟨hreply, -⟩ <;> rw [hreply] at hw
      · exact hw
      · exact hw.elim
    cases result with
    | ok product =>
      exact fun ho => (harrived ho).congr (fun _ _ => rfl) (List.Subset.refl given) fun _ hown =>
        ⟨⟨hown.drawn, hown.apart⟩, rfl⟩
    | error failure => exact fun ho => ⟨hended (Or.inr ⟨_, hres⟩), harrived ho⟩
  | @fail j y f hd' hp =>
    obtain rfl := of_decide_eq_true ha
    cases hd.symm.trans hd'
    simp only [Stands, hp] at hs
    simp only [Download.Settles, hp] at hsettles
    refine ⟨_, there, ⟨rfl, rfl, rfl⟩, fun _ => ⟨hended ?_, hs⟩⟩
    rcases hsettles with ⟨hnil, -⟩ | hres
    · exact Or.inl hnil
    · exact Or.inr ⟨_, hres⟩
  | dropWaiting hd' | dropTransfer hd' | dropOpening hd' =>
    obtain rfl := of_decide_eq_true ha
    cases hd.symm.trans hd'
    exact ⟨_, there, ⟨rfl, rfl, rfl⟩, trivial⟩
  | carry hd' | unlink hd' =>
    obtain rfl := of_decide_eq_true ha
    cases hd.symm.trans hd'
    refine ⟨_, there, ⟨rfl, rfl, rfl⟩, hs.congr ⟨rfl, rfl, rfl⟩ rfl rfl rfl (fun _ _ => rfl) fun _ hown => ?_⟩
    exact ⟨⟨hown.drawn, hown.apart⟩, rfl⟩

theorem stands_work {ended : Prop} (h : Pipeline.Step d.isCancelledAt d.pipeline d.shared p s) (ht : Told policy lost d)
    (hf : Filed d₀ actions d) (hh : HandsOver actions) (hg : d₀.IsGentle) (hj : d.pipeline.jobs.head? = some job)
    (hd : d.downloads[job.call]? = some x)
    (hs : d.Stands job.call x (x.request.IsOpened d₀.validator) ended (handedTo job.call actions) made) :
    { d with pipeline := p, shared := s : Downloader }.Stands job.call x (x.request.IsOpened d₀.validator) ended
      (handedTo job.call actions) (made ++ d.writes job.call .work) := by
  obtain ⟨y, hy, -, hp⟩ := ht.job job (List.mem_of_head? hj)
  cases hd.symm.trans hy
  rcases hp with hp | hp
  · obtain ⟨events, hsays, -⟩ := ht.words job.call x hd
    simp only [Download.Says, hp] at hsays
    obtain ⟨-, pauses, bytes, more, -, -, hopens⟩ := hsays
    simp only [Stands, hp] at hs ⊢
    exact fun ho => works_work h ht hf hh hg hj hd ho (hs ho) hopens.isSome_reply
  · simp only [Stands, hp]

/-! ### Runs -/

theorem Owned.belongs {product : Product} (ho : d.Owned i product) : Belongs actions d i product.path :=
  Or.inr ⟨ho.drawn, ho.apart⟩

theorem Filed.job_step (hf : Filed d₀ actions d) (ht : Told policy lost d) (h : Step d action d')
    (hm : job ∈ d'.pipeline.jobs) : ∃ x bytes, d'.downloads[job.call]? = some x ∧
      d₀.workFor x.request = some job.work ∧
      (handedTo job.call (actions ++ [action])).getLast? = some (job.ciphertext, bytes) := by
  -- Whoever has a job, or has its ciphertext, is given no other one in this step.
  have later : ∀ {x : Download} {bytes : Octets}, d.downloads[job.call]? = some x → x.phase.isTransferring = false →
      d₀.workFor x.request = some job.work →
      (handedTo job.call actions).getLast? = some (job.ciphertext, bytes) → ∃ x' bytes, d'.downloads[job.call]? = some x' ∧
        d₀.workFor x'.request = some job.work ∧
        (handedTo job.call (actions ++ [action])).getLast? = some (job.ciphertext, bytes) := by
    intro x bytes hd hp hw hl
    obtain ⟨x', hd', hc⟩ := h.continues hd
    refine ⟨x', bytes, hd', by rw [hc.request]; exact hw, ?_⟩
    have hnone : handedTo job.call [action] = [] := by
      cases ha : action.isAbout job.call with
      | false => exact handedTo_of_not_about ha
      | true =>
        refine handedTo_of_handed? (h.handed?_eq_none ?_ (input?_of_phase hd rfl hp))
        cases action <;> first | exact ha | cases ha
    rw [handedTo_append, hnone, List.append_nil]
    exact hl
  rcases h.job_cases hm with hm | ⟨x, hd, hp, hw⟩
  · obtain ⟨x, bytes, hd, hw, hl⟩ := hf.job job hm
    obtain ⟨y, hy, -, hp⟩ := ht.job job hm
    cases hd.symm.trans hy
    refine later hd ?_ hw hl
    rcases hp with hp | hp <;> rw [hp] <;> rfl
  · have hs := hf.stands job.call x hd
    simp only [Stands, hp] at hs
    obtain ⟨-, bytes, hheld, -⟩ := hs
    exact later hd (by rw [hp]; rfl) (hf.works ▸ hw) hheld.last

theorem Filed.stands_step (hf : Filed d₀ actions d) (hr : d₀.run? actions = some d)
    (ht : Traced d₀.retry (d₀.inputs · actions) (d₀.begun actions) d) (hw : Told d₀.retry lost d)
    (hk : Kept d₀ actions d) (hg : d₀.IsGentle) (hh : HandsOver (actions ++ [action])) (h : d.step? action = some d')
    {x' : Download} (hx' : d'.downloads[i]? = some x') : d'.Stands i x' (x'.request.IsOpened d₀.validator)
      (d₀.inputs i (actions ++ [action]) = [] ∨ ∃ result,
        ((x'.transfer d₀.retry).run (d₀.inputs i (actions ++ [action]))).1.result? = some result)
      (handedTo i (actions ++ [action])) (d₀.written i (actions ++ [action])) := by
  have hstep := step_of_step? h
  have hin : d₀.inputs i (actions ++ [action]) = d₀.inputs i actions ++ (d.input? i action).toList := by
    rw [inputs_append hr, inputs_singleton]
  have hwritten : d₀.written i (actions ++ [action]) = d₀.written i actions ++ d.writes i action := by
    rw [written_append hr, written_singleton]
  rcases hstep.moved i x' hx' with ⟨x, hd, hc, -⟩ | ⟨hl, hp⟩
  · rw [hc.request, hc.transfer_eq, hwritten]
    have hs := hf.stands i x hd
    cases hi : d.input? i action with
    | some input =>
      have ha := isAbout_of_input? hi
      obtain ⟨t, hrun, hp, hd'⟩ := fed_of_input? ht hd h hi
      have hsame : (d.stored action).downloads[i]? = some x := getElem?_stored hd
      obtain ⟨tripped, hset⟩ := (feed_spec hsame t input).downloads
      rw [hd', hset, List.getElem?_set_self (by simp [move, put, (List.getElem?_eq_some_iff.mp hsame).1])] at hx'
      cases hx'
      rw [hd', writes_of_isAbout ha, List.append_nil]
      by_cases hans : ∃ path, t.answer? input = some (.ok path)
      · obtain ⟨path, hans⟩ := hans
        exact stands_given hh hd hp hi hans hs tripped
      · have hlim : t.limit = x.limit := by
          rw [hrun]
          exact Transfer.limit_run _ _
        exact stands_ungiven hlim hd hp hi (fun path ha => hans ⟨path, ha⟩) hs tripped
    | none =>
      rw [hi, Option.toList_none, List.append_nil] at hin
      rw [hin]
      cases ha : d.acts i action with
      | false =>
        have hn : action.isAbout i = false := by
          cases action <;> first | rfl | exact ha
        obtain ⟨hy, hplace, hreply⟩ := hstep.idle hw ha hd
        cases hx'.symm.trans hy
        rw [handedTo_append, handedTo_of_not_about hn, writes_of_not_acts ha, List.append_nil, List.append_nil]
        refine hs.congr (.refl _) rfl hplace hreply (fun entry he => ?_) fun product ho => ⟨?_, ?_⟩
        · exact hstep.get?_eq hf hg hh ha (Or.inl ⟨entry.2, he⟩)
        · exact ho.step hstep hf hg hh
        · exact hstep.get?_eq hf hg hh ha ho.belongs
      | true =>
        have hnone : handedTo i [action] = [] := handedTo_of_handed? (hstep.handed?_eq_none ha hi)
        rw [handedTo_append, hnone, List.append_nil]
        by_cases hact : action = .work
        · subst hact
          obtain ⟨job, hj, he⟩ := (Option.any_eq_true ..).mp ha
          obtain rfl : job.call = i := of_decide_eq_true he
          obtain ⟨⟨p, s⟩, hwork, rfl⟩ := Option.map_eq_some_iff.mp h
          cases hd.symm.trans hx'
          exact stands_work (Pipeline.step_of_step? hwork) hw hf hh.earlier hg hj hd hs
        · rw [acts_of_ne_work hact] at ha
          rw [writes_of_isAbout ha, List.append_nil]
          obtain ⟨y, hy, -, hs⟩ := hstep.stands hw ha hd hi (ht.follows i x hd) (hk.settles i x hd) id hs
          cases hx'.symm.trans hy
          exact hs
  · obtain ⟨hgiven, hmade⟩ := hf.absent i hl
    obtain ⟨hnone, hwrites⟩ := absent_of_step h hw hl
    rw [hwritten, handedTo_append, hgiven, hnone, hmade, hwrites]
    simp only [Stands, hp]
    exact ⟨rfl, fun entry he => absurd he List.not_mem_nil⟩

theorem Filed.step (hf : Filed d₀ actions d) (hr : d₀.run? actions = some d)
    (ht : Traced d₀.retry (d₀.inputs · actions) (d₀.begun actions) d) (hw : Told d₀.retry lost d)
    (hk : Kept d₀ actions d) (hg : d₀.IsGentle) (hh : HandsOver (actions ++ [action])) (h : d.step? action = some d') :
    Filed d₀ (actions ++ [action]) d' where
  absent i hl := by
    have hl := Nat.le_trans (step_of_step? h).length_le hl
    obtain ⟨hgiven, hmade⟩ := hf.absent i hl
    obtain ⟨hnone, hwrites⟩ := absent_of_step h hw hl
    rw [handedTo_append, written_append hr, written_singleton, hgiven, hnone, hmade, hwrites]
    exact ⟨rfl, rfl⟩
  works := (step_of_step? h).workFor_eq.trans hf.works
  job _ hm := hf.job_step hw (step_of_step? h) hm
  carried job product hc := by
    rcases (step_of_step? h).carries_cases hc with hc | ⟨-, hworker, hwork⟩
    · exact hf.carried job product hc
    · rcases hf.product_path hg hworker hwork with he | ⟨folder, n, -, -, he⟩
      · exact Or.inl he
      · exact Or.inr ⟨folder, n, he⟩
  stands _ _ hx' := hf.stands_step hr ht hw hk hg hh h hx'

end SealedDownload.Downloader
