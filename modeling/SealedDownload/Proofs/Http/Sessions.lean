import SealedDownload.Proofs.Http.Custody
import SealedDownload.Proofs.Transfer.Steps

/-! The files of a transfer over the HTTP transport. At any time at most one of them is there, in the hands of the
    transfer or of its call; so none is left by a transfer that fails, and one by a transfer that succeeds. -/

namespace SealedDownload

/-- Whether the transport is at work for a transfer. -/
def TransferPhase.isCalling : TransferPhase → Bool
  | .calling _ => true
  | _ => false

/-- Whether a transfer has been able to begin, and has not ended. -/
def TransferPhase.isOpen : TransferPhase → Bool
  | .doomed _ => false
  | .ended _ => false
  | _ => true

namespace Http

/-- In whose hands a file is between two calls. -/
def Holding.ofPhase : TransferPhase → Holding
  | .ready resume => ofToken resume
  | .resting resume => ofToken resume
  | .measuring path => .file path
  | .ended (.ok path) => .file path
  | _ => .nothing

/-- In whose hands the file of a transfer is. -/
def Session.holding (s : Session) : Holding :=
  match s.call with
  | some call => .ofCall call
  | none => .ofPhase s.transfer.phase

/-- Whether a path is that of a file of the transport. -/
def IsDrawn (folder path : Path) : Prop := ∃ n, path = folder ++ "/" ++ Files.drawnName n "download"

/-- Of some files only the one that is held is there. -/
structure Tidy (files : Files) (created : List Path) (h : Holding) : Prop where
  on : h.IsOn files
  mem : ∀ path, h.path? = some path → path ∈ created
  gone : ∀ path ∈ created, h.path? ≠ some path → files.get? path = none

/-- Whether an action is one of others. -/
def SessionAction.isForeign : SessionAction → Bool
  | .others _ => true
  | _ => false

namespace Session

/-- Whether the object of a transfer can be asked for. -/
def IsLocated (s : Session) : Prop :=
  ∃ request url, s.request.forTransport = .ok request ∧ s.transport.locate request = .ok url

/-- What holds of a transfer and its files at any time. -/
structure Sound (s : Session) : Prop where
  tidy : Tidy s.files s.created s.holding
  drawn : ∀ path ∈ s.created, IsDrawn s.transport.folder path
  clear : s.files.blocks s.transport.folder = false
  calls : s.call.isSome = s.transfer.phase.isCalling
  asked : s.transfer.phase.isOpen = true → ∃ request, s.request.forTransport = .ok request
  located : s.created ≠ [] → s.IsLocated

/-- What a step of a transfer keeps: only files of the transfer have changed, and they are in order. -/
structure Keeps (s s' : Session) : Prop where
  sound : s'.Sound
  spares : ∀ path, path ∉ s'.created → s'.files.get? path = s.files.get? path

/-- What an action makes of a session: the transfer is given an input, its call goes on, or others do something. -/
inductive Step (s : Session) : SessionAction → Session → Prop where
  | fail {failure : Failure} (hp : s.transfer.phase = .doomed failure) : Step s .go (s.feed (.begin s.cancelled))
  | begin {resume : Option ResumeToken} (hp : s.transfer.phase = .ready resume) :
      Step s .go (s.feed (.begin s.cancelled))
  | interrupt {resume : Option ResumeToken} (hp : s.transfer.phase = .resting resume) (hc : s.cancelled = true) :
      Step s .go (s.feed .interrupt)
  | net {f f' : Fetch} {input : FetchInput} {files : Files} {effects : List FetchEffect}
      (hc : s.call = some (.going f)) (ha : f.admits s.isStopped input = true)
      (hf : f.step s.files input = (f', files, effects)) :
      Step s (.net input) (effects.foldl hear { s with files, call := some (.ofFetch f') })
  | spoil {f f' : Fetch} {kind : IoKind} {files : Files} (hc : s.call = some (.going f))
      (hf : f.fail s.files (.io kind none) = (f', files)) :
      Step s (.spoil kind) { s with files, call := some (.ofFetch f') }
  | settle {result : Except Failure Path} {draw : Float} (hc : s.call = some (.over result)) :
      Step s (.settle draw) ({ s with call := none }.feed (.settle result draw))
  | measure {file : Path} {size : Except IoKind Nat} {draw : Float} (hp : s.transfer.phase = .measuring file) :
      Step s (.measure size draw) (s.feed (.measure size draw))
  | wake {resume : Option ResumeToken} (hp : s.transfer.phase = .resting resume) (hc : s.cancelled = false) :
      Step s .wake (s.feed .wake)
  | cancel : Step s .cancel { s with cancelled := true }
  | others {files : Files} (hs : ∀ path ∈ s.created, files.get? path = s.files.get? path)
      (hb : files.blocks s.transport.folder = false) : Step s (.others files) { s with files }

theorem step_of_step? {s s' : Session} {action : SessionAction} (h : s.step? action = some s') : s.Step action s' := by
  cases action with
  | go =>
    simp only [step?, go?] at h
    split at h
    · cases h
      exact .fail ‹_›
    · cases h
      exact .begin ‹_›
    · split at h <;> cases h
      exact .interrupt ‹_› ‹_›
    · cases h
  | net input =>
    simp only [step?, net?] at h
    split at h
    · split at h <;> cases h
      exact .net ‹_› ‹_› rfl
    · cases h
  | spoil kind =>
    simp only [step?, spoil?] at h
    split at h <;> cases h
    exact .spoil ‹_› rfl
  | settle draw =>
    simp only [step?, settle?] at h
    split at h <;> cases h
    exact .settle ‹_›
  | measure size draw =>
    simp only [step?, measure?] at h
    split at h
    · split at h <;> cases h
      exact .measure ‹_›
    · cases h
  | wake =>
    simp only [step?, wake?] at h
    split at h
    · split at h <;> cases h
      exact .wake ‹_› (Bool.eq_false_iff.mpr ‹_›)
    · cases h
  | cancel =>
    cases h
    exact .cancel
  | others files =>
    simp only [step?, others?] at h
    split at h <;> cases h
    rename_i hg
    obtain ⟨hs, hb⟩ := Bool.and_eq_true_iff.mp hg
    exact .others (by simpa using hs) (by simpa using hb)

end Session

variable {files files' : Files} {created : List Path} {h h' : Holding} {folder path : Path}
  {resume : Option ResumeToken} {s s' : Session} {f : Fetch} {t : Transfer}

/-! ### The folder -/

theorem blocks_eq_false_iff : files.blocks folder = false ↔
    ∀ path bytes, files.get? path = some bytes → ¬(path.toList ++ ['/']) <+: folder.toList := by
  unfold Files.blocks
  rw [List.any_eq_false]
  constructor
  · intro hall path bytes hg hp
    obtain ⟨before, after, he, -⟩ := List.lookup_eq_some_iff.mp hg
    refine hall (path, bytes) ?_ (List.isPrefixOf_iff_prefix.mpr hp)
    rw [he]
    exact List.mem_append_right _ List.mem_cons_self
  · intro hall entry hm hp
    cases hg : files.get? entry.1 with
    | none => exact absurd (List.lookup_eq_none_iff.mp hg entry hm) (by simp)
    | some bytes => exact hall entry.1 bytes hg (List.isPrefixOf_iff_prefix.mp hp)

theorem IsDrawn.not_above (hd : IsDrawn folder path) : ¬(path.toList ++ ['/']) <+: folder.toList := by
  intro hp
  obtain ⟨n, rfl⟩ := hd
  have hl := hp.length_le
  simp only [List.length_append, List.length_cons, String.toList_append] at hl
  omega

/-- Files of the transport are not in the way of its folder. -/
theorem clear_of_spared (hc : files.blocks folder = false) (hd : ∀ path ∈ created, IsDrawn folder path)
    (hs : ∀ path, path ∉ created → files'.get? path = files.get? path) : files'.blocks folder = false := by
  rw [blocks_eq_false_iff] at hc ⊢
  intro path bytes hg
  by_cases hm : path ∈ created
  · exact (hd path hm).not_above
  · exact hc path bytes (hs path hm ▸ hg)

/-! ### Passing on -/

theorem Tidy.pass (ht : Tidy files created h) (hp : Passes files h.path? files' h') : Tidy files' created h' where
  on := hp.on
  mem path he := ht.mem path (hp.path path he)
  gone path hm hne := by
    by_cases he : h.path? = some path
    · exact hp.gone path he hne
    · rw [hp.frame path he]
      exact ht.gone path hm he

theorem Tidy.spares (ht : Tidy files created h) (hp : Passes files h.path? files' h') (hm : path ∉ created) :
    files'.get? path = files.get? path :=
  hp.frame path fun he => hm (ht.mem path he)

theorem eq_calling {p : TransferPhase} (hc : p.isCalling = true) : ∃ noted, p = .calling noted := by
  cases p <;> first | exact ⟨_, rfl⟩ | cases hc

theorem isOpen_of_isCalling {p : TransferPhase} (hc : p.isCalling = true) : p.isOpen = true := by
  obtain ⟨noted, rfl⟩ := eq_calling hc
  rfl

namespace Session

theorem Sound.isOn (hs : s.Sound) (hh : s.holding = h) : h.IsOn s.files := hh ▸ hs.tidy.on

theorem Sound.has (hs : s.Sound) (hc : s.call = some (.going f)) : f.Has s.files :=
  hs.isOn (h := .fetch f) (by rw [holding, hc]; rfl)

theorem Sound.calling {call : Call} (hs : s.Sound) (hc : s.call = some call) : s.transfer.phase.isCalling = true := by
  rw [← hs.calls, hc]
  rfl

theorem Sound.call_eq_none (hs : s.Sound) (h : s.transfer.phase.isCalling = false) : s.call = none := by
  cases hc : s.call with
  | none => rfl
  | some call =>
    rw [hs.calling hc] at h
    cases h

theorem holding_of_phase {p : TransferPhase} (hc : s.call = none) (hp : s.transfer.phase = p) :
    s.holding = .ofPhase p := by
  rw [holding, hc, hp]

/-- A step that begins no call. -/
theorem keeps_of_passes (hs : s.Sound) (hp : Passes s.files s.holding.path? s'.files s'.holding)
    (ht : s'.transport = s.transport) (hr : s'.request = s.request) (hc : s'.created = s.created)
    (hcalls : s'.call.isSome = s'.transfer.phase.isCalling)
    (ho : s'.transfer.phase.isOpen = true → s.transfer.phase.isOpen = true) : s.Keeps s' := by
  have hspares : ∀ path, path ∉ s'.created → s'.files.get? path = s.files.get? path :=
    fun path hm => hs.tidy.spares hp (hc ▸ hm)
  refine ⟨⟨hc ▸ hs.tidy.pass hp, ?_, ?_, hcalls, fun hopen => hr ▸ hs.asked (ho hopen), fun hne => ?_⟩, hspares⟩
  · rw [hc, ht]
    exact hs.drawn
  · rw [ht]
    exact clear_of_spared hs.clear hs.drawn fun path hm => hspares path (hc.symm ▸ hm)
  · unfold IsLocated
    rw [hr, ht]
    exact hs.located (hc ▸ hne)

end Session

/-! ### A call begins -/

theorem path?_ofToken (resume : Option ResumeToken) :
    (Holding.ofToken resume).path? = (resume.bind Partial.decode?).map (·.path) := by
  cases resume <;> rfl

theorem tidy_fetch (hf : f.Has files) (hn : ∀ path ∈ created, path ≠ f.part.path → files.get? path = none) :
    Tidy files (f.part.path :: created) (.fetch f) where
  on := hf
  mem path he := by
    cases he
    exact List.mem_cons_self
  gone path hm hne := by
    have hne : path ≠ f.part.path := fun he => hne (congrArg some he.symm)
    exact hn path ((List.mem_cons.mp hm).resolve_left hne) hne

/-- A call takes up the file of its token, or has one of its own and removes that. -/
theorem tidy_of_picked (transport : HttpTransport) (request : TransportRequest) {made : Files} {url : Url}
    {part : Partial} (ht : Tidy files created (.ofToken resume)) (hg : ∀ path, made.get? path = files.get? path)
    (hp : Fetch.Picked folder url.render made resume part files') :
    Tidy files' (part.path :: created) (.fetch (Fetch.opening transport request url part)) ∧
      (part.path ∈ created ∨ IsDrawn folder part.path) ∧
      ∀ path, path ∉ part.path :: created → files'.get? path = files.get? path := by
  have hheld := path?_ofToken resume
  cases hp with
  | @resumed _ bytes hd _ _ hb hl =>
    rw [hd] at hheld
    refine ⟨tidy_fetch (f := Fetch.opening transport request url part) (Or.inr ⟨bytes, hb, hl⟩) fun path hm hne => ?_,
      Or.inl (ht.mem _ hheld), fun path _ => hg path⟩
    rw [hg]
    exact ht.gone path hm fun he => hne (Option.some.inj (he.symm.trans hheld))
  | @spoilt held hd _ =>
    rw [hd] at hheld
    refine ⟨tidy_fetch (f := Fetch.opening transport request url _) (Or.inl rfl) fun path hm _ => ?_,
      Or.inr ⟨_, rfl⟩, fun path hm => ?_⟩
    · by_cases he : path = held.path
      · rw [he]
        exact Files.get?_erase made held.path
      · refine (Files.get?_erase_of_ne made he).trans ((hg path).trans (ht.gone path hm fun hp => he ?_))
        exact Option.some.inj (hp.symm.trans hheld)
    · have hne : path ≠ held.path := fun he => hm (List.mem_cons_of_mem _ (he ▸ ht.mem _ hheld))
      exact (Files.get?_erase_of_ne made hne).trans (hg path)
  | fresh hd =>
    rw [hd] at hheld
    refine ⟨tidy_fetch (f := Fetch.opening transport request url _) (Or.inl rfl) fun path hm _ => ?_,
      Or.inr ⟨_, rfl⟩, fun path _ => hg path⟩
    refine (hg path).trans (ht.gone path hm fun he => ?_)
    cases hheld.symm.trans he

theorem part_of_sends {f' : Fetch} {again : Bool} {effects : List FetchEffect}
    (hs : Fetch.Sends f files again f' files' effects) : f'.part = f.part := by
  cases hs with
  | send => rfl
  | block _ hf => cases hf <;> rfl

theorem makeFolder_of_clear (hc : files.blocks folder = false) : ∃ made, files.makeFolder folder = .ok made := by
  unfold Files.makeFolder
  rw [hc]
  split
  · contradiction
  · split <;> exact ⟨_, rfl⟩

theorem clear_of_makeFolder {made : Files} (h : files.makeFolder folder = .ok made) :
    files.blocks folder = false ∧ made.blocks folder = false := by
  unfold Files.makeFolder at h
  split at h
  · cases h
  · have hb : files.blocks folder = false := Bool.eq_false_iff.mpr ‹_›
    split at h <;> cases h <;> exact ⟨hb, hb⟩

namespace Session

theorem keeps_callFor {request : TransportRequest} (hs : s.Sound) (hc : s.call = none)
    (hp : s.transfer.phase = .ready resume) (hr : s.request.forTransport = .ok request)
    (ht : t.phase.isCalling = true) : s.Keeps ({ s with transfer := t }.callFor request resume) := by
  have hh : s.holding = .ofToken resume := holding_of_phase hc hp
  have htidy : Tidy s.files s.created (.ofToken resume) := hh ▸ hs.tidy
  have hopen : s.transfer.phase.isOpen = true := by rw [hp]; rfl
  obtain ⟨made, hmade⟩ := makeFolder_of_clear hs.clear
  rcases Fetch.start_spec s.transport request resume s.files with
    ⟨failure, hst, hf⟩ | ⟨url, made', part, files', f, effects, files'', hu, hm, hpick, hsend, hst⟩
  · -- no call can ever begin, so there has been none
    have hcall : { s with transfer := t }.callFor request resume =
        { s with transfer := t, call := some (.over (.error failure)), tripped := false } := by
      simp only [callFor, hst]
    have hnone : s.holding.path? = none := by
      refine Option.eq_none_iff_forall_ne_some.mpr fun path he => ?_
      obtain ⟨_, url, hr', hu⟩ := hs.located (List.ne_nil_of_mem (hs.tidy.mem path he))
      cases hr.symm.trans hr'
      rcases hf with hf | hf
      · cases hu.symm.trans hf
      · cases hmade.symm.trans hf
    rw [hcall]
    refine keeps_of_passes hs ?_ rfl rfl rfl ht.symm fun _ => hopen
    have hn : Holding.ofCall (.over (.error failure)) = .nothing := by
      simp only [Holding.ofCall, Fetch.resume?_of_start hf, Holding.ofToken]
    rw [hnone]
    exact (congrArg (Passes s.files none s.files) hn).mpr (passes_keep trivial rfl)
  · have hcall : { s with transfer := t }.callFor request resume =
        { s with transfer := t, files := files'', call := some (.ofFetch f), tripped := false,
                 created := f.part.path :: s.created } := by
      simp only [callFor, hst]
    obtain ⟨hpicked, hwhose, hspares⟩ := tidy_of_picked s.transport request htidy
      (Files.get?_of_makeFolder hm) hpick
    have hpass := passes_sends hsend hpicked.on
    have hpath : f.part.path = part.path := congrArg Partial.path (part_of_sends hsend)
    have htidy' : Tidy files'' (part.path :: s.created) (.ofCall (.ofFetch f)) := hpicked.pass hpass
    have hdrawn : ∀ path ∈ part.path :: s.created, IsDrawn s.transport.folder path := by
      intro path hm
      rcases List.mem_cons.mp hm with rfl | hm
      · rcases hwhose with hold | hnew
        · exact hs.drawn _ hold
        · exact hnew
      · exact hs.drawn path hm
    have hspares' : ∀ path, path ∉ part.path :: s.created → files''.get? path = s.files.get? path :=
      fun path hm => (hpicked.spares hpass hm).trans (hspares path hm)
    rw [hcall, hpath]
    refine ⟨⟨htidy', hdrawn, clear_of_spared hs.clear hdrawn hspares', ht.symm, fun _ => ⟨request, hr⟩,
      fun _ => ⟨request, url, hr, hu⟩⟩, hspares'⟩

/-! ### What comes from outside -/

theorem feed_spec (s : Session) (input : Transfer.Input) : ∃ t effects, Transfer.Step s.transfer input t effects ∧
    s.feed input = effects.foldl perform { s with transfer := t } :=
  ⟨_, _, Transfer.step_spec s.transfer input, rfl⟩

theorem feed_report (s : Session) (completed : Nat) (total : Option Nat) (hc : s.transfer.phase.isCalling = true) :
    ∃ t tripped, s.feed (.report completed total) = { s with transfer := t, tripped } ∧ t.phase.isCalling = true := by
  obtain ⟨t, effects, hstep, he⟩ := s.feed_spec (.report completed total)
  cases hstep with
  | ignore | early | publish | pass => exact ⟨s.transfer, s.tripped, he, hc⟩
  | trip => exact ⟨_, true, he, rfl⟩

/-- Reports leave a transfer where it is, and may stop its call. -/
theorem hear_spec (s : Session) (effects : List FetchEffect) (hc : s.transfer.phase.isCalling = true) :
    ∃ t tripped, effects.foldl hear s = { s with transfer := t, tripped } ∧ t.phase.isCalling = true := by
  induction effects generalizing s with
  | nil => exact ⟨s.transfer, s.tripped, rfl, hc⟩
  | cons effect rest ih =>
    cases effect with
    | send => exact ih s hc
    | report completed total =>
      obtain ⟨t, tripped, he, ht⟩ := s.feed_report completed.toNat (total.map UInt64.toNat) hc
      obtain ⟨t', tripped', he', ht'⟩ := ih { s with transfer := t, tripped } ht
      refine ⟨t', tripped', ?_, ht'⟩
      rw [List.foldl_cons, hear, he, he']

/-- Whatever comes to a call from the network, or from the disk. -/
theorem keeps_of_call (hs : s.Sound) (hc : s.call = some (.going f)) {f' : Fetch}
    (hp : Passes s.files (some f.part.path) files' (.ofCall (.ofFetch f'))) {t : Transfer} {tripped : Bool}
    (ht : t.phase.isCalling = true) :
    s.Keeps { s with transfer := t, files := files', call := some (.ofFetch f'), tripped } := by
  have hh : s.holding = .fetch f := by
    rw [holding, hc]
    rfl
  exact keeps_of_passes hs (hh ▸ hp) rfl rfl rfl ht.symm fun _ => isOpen_of_isCalling (hs.calling hc)

/-- A file does not grow beyond what can be counted. -/
theorem length_lt_of_admits {stopped : Bool} {bytes : Octets} (ha : f.admits stopped (.chunk bytes) = true) :
    f.part.received.toNat + bytes.length < UInt64.size := by
  simp only [Fetch.admits, Bool.and_eq_true, Bool.not_eq_true', decide_eq_false_iff_not] at ha
  exact Nat.lt_of_le_of_lt (Nat.le_of_not_lt ha.2) (by decide)

theorem keeps_net {f' : Fetch} {input : FetchInput} {effects : List FetchEffect} (hs : s.Sound)
    (hc : s.call = some (.going f)) (ha : f.admits s.isStopped input = true)
    (hf : f.step s.files input = (f', files', effects)) :
    s.Keeps (effects.foldl hear { s with files := files', call := some (.ofFetch f') }) := by
  have hstep := Fetch.step_spec f s.files input
  rw [hf] at hstep
  have hpass := passes_step hstep (hs.has hc) fun bytes hi => length_lt_of_admits (hi ▸ ha)
  obtain ⟨t, tripped, he, ht⟩ :=
    hear_spec { s with files := files', call := some (.ofFetch f') } effects (hs.calling hc)
  rw [he]
  exact keeps_of_call hs hc hpass ht

theorem keeps_spoil {f' : Fetch} {kind : IoKind} (hs : s.Sound) (hc : s.call = some (.going f))
    (hf : f.fail s.files (.io kind none) = (f', files')) :
    s.Keeps { s with files := files', call := some (.ofFetch f') } := by
  have hfail := Fetch.fail_spec f s.files (.io kind none)
  rw [hf] at hfail
  exact keeps_of_call hs hc (passes_failed hfail rfl (isOn_of_has (hs.has hc))) (hs.calling hc)

/-! ### What a step leaves as it is -/

theorem perform_keeps (s : Session) (effect : Transfer.Effect) : (s.perform effect).transfer = s.transfer ∧
    (s.perform effect).transport = s.transport ∧ (s.perform effect).request = s.request := by
  cases effect with
  | call resume =>
    unfold perform callFor
    dsimp only
    split
    · split <;> exact ⟨rfl, rfl, rfl⟩
    · exact ⟨rfl, rfl, rfl⟩
  | _ => exact ⟨rfl, rfl, rfl⟩

theorem foldl_perform_keeps (s : Session) (effects : List Transfer.Effect) :
    (effects.foldl perform s).transfer = s.transfer ∧ (effects.foldl perform s).transport = s.transport ∧
      (effects.foldl perform s).request = s.request := by
  induction effects generalizing s with
  | nil => exact ⟨rfl, rfl, rfl⟩
  | cons effect rest ih =>
    obtain ⟨ht, hp, hr⟩ := s.perform_keeps effect
    obtain ⟨ht', hp', hr'⟩ := ih (s.perform effect)
    exact ⟨ht'.trans ht, hp'.trans hp, hr'.trans hr⟩

theorem feed_keeps (s : Session) (input : Transfer.Input) : (s.feed input).transfer = (s.transfer.step input).1 ∧
    (s.feed input).transport = s.transport ∧ (s.feed input).request = s.request :=
  foldl_perform_keeps _ _

theorem call_foldl_perform {effects : List Transfer.Effect} (h : ∀ resume, .call resume ∉ effects) (s : Session) :
    (effects.foldl perform s).call = s.call := by
  induction effects generalizing s with
  | nil => rfl
  | cons effect rest ih =>
    rw [List.foldl_cons, ih fun resume hm => h resume (List.mem_cons_of_mem _ hm)]
    cases effect with
    | call resume => exact absurd List.mem_cons_self (h resume)
    | _ => rfl

theorem hear_keeps (s : Session) (effects : List FetchEffect) : (effects.foldl hear s).transport = s.transport ∧
    (effects.foldl hear s).request = s.request := by
  induction effects generalizing s with
  | nil => exact ⟨rfl, rfl⟩
  | cons effect rest ih =>
    cases effect with
    | send => exact ih s
    | report completed total =>
      obtain ⟨-, hp, hr⟩ := s.feed_keeps (.report completed.toNat (total.map UInt64.toNat))
      obtain ⟨hp', hr'⟩ := ih (s.hear (.report completed total))
      exact ⟨hp'.trans hp, hr'.trans hr⟩

theorem step_keeps {action : SessionAction} (h : s.step? action = some s') :
    s'.transport = s.transport ∧ s'.request = s.request := by
  cases step_of_step? h with
  | fail | begin | interrupt | settle | measure | wake => exact (feed_keeps ..).2
  | net => exact hear_keeps ..
  | spoil | cancel | others => exact ⟨rfl, rfl⟩

/-! ### Between two calls -/

/-- A transfer that has no call. -/
def between (s : Session) (t : Transfer) (files : Files) : Session := { s with transfer := t, files, call := none }

theorem between_eq (hc : s.call = none) (t : Transfer) : { s with transfer := t } = s.between t s.files := by
  rw [between, ← hc]

theorem keeps_between (hs : s.Sound) (hh : s.holding = h) (hcalls : t.phase.isCalling = false)
    (ho : t.phase.isOpen = true → s.transfer.phase.isOpen = true)
    (hp : Passes s.files h.path? files (.ofPhase t.phase)) : s.Keeps (s.between t files) :=
  keeps_of_passes hs (hh ▸ hp) rfl rfl rfl hcalls.symm ho

theorem perform_remove (s : Session) (t : Transfer) (files : Files) (file : Path) :
    (s.between t files).perform (.remove file) = s.between t (files.erase file) := rfl

theorem foldl_restEffects (s : Session) (t u : Transfer) (files : Files) (failure : Failure) (draw : Float) :
    (u.restEffects failure draw).foldl perform (s.between t files) = s.between t files := rfl

/-- A token that is given up is that of the file that is held. -/
theorem foldl_discards (s : Session) (t : Transfer) (resume : Option ResumeToken) :
    ∃ files, (Transfer.discards resume).foldl perform (s.between t s.files) = s.between t files ∧
      Passes s.files (Holding.ofToken resume).path? files .nothing := by
  cases resume with
  | none => exact ⟨s.files, rfl, passes_keep trivial rfl⟩
  | some token => exact ⟨_, rfl, passes_discard s.files token⟩

theorem keeps_begin (hs : s.Sound) (hc : s.call = none) {c : Bool}
    (hf : Transfer.fits s.transfer.phase (.begin c) = true) : s.Keeps (s.feed (.begin c)) := by
  obtain ⟨t, effects, hstep, he⟩ := s.feed_spec (.begin c)
  rw [he]
  cases hstep with
  | ignore hn =>
    rw [hf] at hn
    cases hn
  | reject hp =>
    rw [between_eq hc]
    exact keeps_between hs (holding_of_phase hc hp) rfl (fun ho => by cases ho) (passes_keep trivial rfl)
  | @stop resume hp =>
    obtain ⟨files, hd, hpass⟩ := s.foldl_discards (s.transfer.finish (.error .cancelled)) resume
    rw [between_eq hc, hd]
    exact keeps_between hs (holding_of_phase hc hp) rfl (fun ho => by cases ho) hpass
  | @call resume hp =>
    obtain ⟨request, hr⟩ := hs.asked (by rw [hp]; rfl)
    simp only [List.foldl_cons, List.foldl_nil, perform, hr]
    exact keeps_callFor hs hc hp hr rfl

theorem keeps_interrupt (hs : s.Sound) (hp : s.transfer.phase = .resting resume) : s.Keeps (s.feed .interrupt) := by
  have hc := hs.call_eq_none (by rw [hp]; rfl)
  obtain ⟨t, effects, hstep, he⟩ := s.feed_spec .interrupt
  rw [he]
  cases hstep with
  | ignore hn =>
    rw [hp] at hn
    cases hn
  | interrupt hp' =>
    cases hp.symm.trans hp'
    obtain ⟨files, hd, hpass⟩ := s.foldl_discards (s.transfer.finish (.error .cancelled)) resume
    rw [between_eq hc, hd]
    exact keeps_between hs (holding_of_phase hc hp) rfl (fun ho => by cases ho) hpass

theorem keeps_wake (hs : s.Sound) (hp : s.transfer.phase = .resting resume) : s.Keeps (s.feed .wake) := by
  have hc := hs.call_eq_none (by rw [hp]; rfl)
  have hh := holding_of_phase hc hp
  obtain ⟨t, effects, hstep, he⟩ := s.feed_spec .wake
  rw [he]
  cases hstep with
  | ignore hn =>
    rw [hp] at hn
    cases hn
  | wake hp' =>
    cases hp.symm.trans hp'
    rw [List.foldl_nil, between_eq hc]
    exact keeps_between hs hh rfl (fun _ => by rw [hp]; rfl) (passes_keep (hs.isOn hh) rfl)

theorem keeps_settle (hs : s.Sound) {result : Except Failure Path} (hc : s.call = some (.over result)) (draw : Float) :
    s.Keeps ({ s with call := none }.feed (.settle result draw)) := by
  have hcalling := hs.calling hc
  have hopen := isOpen_of_isCalling hcalling
  have hh : s.holding = .ofCall (.over result) := by rw [holding, hc]
  have hon := hs.isOn hh
  obtain ⟨t, effects, hstep, he⟩ := feed_spec { s with call := none } (.settle result draw)
  have he : { s with call := none }.feed (.settle result draw) = effects.foldl perform (s.between t s.files) := he
  rw [he]
  cases hstep with
  | ignore hn =>
    obtain ⟨noted, hp⟩ := eq_calling hcalling
    simp only [hp, Transfer.fits] at hn
    cases hn
  | @abortFile v file =>
    rw [List.foldl_cons, List.foldl_nil, perform_remove]
    exact keeps_between hs hh rfl (fun ho => by cases ho) (passes_erase s.files file)
  | @abort v f =>
    obtain ⟨files, hd, hpass⟩ := s.foldl_discards (s.transfer.finish (.error (.oversize s.transfer.limit v))) f.resume?
    exact hd ▸ keeps_between hs hh rfl (fun ho => by cases ho) hpass
  | fetch => exact keeps_between hs hh rfl (fun _ => hopen) (passes_keep hon rfl)
  | retry =>
    rw [foldl_restEffects]
    exact keeps_between hs hh rfl (fun _ => hopen) (passes_keep hon rfl)
  | @fail f =>
    obtain ⟨files, hd, hpass⟩ := s.foldl_discards (s.transfer.finish (.error f.withoutResume)) f.resume?
    exact hd ▸ keeps_between hs hh rfl (fun ho => by cases ho) hpass

theorem keeps_measure (hs : s.Sound) {file : Path} (hp : s.transfer.phase = .measuring file)
    (size : Except IoKind Nat) (draw : Float) : s.Keeps (s.feed (.measure size draw)) := by
  have hc := hs.call_eq_none (by rw [hp]; rfl)
  have hh : s.holding = .file file := holding_of_phase hc hp
  obtain ⟨t, effects, hstep, he⟩ := s.feed_spec (.measure size draw)
  rw [he, between_eq hc]
  cases hstep with
  | ignore hn =>
    rw [hp] at hn
    cases hn
  | retryLost hp' =>
    cases hp.symm.trans hp'
    rw [List.foldl_cons, perform_remove, foldl_restEffects]
    exact keeps_between hs hh rfl (fun _ => by rw [hp]; rfl) (passes_erase s.files file)
  | lose hp' | exceed hp' =>
    cases hp.symm.trans hp'
    rw [List.foldl_cons, List.foldl_nil, perform_remove]
    exact keeps_between hs hh rfl (fun ho => by cases ho) (passes_erase s.files file)
  | complete hp' =>
    cases hp.symm.trans hp'
    exact keeps_between hs hh rfl (fun ho => by cases ho) (passes_keep (hs.isOn hh) rfl)

/-! ### The steps -/

theorem keeps_step {action : SessionAction} (hs : s.Sound) (h : s.step? action = some s')
    (hf : action.isForeign = false) : s.Keeps s' := by
  cases step_of_step? h with
  | fail hp | begin hp => exact keeps_begin hs (hs.call_eq_none (by rw [hp]; rfl)) (by rw [hp]; rfl)
  | interrupt hp => exact keeps_interrupt hs hp
  | net hc ha hn => exact keeps_net hs hc ha hn
  | spoil hc hn => exact keeps_spoil hs hc hn
  | settle hc => exact keeps_settle hs hc _
  | measure hp => exact keeps_measure hs hp _ _
  | wake hp => exact keeps_wake hs hp
  | cancel => exact keeps_of_passes hs (passes_keep hs.tidy.on rfl) rfl rfl rfl hs.calls id
  | others => cases hf

theorem sound_others (hs : s.Sound) (hsame : ∀ path ∈ s.created, files.get? path = s.files.get? path)
    (hb : files.blocks s.transport.folder = false) : { s with files }.Sound := by
  have htidy : Tidy files s.created s.holding :=
    { on := hs.tidy.on.congr fun path he => hsame path (hs.tidy.mem path he)
      mem := hs.tidy.mem
      gone := fun path hm hne => (hsame path hm).trans (hs.tidy.gone path hm hne) }
  exact ⟨htidy, hs.drawn, hb, hs.calls, hs.asked, hs.located⟩

theorem sound_step {action : SessionAction} (hs : s.Sound) (h : s.step? action = some s') : s'.Sound := by
  cases hf : action.isForeign with
  | false => exact (keeps_step hs h hf).sound
  | true =>
    cases step_of_step? h with
    | others hsame hb => exact sound_others hs hsame hb
    | _ => cases hf

theorem sound_run {actions : List SessionAction} (hs : s.Sound) (h : s.run? actions = some s') : s'.Sound := by
  induction actions generalizing s with
  | nil =>
    cases h
    exact hs
  | cons action rest ih =>
    obtain ⟨e, he, hr⟩ := Option.bind_eq_some_iff.mp h
    exact ih (sound_step hs he) hr

theorem phase_start (transport : HttpTransport) (id : TransferId) (request : Request) (limit : Nat)
    (policy : RetryPolicy) (files : Files) : (∃ r, request.forTransport = .ok r) ∧
      (start transport id request limit policy files).transfer.phase = .ready none ∨
    ∃ failure, (start transport id request limit policy files).transfer.phase = .doomed failure := by
  cases hr : request.forTransport with
  | ok r => exact Or.inl ⟨⟨r, rfl⟩, by simp only [start, Transfer.start, hr]⟩
  | error failure => exact Or.inr ⟨failure, by simp only [start, Transfer.start, hr]⟩

theorem sound_start {transport : HttpTransport} {id : TransferId} {request : Request} {limit : Nat}
    {policy : RetryPolicy} {made : Files} (hm : files.makeFolder transport.folder = .ok made) :
    (start transport id request limit policy files).Sound := by
  have hclear := (clear_of_makeFolder hm).1
  have htidy : Tidy files [] .nothing := ⟨trivial, fun _ he => (by cases he), fun _ hm => (by cases hm)⟩
  have hdrawn : ∀ path ∈ [], IsDrawn transport.folder path := fun _ hm => (by cases hm)
  rcases phase_start transport id request limit policy files with ⟨hr, hp⟩ | ⟨failure, hp⟩
  · have hh := holding_of_phase rfl hp
    exact ⟨hh ▸ htidy, hdrawn, hclear, by rw [hp]; rfl, fun _ => hr, fun hne => absurd rfl hne⟩
  · have hh := holding_of_phase rfl hp
    refine ⟨hh ▸ htidy, hdrawn, hclear, by rw [hp]; rfl, fun ho => ?_, fun hne => absurd rfl hne⟩
    rw [hp] at ho
    cases ho

end Session

/-! ### What is left -/

/-- What holds of the files of a transfer. -/
structure Session.LeavesNoOther (s : Session) : Prop where
  /-- they are in the folder of the transport, and a step of the transfer changes only files of its own -/
  drawn : ∀ path ∈ s.created, IsDrawn s.transport.folder path
  spares : ∀ action s', s.step? action = some s' → action.isForeign = false →
    ∀ path, path ∉ s'.created → s'.files.get? path = s.files.get? path
  /-- a transfer that has failed leaves none -/
  failed : ∀ failure, s.transfer.result? = some (.error failure) → ∀ path ∈ s.created, s.files.get? path = none
  /-- one that has succeeded leaves the one that it hands over -/
  fetched : ∀ file, s.transfer.result? = some (.ok file) → file ∈ s.created ∧
    (∃ bytes, s.files.get? file = some bytes) ∧ ∀ path ∈ s.created, path ≠ file → s.files.get? path = none
  /-- where a call has failed with a token, the file of the token is there, and the token can be used -/
  token : ∀ failure token, s.call = some (.over (.error failure)) → failure.resume? = some token →
    ∃ part bytes, Partial.decode? token = some part ∧ part.path ∈ s.created ∧
      s.files.get? part.path = some bytes ∧ bytes.length = part.received.toNat ∧ 0 < part.received ∧
      part.validator.isSome = true

theorem Session.Sound.leavesNoOther (hs : s.Sound) : s.LeavesNoOther where
  drawn := hs.drawn
  spares action s' h hf := (keeps_step hs h hf).spares
  failed failure hr path hm := by
    have hp := Transfer.phase_of_result? hr
    have hc := hs.call_eq_none (by rw [hp]; rfl)
    refine hs.tidy.gone path hm fun he => ?_
    rw [holding_of_phase hc hp] at he
    cases he
  fetched file hr := by
    have hp := Transfer.phase_of_result? hr
    have hc := hs.call_eq_none (by rw [hp]; rfl)
    have hh := holding_of_phase hc hp
    obtain ⟨hon, hmem, hgone⟩ := hs.tidy
    rw [hh] at hon hmem hgone
    exact ⟨hmem file rfl, hon, fun path hm hne => hgone path hm fun he => hne (Option.some.inj he).symm⟩
  token failure token hc ht := by
    have hh : s.holding = .remembered token := by
      simp only [holding, hc, Holding.ofCall, ht, Holding.ofToken]
    obtain ⟨hon, hmem, -⟩ := hs.tidy
    rw [hh] at hon hmem
    obtain ⟨part, hd, ⟨bytes, hb, hl⟩, hr, hv⟩ := hon
    exact ⟨part, bytes, hd, hmem _ (path?_remembered hd), hb, hl, hr, hv⟩

/-- Whatever the network, the disk, the caller and others do, a transfer over HTTP leaves no file but its result. -/
theorem leaves_no_other {transport : HttpTransport} {id : TransferId} {request : Request} {limit : Nat}
    {policy : RetryPolicy} {made : Files} {actions : List SessionAction}
    (hm : files.makeFolder transport.folder = .ok made)
    (h : (Session.start transport id request limit policy files).run? actions = some s) : s.LeavesNoOther :=
  (Session.sound_run (Session.sound_start hm) h).leavesNoOther

/-- A transport for one network. -/
def nearby : HttpTransport :=
  ⟨[(3, ⟨"http", "", "", some (.name "o"), none, .segments [""], none, none⟩)], "t", .ofMillis 1000⟩

/-- The connection breaks behind the second byte, and the next attempt gets the rest. -/
theorem leaves_no_other_resumed :
    let actions : List SessionAction := [.go, .net (.head ⟨200, [("etag", "a")], none⟩), .net (.chunk [1, 2]),
      .net (.broken "reset"), .settle 0, .wake, .go,
      .net (.head ⟨206, [("etag", "a"), ("content-range", "bytes 2-3/4")], none⟩), .net (.chunk [3, 4]), .net .finish,
      .settle 0, .measure (.ok 4) 0]
    ∃ s, (Session.start nearby ⟨1⟩ (.backup ⟨3, "archive", "latest"⟩ []) 10 ⟨2, .ofMillis 1, .ofMillis 1, 2, false⟩
        .empty).run? actions = some s ∧ s.LeavesNoOther ∧
      ∃ file, s.transfer.result? = some (.ok file) ∧ s.files.get? file = some [1, 2, 3, 4] := by
  intro actions
  have hm : Files.empty.makeFolder nearby.folder = .ok ⟨[], ["t"], 0⟩ := rfl
  have hrun : ((Session.start nearby ⟨1⟩ (.backup ⟨3, "archive", "latest"⟩ []) 10
      ⟨2, .ofMillis 1, .ofMillis 1, 2, false⟩ .empty).run? actions).map
        (fun s => s.transfer.result?.bind fun result => result.toOption.bind s.files.get?) =
      some (some [1, 2, 3, 4]) := by decide +kernel
  obtain ⟨s, hr, hcontent⟩ := Option.map_eq_some_iff.mp hrun
  obtain ⟨result, hresult, hfile⟩ := Option.bind_eq_some_iff.mp hcontent
  cases result with
  | error failure => cases hfile
  | ok file => exact ⟨s, hr, leaves_no_other hm hr, file, hresult, hfile⟩

end Http
end SealedDownload
