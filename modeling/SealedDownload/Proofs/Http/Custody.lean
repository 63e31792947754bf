import SealedDownload.Proofs.Http.Steps
import SealedDownload.Http.Session

/-! In whose hands a file of the HTTP transport is: a fetch works on it, a token remembers it, or it has been handed
    over. Whatever happens to a fetch or a token, the file is passed on or removed, and no other one is touched. -/

namespace SealedDownload

/-- Whether the file of a partial file is there, and as long as its record says. -/
def Partial.IsOn (part : Partial) (files : Files) : Prop :=
  ∃ bytes, files.get? part.path = some bytes ∧ bytes.length = part.received.toNat

/-- Whether a token remembers a file that is there, as long as it says, with something in it and something to know the
    object by. -/
def ResumeToken.IsGood (token : ResumeToken) (files : Files) : Prop :=
  ∃ part, Partial.decode? token = some part ∧ part.IsOn files ∧ 0 < part.received ∧ part.validator.isSome = true

namespace Http

/-- What a fetch has of its file. -/
def Fetch.Has (f : Fetch) (files : Files) : Prop :=
  match f.phase with
  | .sending _ => f.part.received = 0 ∨ f.part.IsOn files
  | .reading _ => f.part.IsOn files
  | .ended _ => False

/-- In whose hands a file is. -/
inductive Holding where
  | nothing
  | fetch (f : Fetch)
  | remembered (token : ResumeToken)
  | file (path : Path)

namespace Holding

/-- What there is in place of a token. -/
def ofToken : Option ResumeToken → Holding
  | none => .nothing
  | some token => .remembered token

/-- What a call leaves. -/
def ofCall : Call → Holding
  | .going f => .fetch f
  | .over (.ok path) => .file path
  | .over (.error failure) => ofToken failure.resume?

/-- The file that is meant. -/
def path? : Holding → Option Path
  | .nothing => none
  | .fetch f => some f.part.path
  | .remembered token => (Partial.decode? token).map (·.path)
  | .file path => some path

/-- What there is of the file. -/
def IsOn (files : Files) : Holding → Prop
  | .nothing => True
  | .fetch f => f.Has files
  | .remembered token => token.IsGood files
  | .file path => ∃ bytes, files.get? path = some bytes

end Holding

/-- A file is passed on as it should be, or removed, and no other one is touched. -/
structure Passes (files : Files) (held : Option Path) (files' : Files) (h : Holding) : Prop where
  on : h.IsOn files'
  path : ∀ path, h.path? = some path → held = some path
  gone : ∀ path, held = some path → h.path? ≠ some path → files'.get? path = none
  frame : ∀ path, held ≠ some path → files'.get? path = files.get? path

variable {f f' : Fetch} {files files' : Files} {failure : Failure} {input : FetchInput} {effects : List FetchEffect}
  {again : Bool} {part : Partial} {path : Path} {held : Option Path} {h : Holding} {token : ResumeToken}

/-! ### What is there depends on the file alone -/

theorem isOn_congr (ho : part.IsOn files) (hg : files'.get? part.path = files.get? part.path) : part.IsOn files' := by
  unfold Partial.IsOn
  rw [hg]
  exact ho

theorem Fetch.Has.congr (hf : f.Has files) (hg : files'.get? f.part.path = files.get? f.part.path) : f.Has files' := by
  unfold Fetch.Has at hf ⊢
  split at hf
  · exact hf.imp_right fun ho => isOn_congr ho hg
  · exact isOn_congr hf hg
  · exact hf

theorem path?_remembered (hd : Partial.decode? token = some part) :
    (Holding.remembered token).path? = some part.path := by
  rw [Holding.path?, hd, Option.map_some]

theorem Holding.IsOn.congr (ho : h.IsOn files)
    (hg : ∀ path, h.path? = some path → files'.get? path = files.get? path) : h.IsOn files' := by
  cases h with
  | nothing => trivial
  | fetch f => exact Fetch.Has.congr ho (hg _ rfl)
  | remembered token =>
    obtain ⟨part, hd, hon, hr, hv⟩ := ho
    exact ⟨part, hd, isOn_congr hon (hg _ (path?_remembered hd)), hr, hv⟩
  | file path =>
    obtain ⟨bytes, hb⟩ := ho
    exact ⟨bytes, (hg path rfl).trans hb⟩

/-! ### Passing on -/

theorem passes_keep (ho : h.IsOn files) (hp : h.path? = held) : Passes files held files h where
  on := ho
  path _ he := hp ▸ he
  gone _ he hne := absurd (hp.trans he) hne
  frame _ _ := rfl

theorem passes_erase (files : Files) (path : Path) : Passes files (some path) (files.erase path) .nothing where
  on := trivial
  path _ he := by cases he
  gone other he _ := by
    cases he
    exact Files.get?_erase files path
  frame other hne := Files.get?_erase_of_ne files fun he => hne (he ▸ rfl)

theorem passes_write {content : Octets} (ho : h.IsOn (files.write path content)) (hp : h.path? = some path) :
    Passes files (some path) (files.write path content) h where
  on := ho
  path _ he := hp ▸ he
  gone _ he hne := absurd (hp.trans he) hne
  frame _ hne := Files.get?_write_of_ne files content fun he => hne (he ▸ rfl)

theorem passes_discard (files : Files) (token : ResumeToken) :
    Passes files ((Partial.decode? token).map (·.path)) (Fetch.discard files token) .nothing := by
  unfold Fetch.discard
  cases Partial.decode? token with
  | none => exact passes_keep trivial rfl
  | some part => exact passes_erase files part.path

/-! ### A fetch -/

theorem ofFetch_of_ended {result : Except Failure Path} (hp : f.phase = .ended result) :
    Call.ofFetch f = .over result := by
  simp only [Call.ofFetch, Fetch.result?, hp]

/-- A call that goes on has a fetch that has not ended. -/
theorem eq_of_ofFetch (h : Call.ofFetch f = .going f') : f' = f ∧ f.result? = none := by
  unfold Call.ofFetch at h
  split at h
  · cases h
  · cases h
    exact ⟨rfl, ‹_›⟩

theorem ofFetch_of_has (h : f.Has files) : Call.ofFetch f = .going f := by
  cases hp : f.phase with
  | sending | reading => simp only [Call.ofFetch, Fetch.result?, hp]
  | ended => simp only [Fetch.Has, hp] at h

theorem isOn_of_has (h : f.Has files) (hr : 0 < f.part.received) : f.part.IsOn files := by
  cases hp : f.phase with
  | sending again =>
    simp only [Fetch.Has, hp] at h
    refine h.resolve_left fun hz => ?_
    rw [hz] at hr
    exact absurd hr (by decide)
  | reading total => simpa only [Fetch.Has, hp] using h
  | ended => simp only [Fetch.Has, hp] at h

theorem passes_going (hf : f.Has files) : Passes files (some f.part.path) files (.ofCall (.ofFetch f)) := by
  rw [ofFetch_of_has hf]
  exact passes_keep hf rfl

theorem passes_written {content : Octets} (hf : f.Has (files.write f.part.path content)) :
    Passes files (some f.part.path) (files.write f.part.path content) (.ofCall (.ofFetch f)) := by
  rw [ofFetch_of_has hf]
  exact passes_write hf rfl

/-- A fetch that fails leaves a good token or no file. -/
theorem passes_failed (hf : Fetch.Failed f files failure f' files') (hn : failure.resume? = none)
    (ho : 0 < f.part.received → f.part.IsOn files) :
    Passes files (some f.part.path) files' (.ofCall (.ofFetch f')) := by
  cases hf with
  | keep hi hr =>
    obtain ⟨hpos, hv⟩ := Bool.and_eq_true_iff.mp hr
    have hpos := of_decide_eq_true hpos
    rw [ofFetch_of_ended rfl]
    simp only [Holding.ofCall, Fetch.resume?_withResume hi, Holding.ofToken]
    refine passes_keep ⟨f.part, f.part.decode?_encode, ho hpos, hpos, hv⟩ ?_
    simp only [Holding.path?, Partial.decode?_encode, Option.map_some]
  | drop =>
    rw [ofFetch_of_ended rfl]
    simp only [Holding.ofCall, hn, Holding.ofToken]
    exact passes_erase files f.part.path

theorem passes_sends (hs : Fetch.Sends f files again f' files' effects)
    (ho : f.part.received = 0 ∨ f.part.IsOn files) :
    Passes files (some f.part.path) files' (.ofCall (.ofFetch f')) := by
  cases hs with
  | send => exact passes_going (f := { f with phase := .sending again }) ho
  | block _ hf =>
    refine passes_failed hf rfl fun hr => ho.resolve_left fun hz => ?_
    rw [hz] at hr
    exact absurd hr (by decide)

/-! ### Other files -/

theorem frame_of_failed (h : Fetch.Failed f files failure f' files') (hne : path ≠ f.part.path) :
    files'.get? path = files.get? path := by
  cases h with
  | keep => rfl
  | drop => exact Files.get?_erase_of_ne files hne

theorem frame_of_sends (h : Fetch.Sends f files again f' files' effects) (hne : path ≠ f.part.path) :
    files'.get? path = files.get? path := by
  cases h with
  | send => rfl
  | block _ hf => exact frame_of_failed hf hne

/-- Whatever comes to a fetch, it changes no file but its own. -/
theorem frame_of_step (h : Fetch.Step f files input f' files' effects) (hne : path ≠ f.part.path) :
    files'.get? path = files.get? path := by
  cases h with
  | ignore | complete => rfl
  | restart _ _ _ _ hd => exact frame_of_sends hd hne
  | append | begin | receive => exact Files.get?_write_of_ne files _ hne
  | refuse _ _ hf | fail _ hf => exact frame_of_failed hf hne

/-! ### What comes to a fetch -/

/-- The bytes of a chunk are counted as they are appended. -/
theorem isOn_append {bytes : Octets} (ho : part.IsOn files)
    (hl : part.received.toNat + bytes.length < UInt64.size) :
    ({ part with received := part.received + UInt64.ofNat bytes.length } : Partial).IsOn
      (files.append part.path bytes) := by
  obtain ⟨content, hg, hc⟩ := ho
  refine ⟨content ++ bytes, Files.get?_append bytes hg, ?_⟩
  have hb : (UInt64.ofNat bytes.length).toNat = bytes.length := UInt64.toNat_ofNat_of_lt' (by omega)
  rw [List.length_append, UInt64.toNat_add, hb, hc, Nat.mod_eq_of_lt hl]

/-- Whatever comes to a fetch, its file is passed on or removed. -/
theorem passes_step (hs : Fetch.Step f files input f' files' effects) (hf : f.Has files)
    (hl : ∀ bytes, input = .chunk bytes → f.part.received.toNat + bytes.length < UInt64.size) :
    Passes files (some f.part.path) files' (.ofCall (.ofFetch f')) := by
  cases hs with
  | ignore => exact passes_going hf
  | restart _ _ _ _ hd => exact passes_sends (f := f.anew) hd (Or.inl rfl)
  | @append again head _ _ hr =>
    obtain ⟨content, hg, hc⟩ := isOn_of_has hf hr
    have hg' : (files.append f.part.path []).get? f.part.path = some content := by
      rw [Files.get?_append [] hg, List.append_nil]
    exact passes_written (f := f.taking head f.part.received) ⟨content, hg', hc⟩
  | @begin again head =>
    exact passes_written (f := f.taking head 0) ⟨[], Files.get?_write .., rfl⟩
  | refuse _ _ hd => exact passes_failed hd rfl (isOn_of_has hf)
  | @receive total bytes hp =>
    have ho : f.part.IsOn files := by simpa only [Fetch.Has, hp] using hf
    have hon := isOn_append ho (hl bytes rfl)
    have hf' : Fetch.Has { f with part := { f.part with received := f.part.received + UInt64.ofNat bytes.length } }
        (files.append f.part.path bytes) := by simpa only [Fetch.Has, hp] using hon
    exact passes_written hf'
  | @complete total hp =>
    have ho : f.part.IsOn files := by simpa only [Fetch.Has, hp] using hf
    obtain ⟨content, hg, -⟩ := ho
    rw [ofFetch_of_ended rfl]
    exact passes_keep ⟨content, hg⟩ rfl
  | fail ht hd => exact passes_failed hd (Fetch.resume?_of_trouble? ht) (isOn_of_has hf)

end Http
end SealedDownload
