import SealedDownload.Config.Wire
import SealedDownload.Proofs.Json.Record
import SealedDownload.Proofs.Transfer.Log

/-! Settings that are written and read again. All of them come back as they were but the spans of time, which are
    written as complete milliseconds in a word of 64 bits: what a span has beyond its last complete millisecond is lost,
    and one of `2 ^ 64` milliseconds or more comes back as what is left of it in the word. Pauses are announced in the
    same way. -/

namespace SealedDownload

/-! ### Spans -/

namespace Span

/-- What comes back of a span. -/
def stored (s : Span) : Span := .ofMillis s.millisWord.toNat

variable {s : Span}

theorem toNat_millisWord (s : Span) : s.millisWord.toNat = s.millis % UInt64.size := UInt64.toNat_ofNat'

theorem nanos_stored (s : Span) : s.stored.nanos = s.millis % UInt64.size * 1000000 := by
  have hlt : s.millis % UInt64.size < UInt64.size := Nat.mod_lt _ (by decide)
  unfold stored ofMillis ofNanos
  rw [toNat_millisWord, dif_pos (by omega)]

/-- A span that fits is cut off behind its last complete millisecond. -/
theorem nanos_stored_of_lt (h : s.millis < UInt64.size) : s.stored.nanos + s.nanos % 1000000 = s.nanos := by
  rw [nanos_stored, Nat.mod_eq_of_lt h]
  exact Nat.div_add_mod' s.nanos 1000000

theorem ofJson?_toJson (s : Span) : ofJson? s.toJson = some s.stored := by
  unfold ofJson? toJson
  rw [Json.natBelow?_ofNat s.millisWord.toNat_lt]
  rfl

end Span

/-! ### Records -/

namespace Json

variable {x : Float}

theorem isWritten_ofFloat (h : (ofFloat x).float? = some x) : (ofFloat x).IsWritten := by
  unfold ofFloat at h ⊢
  split
  · rename_i hf
    rw [if_pos hf] at h
    refine .number (isNumber_of_numberParts? ?_)
    cases hp : numberParts? (Octets.ofText (Decimal.literal x)) with
    | some parts => rfl
    | none =>
      simp only [float?, hp] at h
      cases h
  · exact .null

end Json

namespace RetryPolicy

variable {p : RetryPolicy}

/-- A policy with its two delays as they come back. -/
def stored (p : RetryPolicy) : RetryPolicy :=
  { p with initialDelay := p.initialDelay.stored, maxDelay := p.maxDelay.stored }

/-- The fields of the record of a policy. -/
def fields (p : RetryPolicy) : Json.Fields :=
  [("max_attempts", .ofNat p.maxAttempts.toNat), ("initial_delay", p.initialDelay.toJson),
    ("max_delay", p.maxDelay.toJson), ("backoff_multiplier", .ofFloat p.multiplier), ("jitter", .bool p.jitter)]

theorem toJson_eq (p : RetryPolicy) : p.toJson = .ofFields p.fields := rfl

theorem isWritten_toJson (h : (Json.ofFloat p.multiplier).float? = some p.multiplier) : p.toJson.IsWritten := by
  rw [toJson_eq]
  refine Json.isWritten_ofFields ?_
  simp only [fields, List.forall_mem_cons]
  exact ⟨Json.isWritten_ofNat _, Json.isWritten_ofNat _, Json.isWritten_ofNat _, Json.isWritten_ofFloat h, .bool _,
    List.forall_mem_nil _⟩

theorem ofJson?_toJson (h : (Json.ofFloat p.multiplier).float? = some p.multiplier) : ofJson? p.toJson = some p.stored := by
  have hf : p.toJson.fields? fieldNames = some p.fields := by
    rw [toJson_eq]
    exact Json.fields?_declared rfl rfl
  have ha : p.fields.optional "max_attempts" standard.maxAttempts Json.word32? = some p.maxAttempts :=
    Json.word32?_ofNat p.maxAttempts
  have hi : p.fields.optional "initial_delay" standard.initialDelay Span.ofJson? = some p.initialDelay.stored :=
    p.initialDelay.ofJson?_toJson
  have hd : p.fields.optional "max_delay" standard.maxDelay Span.ofJson? = some p.maxDelay.stored :=
    p.maxDelay.ofJson?_toJson
  have hx : p.fields.optional "backoff_multiplier" standard.multiplier Json.float? = some p.multiplier := h
  have hj : p.fields.optional "jitter" standard.jitter Json.bool? = some p.jitter := rfl
  unfold ofJson?
  rw [hf]
  simp [ha, hi, hd, hx, hj, stored]

end RetryPolicy

namespace TransferSettings

variable {s : TransferSettings} {folder : String}

/-- The settings with their timeout and their policy as they come back. -/
def stored (s : TransferSettings) : TransferSettings := { s with retry := s.retry.stored, timeout := s.timeout.stored }

/-- The fields of the record of the settings. -/
def fields (s : TransferSettings) : Json.Fields :=
  [("max_concurrent_transfers", .ofNat s.maxConcurrent.toNat), ("retry", s.retry.toJson),
    ("request_timeout", s.timeout.toJson), ("temp_dir", .ofText s.folder)]

theorem toJson_eq (s : TransferSettings) : s.toJson = .ofFields s.fields := rfl

theorem isWritten_toJson (h : (Json.ofFloat s.retry.multiplier).float? = some s.retry.multiplier) :
    s.toJson.IsWritten := by
  rw [toJson_eq]
  refine Json.isWritten_ofFields ?_
  simp only [fields, List.forall_mem_cons]
  exact ⟨Json.isWritten_ofNat _, RetryPolicy.isWritten_toJson h, Json.isWritten_ofNat _, .text _, List.forall_mem_nil _⟩

theorem ofJson?_toJson (h : (Json.ofFloat s.retry.multiplier).float? = some s.retry.multiplier) :
    ofJson? folder s.toJson = some s.stored := by
  have hf : s.toJson.fields? fieldNames = some s.fields := by
    rw [toJson_eq]
    exact Json.fields?_declared rfl rfl
  have hc : s.fields.optional "max_concurrent_transfers" (standard folder).maxConcurrent Json.word64? =
      some s.maxConcurrent := Json.word64?_ofNat s.maxConcurrent
  have hr : s.fields.optional "retry" (standard folder).retry RetryPolicy.ofJson? = some s.retry.stored :=
    RetryPolicy.ofJson?_toJson h
  have ht : s.fields.optional "request_timeout" (standard folder).timeout Span.ofJson? = some s.timeout.stored :=
    s.timeout.ofJson?_toJson
  have hd : s.fields.optional "temp_dir" (standard folder).folder Json.text? = some s.folder := Json.text?_ofText s.folder
  unfold ofJson?
  rw [hf]
  simp [hc, hr, ht, hd, stored]

end TransferSettings

/-! ### Networks -/

namespace Origins

variable {origins : Origins} {number : UInt32} {base : String} {entries : List (UInt32 × String)}

theorem place_of_lt (h : ∀ e ∈ entries, e.1 < number) : place number base entries = entries ++ [(number, base)] := by
  induction entries with
  | nil => rfl
  | cons entry rest ih =>
    have hlt : entry.1 < number := h entry List.mem_cons_self
    have hrest := ih fun e he => h e (List.mem_cons_of_mem _ he)
    unfold place
    rw [if_neg (UInt32.not_lt.mpr (UInt32.le_of_lt hlt)), if_neg (UInt32.ne_of_lt hlt).symm, hrest]
    rfl

theorem entries_foldl_insert (h : (origins.entries ++ entries).Pairwise fun a b => a.1 < b.1) :
    (entries.foldl (fun origins (number, base) => origins.insert number base) origins).entries =
      origins.entries ++ entries := by
  induction entries generalizing origins with
  | nil => exact (List.append_nil _).symm
  | cons entry rest ih =>
    have hlt : ∀ e ∈ origins.entries, e.1 < entry.1 := fun e he =>
      (List.pairwise_append.mp h).2.2 e he entry List.mem_cons_self
    have hplace : (origins.insert entry.1 entry.2).entries = origins.entries ++ [entry] := place_of_lt hlt
    have happend : (origins.insert entry.1 entry.2).entries ++ rest = origins.entries ++ entry :: rest := by
      rw [hplace, List.append_assoc]
      rfl
    rw [List.foldl_cons, ih (happend ▸ h), happend]

/-- Networks in the order of their numbers are those that are made of them. -/
theorem ofList_entries (origins : Origins) : ofList origins.entries = origins := by
  have he : (ofList origins.entries).entries = origins.entries := entries_foldl_insert origins.ordered
  cases hl : ofList origins.entries with
  | mk entries ordered =>
    rw [hl] at he
    cases origins
    cases he
    rfl

theorem number?_escape (number : UInt32) : number? (Json.escape (toString number)) = some number := by
  have ht : Json.escape (toString number) = Octets.ofText (toString number.toNat) := Json.escape_toString number.toNat
  rw [ht]
  exact Json.word32?_ofNat number

theorem base?_object (base : String) : base? (.object [Json.member "base_url" (.ofText base)]) = some base := by
  unfold base?
  rw [Json.fields?_single]
  exact Json.text?_ofText base

theorem isWritten_base (base : String) : (Json.object [Json.member "base_url" (.ofText base)]).IsWritten :=
  Json.isWritten_single "base_url" (.text base)

theorem entries?_toJson (entries : List (UInt32 × String)) : entries? (entries.map fun entry =>
    Json.member (toString entry.1) (.object [Json.member "base_url" (.ofText entry.2)])) = some entries := by
  induction entries with
  | nil => rfl
  | cons entry rest ih =>
    rw [List.map_cons, Json.member, entries?, number?_escape, base?_object, ih]
    rfl

theorem ofJson?_toJson (origins : Origins) : ofJson? origins.toJson = some origins := by
  have he : ofJson? origins.toJson = (entries? (origins.entries.map fun entry =>
      Json.member (toString entry.1) (.object [Json.member "base_url" (.ofText entry.2)]))).map ofList := rfl
  rw [he, entries?_toJson, Option.map_some, ofList_entries]

theorem isWritten_toJson (origins : Origins) : origins.toJson.IsWritten := by
  refine .object (fun member hm => ?_) fun member hm => ?_
  · obtain ⟨entry, -, rfl⟩ := List.mem_map.mp hm
    exact ⟨toString entry.1, rfl⟩
  · obtain ⟨entry, -, rfl⟩ := List.mem_map.mp hm
    exact isWritten_base entry.2

end Origins

namespace Config

variable {c : Config}

theorem isWritten_limits (maxBackupSize : UInt64) : (limitsToJson maxBackupSize).IsWritten :=
  Json.isWritten_single "backup_max_download_size_bytes" (Json.isWritten_ofNat _)

theorem limitsOfJson?_limitsToJson (maxBackupSize : UInt64) :
    limitsOfJson? (limitsToJson maxBackupSize) = some maxBackupSize := by
  unfold limitsOfJson? limitsToJson
  rw [Json.fields?_single]
  exact Json.word64?_ofNat maxBackupSize

/-- Settings with all their spans as they come back. -/
def stored (c : Config) : Config := { c with transfer := c.transfer.stored }

/-- The fields of the record of settings. -/
def fields (c : Config) : Json.Fields :=
  [("transfer", c.transfer.toJson), ("limits", limitsToJson c.maxBackupSize), ("cdns", c.origins.toJson),
    ("event_channel_capacity", .ofNat c.eventCapacity.toNat)]

theorem toJson_eq (c : Config) : c.toJson = .ofFields c.fields := rfl

theorem isWritten_toJson (h : (Json.ofFloat c.transfer.retry.multiplier).float? = some c.transfer.retry.multiplier) :
    c.toJson.IsWritten := by
  rw [toJson_eq]
  refine Json.isWritten_ofFields ?_
  simp only [fields, List.forall_mem_cons]
  exact ⟨TransferSettings.isWritten_toJson h, isWritten_limits _, c.origins.isWritten_toJson, Json.isWritten_ofNat _,
    List.forall_mem_nil _⟩

theorem ofJson?_toJson (folder : String)
    (h : (Json.ofFloat c.transfer.retry.multiplier).float? = some c.transfer.retry.multiplier) :
    ofJson? folder c.toJson = some c.stored := by
  have hf : c.toJson.fields? fieldNames = some c.fields := by
    rw [toJson_eq]
    exact Json.fields?_declared rfl rfl
  have ht : c.fields.optional "transfer" (.standard folder) (TransferSettings.ofJson? folder) = some c.transfer.stored :=
    TransferSettings.ofJson?_toJson h
  have hl : c.fields.optional "limits" standardBackupSize limitsOfJson? = some c.maxBackupSize :=
    limitsOfJson?_limitsToJson c.maxBackupSize
  have ho : c.fields.optional "cdns" .standard Origins.ofJson? = some c.origins := c.origins.ofJson?_toJson
  have he : c.fields.optional "event_channel_capacity" standardEventCapacity Json.word64? = some c.eventCapacity :=
    Json.word64?_ofNat c.eventCapacity
  unfold ofJson?
  rw [hf]
  simp [ht, hl, ho, he, stored]

/-- Settings that are written and read again. -/
theorem ofText?_render (folder : String)
    (h : (Json.ofFloat c.transfer.retry.multiplier).float? = some c.transfer.retry.multiplier) :
    ofText? folder c.render = some c.stored := by
  have hr : Json.read? c.render = some c.toJson := Json.read?_render (isWritten_toJson h)
  unfold ofText?
  rw [hr]
  exact ofJson?_toJson folder h

end Config

/-! ### Pauses -/

namespace Transfer

/-- Each pause is announced by its milliseconds, right before it begins. -/
def Announces (effects : List Effect) : Prop :=
  ∀ before after id number millis message, effects = before ++ .emit (.retrying id number millis message) :: after →
    ∃ delay rest, after = .rest delay :: rest ∧ millis = delay.millisWord

variable {t t' : Transfer} {input : Input} {effects more : List Effect}

theorem announces_of_not_mem (h : ∀ id number millis message, .emit (.retrying id number millis message) ∉ effects) :
    Announces effects := by
  rintro before after id number millis message rfl
  exact absurd (List.mem_append_right before List.mem_cons_self) (h id number millis message)

theorem Announces.append (h : Announces effects) (hm : Announces more) : Announces (effects ++ more) := by
  intro before after id number millis message he
  rcases List.append_eq_append_iff.mp he with ⟨between, rfl, hmore⟩ | ⟨between, heffects, hafter⟩
  · exact hm between after id number millis message hmore
  · cases between with
    | nil => exact hm [] after id number millis message hafter.symm
    | cons effect between =>
      obtain ⟨rfl, rfl⟩ := List.cons.inj hafter
      obtain ⟨delay, rest, rfl, hd⟩ := h before between id number millis message heffects
      exact ⟨delay, rest ++ more, rfl, hd⟩

theorem announces_restEffects (t : Transfer) (failure : Failure) (draw : Float) :
    Announces (t.restEffects failure draw) := by
  intro before after id number millis message he
  cases before with
  | nil =>
    cases he
    exact ⟨_, [], rfl, rfl⟩
  | cons effect before =>
    have hrest : [Effect.rest (t.pause draw)] = before ++ .emit (.retrying id number millis message) :: after :=
      (List.cons.inj he).2
    cases before with
    | nil => cases hrest
    | cons other before => simp at hrest

theorem announces_discards (token : Option ResumeToken) : Announces (discards token) := by
  refine announces_of_not_mem fun id number millis message hm => ?_
  cases token with
  | none => cases hm
  | some token => cases List.mem_singleton.mp hm

theorem announces_step (h : Step t input t' effects) : Announces effects := by
  cases h with
  | stop | abort | fail | interrupt => exact announces_discards _
  | retry => exact announces_restEffects _ _ _
  | @retryLost file =>
    have hremove : Announces [.remove file] := announces_of_not_mem (by simp)
    exact hremove.append (announces_restEffects _ _ _)
  | ignore | reject | call | early | trip | publish | pass | abortFile | fetch | lose | exceed | complete | wake =>
    exact announces_of_not_mem (by simp)

/-- Whatever happens to a transfer, it announces its pauses. -/
theorem announces_run (t : Transfer) (inputs : List Input) : Announces (t.run inputs).2 := by
  induction inputs generalizing t with
  | nil => exact announces_of_not_mem fun _ _ _ _ hm => by cases hm
  | cons input rest ih => exact (announces_step (step_spec t input)).append (ih _)

end Transfer

namespace Config

/-- Settings come back from their text as they were, but for what spans have beyond complete milliseconds, and beyond a
    word of them. The announcement of a pause, which comes right before it, tells as much of it. -/
theorem spans_in_words (c : Config) (folder : String)
    (h : (Json.ofFloat c.transfer.retry.multiplier).float? = some c.transfer.retry.multiplier) :
    ofText? folder c.render = some c.stored ∧
    (∀ s : Span, s.stored.nanos = s.millis % UInt64.size * 1000000 ∧
      (s.millis < UInt64.size → s.stored.nanos + s.nanos % 1000000 = s.nanos)) ∧
    ∀ (t : Transfer) inputs before after id number millis message,
      (t.run inputs).2 = before ++ .emit (.retrying id number millis message) :: after →
        ∃ delay rest, after = .rest delay :: rest ∧ millis.toNat = delay.millis % UInt64.size := by
  refine ⟨ofText?_render folder h, fun s => ⟨s.nanos_stored, Span.nanos_stored_of_lt⟩, ?_⟩
  intro t inputs before after id number millis message he
  obtain ⟨delay, rest, hr, rfl⟩ := t.announces_run inputs before after id number millis message he
  exact ⟨delay, rest, hr, delay.toNat_millisWord⟩

theorem float?_literal : (Json.ofFloat 1.5).float? = some 1.5 := by
  have hw : Json.ofFloat 1.5 = .number (Octets.ofText "1.5") := by
    unfold Json.ofFloat
    rw [if_pos (by decide +kernel)]
    exact congrArg Json.number (by decide +kernel)
  have hr : (Json.number (Octets.ofText "1.5")).float? = some (Decimal.scaleDown (UInt64.toFloat 15) 1) := rfl
  rw [hw, hr, Decimal.scaleDown, if_pos (by decide)]
  rfl

/-- A timeout of a millisecond and a half. -/
theorem spans_in_words_cut : ∃ c c' : Config, c.transfer.timeout.nanos = 1500000 ∧
    (Json.ofFloat c.transfer.retry.multiplier).float? = some c.transfer.retry.multiplier ∧
    ofText? "u" c.render = some c' ∧ c'.transfer.timeout.nanos = 1000000 ∧ c'.transfer.folder = "t" := by
  let c : Config := { standard "t" with transfer := { TransferSettings.standard "t" with
    timeout := .ofNanos 1500000, retry := { RetryPolicy.standard with multiplier := 1.5 } } }
  obtain ⟨hr, hs, -⟩ := spans_in_words c "u" float?_literal
  refine ⟨c, _, by decide, float?_literal, hr, ?_, rfl⟩
  exact (hs c.transfer.timeout).1.trans (by decide)

/-- `2 ^ 64` milliseconds come back as none at all, and a pause of that length is announced as none. -/
theorem spans_wrap :
    (∃ c c' : Config, c.transfer.timeout.millis = UInt64.size ∧
      (Json.ofFloat c.transfer.retry.multiplier).float? = some c.transfer.retry.multiplier ∧
      ofText? "u" c.render = some c' ∧ c'.transfer.timeout.nanos = 0) ∧
    ∃ (t : Transfer) (inputs : List Transfer.Input) (delay : Span), delay.millis = UInt64.size ∧
      (t.run inputs).2 = [.call none, .emit (.retrying ⟨1⟩ 1 0 "network error: reset"), .rest delay] := by
  constructor
  · let c : Config := { standard "t" with transfer := { TransferSettings.standard "t" with
      timeout := .ofMillis UInt64.size, retry := { RetryPolicy.standard with multiplier := 1.5 } } }
    have hm : c.transfer.timeout.millis = UInt64.size := by decide
    refine ⟨c, _, hm, float?_literal, ofText?_render "u" float?_literal, ?_⟩
    exact (Span.nanos_stored c.transfer.timeout).trans (by rw [hm, Nat.mod_self, Nat.zero_mul])
  · exact ⟨.start ⟨1⟩ (.backup ⟨3, "dir", "name"⟩ []) 10 ⟨2, .ofMillis UInt64.size, .longest, 1, false⟩,
      [.begin false, .settle (.error (.network "reset" none)) 0], .ofMillis UInt64.size, by decide, rfl⟩

end Config
end SealedDownload
