import SealedDownload.Proofs.Json.Number
import SealedDownload.Json.Reader
import SealedDownload.Json.Printer

/-! A value that is printed is read back. Printing a value spells tokens one after the other, and from these
    tokens the reader builds the value. -/

namespace SealedDownload.Json

variable {value : Json} {text more literal : Octets} {spelled others : List Token} {tokens : List Token} {rest : Octets}

/-- A number as it is written: the scanner takes it to its end. -/
structure IsNumber (literal : Octets) : Prop where
  starts : ∃ b bytes, literal = b :: bytes ∧ (isDigit b = true ∨ b = 45)
  bytes : ∀ b ∈ literal, isNumberByte b = true
  parts : (numberParts? literal).isSome = true

/-- A value whose strings and names have been written from texts, and whose numbers are numbers. -/
inductive IsWritten : Json → Prop where
  | null : IsWritten .null
  | bool (value : Bool) : IsWritten (.bool value)
  | number {literal : Octets} : IsNumber literal → IsWritten (.number literal)
  | text (text : String) : IsWritten (.ofText text)
  | array {items : List Json} : (∀ item ∈ items, IsWritten item) → IsWritten (.array items)
  | object {members : List (Octets × Json)} : (∀ entry ∈ members, ∃ name, entry.1 = escape name) →
      (∀ entry ∈ members, IsWritten entry.2) → IsWritten (.object members)

/-- What may follow a number. -/
def Ends (rest : Octets) : Prop := ∀ b, rest.head? = some b → isNumberByte b = false

/-- The scanner takes a text as these tokens. -/
def Spells (text : Octets) (spelled : List Token) : Prop :=
  ∀ (tokens : List Token) (rest : Octets), Ends rest →
    Scan.run tokens .between (text ++ rest) = Scan.run (spelled.reverse ++ tokens) .between rest

/-- Where a value may begin, the reader takes these tokens as the value. -/
def Builds (spelled : List Token) (value : Json) : Prop :=
  ∀ (frames : List Frame) (want : Want) (r : Reader) (rest : List Token), want = .value ∨ want = .firstItem →
    Reader.place value frames = some r → Reader.run ⟨frames, want⟩ (spelled ++ rest) = r.run rest

/-! ### Scanning -/

theorem ends_nil : Ends [] := by
  intro b h
  cases h

theorem ends_cons {b : UInt8} (h : isNumberByte b = false) : Ends (b :: rest) := by
  intro b' hb
  cases hb
  exact h

theorem Spells.append (h : Spells text spelled) (hm : Spells more others)
    (he : ∀ rest, Ends rest → Ends (more ++ rest)) : Spells (text ++ more) (spelled ++ others) := by
  intro tokens rest hr
  rw [List.append_assoc, h _ _ (he rest hr), hm _ _ hr]
  simp

/-- A mark is a token of its own. -/
theorem Spells.cons {b : UInt8} {token : Token} (h : Spells text spelled)
    (hb : ∀ tokens, Scan.step tokens b .between = some (token :: tokens, .between)) :
    Spells (b :: text) (token :: spelled) := by
  intro tokens rest hr
  rw [List.cons_append, Scan.run, hb]
  exact (h _ _ hr).trans (by simp)

theorem spells_nil : Spells [] [] := fun _ _ _ => rfl

theorem spells_null : Spells (render .null) [.null] := fun _ _ _ => rfl

theorem spells_bool (value : Bool) : Spells (render (.bool value)) [.bool value] := by
  cases value <;> exact fun _ _ _ => rfl

theorem spells_text (text : String) (rest : Octets) (tokens : List Token) :
    Scan.run tokens .between (quote :: escape text ++ quote :: rest) =
      Scan.run (.string (escape text) :: tokens) .between rest := by
  have hs : Scan.step tokens quote .between = some (tokens, .string []) := rfl
  rw [List.cons_append, Scan.run, hs]
  exact run_escape text

theorem run_number {read bytes : Octets} (hb : ∀ b ∈ bytes, isNumberByte b = true)
    (hp : (numberParts? (read.reverse ++ bytes)).isSome = true) (hr : Ends rest) :
    Scan.run tokens (.number read) (bytes ++ rest) =
      Scan.run (.number (read.reverse ++ bytes) :: tokens) .between rest := by
  induction bytes generalizing read with
  | nil =>
    obtain ⟨parts, hp⟩ := Option.isSome_iff_exists.mp hp
    rw [List.append_nil] at hp ⊢
    have ht : Token.ofNumber? read.reverse = some (.number read.reverse) := by
      rw [Token.ofNumber?, hp]
      rfl
    cases rest with
    | nil => simp [Scan.run, Scan.finish?, ht]
    | cons b rest => simp [Scan.run, Scan.step, hr b rfl, ht]
  | cons b bytes ih =>
    have he : (b :: read).reverse ++ bytes = read.reverse ++ b :: bytes := by simp
    rw [← he] at hp ⊢
    rw [List.cons_append, Scan.run, Scan.step, if_pos (hb b List.mem_cons_self)]
    exact ih (fun b hb' => hb b (List.mem_cons_of_mem _ hb')) hp

theorem spells_number (h : IsNumber literal) : Spells (render (.number literal)) [.number literal] := by
  intro tokens rest hr
  obtain ⟨b, bytes, rfl, hb⟩ := h.starts
  have hs : Scan.step tokens b .between = some (tokens, .number [b]) := by
    have hblank : isBlank b = false := by
      rcases hb with hb | rfl
      · unfold isDigit at hb
        unfold isBlank
        simp at hb ⊢
        refine ⟨⟨⟨?_, ?_⟩, ?_⟩, ?_⟩ <;> rintro rfl <;> exact absurd hb (by decide)
      · decide
    have hq : b ≠ quote := by
      rintro rfl
      rcases hb with hb | hb <;> exact absurd hb (by decide)
    have hd : (isDigit b || b = 45) = true := by
      rcases hb with hb | rfl
      · rw [hb]
        rfl
      · decide
    simp [Scan.step, Scan.start?, hblank, hq, hd]
  rw [render, List.cons_append, Scan.run, hs]
  exact run_number (fun b hb => h.bytes b (List.mem_cons_of_mem _ hb)) h.parts hr

/-! ### Building -/

theorem builds_single {token : Token} (hn : token ≠ .closeBracket)
    (hb : ∀ frames, Reader.begin frames token = Reader.place value frames) : Builds [token] value := by
  intro frames want r rest hw hp
  have hs : Reader.step ⟨frames, want⟩ token = some r := by
    rcases hw with rfl | rfl
    · exact (hb frames).trans hp
    · cases token <;> first | exact absurd rfl hn | exact (hb frames).trans hp
  rw [List.cons_append, Reader.run, hs]
  rfl

/-- The items of an array, from the first or after a comma, with its end. -/
theorem exists_items {items : List Json} (hi : items ≠ [])
    (h : ∀ item ∈ items, ∃ spelled, Spells item.render spelled ∧ Builds spelled item) :
    ∃ spelled, Spells (renderItems items) spelled ∧
      ∀ (done : List Json) (frames : List Frame) (want : Want) (r : Reader) (rest : List Token),
        want = .value ∨ want = .firstItem → Reader.place (.array (done.reverse ++ items)) frames = some r →
          Reader.run ⟨.array done :: frames, want⟩ (spelled ++ .closeBracket :: rest) = r.run rest := by
  induction items with
  | nil => exact absurd rfl hi
  | cons item items ih =>
    obtain ⟨first, hs, hb⟩ := h item List.mem_cons_self
    cases items with
    | nil =>
      refine ⟨first, hs, fun done frames want r rest hw hp => ?_⟩
      have hc : Reader.step ⟨.array (item :: done) :: frames, .separator⟩ .closeBracket = some r := by
        rw [← hp, ← List.reverse_cons]
        rfl
      rw [hb _ _ ⟨.array (item :: done) :: frames, .separator⟩ _ hw rfl, Reader.run, hc]
    | cons next items =>
      obtain ⟨others, hs', hb'⟩ := ih (List.cons_ne_nil _ _) fun item hm => h item (List.mem_cons_of_mem _ hm)
      refine ⟨first ++ .comma :: others, hs.append (hs'.cons fun _ => rfl) fun _ _ => ends_cons rfl,
        fun done frames want r rest hw hp => ?_⟩
      rw [List.append_assoc, hb _ _ ⟨.array (item :: done) :: frames, .separator⟩ _ hw rfl]
      refine hb' (item :: done) frames .value r rest (Or.inl rfl) ?_
      rw [List.reverse_cons, List.append_assoc]
      exact hp

theorem exists_array {items : List Json}
    (h : ∀ item ∈ items, ∃ spelled, Spells item.render spelled ∧ Builds spelled item) :
    ∃ spelled, Spells (render (.array items)) spelled ∧ Builds spelled (.array items) := by
  by_cases hi : items = []
  · subst hi
    refine ⟨[.openBracket, .closeBracket], (spells_nil.cons fun _ => rfl).cons fun _ => rfl, ?_⟩
    intro frames want r rest hw hp
    rcases hw with rfl | rfl <;> simp [Reader.run, Reader.step, Reader.begin, Reader.close, hp]
  · obtain ⟨spelled, hs, hb⟩ := exists_items hi h
    have hc : Spells [closeBracket] [.closeBracket] := spells_nil.cons fun _ => rfl
    have hs : Spells (render (.array items)) (.openBracket :: (spelled ++ [.closeBracket])) :=
      (hs.append hc fun _ _ => ends_cons rfl).cons fun _ => rfl
    refine ⟨_, hs, fun frames want r rest hw hp => ?_⟩
    have hn := hb [] frames .firstItem r rest (Or.inr rfl) hp
    rcases hw with rfl | rfl <;> simpa [Reader.run, Reader.step, Reader.begin] using hn

theorem spells_member (name : String) (h : Spells text spelled) :
    Spells ((quote :: escape name ++ [quote, colon]) ++ text) (.string (escape name) :: .colon :: spelled) := by
  have hc : Spells (colon :: text) (.colon :: spelled) := h.cons fun _ => rfl
  intro tokens rest hr
  have ht := spells_text name (colon :: text ++ rest) tokens
  rw [hc _ _ hr] at ht
  simpa using ht

/-- The members of an object, from the first or after a comma, with its end. -/
theorem exists_members {members : List (Octets × Json)} (hm : members ≠ [])
    (hn : ∀ entry ∈ members, ∃ name, entry.1 = escape name)
    (h : ∀ entry ∈ members, ∃ spelled, Spells entry.2.render spelled ∧ Builds spelled entry.2) :
    ∃ spelled, Spells (renderMembers members) spelled ∧
      ∀ (done : List (Octets × Json)) (frames : List Frame) (want : Want) (r : Reader) (rest : List Token),
        want = .name ∨ want = .firstName → Reader.place (.object (done.reverse ++ members)) frames = some r →
          Reader.run ⟨.object done :: frames, want⟩ (spelled ++ .closeBrace :: rest) = r.run rest := by
  induction members with
  | nil => exact absurd rfl hm
  | cons entry members ih =>
    obtain ⟨raw, value⟩ := entry
    obtain ⟨name, rfl⟩ : ∃ name, raw = escape name := hn _ List.mem_cons_self
    obtain ⟨first, hs, hb⟩ := h _ List.mem_cons_self
    have hs := spells_member name hs
    have hb : ∀ done frames want rest, want = .name ∨ want = .firstName →
        Reader.run ⟨.object done :: frames, want⟩ (.string (escape name) :: .colon :: first ++ rest) =
          Reader.run ⟨.object ((escape name, value) :: done) :: frames, .separator⟩ rest := by
      intro done frames want rest hw
      have hv := hb (.member done (escape name) :: frames) .value _ rest (Or.inl rfl) rfl
      rcases hw with rfl | rfl <;> exact hv
    cases members with
    | nil =>
      refine ⟨_, hs, fun done frames want r rest hw hp => ?_⟩
      have hc : Reader.step ⟨.object ((escape name, value) :: done) :: frames, .separator⟩ .closeBrace = some r := by
        rw [← hp, ← List.reverse_cons]
        rfl
      rw [hb _ _ _ _ hw, Reader.run, hc]
    | cons next members =>
      obtain ⟨others, hs', hb'⟩ := ih (List.cons_ne_nil _ _) (fun entry hm => hn entry (List.mem_cons_of_mem _ hm))
        fun entry hm => h entry (List.mem_cons_of_mem _ hm)
      have hs' : Spells (comma :: renderMembers (next :: members)) (.comma :: others) := hs'.cons fun _ => rfl
      refine ⟨_, hs.append hs' fun _ _ => ends_cons rfl, fun done frames want r rest hw hp => ?_⟩
      rw [List.append_assoc, hb _ _ _ _ hw]
      refine hb' ((escape name, value) :: done) frames .name r rest (Or.inl rfl) ?_
      rw [List.reverse_cons, List.append_assoc]
      exact hp

theorem exists_object {members : List (Octets × Json)} (hn : ∀ entry ∈ members, ∃ name, entry.1 = escape name)
    (h : ∀ entry ∈ members, ∃ spelled, Spells entry.2.render spelled ∧ Builds spelled entry.2) :
    ∃ spelled, Spells (render (.object members)) spelled ∧ Builds spelled (.object members) := by
  by_cases hm : members = []
  · subst hm
    refine ⟨[.openBrace, .closeBrace], (spells_nil.cons fun _ => rfl).cons fun _ => rfl, ?_⟩
    intro frames want r rest hw hp
    rcases hw with rfl | rfl <;> simp [Reader.run, Reader.step, Reader.begin, Reader.close, hp]
  · obtain ⟨spelled, hs, hb⟩ := exists_members hm hn h
    have hc : Spells [closeBrace] [.closeBrace] := spells_nil.cons fun _ => rfl
    have hs : Spells (render (.object members)) (.openBrace :: (spelled ++ [.closeBrace])) :=
      (hs.append hc fun _ _ => ends_cons rfl).cons fun _ => rfl
    refine ⟨_, hs, fun frames want r rest hw hp => ?_⟩
    have hn := hb [] frames .firstName r rest (Or.inr rfl) hp
    rcases hw with rfl | rfl <;> simpa [Reader.run, Reader.step, Reader.begin] using hn

/-! ### Reading what has been printed -/

theorem IsWritten.exists_tokens (h : IsWritten value) :
    ∃ spelled, Spells value.render spelled ∧ Builds spelled value := by
  induction h with
  | null => exact ⟨_, spells_null, builds_single nofun fun _ => rfl⟩
  | bool value => exact ⟨_, spells_bool value, builds_single nofun fun _ => rfl⟩
  | number hn => exact ⟨_, spells_number hn, builds_single nofun fun _ => rfl⟩
  | text text =>
    refine ⟨[.string (escape text)], fun tokens rest _ => ?_, builds_single nofun fun _ => rfl⟩
    have hs := spells_text text rest tokens
    simpa [ofText, render] using hs
  | array _ ih => exact exists_array ih
  | object hn _ ih => exact exists_object hn ih

/-- What has been printed is read back. -/
theorem read?_render (h : IsWritten value) : read? value.render = some value := by
  obtain ⟨spelled, hs, hb⟩ := h.exists_tokens
  have ht : tokens? value.render = some spelled := by
    have hs := hs [] [] ends_nil
    rw [List.append_nil, List.append_nil] at hs
    exact hs.trans (congrArg some (List.reverse_reverse spelled))
  have hr := hb [] .value ⟨[], .nothing value⟩ [] (Or.inl rfl) rfl
  rw [List.append_nil] at hr
  unfold read?
  rw [ht]
  exact hr

/-! ### Numbers -/

theorem isNumberByte_of_isDigit {b : UInt8} (h : isDigit b = true) : isNumberByte b = true := by
  unfold isNumberByte
  rw [h]
  rfl

theorem isNumberByte_of_power? (h : (power? text).isSome = true) : ∀ b ∈ text, isNumberByte b = true := by
  cases text with
  | nil => exact fun _ hb => by cases hb
  | cons mark rest =>
    simp only [power?] at h
    split at h
    · rename_i hm
      have hmark : isNumberByte mark = true := by
        rcases Bool.or_eq_true_iff.mp hm with hm | hm <;> rw [of_decide_eq_true hm] <;> decide
      have hdigits : ∀ digits : Octets, ¬(digits.isEmpty || !digits.all isDigit) = true →
          ∀ b ∈ digits, isNumberByte b = true := by
        intro digits hd b hb
        simp only [Bool.or_eq_true, Bool.not_eq_true', not_or, Bool.not_eq_false] at hd
        exact isNumberByte_of_isDigit (List.all_eq_true.mp hd.2 b hb)
      refine List.forall_mem_cons.mpr ⟨hmark, ?_⟩
      split at h <;> split at h
      · cases h
      · exact List.forall_mem_cons.mpr ⟨by decide, hdigits _ ‹_›⟩
      · cases h
      · exact List.forall_mem_cons.mpr ⟨by decide, hdigits _ ‹_›⟩
      · cases h
      · exact hdigits _ ‹_›
    · cases h

theorem forall_of_dropWhile (h : ∀ b ∈ text.dropWhile isDigit, isNumberByte b = true) :
    ∀ b ∈ text, isNumberByte b = true := by
  intro b hb
  rw [← List.takeWhile_append_dropWhile (p := isDigit) (l := text)] at hb
  rcases List.mem_append.mp hb with hb | hb
  · exact isNumberByte_of_isDigit (List.mem_takeWhile_imp hb)
  · exact h b hb

/-- What has the parts of a number is a number. -/
theorem isNumber_of_numberParts? (h : (numberParts? literal).isSome = true) : IsNumber literal := by
  have hparts := h
  unfold numberParts? at h
  split at h
  rename_i negative text he
  dsimp only at h
  split at h
  · cases h
  rename_i hw
  have hstarts : ∃ b bytes, text = b :: bytes ∧ isDigit b = true := by
    cases text with
    | nil => exact absurd rfl hw
    | cons b bytes =>
      refine ⟨b, bytes, rfl, ?_⟩
      cases hb : isDigit b with
      | true => rfl
      | false => exact absurd (by simp [hb]) hw
  have hbytes : ∀ b ∈ text, isNumberByte b = true := by
    refine forall_of_dropWhile ?_
    split at h
    · rename_i rest hr
      split at h
      · cases h
      rw [Option.isSome_map] at h
      rw [hr]
      exact List.forall_mem_cons.mpr ⟨by decide, forall_of_dropWhile (isNumberByte_of_power? h)⟩
    · rw [Option.isSome_map] at h
      exact isNumberByte_of_power? h
  obtain ⟨b, bytes, rfl, hb⟩ := hstarts
  split at he <;> cases he
  · exact ⟨⟨45, _, rfl, Or.inr rfl⟩, List.forall_mem_cons.mpr ⟨by decide, hbytes⟩, hparts⟩
  · exact ⟨⟨b, bytes, rfl, Or.inl hb⟩, hbytes, hparts⟩

theorem isNumber_ofNat (n : Nat) : IsNumber (Octets.ofText (toString n)) :=
  isNumber_of_numberParts? (by rw [numberParts?_ofText]; rfl)

theorem isWritten_ofNat (n : Nat) : IsWritten (ofNat n) := .number (isNumber_ofNat n)

end SealedDownload.Json
