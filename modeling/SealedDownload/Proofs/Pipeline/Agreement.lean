import SealedDownload.Proofs.Pipeline.Alone
import SealedDownload.Proofs.Pipeline.Works
import SealedDownload.Proofs.Url.Path

/-! Three ways to open the same content: into a file at hand, by a validator, and as a job of the pipeline. They find
    the same contents good and write the same plaintext, and they differ in two points only: a validator finds an
    empty plaintext bad, and after a failure it is the pipeline that removes the ciphertext. -/

namespace SealedDownload

/-! ### Paths of drawn files -/

namespace Text

variable {isMark : Char → Bool} {c : Char} {text : List Char}

theorem cut_append_mark (hc : isMark c = true) (text rest : List Char) :
    cut isMark (text ++ c :: rest) = cut isMark text ++ cut isMark rest := by
  induction text with
  | nil => exact cut_cons_of_mark hc rest
  | cons first text ih =>
    rw [List.cons_append]
    cases hf : isMark first with
    | true => rw [cut_cons_of_mark hf, cut_cons_of_mark hf, ih, List.cons_append]
    | false =>
      obtain ⟨piece, pieces, hp⟩ := List.exists_cons_of_ne_nil (cut_ne_nil isMark text)
      rw [hp, List.cons_append] at ih
      rw [cut_cons hf ih, cut_cons hf hp, List.cons_append]

theorem cut_eq_singleton (h : ∀ c ∈ text, isMark c = false) : cut isMark text = [text] := by
  have hc := cut_append h (rfl : cut isMark [] = [[]])
  rwa [List.append_nil] at hc

end Text

namespace Files

variable {files made before after : Files} {folder path ciphertext : Path} {text bytes : Octets}

theorem isIn_drawnPath (folder : Path) (n : Nat) : isIn folder (drawnPath folder n) = true := by
  have hname : ∀ c ∈ (drawnName n "plaintext").toList, decide (c = '/') = false := by
    intro c hc
    rw [toList_drawnName, List.mem_append] at hc
    refine decide_eq_false fun he => ?_
    rcases hc with hc | hc
    · exact slash_notMem_stem n (he ▸ hc)
    · rw [he] at hc
      exact absurd hc (by decide)
  have hlist : (drawnPath folder n).toList = folder.toList ++ '/' :: (drawnName n "plaintext").toList := by
    simp [drawnPath]
  have hlong : 2 ≤ (drawnName n "plaintext").toList.length := by
    rw [toList_drawnName, List.length_append, List.length_cons]
    exact Nat.le_trans (by decide) (Nat.le_add_left _ _)
  have hstep : (drawnName n "plaintext").toList ≠ [] ∧ (drawnName n "plaintext").toList ≠ ['.'] :=
    ⟨fun h => by simp [h] at hlong, fun h => by simp [h] at hlong⟩
  have hsteps : steps (drawnPath folder n) = steps folder ++ [(drawnName n "plaintext").toList] := by
    rw [steps, hlist, Text.cut_append_mark (decide_eq_true rfl), Text.cut_eq_singleton hname, List.filter_append]
    exact congrArg _ (List.filter_cons_of_pos (decide_eq_true hstep))
  rw [isIn, hsteps, List.dropLast_concat]
  simp

/-! ### New files -/

/-- The files in a folder that were not there before. -/
def newIn (folder : Path) (before after : Files) : List (Path × Octets) :=
  (after.within folder).filter fun entry => !before.contains entry.1

theorem contains_of_mem {entry : Path × Octets} (h : entry ∈ files.entries) : files.contains entry.1 = true := by
  unfold contains get?
  cases hl : files.entries.lookup entry.1 with
  | some bytes => rfl
  | none =>
    have hne := List.lookup_eq_none_iff.mp hl entry h
    simp at hne

theorem newIn_eq_nil (h : ∀ entry ∈ after.entries, entry ∈ before.entries) : newIn folder before after = [] := by
  refine List.filter_eq_nil_iff.mpr fun entry he => ?_
  rw [contains_of_mem (h entry (List.mem_filter.mp he).1)]
  decide

theorem newIn_erase (folder path : Path) (before after : Files) :
    newIn folder before (after.erase path) = (newIn folder before after).filter (·.1 ≠ path) := by
  simp only [newIn, within, erase, List.filter_filter]
  exact List.filter_congr fun entry _ => by rw [← Bool.and_assoc, Bool.and_comm]

theorem newIn_write (hi : isIn folder path = true) (hf : before.get? path = none)
    (h : ∀ entry ∈ after.entries, entry ∈ before.entries) :
    newIn folder before (after.write path text) = [(path, text)] := by
  have hold : newIn folder before (after.erase path) = [] :=
    newIn_eq_nil fun entry he => h entry (List.mem_filter.mp he).1
  have hnew : (!before.contains path) = true := by
    rw [contains, hf]
    rfl
  have hfirst : (after.write path text).within folder = (path, text) :: (after.erase path).within folder :=
    List.filter_cons_of_pos hi
  have hrest : newIn folder before (after.write path text) = (path, text) :: newIn folder before (after.erase path) := by
    rw [newIn, hfirst]
    exact List.filter_cons_of_pos hnew
  rw [hrest, hold]

theorem entries_of_makeFolder (h : files.makeFolder folder = .ok made) : made.entries = files.entries := by
  unfold makeFolder at h
  split at h
  · cases h
  · split at h <;> cases h <;> rfl

/-- A content is there, and there is room for its plaintext: the folder can be made, and the path that is drawn next
    names no file. -/
structure Holds (files : Files) (folder ciphertext : Path) (bytes : Octets) : Prop where
  present : files.get? ciphertext = some bytes
  creatable : files.blocks folder = false
  free : files.get? (files.nextPath folder "plaintext") = none

theorem Holds.makeFolder (h : files.Holds folder ciphertext bytes) : ∃ made, files.makeFolder folder = .ok made := by
  unfold Files.makeFolder
  rw [h.creatable, if_neg Bool.false_ne_true]
  split <;> exact ⟨_, rfl⟩

theorem Holds.ne_drawnPath (h : files.Holds folder ciphertext bytes) : ciphertext ≠ drawnPath folder files.drawn := by
  intro he
  have hf : files.get? ciphertext = none := he ▸ h.free
  rw [h.present] at hf
  cases hf

theorem Holds.newIn_write (h : files.Holds folder ciphertext bytes) (he : made.entries = files.entries) (text : Octets) :
    newIn folder files (made.write (drawnPath folder files.drawn) text) = [(drawnPath folder files.drawn, text)] :=
  Files.newIn_write (isIn_drawnPath folder _) h.free fun _ hm => he ▸ hm

/-- What has been written to the path that was drawn, if anything, is removed again. -/
theorem Holds.erased {left : Files} (h : files.Holds folder ciphertext bytes) (he : made.entries = files.entries)
    (hl : left = made ∨ ∃ text, left = made.write (drawnPath folder files.drawn) text) :
    newIn folder files (left.erase (drawnPath folder files.drawn)) = [] ∧
      (left.erase (drawnPath folder files.drawn)).get? ciphertext = some bytes := by
  have hpresent : made.get? ciphertext = some bytes := (congrArg (·.lookup ciphertext) he).trans h.present
  rcases hl with rfl | ⟨text, rfl⟩
  · rw [newIn_erase, newIn_eq_nil fun _ hm => he ▸ hm, get?_erase_of_ne _ h.ne_drawnPath]
    exact ⟨rfl, hpresent⟩
  · rw [newIn_erase, h.newIn_write he, get?_erase_of_ne _ h.ne_drawnPath, get?_write_of_ne _ _ h.ne_drawnPath]
    exact ⟨by simp, hpresent⟩

end Files

/-! ### Opening -/

section Opening

open Files (drawnPath)

variable {files : Files} {folder ciphertext : Path} {metadata : Metadata} {bytes : Octets} {mayBeEmpty : Bool}

/-- The plaintext of a content, opened at once. -/
def Metadata.opened (metadata : Metadata) (bytes : Octets) : Except SealFault Octets :=
  Envelope.openWith metadata.key metadata.digest (metadata.plaintextLength.map UInt32.toNat) bytes

/-- How opening a content into a folder ends, given what comes of it when it is opened at once. -/
inductive EndsWith (folder ciphertext : Path) (bytes : Octets) (mayBeEmpty : Bool) (before : Files) :
    Except SealFault Octets → Checked (Path × Nat) → Files → Prop where
  | bad {fault : SealFault} {after : Files} (hn : Files.newIn folder before after = [])
      (hc : after.get? ciphertext = some bytes) :
      EndsWith folder ciphertext bytes mayBeEmpty before (.error fault) (.error (.failed (.decryption fault))) after
  | empty {after : Files} (he : mayBeEmpty = false) (hn : Files.newIn folder before after = [])
      (hc : after.get? ciphertext = some bytes) :
      EndsWith folder ciphertext bytes mayBeEmpty before (.ok [])
        (.error (.failed (.validation "attachment is empty"))) after
  | good {path : Path} {text : Octets} {after : Files} (he : text = [] → mayBeEmpty = true)
      (hn : Files.newIn folder before after = [(path, text)]) (ht : after.get? path = some text)
      (hc : after.get? ciphertext = none) :
      EndsWith folder ciphertext bytes mayBeEmpty before (.ok text) (.ok (path, text.length)) after

/-- What opening into a folder makes of the answer of the opening itself. -/
theorem openInto_eq {made : Files} (hm : files.makeFolder folder = .ok made) :
    openInto folder metadata mayBeEmpty files ciphertext =
      match Envelope.openFile made.draw ciphertext metadata.key metadata.digest
        (metadata.plaintextLength.map UInt32.toNat) (drawnPath folder files.drawn) with
      | (.error .crashed, left) => (.error .crashed, left)
      | (.error (.failed failure), left) => (.error (.failed failure), left.erase (drawnPath folder files.drawn))
      | (.ok count, left) =>
        if count = 0 && !mayBeEmpty then
          (Checked.fail (.validation "attachment is empty"), left.erase (drawnPath folder files.drawn))
        else (.ok (drawnPath folder files.drawn, count), left.erase ciphertext) := by
  have hout : made.nextPath folder "plaintext" = drawnPath folder files.drawn := by
    rw [← Files.drawn_of_makeFolder hm]
    rfl
  unfold openInto
  rw [hm]
  dsimp only
  rw [hout]
  generalize Envelope.openFile made.draw ciphertext metadata.key metadata.digest
    (metadata.plaintextLength.map UInt32.toNat) (drawnPath folder files.drawn) = opened
  obtain ⟨(failure | _) | count, left⟩ := opened <;> rfl

theorem openInto_ends (h : files.Holds folder ciphertext bytes) (metadata : Metadata) (mayBeEmpty : Bool) :
    EndsWith folder ciphertext bytes mayBeEmpty files (metadata.opened bytes)
      (openInto folder metadata mayBeEmpty files ciphertext).1
      (openInto folder metadata mayBeEmpty files ciphertext).2 := by
  obtain ⟨made, hm⟩ := h.makeFolder
  have hne := h.ne_drawnPath
  have hpresent : made.draw.get? ciphertext = some bytes := (Files.get?_of_makeFolder hm ciphertext).trans h.present
  have hmade : made.entries = files.entries := Files.entries_of_makeFolder hm
  have hentries : made.draw.entries = files.entries := hmade
  cases ho : metadata.opened bytes with
  | error fault =>
    obtain ⟨left, hopen, hleft⟩ := Envelope.openFile_of_error hpresent hne ho
    obtain ⟨hn, hc⟩ := h.erased hentries hleft
    rw [openInto_eq hm, hopen]
    exact .bad hn hc
  | ok text =>
    rw [openInto_eq hm, Envelope.openFile_of_ok hpresent hne ho]
    by_cases he : text = [] ∧ mayBeEmpty = false
    · obtain ⟨rfl, rfl⟩ := he
      obtain ⟨hn, hc⟩ := h.erased hentries (Or.inr ⟨[], rfl⟩)
      exact .empty rfl hn hc
    · have hcount : ¬(text.length = 0 && !mayBeEmpty) = true := by
        simpa using he
      dsimp only
      rw [if_neg hcount]
      refine .good (fun ht => ?_) ?_ ?_ (Files.get?_erase ..)
      · by_contra hb
        exact he ⟨ht, Bool.eq_false_iff.mpr hb⟩
      · rw [Files.newIn_erase, h.newIn_write hentries]
        simp [hne.symm]
      · rw [Files.get?_erase_of_ne _ hne.symm, Files.get?_write]

end Opening

/-! ### Agreement -/

open Pipeline (Call)
open Pipeline.Calls (alone leftBy)

section Agreement

variable {files before after : Files} {folder ciphertext input output : Path} {metadata : Metadata} {bytes : Octets}
  {wanted : Except SealFault Octets} {opened : Checked Nat} {plain kept : Option Octets} {into : Checked (Path × Nat)}
  {validated : Checked Pending} {result : Except Failure Product}

/-- How a validator agrees with opening a content into a file at hand, where `opened` is the answer of the opening and
    `plain` what is in the file then. -/
structure Validates (metadata : Metadata) (folder ciphertext : Path) (before : Files) (kept : Option Octets)
    (opened : Checked Nat) (plain : Option Octets) (validated : Checked Pending) (after : Files) : Prop where
  /-- a content is found good if and only if there is at least one byte in it -/
  good : (∃ pending, validated = .ok pending) ↔ ∃ count, 0 < count ∧ opened = .ok count
  /-- then the same bytes, as many as are told, are the one new file, and the ciphertext is gone -/
  same : ∀ pending, validated = .ok pending → opened = .ok pending.byteCount ∧ pending.mimeType = metadata.mimeType ∧
    ∃ text, text.length = pending.byteCount ∧ plain = some text ∧ after.get? pending.path = some text ∧
      Files.newIn folder before after = [(pending.path, text)] ∧ after.get? ciphertext = none
  /-- a failure of the opening is passed on -/
  failed : ∀ failure, opened = .error (.failed failure) → validated = .error (.failed failure)
  empty : opened = .ok 0 → validated = .error (.failed (.validation "attachment is empty"))
  /-- and of a content that is not found good there is no new file -/
  left : (∀ pending, validated ≠ .ok pending) → Files.newIn folder before after = [] ∧ after.get? ciphertext = kept

/-- How a call that decrypts agrees with opening a content into a file at hand. -/
structure Decrypts (folder ciphertext : Path) (before : Files) (opened : Checked Nat) (plain : Option Octets)
    (result : Except Failure Product) (after : Files) : Prop where
  /-- there is a plaintext with at least one byte if and only if the content has one -/
  good : (∃ path text, result = .ok (.plaintext path) ∧ after.get? path = some text ∧ text ≠ []) ↔
    ∃ count, 0 < count ∧ opened = .ok count
  /-- the same bytes are the one new file, and the ciphertext is gone -/
  same : ∀ product, result = .ok product → ∃ path text, product = .plaintext path ∧ opened = .ok text.length ∧
    plain = some text ∧ after.get? path = some text ∧ Files.newIn folder before after = [(path, text)] ∧
      after.get? ciphertext = none
  /-- a failure of the opening is passed on -/
  failed : ∀ failure, opened = .error (.failed failure) → result = .error failure
  empty : opened = .ok 0 → ∃ path, result = .ok (.plaintext path) ∧ after.get? path = some []
  /-- and after a failure there is no new file, and the ciphertext is gone as well -/
  left : ∀ failure, result = .error failure → Files.newIn folder before after = [] ∧ after.get? ciphertext = none

/-- How opening a content into a file at hand ends, given what comes of it when it is opened at once. -/
inductive Opens : Except SealFault Octets → Checked Nat → Option Octets → Prop where
  | bad (fault : SealFault) (plain : Option Octets) :
      Opens (.error fault) (.error (.failed (.decryption fault))) plain
  | good (text : Octets) : Opens (.ok text) (.ok text.length) (some text)

theorem Opens.ne_crashed (h : Opens wanted opened plain) : opened ≠ .error .crashed := by
  cases h <;> nofun

theorem openFile_opens (hf : files.get? input = some bytes) (hio : input ≠ output) (metadata : Metadata) :
    let opening := Envelope.openFile files input metadata.key metadata.digest
      (metadata.plaintextLength.map UInt32.toNat) output
    Opens (metadata.opened bytes) opening.1 (opening.2.get? output) := by
  intro opening
  cases ho : metadata.opened bytes with
  | error fault =>
    obtain ⟨left, hopen, -⟩ := Envelope.openFile_of_error hf hio ho
    have hopening : opening = _ := hopen
    rw [hopening]
    exact .bad fault _
  | ok text =>
    have hopening : opening = _ := Envelope.openFile_of_ok hf hio ho
    rw [hopening, Files.get?_write]
    exact .good text

theorem EndsWith.validates (hb : EndsWith folder ciphertext bytes false before wanted into after)
    (ha : Opens wanted opened plain) (metadata : Metadata) :
    Validates metadata folder ciphertext before (some bytes) opened plain
      (into.map fun (path, count) => ⟨path, metadata.mimeType, count⟩) after := by
  cases hb with
  | bad hn hc =>
    cases ha
    exact ⟨⟨nofun, nofun⟩, nofun, fun _ h => by cases h; rfl, nofun, fun _ => ⟨hn, hc⟩⟩
  | empty _ hn hc =>
    cases ha
    refine ⟨⟨nofun, ?_⟩, nofun, nofun, fun _ => rfl, fun _ => ⟨hn, hc⟩⟩
    rintro ⟨count, hpos, h⟩
    cases h
    exact absurd hpos (Nat.lt_irrefl 0)
  | @good path text _ he hn ht hc =>
    cases ha
    have hne : text ≠ [] := fun h => Bool.false_ne_true (he h)
    refine ⟨⟨fun _ => ⟨text.length, List.length_pos_iff.mpr hne, rfl⟩, fun _ => ⟨_, rfl⟩⟩, fun pending h => ?_, nofun,
      fun h => absurd (List.length_eq_zero_iff.mp (Except.ok.inj h)) hne, fun h => absurd rfl (h _)⟩
    cases h
    exact ⟨rfl, rfl, text, rfl, rfl, ht, hn, hc⟩

theorem EndsWith.decrypts (hb : EndsWith folder ciphertext bytes true before wanted into after)
    (ha : Opens wanted opened plain) :
    ∃ result, Outcome.ofChecked (into.map fun (path, _) => .plaintext path) = .returned result ∧
      Decrypts folder ciphertext before opened plain result (leftBy ciphertext after result) := by
  cases hb with
  | bad hn hc =>
    cases ha
    refine ⟨_, rfl, ⟨nofun, nofun⟩, nofun, fun _ h => by cases h; rfl, nofun, fun _ _ => ⟨?_, Files.get?_erase ..⟩⟩
    rw [leftBy, Files.newIn_erase, hn, List.filter_nil]
  | empty he => cases he
  | @good path text _ _ hn ht hc =>
    cases ha
    refine ⟨.ok (.plaintext path), rfl, ⟨?_, ?_⟩, fun product h => ?_, nofun, fun h => ?_, nofun⟩
    · rintro ⟨other, content, h, hcontent, hne⟩
      cases h
      have hsame : some text = some content := ht.symm.trans hcontent
      cases hsame
      exact ⟨text.length, List.length_pos_iff.mpr hne, rfl⟩
    · rintro ⟨count, hpos, h⟩
      cases h
      exact ⟨path, text, rfl, ht, List.length_pos_iff.mp hpos⟩
    · cases h
      exact ⟨path, text, rfl, rfl, rfl, ht, hn, hc⟩
    · cases List.length_eq_zero_iff.mp (Except.ok.inj h)
      exact ⟨path, rfl, ht⟩

/-- What a validator has found is the result of a call, which removes the ciphertext after a failure. -/
theorem Validates.cleared (h : Validates metadata folder ciphertext before kept opened plain validated after)
    (hr : Outcome.ofChecked (validated.map .attachment) = .returned result) :
    Validates metadata folder ciphertext before none opened plain validated (leftBy ciphertext after result) := by
  rcases validated with (failure | _) | pending
  · cases hr
    refine ⟨h.good, nofun, h.failed, h.empty, fun hn => ⟨?_, Files.get?_erase ..⟩⟩
    rw [leftBy, Files.newIn_erase, (h.left hn).1, List.filter_nil]
  · cases hr
  · cases hr
    exact ⟨h.good, h.same, h.failed, h.empty, fun hn => absurd rfl (hn pending)⟩

/-- A validator does not crash on a content that is there. -/
theorem Validates.returned (h : Validates metadata folder ciphertext before kept opened plain validated after)
    (ho : opened ≠ .error .crashed) : ∃ result, Outcome.ofChecked (validated.map .attachment) = .returned result := by
  rcases opened with (failure | _) | count
  · exact ⟨_, by rw [h.failed failure rfl]; rfl⟩
  · exact absurd rfl ho
  · rcases Nat.eq_zero_or_pos count with rfl | hpos
    · exact ⟨_, by rw [h.empty rfl]; rfl⟩
    · obtain ⟨pending, hp⟩ := h.good.mpr ⟨count, hpos, rfl⟩
      exact ⟨_, by rw [hp]; rfl⟩

/-- Whoever opens a content finds the same in it: what the opening into a file at hand answers decides what a validator
    finds, and what a call gets that decrypts or validates and has the pipeline for itself. -/
theorem opens_alike (hf : files.get? input = some bytes) (hio : input ≠ output) (metadata : Metadata) :
    let opening := Envelope.openFile files input metadata.key metadata.digest
      (metadata.plaintextLength.map UInt32.toNat) output
    opening.1 ≠ .error .crashed ∧
    (∀ (before : Files) folder ciphertext, before.Holds folder ciphertext bytes →
      Validates metadata folder ciphertext before (some bytes) opening.1 (opening.2.get? output)
        (Validator.decrypting folder metadata before ciphertext).1
        (Validator.decrypting folder metadata before ciphertext).2) ∧
    (∀ (c : Pipeline.Calls) i (x : Call) folder, c.IsFree i x → c.shared.files.Holds folder x.ciphertext bytes →
      x.work = .decrypt folder metadata →
        ∃ d result, c.run? (alone i) = some d ∧ (d.calls[i]?).bind Call.result? = some result ∧
          Decrypts folder x.ciphertext c.shared.files opening.1 (opening.2.get? output) result d.shared.files) ∧
    ∀ (c : Pipeline.Calls) i (x : Call) folder, c.IsFree i x → c.shared.files.Holds folder x.ciphertext bytes →
      x.work = .validate (.decrypting folder) metadata →
        ∃ d validated result, c.run? (alone i) = some d ∧ (d.calls[i]?).bind Call.result? = some result ∧
          Outcome.ofChecked (validated.map .attachment) = .returned result ∧
          Validates metadata folder x.ciphertext c.shared.files none opening.1 (opening.2.get? output) validated
            d.shared.files := by
  intro opening
  have ha : Opens (metadata.opened bytes) opening.1 (opening.2.get? output) := openFile_opens hf hio metadata
  have hvalid : ∀ (before : Files) folder ciphertext, before.Holds folder ciphertext bytes →
      Validates metadata folder ciphertext before (some bytes) opening.1 (opening.2.get? output)
        (Validator.decrypting folder metadata before ciphertext).1
        (Validator.decrypting folder metadata before ciphertext).2 := by
    intro before folder ciphertext hh
    rw [decrypting_eq_openInto]
    exact (openInto_ends hh metadata false).validates ha metadata
  have hsound : opening.1 ≠ .error .crashed := ha.ne_crashed
  refine ⟨hsound, hvalid, fun c i x folder hfree hh hx => ?_, fun c i x folder hfree hh hx => ?_⟩
  · obtain ⟨result, hr, hd⟩ := (openInto_ends hh metadata true).decrypts ha
    have hw : x.work c.shared.files x.ciphertext =
        (.returned result, (openInto folder metadata true c.shared.files x.ciphertext).2) := by
      rw [hx, decrypt_eq_openInto, hr]
    obtain ⟨d, hrun, hresult, hleft⟩ := hfree.run?_alone hw
    exact ⟨d, result, hrun, hresult, hleft ▸ hd⟩
  · have hv := hvalid _ _ _ hh
    obtain ⟨result, hr⟩ := hv.returned hsound
    have hw : x.work c.shared.files x.ciphertext =
        (.returned result, (Validator.decrypting folder metadata c.shared.files x.ciphertext).2) := by
      rw [hx]
      exact Prod.ext hr rfl
    obtain ⟨d, hrun, hresult, hleft⟩ := hfree.run?_alone hw
    exact ⟨d, _, result, hrun, hresult, hr, hleft ▸ hv.cleared hr⟩

/-- Two letters, of which two are declared, and a job that decrypts them: both the validator and the call have them. -/
theorem opens_alike_letters :
    let metadata : Metadata := ⟨"text/plain", 2, "key", Envelope.plainKey, none, some 2⟩
    let c : Pipeline.Calls := ⟨.idle, ⟨Envelope.sealedFiles, ⟨16, []⟩⟩, [],
      [⟨⟨1⟩, "sealed", .decrypt "out" metadata, none, .fresh⟩], false⟩
    (∃ pending, (Validator.decrypting "out" metadata Envelope.sealedFiles "sealed").1 = .ok pending ∧
      pending.byteCount = 2) ∧
    ∃ d path, c.run? (alone 0) = some d ∧
      (d.calls[0]?).bind Call.result? = some (.ok (.plaintext path)) ∧ d.shared.files.get? path = some [104, 105] ∧
      d.shared.files.get? "sealed" = none := by
  intro metadata c
  have hf : Envelope.sealedFiles.get? "sealed" = some Envelope.sealedFile := Files.get?_write ..
  have hh : Envelope.sealedFiles.Holds "out" "sealed" Envelope.sealedFile := by
    refine ⟨hf, by decide, ?_⟩
    have hne : Files.drawnPath "out" 0 ≠ "sealed" := (Files.ne_drawnPath (by decide) "out" 0).symm
    exact (Files.get?_write_of_ne _ _ hne).trans rfl
  have ho : metadata.opened Envelope.sealedFile = .ok [104, 105] := by
    have ho := Envelope.openWith_sealedFile
    cases hw : Envelope.openWith Envelope.plainKey none (some 2) Envelope.sealedFile with
    | error fault =>
      rw [hw] at ho
      cases ho
    | ok text =>
      rw [hw] at ho
      cases ho
      exact hw
  have hne : "sealed" ≠ "plain" := by decide
  have hopen := Envelope.openFile_of_ok hf hne ho
  obtain ⟨-, hvalid, hdecrypt, -⟩ := opens_alike hf hne metadata
  have hcount := congrArg Prod.fst hopen
  have hplain := congrArg (fun opening : Checked Nat × Files => opening.2.get? "plain") hopen
  have hv := hvalid Envelope.sealedFiles "out" "sealed" hh
  obtain ⟨pending, hp⟩ := hv.good.mpr ⟨2, by decide, hcount⟩
  have hsize : (Except.ok 2 : Checked Nat) = .ok pending.byteCount := hcount.symm.trans (hv.same pending hp).1
  refine ⟨⟨pending, hp, (Except.ok.inj hsize).symm⟩, ?_⟩
  obtain ⟨d, result, hrun, hresult, hd⟩ := hdecrypt c 0 _ "out" ⟨rfl, rfl, rfl, rfl, rfl, rfl⟩ hh rfl
  obtain ⟨path, -, rfl, -⟩ := hd.good.mpr ⟨2, by decide, hcount⟩
  obtain ⟨other, content, hsame, -, hcontent, hthere, -, hgone⟩ := hd.same _ rfl
  cases hsame
  have hletters : some [104, 105] = some content := (hplain.trans (Files.get?_write ..)).symm.trans hcontent
  cases hletters
  exact ⟨d, path, hrun, hresult, hthere, hgone⟩

end Agreement
end SealedDownload
