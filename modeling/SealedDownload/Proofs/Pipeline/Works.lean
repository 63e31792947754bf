import SealedDownload.Proofs.Pipeline.Delivery
import SealedDownload.Proofs.Pipeline.Clearing
import SealedDownload.Proofs.Sealing.Opening

/-! What the works on ciphertexts make of the files. A work touches its ciphertext and files at paths that it draws,
    and no others (`Work.IsGentle`); one that decrypts ends with the whole plaintext at the path that it has drawn, or
    with no new file at all (`opening_of_present`). -/

namespace SealedDownload

namespace Files

variable {files : Files} {folder path : Path} {m n : Nat}

/-! ### Drawn paths -/

/-- The path of the plaintext drawn at a place in the order of all drawn paths. -/
def drawnPath (folder : Path) (n : Nat) : Path := folder ++ "/" ++ drawnName n "plaintext"

/-- The value of digits, behind those that have been read. -/
def valueOf (read : Nat) (digits : List Char) : Nat :=
  digits.foldl (fun read c => 16 * read + (Octets.hexValue? c).getD 0) read

theorem hexValue?_digitChar : ∀ d < 16, Octets.hexValue? (Nat.digitChar d) = some d := by
  decide

theorem digitChar_ne_slash : ∀ d < 16, Nat.digitChar d ≠ '/' := by
  decide

theorem valueOf_toDigits (n : Nat) : valueOf 0 (Nat.toDigits 16 n) = n := by
  induction n using Nat.strongRecOn with
  | ind n ih =>
    rcases Nat.lt_or_ge n 16 with hn | hn
    · rw [Nat.toDigits_of_lt_base hn]
      simp [valueOf, hexValue?_digitChar n hn]
    · have hmod := hexValue?_digitChar (n % 16) (Nat.mod_lt n (by decide))
      rw [Nat.toDigits_of_base_le (by decide) hn, valueOf, List.foldl_append]
      change 16 * valueOf 0 (Nat.toDigits 16 (n / 16)) + (Octets.hexValue? (Nat.digitChar (n % 16))).getD 0 = n
      rw [ih (n / 16) (by omega), hmod, Option.getD_some]
      omega

theorem slash_notMem_toDigits (n : Nat) : '/' ∉ Nat.toDigits 16 n := by
  induction n using Nat.strongRecOn with
  | ind n ih =>
    rcases Nat.lt_or_ge n 16 with hn | hn
    · rw [Nat.toDigits_of_lt_base hn, List.mem_singleton]
      exact (digitChar_ne_slash n hn).symm
    · rw [Nat.toDigits_of_base_le (by decide) hn, List.mem_append, List.mem_singleton, not_or]
      exact ⟨ih (n / 16) (by omega), (digitChar_ne_slash _ (Nat.mod_lt n (by decide))).symm⟩

theorem valueOf_zeros (count : Nat) (digits : List Char) :
    valueOf 0 (List.replicate count '0' ++ digits) = valueOf 0 digits := by
  induction count with
  | zero => rfl
  | succ count ih => exact ih

theorem toList_stem (n : Nat) :
    (stem n).toList = List.replicate (stemLength - (Nat.toDigits 16 n).length) '0' ++ Nat.toDigits 16 n :=
  String.toList_ofList

theorem slash_notMem_stem (n : Nat) : '/' ∉ (stem n).toList := by
  rw [toList_stem, List.mem_append, not_or]
  refine ⟨fun h => ?_, slash_notMem_toDigits n⟩
  cases (List.mem_replicate.mp h).2

theorem stem_injective (h : stem m = stem n) : m = n := by
  have hv : valueOf 0 (stem m).toList = valueOf 0 (stem n).toList := congrArg (valueOf 0 ·.toList) h
  rwa [toList_stem, toList_stem, valueOf_zeros, valueOf_zeros, valueOf_toDigits, valueOf_toDigits] at hv

theorem toList_drawnName (n : Nat) (extension : String) :
    (drawnName n extension).toList = (stem n).toList ++ '.' :: extension.toList := by
  simp [drawnName]

/-- What stands behind the last slash. -/
theorem eq_of_append_slash {a b u v : List Char} (hu : '/' ∉ u) (hv : '/' ∉ v) (h : a ++ '/' :: u = b ++ '/' :: v) :
    u = v := by
  rcases List.append_eq_append_iff.mp h with ⟨c, -, hc⟩ | ⟨c, -, hc⟩
  · cases c with
    | nil => exact (List.cons.inj hc).2
    | cons first rest =>
      refine absurd ?_ hu
      rw [(List.cons.inj hc).2]
      exact List.mem_append_right _ List.mem_cons_self
  · cases c with
    | nil => exact (List.cons.inj hc).2.symm
    | cons first rest =>
      refine absurd ?_ hv
      rw [(List.cons.inj hc).2]
      exact List.mem_append_right _ List.mem_cons_self

/-- No path is drawn twice, whatever the folders are. -/
theorem drawnPath_injective {other : Path} (h : drawnPath folder m = drawnPath other n) : m = n := by
  have hslash : ∀ n, '/' ∉ (drawnName n "plaintext").toList := by
    intro n
    rw [toList_drawnName, List.mem_append, not_or]
    exact ⟨slash_notMem_stem n, by decide⟩
  have hlist : ∀ (folder : Path) (n : Nat), (drawnPath folder n).toList =
      folder.toList ++ '/' :: (drawnName n "plaintext").toList := by
    intro folder n
    simp [drawnPath]
  have hname : (drawnName m "plaintext").toList = (drawnName n "plaintext").toList := by
    refine eq_of_append_slash (hslash m) (hslash n) ?_ (a := folder.toList) (b := other.toList)
    rw [← hlist, ← hlist, h]
  rw [toList_drawnName, toList_drawnName] at hname
  exact stem_injective (String.toList_inj.mp (List.append_cancel_right hname))

theorem ne_drawnPath (h : '/' ∉ path.toList) (folder : Path) (n : Nat) : path ≠ drawnPath folder n := by
  rintro rfl
  exact h (by simp [drawnPath])

/-! ### What is written between two moments -/

/-- The files that are there afterwards and were not there before as they are now. -/
def written (before after : Files) : List Path :=
  (after.entries.map (·.1)).filter fun path => after.get? path ≠ before.get? path

theorem written_eq_nil {before after : Files}
    (h : ∀ path, after.get? path = before.get? path ∨ after.get? path = none) : written before after = [] := by
  refine List.filter_eq_nil_iff.mpr fun path hm hne => ?_
  obtain ⟨entry, he, rfl⟩ := List.mem_map.mp hm
  rcases h entry.1 with hs | hn
  · exact of_decide_eq_true hne hs
  · have hlookup := List.lookup_eq_none_iff.mp hn entry he
    simp at hlookup

end Files

open Files (drawnPath)

/-! ### Opening into a folder -/

section Opening

variable {folder ciphertext path : Path} {metadata : Metadata} {mayBeEmpty : Bool} {files : Files}

/-- Opens a ciphertext into a file drawn in a folder, and counts its bytes: what a work that decrypts and a validator
    have in common. An empty plaintext is kept or removed again. -/
def openInto (folder : Path) (metadata : Metadata) (mayBeEmpty : Bool) (files : Files) (ciphertext : Path) :
    Checked (Path × Nat) × Files :=
  match files.makeFolder folder with
  | .error failure => (.error (.failed failure), files)
  | .ok files =>
    let output := files.nextPath folder "plaintext"
    let (opened, files) := Envelope.openFile files.draw ciphertext metadata.key metadata.digest
      (metadata.plaintextLength.map UInt32.toNat) output
    match opened with
    | .error .crashed => (.error .crashed, files)
    | .error (.failed failure) => (.error (.failed failure), files.erase output)
    | .ok count =>
      if count = 0 && !mayBeEmpty then
        (Checked.fail (.validation "attachment is empty"), files.erase output)
      else (.ok (output, count), files.erase ciphertext)

/-- A work that decrypts keeps a plaintext of any length. -/
theorem decrypt_eq_openInto (folder : Path) (metadata : Metadata) (files : Files) (ciphertext : Path) :
    Work.decrypt folder metadata files ciphertext =
      (.ofChecked ((openInto folder metadata true files ciphertext).1.map fun (path, _) => .plaintext path),
        (openInto folder metadata true files ciphertext).2) := by
  unfold Work.decrypt openInto
  cases files.makeFolder folder with
  | error failure => rfl
  | ok made =>
    dsimp only
    obtain ⟨(failure | _) | count, left⟩ := Envelope.openFile made.draw ciphertext metadata.key metadata.digest
      (metadata.plaintextLength.map UInt32.toNat) (made.nextPath folder "plaintext")
    · rfl
    · rfl
    · dsimp only
      rw [if_neg (by simp)]
      rfl

/-- A validator keeps one that is not empty. -/
theorem decrypting_eq_openInto (folder : Path) (metadata : Metadata) (files : Files) (ciphertext : Path) :
    Validator.decrypting folder metadata files ciphertext =
      ((openInto folder metadata false files ciphertext).1.map fun (path, count) => ⟨path, metadata.mimeType, count⟩,
        (openInto folder metadata false files ciphertext).2) := by
  unfold Validator.decrypting openInto
  cases files.makeFolder folder with
  | error failure => rfl
  | ok made =>
    dsimp only
    obtain ⟨(failure | _) | count, left⟩ := Envelope.openFile made.draw ciphertext metadata.key metadata.digest
      (metadata.plaintextLength.map UInt32.toNat) (made.nextPath folder "plaintext")
    · rfl
    · rfl
    · by_cases hc : count = 0
      · simp only [hc, if_true]
        rfl
      · simp only [hc]
        rfl

/-- How a work that decrypts and a validator end on the same ciphertext and files. -/
inductive Differ (metadata : Metadata) (ciphertext : Path) : Outcome × Files → Checked Pending × Files → Prop where
  | failed {failure : Failure} {after : Files} :
      Differ metadata ciphertext (.returned (.error failure), after) (.error (.failed failure), after)
  | crashed {after : Files} : Differ metadata ciphertext (.crashed, after) (.error .crashed, after)
  | opened {path : Path} {count : Nat} {after : Files} (hc : 0 < count) :
      Differ metadata ciphertext (.returned (.ok (.plaintext path)), after) (.ok ⟨path, metadata.mimeType, count⟩, after)
  /-- an empty plaintext is a result of the one, which removes the ciphertext, and a failure of the other, which
      removes the plaintext -/
  | empty {path : Path} {left : Files} :
      Differ metadata ciphertext (.returned (.ok (.plaintext path)), left.erase ciphertext)
        (.error (.failed (.validation "attachment is empty")), left.erase path)

/-- A work that decrypts and a validator do the same, but for an empty plaintext. -/
theorem differ_on_empty (folder : Path) (metadata : Metadata) (files : Files) (ciphertext : Path) :
    Differ metadata ciphertext (Work.decrypt folder metadata files ciphertext)
      (Validator.decrypting folder metadata files ciphertext) := by
  unfold Work.decrypt Validator.decrypting
  cases files.makeFolder folder with
  | error failure => exact .failed
  | ok made =>
    dsimp only
    obtain ⟨(failure | _) | count, left⟩ := Envelope.openFile made.draw ciphertext metadata.key metadata.digest
      (metadata.plaintextLength.map UInt32.toNat) (made.nextPath folder "plaintext")
    · exact .failed
    · exact .crashed
    · by_cases hc : count = 0
      · simp only [hc, if_true]
        exact .empty
      · simp only [hc]
        exact .opened (Nat.pos_of_ne_zero hc)

/-- All that can come of opening a ciphertext into a folder. -/
inductive OpenedInto (folder : Path) (metadata : Metadata) (mayBeEmpty : Bool) (files : Files) (ciphertext : Path) :
    Checked (Path × Nat) → Files → Prop where
  | unmade {failure : Failure} (hm : files.makeFolder folder = .error failure) :
      OpenedInto folder metadata mayBeEmpty files ciphertext (.error (.failed failure)) files
  | crashed {made left : Files} (hm : files.makeFolder folder = .ok made)
      (ho : Envelope.openFile made.draw ciphertext metadata.key metadata.digest
        (metadata.plaintextLength.map UInt32.toNat) (drawnPath folder files.drawn) = (.error .crashed, left)) :
      OpenedInto folder metadata mayBeEmpty files ciphertext (.error .crashed) left
  | failed {made left : Files} {failure : Failure} (hm : files.makeFolder folder = .ok made)
      (ho : Envelope.openFile made.draw ciphertext metadata.key metadata.digest
        (metadata.plaintextLength.map UInt32.toNat) (drawnPath folder files.drawn) = (.error (.failed failure), left)) :
      OpenedInto folder metadata mayBeEmpty files ciphertext (.error (.failed failure))
        (left.erase (drawnPath folder files.drawn))
  | empty {made left : Files} (hm : files.makeFolder folder = .ok made)
      (ho : Envelope.openFile made.draw ciphertext metadata.key metadata.digest
        (metadata.plaintextLength.map UInt32.toNat) (drawnPath folder files.drawn) = (.ok 0, left)) :
      OpenedInto folder metadata mayBeEmpty files ciphertext (Checked.fail (.validation "attachment is empty"))
        (left.erase (drawnPath folder files.drawn))
  | opened {made left : Files} {count : Nat} (hm : files.makeFolder folder = .ok made)
      (ho : Envelope.openFile made.draw ciphertext metadata.key metadata.digest
        (metadata.plaintextLength.map UInt32.toNat) (drawnPath folder files.drawn) = (.ok count, left))
      (hc : count = 0 → mayBeEmpty = true) :
      OpenedInto folder metadata mayBeEmpty files ciphertext (.ok (drawnPath folder files.drawn, count))
        (left.erase ciphertext)

theorem openInto_spec (folder : Path) (metadata : Metadata) (mayBeEmpty : Bool) (files : Files) (ciphertext : Path) :
    OpenedInto folder metadata mayBeEmpty files ciphertext
      (openInto folder metadata mayBeEmpty files ciphertext).1
      (openInto folder metadata mayBeEmpty files ciphertext).2 := by
  unfold openInto
  cases hm : files.makeFolder folder with
  | error failure => exact .unmade hm
  | ok made =>
    have hout : made.nextPath folder "plaintext" = drawnPath folder files.drawn := by
      rw [← Files.drawn_of_makeFolder hm]
      rfl
    dsimp only
    rw [hout]
    cases ho : Envelope.openFile made.draw ciphertext metadata.key metadata.digest
        (metadata.plaintextLength.map UInt32.toNat) (drawnPath folder files.drawn) with
    | mk opened left =>
      rcases opened with (failure | _) | count
      · exact .failed hm ho
      · exact .crashed hm ho
      · dsimp only
        by_cases hc : count = 0 ∧ mayBeEmpty = false
        · obtain ⟨rfl, rfl⟩ := hc
          exact .empty hm ho
        · rw [if_neg (by simpa using hc)]
          refine .opened hm ho fun h => ?_
          by_contra he
          exact hc ⟨h, Bool.eq_false_iff.mpr he⟩

theorem drawn_openFile {input output : Path} {key : Key} {digest : Option Octets} {declared : Option Nat} :
    (Envelope.openFile files input key digest declared output).2.drawn = files.drawn := by
  unfold Envelope.openFile
  split
  · rfl
  · split
    · rfl
    · dsimp only
      split <;> rfl

/-- Opening a ciphertext changes no file but the one that it writes. -/
theorem left_of_openFile {made left : Files} {opened : Checked Nat} {key : Key} {digest : Option Octets}
    {declared : Option Nat} {output : Path} (hm : files.makeFolder folder = .ok made)
    (ho : Envelope.openFile made.draw ciphertext key digest declared output = (opened, left)) :
    left.drawn = files.drawn + 1 ∧ ∀ path, path ≠ output → left.get? path = files.get? path := by
  have hdrawn := congrArg (·.2.drawn) ho
  rw [drawn_openFile] at hdrawn
  refine ⟨?_, fun path hp => ?_⟩
  · rw [← Files.drawn_of_makeFolder hm]
    exact hdrawn.symm
  · have hleft := congrArg (·.2.get? path) ho
    rw [Envelope.get?_openFile hp] at hleft
    exact hleft.symm.trans (Files.get?_of_makeFolder hm path)

/-- A file that is there is opened as a whole, or found bad. -/
theorem openFile_of_present {left : Files} {opened : Checked Nat} {key : Key} {digest : Option Octets}
    {declared : Option Nat} {input output : Path} {bytes : Octets} (hf : files.get? input = some bytes)
    (hio : input ≠ output) (ho : Envelope.openFile files input key digest declared output = (opened, left)) :
    (∃ fault, opened = .error (.failed (.decryption fault))) ∨
      ∃ plain, Envelope.openWith key digest declared bytes = .ok plain ∧ opened = .ok plain.length ∧
        left.get? output = some plain := by
  cases hw : Envelope.openWith key digest declared bytes with
  | error fault =>
    obtain ⟨other, he, -⟩ := Envelope.openFile_of_error hf hio hw
    cases he.symm.trans ho
    exact Or.inl ⟨fault, rfl⟩
  | ok plain =>
    cases (Envelope.openFile_of_ok hf hio hw).symm.trans ho
    exact Or.inr ⟨plain, rfl, rfl, Files.get?_write ..⟩

/-- What opening a ciphertext leaves alone, and what it draws. -/
theorem OpenedInto.keeps {opened : Checked (Path × Nat)} {after : Files}
    (h : OpenedInto folder metadata mayBeEmpty files ciphertext opened after) :
    files.drawn ≤ after.drawn ∧
      (∀ path, path ≠ ciphertext → (∀ folder n, files.drawn ≤ n → path ≠ drawnPath folder n) →
        after.get? path = files.get? path) ∧
      ∀ output count, opened = .ok (output, count) → output = drawnPath folder files.drawn ∧ files.drawn < after.drawn := by
  cases h with
  | unmade => exact ⟨Nat.le_refl _, fun _ _ _ => rfl, fun _ _ he => by cases he⟩
  | crashed hm ho =>
    obtain ⟨hdrawn, hk⟩ := left_of_openFile hm ho
    exact ⟨by omega, fun path _ hd => hk path (hd folder _ (Nat.le_refl _)), fun _ _ he => by cases he⟩
  | @failed _ left _ hm ho | @empty _ left hm ho =>
    obtain ⟨hdrawn, hk⟩ := left_of_openFile hm ho
    have hle : files.drawn ≤ left.drawn := by omega
    refine ⟨hle, fun path _ hd => ?_, fun _ _ he => by cases he⟩
    have hne := hd folder _ (Nat.le_refl _)
    exact (Files.get?_erase_of_ne _ hne).trans (hk path hne)
  | @opened _ left _ hm ho hc =>
    obtain ⟨hdrawn, hk⟩ := left_of_openFile hm ho
    have hlt : files.drawn < left.drawn := by omega
    refine ⟨Nat.le_of_lt hlt, fun path hct hd => ?_, fun output count he => ?_⟩
    · exact (Files.get?_erase_of_ne _ hct).trans (hk path (hd folder _ (Nat.le_refl _)))
    · cases he
      exact ⟨rfl, hlt⟩

/-- A ciphertext that is there is opened as a whole, and nothing of it is left but the plaintext; or the opening fails,
    and there is no file that was not there before. -/
theorem OpenedInto.of_present {bytes : Octets} {opened : Checked (Path × Nat)} {after : Files}
    (h : OpenedInto folder metadata mayBeEmpty files ciphertext opened after) (hf : files.get? ciphertext = some bytes)
    (hd : ciphertext ≠ drawnPath folder files.drawn) :
    (∃ failure, opened = .error (.failed failure) ∧
      ∀ path, after.get? path = files.get? path ∨ after.get? path = none) ∨
    ∃ plain, Envelope.openWith metadata.key metadata.digest (metadata.plaintextLength.map UInt32.toNat) bytes = .ok plain ∧
      (plain = [] → mayBeEmpty = true) ∧ opened = .ok (drawnPath folder files.drawn, plain.length) ∧
      after.get? (drawnPath folder files.drawn) = some plain ∧ after.get? ciphertext = none := by
  have hpresent : ∀ {made : Files}, files.makeFolder folder = .ok made → made.draw.get? ciphertext = some bytes :=
    fun hm => (Files.get?_of_makeFolder hm ciphertext).trans hf
  -- A file that has been begun and is removed again leaves things as they were.
  have hback : ∀ {made left : Files} {opened : Checked Nat}, files.makeFolder folder = .ok made →
      Envelope.openFile made.draw ciphertext metadata.key metadata.digest (metadata.plaintextLength.map UInt32.toNat)
        (drawnPath folder files.drawn) = (opened, left) →
      ∀ path, (left.erase (drawnPath folder files.drawn)).get? path = files.get? path ∨
        (left.erase (drawnPath folder files.drawn)).get? path = none := by
    intro made left opened hm ho path
    by_cases hp : path = drawnPath folder files.drawn
    · rw [hp]
      exact Or.inr (Files.get?_erase ..)
    · rw [Files.get?_erase_of_ne _ hp]
      exact Or.inl ((left_of_openFile hm ho).2 path hp)
  cases h with
  | unmade hm => exact Or.inl ⟨_, rfl, fun _ => Or.inl rfl⟩
  | crashed hm ho =>
    rcases openFile_of_present (hpresent hm) hd ho with ⟨fault, he⟩ | ⟨plain, -, he, -⟩ <;> cases he
  | failed hm ho | empty hm ho => exact Or.inl ⟨_, rfl, hback hm ho⟩
  | opened hm ho hc =>
    rcases openFile_of_present (hpresent hm) hd ho with ⟨fault, he⟩ | ⟨plain, hw, he, hout⟩
    · cases he
    · cases he
      refine Or.inr ⟨plain, hw, fun hnil => hc (by rw [hnil]; rfl), rfl, ?_, Files.get?_erase ..⟩
      exact (Files.get?_erase_of_ne _ hd.symm).trans hout

end Opening

/-! ### The works -/

/-- A work that touches no files but its ciphertext and those at paths that it draws, and of which the product is one
    of them. -/
structure Work.IsGentle (work : Work) : Prop where
  drawn : ∀ files ciphertext, files.drawn ≤ (work files ciphertext).2.drawn
  keeps : ∀ files ciphertext path, path ≠ ciphertext → (∀ folder n, files.drawn ≤ n → path ≠ drawnPath folder n) →
    (work files ciphertext).2.get? path = files.get? path
  product : ∀ files ciphertext product, (work files ciphertext).1 = .returned (.ok product) → product.path = ciphertext ∨
    ∃ folder n, files.drawn ≤ n ∧ n < (work files ciphertext).2.drawn ∧ product.path = drawnPath folder n

/-- A work that opens its ciphertext into a folder, and makes something of the file and its length. -/
def Work.opening (folder : Path) (metadata : Metadata) (mayBeEmpty : Bool) (make : Path → Nat → Product) : Work :=
  fun files ciphertext =>
    let into := openInto folder metadata mayBeEmpty files ciphertext
    (.ofChecked (into.1.map fun (path, count) => make path count), into.2)

theorem decrypt_eq_opening (folder : Path) (metadata : Metadata) :
    Work.decrypt folder metadata = Work.opening folder metadata true fun path _ => .plaintext path := by
  funext files ciphertext
  exact decrypt_eq_openInto folder metadata files ciphertext

theorem validate_decrypting_eq_opening (folder : Path) (metadata : Metadata) :
    Work.validate (.decrypting folder) metadata =
      Work.opening folder metadata false fun path count => .attachment ⟨path, metadata.mimeType, count⟩ := by
  funext files ciphertext
  simp only [Work.validate, decrypting_eq_openInto, Work.opening]
  cases (openInto folder metadata false files ciphertext).1 <;> rfl

variable {folder ciphertext : Path} {metadata : Metadata} {mayBeEmpty : Bool} {make : Path → Nat → Product}
  {files : Files}

/-- What comes of opening a ciphertext that is there: the whole plaintext at the path that has been drawn, or a failure
    and no file that was not there before. -/
theorem opening_of_present (metadata : Metadata) (mayBeEmpty : Bool) (make : Path → Nat → Product) {bytes : Octets}
    (hf : files.get? ciphertext = some bytes) (hd : ciphertext ≠ drawnPath folder files.drawn) :
    let done := Work.opening folder metadata mayBeEmpty make files ciphertext
    (∃ failure, done.1 = .returned (.error failure) ∧
      ∀ path, done.2.get? path = files.get? path ∨ done.2.get? path = none) ∨
    ∃ plain, Envelope.openWith metadata.key metadata.digest (metadata.plaintextLength.map UInt32.toNat) bytes = .ok plain ∧
      (plain = [] → mayBeEmpty = true) ∧
      done.1 = .returned (.ok (make (drawnPath folder files.drawn) plain.length)) ∧
      done.2.get? (drawnPath folder files.drawn) = some plain ∧ done.2.get? ciphertext = none := by
  intro done
  rcases (openInto_spec folder metadata mayBeEmpty files ciphertext).of_present hf hd with
    ⟨failure, ho, hk⟩ | ⟨plain, hw, he, ho, hout, hgone⟩
  · refine Or.inl ⟨failure, ?_, hk⟩
    change Outcome.ofChecked ((openInto folder metadata mayBeEmpty files ciphertext).1.map _) = _
    rw [ho]
    rfl
  · refine Or.inr ⟨plain, hw, he, ?_, hout, hgone⟩
    change Outcome.ofChecked ((openInto folder metadata mayBeEmpty files ciphertext).1.map _) = _
    rw [ho]
    rfl

/-! ### The steps of the worker -/

namespace Pipeline

variable {isCancelled : Nat → Bool} {p p' : Pipeline} {s s' : Shared} {path : Path}

/-- The worker leaves a file alone: it is not the ciphertext of the job at hand, it is not drawn by a work, and it is
    not a result that nobody waits for. -/
structure Spares (p : Pipeline) (files : Files) (path : Path) : Prop where
  ciphertext : ∀ job, p.worker.job? = some job → job.ciphertext ≠ path
  undrawn : ∀ folder n, files.drawn ≤ n → path ≠ drawnPath folder n
  carried : ∀ job product, p.Carries job product → (p.reply? job.call).isSome ∨ product.path ≠ path

theorem Step.drawn_le (h : Step isCancelled p s p' s')
    (hg : ∀ job, p.worker = .operating job → job.work.IsGentle) : s.files.drawn ≤ s'.files.drawn := by
  cases h with
  | take | begin | skip | announce | keep | clear => exact Nat.le_refl _
  | @operate job _ _ hw ho | @crash job _ hw ho =>
    have hd := (hg job hw).drawn s.files job.ciphertext
    rwa [ho] at hd
  | @reply job result hw =>
    unfold send
    split
    · exact Nat.le_refl _
    · cases result <;> exact Nat.le_refl _

theorem Step.get?_eq (h : Step isCancelled p s p' s') (hg : ∀ job, p.worker = .operating job → job.work.IsGentle)
    (hp : p.Spares s.files path) : s'.files.get? path = s.files.get? path := by
  cases h with
  | take | begin | skip | announce | keep => rfl
  | @operate job _ _ hw ho | @crash job _ hw ho =>
    have hne := hp.ciphertext job (by rw [hw]; rfl)
    have hk := (hg job hw).keeps s.files job.ciphertext path hne.symm hp.undrawn
    rwa [ho] at hk
  | @clear job _ hw => exact Files.get?_erase_of_ne _ (hp.ciphertext job (by rw [hw]; rfl)).symm
  | @reply job result hw =>
    unfold send
    split
    · rfl
    · rename_i hr
      cases result with
      | error failure => rfl
      | ok product =>
        rcases hp.carried job product (Or.inr (Or.inr hw)) with hs | hne
        · exact absurd hs hr
        · exact Files.get?_erase_of_ne _ hne.symm

/-- What the worker has a result of, it has had before, or it has just done the work. -/
theorem Step.carries_cases {job : Job} {product : Product} (h : Step isCancelled p s p' s')
    (hc : p'.Carries job product) : p.Carries job product ∨
      p.worker = .operating job ∧ job.work s.files job.ciphertext = (.returned (.ok product), s'.files) := by
  cases h with
  | take | begin | skip => rcases hc with hc | hc | hc <;> cases hc
  | operate hw ho =>
    rcases hc with hc | hc | hc <;> cases hc
    exact Or.inr ⟨hw, ho⟩
  | @crash other _ hw =>
    have hidle := (breakOff_eq { p with worker := .idle } other.call).2
    rcases hc with hc | hc | hc <;> cases hidle.symm.trans hc
  | announce hw | keep hw =>
    rcases hc with hc | hc | hc <;> cases hc
    first | exact Or.inl (Or.inl hw) | exact Or.inl (Or.inr (Or.inl hw))
  | clear hw => rcases hc with hc | hc | hc <;> cases hc
  | @reply other result hw =>
    have hidle := (send_eq { p with worker := .idle } s other.call result).2.1
    rcases hc with hc | hc | hc <;> cases hidle.symm.trans hc

end Pipeline
end SealedDownload
