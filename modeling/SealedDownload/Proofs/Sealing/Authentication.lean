import SealedDownload.Proofs.Sealing.Opening

/-! Nothing is decrypted before a file has been authenticated. All checks come first, and they are made with the key
    of the code alone; so whoever hands in a file that is not genuine learns nothing of the key of the cipher from
    the answer, and the output is not begun. Only the output is ever written, and so the input stays as it is unless
    it is the output too: then it is emptied as soon as the output is begun. -/

namespace SealedDownload.Envelope

open Checked

variable {key key' : Key} {digest : Option Octets} {declared : Option Nat} {file plain : Octets}
  {files : Files} {input output path : Path} {fault : SealFault}

/-! ### The checks -/

/-- A file that is not looked into: it is missing, too short, or not made of complete blocks; or the holder of the key
    has not made it; or it is not the one that the digest names. -/
inductive Rejected (key : Key) (digest : Option Octets) : Option Octets → Prop where
  | missing : Rejected key digest none
  | tooShort {file : Octets} (h : file.length < minLength) : Rejected key digest (some file)
  | misaligned {file : Octets} (h : ¬blockLength ∣ file.length - overhead) : Rejected key digest (some file)
  | badMac {file : Octets} (h : Hmac.code key.macHalf (signed file) ≠ mac file) : Rejected key digest (some file)
  | digestMismatch {file expected : Octets} (hd : digest = some expected) (h : Sha256.digest file ≠ expected) :
      Rejected key digest (some file)

theorem checks_of_verify (h : verify key digest file = .ok ()) :
    Hmac.code key.macHalf (signed file) = mac file ∧
      ∀ expected, digest = some expected → Sha256.digest file = expected := by
  unfold verify at h
  split at h
  · cases h
  split at h
  · cases h
  split at h
  · cases h
  rename_i hcode
  refine ⟨Decidable.not_not.mp hcode, fun expected he => ?_⟩
  subst he
  simp only at h
  split at h
  · assumption
  · cases h

/-- A plaintext comes only of a file that has passed all checks. -/
theorem checks_of_openWith (h : openWith key digest declared file = .ok plain) :
    Hmac.code key.macHalf (signed file) = mac file ∧
      (∀ expected, digest = some expected → Sha256.digest file = expected) ∧
      ∃ whole, unpad? (decrypted key file) = some whole ∧ cutTo declared whole = .ok plain := by
  cases hv : verify key digest file with
  | error fault =>
    rw [openWith_of_error hv] at h
    cases h
  | ok passed =>
    obtain ⟨hcode, hdigest⟩ := checks_of_verify hv
    rw [openWith_of_verify hv] at h
    cases hu : unpad? (decrypted key file) with
    | none =>
      rw [hu] at h
      cases h
    | some whole =>
      rw [hu] at h
      exact ⟨hcode, hdigest, whole, rfl, h⟩

theorem verify_of_rejected (h : Rejected key digest (some file)) : ∃ fault, verify key digest file = .error fault := by
  cases hv : verify key digest file with
  | error fault => exact ⟨fault, rfl⟩
  | ok passed =>
    obtain ⟨hlength, hblocks⟩ := length_of_verify hv
    obtain ⟨hcode, hdigest⟩ := checks_of_verify hv
    cases h with
    | tooShort h => exact absurd h (Nat.not_lt.mpr hlength)
    | misaligned h => exact absurd hblocks h
    | badMac h => exact absurd hcode h
    | digestMismatch hd h => exact absurd (hdigest _ hd) h

theorem rejected_or_checked (key : Key) (digest : Option Octets) (present : Option Octets) :
    Rejected key digest present ∨ ∃ file, present = some file ∧ Hmac.code key.macHalf (signed file) = mac file ∧
      ∀ expected, digest = some expected → Sha256.digest file = expected := by
  by_cases h : Rejected key digest present
  · exact Or.inl h
  · cases present with
    | none => exact absurd .missing h
    | some file =>
      refine Or.inr ⟨file, rfl, Classical.not_not.mp fun hcode => h (.badMac hcode), fun expected hd => ?_⟩
      exact Classical.not_not.mp fun hdigest => h (.digestMismatch hd hdigest)

/-- All that is not rejected passes the checks. -/
theorem verify_of_not_rejected {present : Option Octets} (h : ¬Rejected key digest present) :
    ∃ file, present = some file ∧ verify key digest file = .ok () := by
  cases present with
  | none => exact absurd .missing h
  | some file =>
    refine ⟨file, rfl, ?_⟩
    have hlength : ¬file.length < minLength := fun hs => h (.tooShort hs)
    have hblocks : ¬(file.length - overhead) % blockLength ≠ 0 := fun ha =>
      h (.misaligned fun hd => ha (Nat.mod_eq_zero_of_dvd hd))
    have hcode : ¬Hmac.code key.macHalf (signed file) ≠ mac file := fun hc => h (.badMac hc)
    unfold verify
    rw [if_neg hlength, if_neg hblocks, if_neg hcode]
    cases digest with
    | none => rfl
    | some expected => exact if_pos (Classical.not_not.mp fun hd => h (.digestMismatch rfl hd))

/-- The checks read no more of the key than the half that authenticates. -/
theorem verify_congr (h : key'.macHalf = key.macHalf) : verify key' digest file = verify key digest file := by
  unfold verify
  rw [h]

/-- Whether a fault can be found only in what has been decrypted. -/
def isOfPlaintext : SealFault → Bool
  | .invalidPadding => true
  | .plaintextLengthMismatch .. => true
  | _ => false

theorem not_isOfPlaintext_of_verify (hv : verify key digest file = .error fault) : isOfPlaintext fault = false := by
  unfold verify at hv
  split at hv
  · cases hv
    rfl
  split at hv
  · cases hv
    rfl
  split at hv
  · cases hv
    rfl
  split at hv
  · split at hv <;> cases hv
    rfl
  · cases hv

/-! ### Opening -/

theorem openFile_of_verify_error (hf : files.get? input = some file) (hv : verify key digest file = .error fault) :
    openFile files input key digest declared output = (.error (.failed (.decryption fault)), files) := by
  unfold openFile
  rw [hf]
  simp only [begin_eq, hv]
  rfl

/-- Opening writes its output and no other file. -/
theorem get?_openFile (h : path ≠ output) :
    (openFile files input key digest declared output).2.get? path = files.get? path := by
  unfold openFile
  split
  · rfl
  · split
    · rfl
    · dsimp only
      split <;> exact Files.get?_write_of_ne files _ h

theorem run_bind_error {α β : Type} {x : Writing α} {f : α → Writing β} {halt : Halt} {w w' : Writer}
    (h : x.run w = .error halt w') : (x >>= f).run w = .error halt w' := by
  have h : x w = .error halt w' := h
  simp only [EStateM.run, Bind.bind, EStateM.bind, h]

/-- What a reader finds at the end of a file that is shorter than it should be. -/
def atEnd : Failure := .io .unexpectedEof (some "failed to fill whole buffer")

/-- Of a file that has nothing left no piece can be read. -/
theorem decryptLeft_of_nil {o : Opener} {length : Nat} {w : Writer} (ho : o.left = []) (hl : 0 < length) :
    (decryptLeft key declared length o).run w = .error (.failed atEnd) w := by
  have hc : ¬min length pieceLength ≤ ([] : Octets).length := by
    simp only [List.length_nil, pieceLength]
    omega
  have hread : (Checked.read (min length pieceLength) o.left : Writing (Octets × Octets)).run w = .error (.failed atEnd) w := by
    rw [ho, Checked.read, if_neg hc]
    rfl
  have hturn : (o.turn (Aes.roundKeys key.cipherHalf) (min length pieceLength)).run w = .error (.failed atEnd) w := by
    unfold Opener.turn
    rw [require_of (Nat.min_le_right ..), pure_bind]
    exact run_bind_error hread
  unfold decryptLeft Opener.turns
  rw [if_neg (Nat.ne_of_gt hl)]
  exact run_bind_error (run_bind_error hturn)

/-- A file that is opened into itself is emptied before anything is read of it again. -/
theorem openFile_self (hf : files.get? path = some file) (hv : verify key digest file = .ok ()) :
    openFile files path key digest declared path = (.error (.failed atEnd), files.write path []) := by
  have hl : 0 < file.length - overhead := by
    have hl := (length_of_verify hv).1
    simp only [minLength, overhead, macLength, blockLength] at hl ⊢
    omega
  unfold openFile
  rw [hf]
  simp only [begin_eq, hv, pure, Except.pure, if_true]
  rw [decryptLeft_of_nil rfl hl]

/-- All who hand in a file that is rejected get the same answer, and no file changes. -/
theorem openFile_of_rejected {present : Option Octets} (h : Rejected key digest present) :
    ∃ failure, (∀ fault, failure = .decryption fault → isOfPlaintext fault = false) ∧
      ∀ files input key' declared output, files.get? input = present → key'.macHalf = key.macHalf →
        openFile files input key' digest declared output = (.error (.failed failure), files) := by
  cases present with
  | none =>
    refine ⟨.io .notFound none, fun _ h => ?_, fun files input key' declared output hf _ => ?_⟩
    · cases h
    unfold openFile
    rw [hf]
    rfl
  | some file =>
    obtain ⟨fault, hv⟩ := verify_of_rejected h
    refine ⟨.decryption fault, fun _ h => ?_, fun files input key' declared output hf hk => ?_⟩
    · cases h
      exact not_isOfPlaintext_of_verify hv
    · exact openFile_of_verify_error hf ((verify_congr hk).trans hv)

/-- A file that is missing, too short or not made of complete blocks, that fails the code or is not the one of the
    digest, leaves the output as it was; and the answer is the same whatever the key of the cipher, the declared length
    and the output are, and whatever other files there are. That the padding is wrong, or the declared length, is
    answered only of a file whose code and digest have been verified. No file is written but the output, and where this
    is the input, a file that is not rejected is emptied. -/
theorem authenticated_first (files : Files) (input : Path) (key : Key) (digest : Option Octets)
    (declared : Option Nat) (output : Path) :
    let opened := openFile files input key digest declared output
    (Rejected key digest (files.get? input) → opened.2 = files ∧
      ∃ failure, opened.1 = .error (.failed failure) ∧
        ∀ files' input' key' declared' output', files'.get? input' = files.get? input → key'.macHalf = key.macHalf →
          (openFile files' input' key' digest declared' output').1 = opened.1) ∧
    (∀ fault, opened.1 = .error (.failed (.decryption fault)) → isOfPlaintext fault = true →
      ∃ file, files.get? input = some file ∧ Hmac.code key.macHalf (signed file) = mac file ∧
        ∀ expected, digest = some expected → Sha256.digest file = expected) ∧
    (∀ path, path ≠ output → opened.2.get? path = files.get? path) ∧
    (¬Rejected key digest (files.get? input) → input = output →
      opened = (.error (.failed atEnd), files.write input [])) := by
  intro opened
  refine ⟨fun h => ?_, fun fault hanswer hplain => ?_, fun path hp => get?_openFile hp, fun h hio => ?_⟩
  · obtain ⟨failure, -, hall⟩ := openFile_of_rejected h
    have hopened : opened = (.error (.failed failure), files) := hall files input key declared output rfl rfl
    rw [hopened]
    exact ⟨rfl, failure, rfl, fun files' input' key' declared' output' hf hk =>
      (congrArg Prod.fst (hall files' input' key' declared' output' hf hk)).trans rfl⟩
  · rcases rejected_or_checked key digest (files.get? input) with h | h
    · obtain ⟨failure, hfault, hall⟩ := openFile_of_rejected h
      have hopened : opened = (.error (.failed failure), files) := hall files input key declared output rfl rfl
      rw [hopened] at hanswer
      cases hanswer
      rw [hfault fault rfl] at hplain
      cases hplain
    · exact h
  · obtain ⟨file, hf, hv⟩ := verify_of_not_rejected h
    subst hio
    exact openFile_self hf hv

/-- A key with the same half for the code and another one for the cipher. -/
def otherKey : Key := ⟨List.replicate 32 8 ++ List.replicate 32 7, rfl⟩

/-- A file of the right length with a wrong code. -/
def forgedFile : Octets := List.replicate 64 0

/-- A forged file is answered alike with two keys for the cipher. -/
theorem authenticated_first_forged :
    let files := (Files.empty.write "plain" [1]).write "sealed" forgedFile
    Rejected plainKey none (files.get? "sealed") ∧ otherKey.macHalf = plainKey.macHalf ∧
      otherKey.cipherHalf ≠ plainKey.cipherHalf ∧
      (openFile files "sealed" plainKey none none "plain").2 = files ∧
      (openFile files "sealed" otherKey none (some 5) "other").1 = (openFile files "sealed" plainKey none none "plain").1 := by
  intro files
  have hf : files.get? "sealed" = some forgedFile := Files.get?_write _ _ _
  have hr : Rejected plainKey none (files.get? "sealed") := by
    rw [hf]
    exact .badMac (by decide +kernel)
  obtain ⟨hfiles, failure, -, hall⟩ := (authenticated_first files "sealed" plainKey none none "plain").1 hr
  exact ⟨hr, rfl, by decide, hfiles, hall files "sealed" otherKey (some 5) "other" rfl rfl⟩

/-- A sealed file that is opened into itself is emptied. -/
theorem input_emptied :
    ¬∀ (files : Files) (input : Path) (key : Key) (digest : Option Octets) (declared : Option Nat) (output : Path),
      (openFile files input key digest declared output).2.get? input = files.get? input := by
  intro h
  have hf : sealedFiles.get? "sealed" = some sealedFile := Files.get?_write ..
  have hv : verify plainKey none sealedFile = .ok () := by
    cases hv : verify plainKey none sealedFile with
    | ok passed => rfl
    | error fault =>
      have ho := openWith_sealedFile
      rw [openWith_of_error hv] at ho
      cases ho
  have hkept := h sealedFiles "sealed" plainKey none none "sealed"
  rw [openFile_self hf hv, hf] at hkept
  have hempty : some [] = some sealedFile := (Files.get?_write ..).symm.trans hkept
  have hlength := (length_of_verify hv).1
  rw [← Option.some.inj hempty] at hlength
  exact absurd hlength (by decide)

end SealedDownload.Envelope
