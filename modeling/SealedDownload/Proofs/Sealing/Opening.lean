import SealedDownload.Sealing.Opening
import SealedDownload.Proofs.Sealing.Blocks

/-! Opening piece by piece and opening at once give the same. The first pass feeds the hashers what the
    code covers. In the second one, what is written and what is held back make up the plaintext of the
    blocks so far, and no operation is used outside of what it is defined for. -/

namespace SealedDownload.Envelope

open Checked

/-! ### Writing -/

/-- The part of a text that a limit lets through. -/
def kept (limit : Option Nat) (bytes : Octets) : Octets :=
  match limit with
  | none => bytes
  | some limit => bytes.take limit

/-- The writer that has been given a text. -/
def Writer.after (limit : Option Nat) (bytes : Octets) : Writer :=
  ⟨limit, kept limit bytes, (kept limit bytes).length⟩

theorem run_bind_ok {α β : Type} {x : Writing α} {f : α → Writing β} {a : α} {w w' : Writer}
    (h : x.run w = .ok a w') : (x >>= f).run w = (f a).run w' := by
  have h : x w = .ok a w' := h
  simp only [EStateM.run, Bind.bind, EStateM.bind, h]

theorem room_le (w : Writer) (size : Nat) : w.room size ≤ size := by
  unfold Writer.room
  split
  · exact Nat.le_refl _
  · exact Nat.min_le_right _ _

theorem kept_append (limit : Option Nat) (out bytes : Octets) :
    kept limit (out ++ bytes) =
      kept limit out ++ bytes.take ((Writer.after limit out).room bytes.length) := by
  cases limit with
  | none => simp [kept, Writer.after, Writer.room]
  | some limit =>
    simp only [kept, Writer.after, Writer.room, List.length_take, List.take_append, List.append_cancel_left_eq]
    rw [← List.take_eq_take_min]
    congr 1
    omega

/-- A writer that is given one text after another has been given both. -/
theorem write_after (limit : Option Nat) (out bytes : Octets) :
    (write bytes).run (.after limit out) = .ok () (.after limit (out ++ bytes)) := by
  have hr : (Writer.after limit out).room bytes.length ≤ bytes.length := room_le _ _
  have hk := kept_append limit out bytes
  have hn : (kept limit (out ++ bytes)).length =
      (kept limit out).length + (Writer.after limit out).room bytes.length := by
    rw [hk, List.length_append, List.length_take, Nat.min_eq_left hr]
  have hw : write bytes = (do
      let w ← get
      require (w.room bytes.length ≤ bytes.length)
      set { w with
        written := w.written ++ bytes.take (w.room bytes.length)
        count := w.count + w.room bytes.length }) := rfl
  have hg : (get : Writing Writer).run (.after limit out) = .ok (.after limit out) (.after limit out) := rfl
  rw [hw, run_bind_ok hg, require_of hr, pure_bind]
  simp only [Writer.after, hn]
  rw [hk]
  rfl

/-! ### The first pass -/

/-- What remains, cut into the piece that comes next and the rest. -/
structure Cut (next piece rest : Octets) : Prop where
  parts : next = piece ++ rest
  length : piece.length = min next.length pieceLength
  nonempty : 0 < piece.length
  shorter : rest.length < next.length
  left : next.length - piece.length = rest.length

theorem exists_cut {next : Octets} (hn : next.length ≠ 0) : ∃ piece rest, Cut next piece rest := by
  have hp : 0 < pieceLength := by decide
  refine ⟨next.take pieceLength, next.drop pieceLength, (List.take_append_drop _ _).symm, ?_, ?_, ?_, ?_⟩
  · rw [List.length_take, Nat.min_comm]
  · rw [List.length_take]
    omega
  · rw [List.length_drop]
    omega
  · rw [List.length_take, List.length_drop]
    omega

namespace Cut

variable {next piece rest : Octets}

theorem le_pieceLength (h : Cut next piece rest) : piece.length ≤ pieceLength := by
  rw [h.length]
  exact Nat.min_le_right _ _

theorem le_length (h : Cut next piece rest) : piece.length ≤ next.length := by
  rw [h.length]
  exact Nat.min_le_left _ _

/-- A cut of complete blocks cuts between blocks. -/
theorem dvd (h : Cut next piece rest) (hb : blockLength ∣ next.length) :
    blockLength ∣ piece.length ∧ blockLength ∣ rest.length := by
  have hp : blockLength ∣ piece.length := by
    rw [h.length]
    rcases Nat.le_total next.length pieceLength with hle | hle
    · rw [Nat.min_eq_left hle]
      exact hb
    · rw [Nat.min_eq_right hle]
      decide
  refine ⟨hp, ?_⟩
  rw [← h.left]
  exact Nat.dvd_sub hb hp

end Cut

theorem hasher_feed_append (h : Sha256.Hasher) (a b : Octets) : h.feed (a ++ b) = (h.feed a).feed b := by
  exact List.foldl_append

theorem Checker.feed_append (c : Checker) (a b : Octets) : c.feed (a ++ b) = (c.feed a).feed b := by
  unfold Checker.feed
  rw [hasher_feed_append, hasher_feed_append]

/-- Feeding piece by piece is feeding at once. -/
theorem Checker.feedNext_append (c : Checker) (next left : Octets) :
    c.feedNext next.length (next ++ left) = pure (c.feed next, left) := by
  rw [Checker.feedNext]
  by_cases hn : next.length = 0
  · rw [if_pos hn, List.eq_nil_of_length_eq_zero hn]
    rfl
  · obtain ⟨piece, rest, hc⟩ := exists_cut hn
    have hshorter := hc.shorter
    have hr : read piece.length (next ++ left) = (pure (piece, rest ++ left) : Checked (Octets × Octets)) := by
      rw [hc.parts, List.append_assoc]
      exact read_append piece (rest ++ left) rfl
    rw [if_neg hn]
    simp only [← hc.length, require_of hc.le_pieceLength, require_of hc.le_length, hr, pure_bind, hc.left]
    rw [(c.feed piece).feedNext_append rest left, hc.parts, Checker.feed_append]
termination_by next.length

/-! ### The checks -/

variable {key : Key} {digest : Option Octets} {file : Octets}

theorem signed_append_mac (file : Octets) : signed file ++ mac file = file := by
  exact List.take_append_drop _ _

theorem length_signed (file : Octets) : (signed file).length = file.length - macLength := by
  unfold signed
  rw [List.length_take]
  omega

theorem length_mac (hf : macLength ≤ file.length) : (mac file).length = macLength := by
  unfold mac
  rw [List.length_drop]
  omega

theorem digest_eq (file : Octets) :
    ((Sha256.Hasher.start.feed (signed file)).feed (mac file)).finish = Sha256.digest file := by
  rw [← hasher_feed_append, signed_append_mac]
  rfl

/-- The first pass finds what the code and the digest of the whole file say. -/
theorem authenticate_eq (hf : macLength ≤ file.length) :
    authenticate key digest file =
      if Hmac.code key.macHalf (signed file) ≠ mac file then fail (.decryption .badMac)
      else match digest with
        | some expected => if Sha256.digest file = expected then pure () else fail (.decryption .digestMismatch)
        | none => pure () := by
  have hn (c : Checker) : c.feedNext (file.length - macLength) file = pure (c.feed (signed file), mac file) := by
    have h := c.feedNext_append (signed file) (mac file)
    rwa [length_signed, signed_append_mac] at h
  have hr : read macLength (mac file) = (pure (mac file, []) : Checked (Octets × Octets)) := by
    have h := read_append (m := Checked) (mac file) [] (length_mac hf)
    rwa [List.append_nil] at h
  unfold authenticate
  simp only [require_of hf, pure_bind, hn, hr, Checker.feed, digest_eq]
  rfl

/-- The opener of a file that has been found good. -/
def opener (file : Octets) : Opener :=
  ⟨file.drop blockLength, .ofOctets (vector file), List.replicate blockLength 0, false⟩

theorem length_cipherHalf (key : Key) : key.cipherHalf.length = 32 := by
  unfold Key.cipherHalf
  rw [List.length_take, key.length_eq]
  rfl

/-- All checks are done before anything else, in the order in which they are listed. -/
theorem begin_eq : begin key digest file =
    match verify key digest file with
    | .error fault => fail (.decryption fault)
    | .ok () => pure (opener file) := by
  unfold begin verify
  by_cases hs : file.length < minLength
  · rw [if_pos hs, if_pos hs]
  have ho : overhead ≤ file.length := Nat.le_trans (Nat.le_add_right ..) (Nat.not_lt.mp hs)
  rw [if_neg hs, if_neg hs, require_of ho, pure_bind]
  by_cases ha : (file.length - overhead) % blockLength ≠ 0
  · rw [if_pos ha, if_pos ha]
  rw [if_neg ha, if_neg ha]
  have hm : macLength ≤ file.length := by
    simp only [minLength, overhead, macLength, blockLength] at hs ⊢
    omega
  have hr : read blockLength file = (pure (vector file, file.drop blockLength) : Checked (Octets × Octets)) := by
    have hv : (vector file).length = blockLength := by
      simp only [minLength, overhead, macLength, blockLength] at hs
      simp only [vector, List.length_take, blockLength]
      omega
    have h := read_append (m := Checked) (vector file) (file.drop blockLength) hv
    rwa [vector, List.take_append_drop] at h
  rw [authenticate_eq hm]
  simp only [hr, pure_bind, length_cipherHalf, ne_eq, not_true_eq_false, if_false]
  by_cases hc : Hmac.code key.macHalf (signed file) ≠ mac file
  · rw [if_pos hc, if_pos hc]
    rfl
  rw [if_neg hc, if_neg hc]
  cases digest with
  | none => rfl
  | some expected =>
    by_cases hd : Sha256.digest file = expected
    · simp only [if_pos hd]
      rfl
    · simp only [if_neg hd]
      rfl

/-! ### The second pass -/

variable {keys : List Aes.Block} {v : Aes.Block} {limit : Option Nat} {done out : Octets} {o : Opener}

theorem decryptBlocks_eq (keys : List Aes.Block) (previous : Aes.Block) (xs : List Aes.Block) :
    decryptBlocks keys previous xs = (unchain keys previous xs, xs.getLastD previous) := by
  induction xs generalizing previous with
  | nil => rfl
  | cons x xs ih => rw [decryptBlocks, ih, unchain_cons, List.getLastD_cons]

/-- The plaintext of blocks that are chained to `v`. -/
def plainOf (keys : List Aes.Block) (v : Aes.Block) (sealed : Octets) : Octets :=
  bytesOf (unchain keys v (blocks sealed))

theorem decryptPiece_eq {piece : Octets} (keys : List Aes.Block) (previous : Aes.Block)
    (hb : blockLength ∣ piece.length) :
    decryptPiece keys previous piece = (plainOf keys previous piece, (blocks piece).getLastD previous) := by
  have hw : piece.length / blockLength * blockLength = piece.length := Nat.div_mul_cancel hb
  simp only [decryptPiece, hw, List.take_length, List.drop_length, decryptBlocks_eq, List.append_nil]
  rfl

theorem length_plainOf {sealed : Octets} (hb : blockLength ∣ sealed.length) :
    (plainOf keys v sealed).length = sealed.length := by
  unfold plainOf
  rw [length_bytesOf, length_unchain, length_blocks hb]

theorem plainOf_append {a : Octets} (b : Octets) (ha : blockLength ∣ a.length) :
    plainOf keys v (a ++ b) = plainOf keys v a ++ plainOf keys ((blocks a).getLastD v) b := by
  unfold plainOf
  rw [blocks_append b ha, unchain_append, bytesOf_append]

/-- What is held back and still has to be written. -/
def Opener.pending (o : Opener) : Octets := if o.holding then o.held else []

/-- An opener that has gone through `done`, and has had `out` written. -/
structure Opener.Through (keys : List Aes.Block) (v : Aes.Block) (done out : Octets) (o : Opener) : Prop where
  whole : blockLength ∣ done.length
  previous : o.previous = (blocks done).getLastD v
  text : out ++ o.pending = plainOf keys v done
  held : done ≠ [] → o.holding = true ∧ o.held.length = blockLength

namespace Opener.Through

theorem start {o : Opener} (hp : o.previous = v) (hh : o.holding = false) : o.Through keys v [] [] := by
  have hn : o.pending = [] := by
    unfold Opener.pending
    rw [hh]
    rfl
  refine ⟨⟨0, rfl⟩, ?_, ?_, fun h => absurd rfl h⟩
  · rw [blocks_nil]
    exact hp
  · rw [hn, plainOf, blocks_nil]
    rfl

theorem writeHeld_after (o : Opener) :
    o.writeHeld.run (.after limit out) = .ok () (.after limit (out ++ o.pending)) := by
  unfold Opener.writeHeld Opener.pending
  cases o.holding with
  | false =>
    simp only [Bool.false_eq_true, if_false, List.append_nil]
    rfl
  | true => exact write_after limit out o.held

/-- One more piece: it is read, decrypted, and written but for its last block. -/
theorem turn (h : o.Through keys v done out) (limit : Option Nat) {piece more : Octets}
    (hl : o.left = piece ++ more) (hb : blockLength ∣ piece.length) (hn : piece ≠ []) (hp : piece.length ≤ pieceLength) :
    ∃ o' out', (o.turn keys piece.length).run (.after limit out) = .ok o' (.after limit out') ∧
      o'.left = more ∧ o'.Through keys v (done ++ piece) out' := by
  have hle : blockLength ≤ piece.length := Nat.le_of_dvd (List.length_pos_iff.mpr hn) hb
  have hlen : (plainOf keys o.previous piece).length = piece.length := length_plainOf hb
  have hr : (read piece.length o.left : Writing (Octets × Octets)) = pure (piece, more) := by
    rw [hl]
    exact read_append piece more rfl
  have hs : blockLength ≤ piece.length ∧ piece.length - blockLength ≤ (plainOf keys o.previous piece).length := by
    rw [hlen]
    exact ⟨hle, Nat.sub_le _ _⟩
  have hd : ((plainOf keys o.previous piece).drop (piece.length - blockLength)).length = blockLength := by
    rw [List.length_drop, hlen]
    omega
  refine ⟨⟨more, (blocks piece).getLastD o.previous,
      (plainOf keys o.previous piece).drop (piece.length - blockLength), true⟩,
    out ++ o.pending ++ (plainOf keys o.previous piece).take (piece.length - blockLength), ?_, rfl, ?_⟩
  · unfold Opener.turn
    simp only [require_of hp, hr, pure_bind, decryptPiece_eq keys o.previous hb, List.splitAt_eq]
    rw [run_bind_ok (writeHeld_after o), require_of hs, pure_bind, run_bind_ok (write_after _ _ _), require_of hd,
      pure_bind]
    rfl
  · have hw : blockLength ∣ (done ++ piece).length := by
      rw [List.length_append]
      exact Nat.dvd_add h.whole hb
    refine ⟨hw, ?_, ?_, fun _ => ⟨rfl, hd⟩⟩
    · rw [blocks_append piece h.whole, getLastD_append, ← h.previous]
    · rw [plainOf_append piece h.whole, ← h.text, ← h.previous]
      simp only [Opener.pending, if_true, List.append_assoc, List.take_append_drop]

/-- One piece after the other, until all of `next` has been gone through. -/
theorem turns {done out : Octets} {o : Opener} (h : o.Through keys v done out) (limit : Option Nat)
    {next more : Octets} (hl : o.left = next ++ more) (hb : blockLength ∣ next.length) :
    ∃ o' out', (o.turns keys next.length).run (.after limit out) = .ok o' (.after limit out') ∧
      o'.Through keys v (done ++ next) out' := by
  rw [Opener.turns]
  by_cases hn : next.length = 0
  · rw [if_pos hn, List.eq_nil_of_length_eq_zero hn, List.append_nil]
    exact ⟨o, out, rfl, h⟩
  · obtain ⟨piece, rest, hc⟩ := exists_cut hn
    obtain ⟨hp, hr⟩ := hc.dvd hb
    have hshorter := hc.shorter
    have hl : o.left = piece ++ (rest ++ more) := by rw [hl, hc.parts, List.append_assoc]
    obtain ⟨o₁, out₁, hrun₁, hl₁, h₁⟩ := h.turn limit hl hp (List.length_pos_iff.mp hc.nonempty) hc.le_pieceLength
    obtain ⟨o₂, out₂, hrun₂, h₂⟩ := h₁.turns limit hl₁ hr
    refine ⟨o₂, out₂, ?_, ?_⟩
    · rw [if_neg hn]
      simp only [← hc.length]
      rw [run_bind_ok hrun₁, require_of hc.le_length, pure_bind, hc.left]
      exact hrun₂
    · rw [hc.parts, ← List.append_assoc]
      exact h₂
termination_by next.length

variable {plain : Octets}

theorem pending_eq (h : o.Through keys v done out) (hn : done ≠ []) : o.pending = o.held := by
  unfold Opener.pending
  rw [if_pos (h.held hn).1]

/-- All has been written but the last block. -/
theorem out_eq (h : o.Through keys v done out) (hn : done ≠ []) :
    (plainOf keys v done).take ((plainOf keys v done).length - blockLength) = out := by
  have ht := h.text
  rw [h.pending_eq hn] at ht
  rw [← ht, List.length_append, (h.held hn).2, Nat.add_sub_cancel, List.take_left]

/-- In a complete block the last byte can be looked at, and any padding cut off. -/
theorem bounds_of_length {held : Octets} (hl : held.length = blockLength) :
    blockLength - 1 < held.length ∧ blockLength - paddingCount held ≤ held.length := by
  rw [hl]
  exact ⟨by decide, Nat.sub_le _ _⟩

/-- Where the text ends in no padding, nothing more is written. -/
theorem finish_of_none (h : o.Through keys v done out) (hn : done ≠ []) (hu : unpad? (plainOf keys v done) = none)
    (w : Writer) : (o.finish limit done.length).run w = .error (.failed (.decryption .invalidPadding)) w := by
  have hl : o.held.length = blockLength := (h.held hn).2
  obtain ⟨hi, hs⟩ := bounds_of_length hl
  rw [← h.text, h.pending_eq hn, unpad?_append out hl] at hu
  unfold Opener.finish
  simp only [require_of hi, require_of hs, pure_bind, List.splitAt_eq]
  by_cases hc : paddingCount o.held = 0 ∨ blockLength < paddingCount o.held
  · rw [if_pos hc]
    rfl
  · have ha : ¬((o.held.drop (blockLength - paddingCount o.held)).all
        fun b => b.toNat = paddingCount o.held) = true := by
      intro ha
      rw [if_neg hc, if_pos ha] at hu
      cases hu
    rw [if_neg hc, if_pos ha]
    rfl

/-- Where the text ends in padding, what is before it is written, and its length compared. -/
theorem finish_of_some (h : o.Through keys v done out) (hn : done ≠ [])
    (hu : unpad? (plainOf keys v done) = some plain) :
    (o.finish limit done.length).run (.after limit out) = match cutTo limit plain with
      | .error fault => .error (.failed (.decryption fault)) (.after limit plain)
      | .ok text => .ok text.length (.after limit plain) := by
  have hl : o.held.length = blockLength := (h.held hn).2
  obtain ⟨hi, hs⟩ := bounds_of_length hl
  have hd : (plainOf keys v done).length = done.length := length_plainOf h.whole
  rw [← h.text, h.pending_eq hn, List.length_append, hl] at hd
  rw [← h.text, h.pending_eq hn, unpad?_append out hl] at hu
  split at hu
  · cases hu
  rename_i hc
  split at hu
  · rename_i ha
    obtain rfl := Option.some.inj hu
    have hp : paddingCount o.held ≤ done.length := by omega
    have hlen : done.length - paddingCount o.held =
        (out ++ o.held.take (blockLength - paddingCount o.held)).length := by
      rw [List.length_append, List.length_take]
      omega
    unfold Opener.finish
    simp only [require_of hi, require_of hs, pure_bind, List.splitAt_eq]
    rw [if_neg hc, if_neg (not_not_intro ha), run_bind_ok (write_after _ _ _), require_of hp, pure_bind, hlen]
    generalize out ++ o.held.take (blockLength - paddingCount o.held) = plain
    cases limit with
    | none => rfl
    | some declared =>
      by_cases hlt : plain.length < declared
      · simp only [cutTo, if_pos hlt]
        rfl
      · simp only [cutTo, if_neg hlt]
        rfl
  · cases hu

end Opener.Through

/-! ### Both passes -/

variable {declared : Option Nat}

/-- What the writer is given when a file is opened that has been found good: without padding, all but the
    last block. -/
def offered (key : Key) (file : Octets) : Octets :=
  match unpad? (decrypted key file) with
  | none => (decrypted key file).take ((decrypted key file).length - blockLength)
  | some plain => plain

/-- A file that has been found good has a body of complete blocks, and of one at least. -/
theorem length_of_verify (hv : verify key digest file = .ok ()) :
    minLength ≤ file.length ∧ blockLength ∣ file.length - overhead := by
  unfold verify at hv
  split at hv
  · cases hv
  rename_i hs
  split at hv
  · cases hv
  rename_i ha
  exact ⟨Nat.le_of_not_lt hs, Nat.dvd_of_mod_eq_zero (Decidable.not_not.mp ha)⟩

theorem openWith_of_verify (hv : verify key digest file = .ok ()) :
    openWith key digest declared file = match unpad? (decrypted key file) with
      | none => .error .invalidPadding
      | some plain => cutTo declared plain := by
  unfold openWith
  rw [hv]
  rfl

theorem openWith_of_error {fault : SealFault} (hv : verify key digest file = .error fault) :
    openWith key digest declared file = .error fault := by
  unfold openWith
  rw [hv]
  rfl

theorem body_append_mac (hf : overhead ≤ file.length) : file.drop blockLength = body file ++ mac file := by
  have hs : blockLength ≤ (signed file).length := by
    rw [length_signed]
    simp only [overhead, macLength, blockLength] at hf ⊢
    omega
  calc file.drop blockLength = (signed file ++ mac file).drop blockLength := by rw [signed_append_mac]
    _ = body file ++ mac file := List.drop_append_of_le_length hs

theorem length_body (file : Octets) : (body file).length = file.length - overhead := by
  unfold body
  rw [List.length_drop, length_signed]
  simp only [overhead, macLength, blockLength]
  omega

theorem after_nil (limit : Option Nat) : Writer.after limit [] = ⟨limit, [], 0⟩ := by
  have hk : kept limit [] = [] := by
    cases limit with
    | none => rfl
    | some limit => exact List.take_nil
  rw [Writer.after, hk]
  rfl

/-- The second pass over a file that has been found good ends as opening it at once does. -/
theorem decryptLeft_opener (hv : verify key digest file = .ok ()) :
    (decryptLeft key declared (file.length - overhead) (opener file)).run ⟨declared, [], 0⟩ =
      match openWith key digest declared file with
      | .error fault => .error (.failed (.decryption fault)) (.after declared (offered key file))
      | .ok text => .ok text.length (.after declared (offered key file)) := by
  obtain ⟨hl, hb⟩ := length_of_verify hv
  have hleft : (opener file).left = body file ++ mac file := body_append_mac (Nat.le_trans (by decide) hl)
  have hn : body file ≠ [] := by
    intro hn
    have hz := length_body file
    rw [hn] at hz
    have h0 : (0 : Nat) = file.length - overhead := hz
    simp only [minLength, overhead, macLength, blockLength] at hl h0
    omega
  rw [← length_body] at hb ⊢
  have hs : (opener file).Through (Aes.roundKeys key.cipherHalf) (.ofOctets (vector file)) [] [] :=
    Opener.Through.start rfl rfl
  obtain ⟨o, out, hrun, ho⟩ := hs.turns declared hleft hb
  rw [List.nil_append] at ho
  unfold decryptLeft
  rw [← after_nil, run_bind_ok hrun, openWith_of_verify hv, offered]
  have hd : plainOf (Aes.roundKeys key.cipherHalf) (.ofOctets (vector file)) (body file) = decrypted key file := rfl
  cases hu : unpad? (decrypted key file) with
  | none =>
    rw [ho.finish_of_none hn (hd ▸ hu), ← ho.out_eq hn]
    rfl
  | some plain => exact ho.finish_of_some hn (hd ▸ hu)

/-- A file is opened piece by piece as it is at once, unless the output is the file itself. -/
theorem openFile_eq {files : Files} {input output : Path} (hf : files.get? input = some file)
    (hio : input ≠ output) :
    openFile files input key digest declared output =
      match verify key digest file with
      | .error fault => (fail (.decryption fault), files)
      | .ok () => (match openWith key digest declared file with
        | .error fault => fail (.decryption fault)
        | .ok text => pure text.length, files.write output (kept declared (offered key file))) := by
  unfold openFile
  rw [hf]
  simp only [begin_eq, if_neg hio]
  cases hv : verify key digest file with
  | error fault => rfl
  | ok _ =>
    simp only [pure, Except.pure]
    rw [decryptLeft_opener hv]
    cases openWith key digest declared file with
    | error fault => rfl
    | ok text => rfl

theorem kept_offered {text : Octets} (ho : openWith key digest declared file = .ok text) :
    kept declared (offered key file) = text := by
  cases hv : verify key digest file with
  | error fault =>
    rw [openWith_of_error hv] at ho
    cases ho
  | ok _ =>
    rw [openWith_of_verify hv] at ho
    unfold offered
    cases hu : unpad? (decrypted key file) with
    | none =>
      simp only [hu] at ho
      cases ho
    | some plain =>
      simp only [hu, cutTo] at ho
      cases declared with
      | none => exact Except.ok.inj ho
      | some declared =>
        simp only at ho
        split at ho
        · cases ho
        · exact Except.ok.inj ho

theorem openFile_of_ok {files : Files} {input output : Path} {text : Octets} (hf : files.get? input = some file)
    (hio : input ≠ output) (ho : openWith key digest declared file = .ok text) :
    openFile files input key digest declared output = (.ok text.length, files.write output text) := by
  rw [openFile_eq hf hio]
  cases hv : verify key digest file with
  | error fault =>
    rw [openWith_of_error hv] at ho
    cases ho
  | ok _ =>
    rw [ho, kept_offered ho]
    rfl

/-- An opening that fails changes nothing but the output, if anything. -/
theorem openFile_of_error {files : Files} {input output : Path} {fault : SealFault} (hf : files.get? input = some file)
    (hio : input ≠ output) (ho : openWith key digest declared file = .error fault) :
    ∃ left, openFile files input key digest declared output = (.error (.failed (.decryption fault)), left) ∧
      (left = files ∨ ∃ written, left = files.write output written) := by
  rw [openFile_eq hf hio]
  cases hv : verify key digest file with
  | error other =>
    rw [openWith_of_error hv] at ho
    cases ho
    exact ⟨files, rfl, Or.inl rfl⟩
  | ok _ =>
    rw [ho]
    exact ⟨_, rfl, Or.inr ⟨_, rfl⟩⟩

/-- Opening a file piece by piece into another one ends as opening the whole byte string at once does: with
    the same fault, or with the same text in the output and its length as the answer. No operation is used
    outside of what it is defined for, and no file but the output changes. -/
theorem opened_as_whole {files : Files} {input output : Path} (key : Key) (digest : Option Octets)
    (declared : Option Nat) (hf : files.get? input = some file) (hio : input ≠ output) :
    let opened := openFile files input key digest declared output
    (opened.1 = match openWith key digest declared file with
      | .error fault => .error (.failed (.decryption fault))
      | .ok text => .ok text.length) ∧
    (∀ text, openWith key digest declared file = .ok text → opened.2.get? output = some text) ∧
    opened.1 ≠ .error .crashed ∧
    ∀ path, path ≠ output → opened.2.get? path = files.get? path := by
  intro opened
  have he : opened = _ := openFile_eq hf hio
  have hr : opened.1 = match openWith key digest declared file with
      | .error fault => .error (.failed (.decryption fault))
      | .ok text => .ok text.length := by
    rw [he]
    cases hv : verify key digest file with
    | error fault =>
      rw [openWith_of_error hv]
      rfl
    | ok _ => cases openWith key digest declared file <;> rfl
  refine ⟨hr, ?_, ?_, ?_⟩
  · intro text ho
    rw [he]
    cases hv : verify key digest file with
    | error fault =>
      rw [openWith_of_error hv] at ho
      cases ho
    | ok _ =>
      simp only [Files.get?_write]
      rw [kept_offered ho]
  · rw [hr]
    cases openWith key digest declared file <;> intro hc <;> cases hc
  · intro path hp
    rw [he]
    cases verify key digest file with
    | error fault => rfl
    | ok _ => exact Files.get?_write_of_ne files _ hp

/-- A key for an example. -/
def plainKey : Key := ⟨List.replicate 64 7, rfl⟩

/-- A file as a sender makes it, with a zero byte behind the text. -/
def sealedFile : Octets := sealWith plainKey (List.replicate 16 3) [104, 105, 0]

/-- Nothing but that file. -/
def sealedFiles : Files := Files.empty.write "sealed" sealedFile

theorem openWith_sealedFile : (openWith plainKey none (some 2) sealedFile).toOption = some [104, 105] := by
  decide +kernel

/-- A file whose declared length leaves out the zero byte at the end. -/
theorem opened_as_whole_sealed :
    sealedFiles.get? "sealed" = some sealedFile ∧ "sealed" ≠ "plain" ∧
      (openFile sealedFiles "sealed" plainKey none (some 2) "plain").1 = .ok 2 ∧
      (openFile sealedFiles "sealed" plainKey none (some 2) "plain").2.get? "plain" = some [104, 105] := by
  have hf : sealedFiles.get? "sealed" = some sealedFile := Files.get?_write _ _ _
  have hio : "sealed" ≠ "plain" := by decide
  have ho := openWith_sealedFile
  obtain ⟨hr, hw, -, -⟩ := opened_as_whole plainKey none (some 2) hf hio
  cases hc : openWith plainKey none (some 2) sealedFile with
  | error fault =>
    rw [hc] at ho
    cases ho
  | ok text =>
    rw [hc] at ho hr
    obtain rfl := Option.some.inj ho
    exact ⟨hf, hio, hr, hw _ hc⟩

end SealedDownload.Envelope
