import SealedDownload.Proofs.Sealing.Cipher
import SealedDownload.Proofs.Sealing.Opening

/-! What a sender seals is what the holder of the key opens. Each layer of the format is undone in turn:
    blocks, chaining, padding, code. -/

namespace SealedDownload.Aes.Block

theorem ofOctets_toOctets (x : Block) : ofOctets x.toOctets = x := by
  rfl

theorem toOctets_ofOctets {bytes : Octets} (h : bytes.length = 16) : (ofOctets bytes).toOctets = bytes := by
  have hr : (ofOctets bytes).toOctets = (List.range 16).map fun i => bytes.getD i 0 := by rfl
  rw [hr]
  apply List.ext_getElem
  · rw [List.length_map, List.length_range, h]
  · intro i _ hi
    rw [List.getElem_map, List.getElem_range, List.getD_eq_getElem?_getD, List.getElem?_eq_getElem hi, Option.getD_some]

end SealedDownload.Aes.Block

namespace SealedDownload.Envelope

/-! ### Blocks and their bytes -/

theorem bytesOf_cons (x : Aes.Block) (xs : List Aes.Block) : bytesOf (x :: xs) = x.toOctets ++ bytesOf xs := by
  rfl

theorem blocks_toOctets (x : Aes.Block) : blocks x.toOctets = [x] := by
  have hp : pieces blockLength x.toOctets = [x.toOctets] := by
    rw [Aes.Block.toOctets, pieces]
    simp [blockLength, pieces]
  rw [blocks, hp, List.map_singleton, Aes.Block.ofOctets_toOctets]

theorem blocks_bytesOf (xs : List Aes.Block) : blocks (bytesOf xs) = xs := by
  induction xs with
  | nil => exact blocks_nil
  | cons x xs ih =>
    have hx : blockLength ∣ x.toOctets.length := ⟨1, rfl⟩
    rw [bytesOf_cons, blocks_append _ hx, blocks_toOctets, ih, List.singleton_append]

theorem bytesOf_map_pieces {size : Nat} (hs : size = blockLength) {a : Octets} (h : size ∣ a.length) :
    bytesOf ((pieces size a).map Aes.Block.ofOctets) = a := by
  fun_induction pieces size a with
  | case1 => rfl
  | case2 b rest ih =>
    have hl : size ≤ rest.length + 1 := Nat.le_of_dvd (Nat.succ_pos _) h
    have hsize : size = 16 := hs
    have hb : (b :: rest.take (size - 1)).length = 16 := by
      rw [List.length_cons, List.length_take]
      omega
    obtain ⟨-, hd⟩ := dvd_length_rest (hs ▸ (by decide)) h
    rw [List.map_cons, bytesOf_cons, Aes.Block.toOctets_ofOctets hb, ih hd, List.cons_append, List.take_append_drop]

theorem bytesOf_blocks {a : Octets} (h : blockLength ∣ a.length) : bytesOf (blocks a) = a := by
  exact bytesOf_map_pieces rfl h

/-! ### Chaining -/

theorem unchain_chain (keys : List Aes.Block) (v : Aes.Block) (xs : List Aes.Block) :
    unchain keys v (chain keys v xs) = xs := by
  induction xs generalizing v with
  | nil => rfl
  | cons x xs ih => rw [chain, unchain_cons, ih, Aes.decrypt_encrypt, Aes.Block.add_add_cancel]

theorem length_chain (keys : List Aes.Block) (v : Aes.Block) (xs : List Aes.Block) :
    (chain keys v xs).length = xs.length := by
  induction xs generalizing v with
  | nil => rfl
  | cons x xs ih => rw [chain, List.length_cons, ih, List.length_cons]

/-! ### Padding -/

theorem unpad?_pad (plain : Octets) : unpad? (pad plain) = some plain := by
  rw [unpad?_eq_some_iff]
  have hm : plain.length % blockLength < blockLength := Nat.mod_lt _ (by decide)
  exact ⟨blockLength - plain.length % blockLength, by omega, by omega, rfl⟩

theorem length_pad (plain : Octets) : (pad plain).length = (plain.length / blockLength + 1) * blockLength := by
  have hm : plain.length % blockLength < blockLength := Nat.mod_lt _ (by decide)
  have hd : blockLength * (plain.length / blockLength) + plain.length % blockLength = plain.length :=
    Nat.div_add_mod _ _
  rw [pad, List.length_append, List.length_replicate, Nat.succ_mul, Nat.mul_comm]
  omega

theorem dvd_length_pad (plain : Octets) : blockLength ∣ (pad plain).length := by
  rw [length_pad]
  exact Nat.dvd_mul_left _ _

/-! ### The parts of a sealed file -/

section Parts

variable (key : Key) {first : Octets} (plain : Octets)

/-- What a sender's code covers. -/
def covered (key : Key) (first plain : Octets) : Octets :=
  first ++ bytesOf (chain (Aes.roundKeys key.cipherHalf) (.ofOctets first) (blocks (pad plain)))

theorem sealWith_eq (first : Octets) :
    sealWith key first plain = covered key first plain ++ Hmac.code key.macHalf (covered key first plain) := by
  rfl

theorem length_code (key message : Octets) : (Hmac.code key message).length = macLength := by
  rfl

theorem length_covered (hf : first.length = blockLength) :
    (covered key first plain).length = blockLength + (pad plain).length := by
  rw [covered, List.length_append, length_bytesOf, length_chain, length_blocks (dvd_length_pad plain), hf]

theorem signed_sealWith : signed (sealWith key first plain) = covered key first plain := by
  have hl : (sealWith key first plain).length - macLength = (covered key first plain).length := by
    rw [sealWith_eq, List.length_append, length_code, Nat.add_sub_cancel]
  rw [signed, hl, sealWith_eq, List.take_left]

theorem mac_sealWith : mac (sealWith key first plain) = Hmac.code key.macHalf (covered key first plain) := by
  have hs := signed_append_mac (sealWith key first plain)
  rw [signed_sealWith, sealWith_eq, List.append_cancel_left_eq] at hs
  exact hs

theorem vector_sealWith (hf : first.length = blockLength) : vector (sealWith key first plain) = first := by
  rw [vector, sealWith_eq, covered, List.append_assoc, ← hf, List.take_left]

theorem body_sealWith (hf : first.length = blockLength) :
    body (sealWith key first plain) =
      bytesOf (chain (Aes.roundKeys key.cipherHalf) (.ofOctets first) (blocks (pad plain))) := by
  rw [body, signed_sealWith, covered, ← hf, List.drop_left]

theorem decrypted_sealWith (hf : first.length = blockLength) : decrypted key (sealWith key first plain) = pad plain := by
  rw [decrypted, vector_sealWith key plain hf, body_sealWith key plain hf, blocks_bytesOf, unchain_chain,
    bytesOf_blocks (dvd_length_pad plain)]

theorem length_sealWith (hf : first.length = blockLength) :
    (sealWith key first plain).length = overhead + (pad plain).length := by
  rw [sealWith_eq, List.length_append, length_code, length_covered key plain hf, overhead]
  omega

/-- A sealed file passes all checks, with its own digest or without one. -/
theorem verify_sealWith (hf : first.length = blockLength) {digest : Option Octets}
    (hd : ∀ expected, digest = some expected → Sha256.digest (sealWith key first plain) = expected) :
    verify key digest (sealWith key first plain) = .ok () := by
  have hp : blockLength ≤ (pad plain).length := by
    rw [length_pad]
    exact Nat.le_mul_of_pos_left _ (Nat.succ_pos _)
  have hl := length_sealWith key plain hf
  have hs : ¬(sealWith key first plain).length < minLength := by
    rw [hl, minLength]
    omega
  have ha : ((sealWith key first plain).length - overhead) % blockLength = 0 := by
    rw [hl, Nat.add_sub_cancel_left]
    exact Nat.mod_eq_zero_of_dvd (dvd_length_pad plain)
  have hm : Hmac.code key.macHalf (signed (sealWith key first plain)) = mac (sealWith key first plain) := by
    rw [signed_sealWith, mac_sealWith]
  unfold verify
  rw [if_neg hs, if_neg (not_not_intro ha), if_neg (not_not_intro hm)]
  cases digest with
  | none => rfl
  | some expected => exact if_pos (hd expected rfl)

/-- Opening a sealed file gives the plaintext, cut to the declared length. -/
theorem openWith_sealWith (hf : first.length = blockLength) {digest : Option Octets} (declared : Option Nat)
    (hd : ∀ expected, digest = some expected → Sha256.digest (sealWith key first plain) = expected) :
    openWith key digest declared (sealWith key first plain) = cutTo declared plain := by
  rw [openWith_of_verify (verify_sealWith key plain hf hd), decrypted_sealWith key plain hf, unpad?_pad]

end Parts

/-! ### The round trip -/

section RoundTrip

variable {key : Key} {first plain text : Octets} {digest : Option Octets} {files : Files} {input output : Path}

theorem openFile_sealWith_of_ok {declared : Option Nat} (hv : first.length = blockLength)
    (hf : files.get? input = some (sealWith key first plain)) (hio : input ≠ output)
    (hd : ∀ expected, digest = some expected → Sha256.digest (sealWith key first plain) = expected)
    (hc : cutTo declared plain = .ok text) :
    openFile files input key digest declared output = (.ok text.length, files.write output text) := by
  exact openFile_of_ok hf hio ((openWith_sealWith key plain hv declared hd).trans hc)

theorem openFile_sealWith_of_error {declared : Option Nat} {fault : SealFault} (hv : first.length = blockLength)
    (hf : files.get? input = some (sealWith key first plain)) (hio : input ≠ output)
    (hd : ∀ expected, digest = some expected → Sha256.digest (sealWith key first plain) = expected)
    (hc : cutTo declared plain = .error fault) :
    (openFile files input key digest declared output).1 = .error (.failed (.decryption fault)) := by
  obtain ⟨left, ho, -⟩ := openFile_of_error hf hio ((openWith_sealWith key plain hv declared hd).trans hc)
  rw [ho]

theorem cutTo_of_le {length : Nat} (hl : length ≤ plain.length) :
    cutTo (some length) plain = .ok (plain.take length) := by
  exact if_neg (Nat.not_lt.mpr hl)

theorem cutTo_of_lt {length : Nat} (hl : plain.length < length) :
    cutTo (some length) plain = .error (.plaintextLengthMismatch length plain.length) := by
  exact if_pos hl

/-- A text that a sender fills up with zeros and seals comes back as it was. The length that is declared
    decides how much of the filling comes with it; only more than there is makes opening fail. -/
theorem opened_sealed {zeros : Nat} (hv : first.length = blockLength)
    (hf : files.get? input = some (sealWith key first (text ++ List.replicate zeros 0))) (hio : input ≠ output)
    (hd : digest = none ∨ digest = some (Sha256.digest (sealWith key first (text ++ List.replicate zeros 0)))) :
    openFile files input key digest (some text.length) output = (.ok text.length, files.write output text) ∧
    openFile files input key digest none output =
      (.ok (text.length + zeros), files.write output (text ++ List.replicate zeros 0)) ∧
    (∀ length ≤ text.length + zeros, openFile files input key digest (some length) output =
      (.ok length, files.write output ((text ++ List.replicate zeros 0).take length))) ∧
    ∀ length, text.length + zeros < length → (openFile files input key digest (some length) output).1 =
      .error (.failed (.decryption (.plaintextLengthMismatch length (text.length + zeros)))) := by
  have hl : (text ++ List.replicate zeros (0 : UInt8)).length = text.length + zeros := by
    rw [List.length_append, List.length_replicate]
  have hd : ∀ expected, digest = some expected →
      Sha256.digest (sealWith key first (text ++ List.replicate zeros 0)) = expected := by
    intro expected he
    rcases hd with hn | hs
    · rw [hn] at he
      cases he
    · rw [hs] at he
      exact Option.some.inj he
  have hshort : ∀ length ≤ text.length + zeros, openFile files input key digest (some length) output =
      (.ok length, files.write output ((text ++ List.replicate zeros 0).take length)) := by
    intro length hle
    rw [openFile_sealWith_of_ok hv hf hio hd (cutTo_of_le (hl ▸ hle)), List.length_take, hl, Nat.min_eq_left hle]
  refine ⟨?_, ?_, hshort, ?_⟩
  · rw [hshort text.length (Nat.le_add_right _ _), List.take_left]
  · rw [openFile_sealWith_of_ok hv hf hio hd (rfl : cutTo none _ = .ok _), hl]
  · intro length hlt
    rw [openFile_sealWith_of_error hv hf hio hd (cutTo_of_lt (hl ▸ hlt)), hl]

/-- Two letters with one zero behind them, opened with every length there is. -/
theorem opened_sealed_letters :
    (List.replicate 16 (3 : UInt8)).length = blockLength ∧
      sealedFiles.get? "sealed" = some (sealWith plainKey (List.replicate 16 3) ([104, 105] ++ List.replicate 1 0)) ∧
      "sealed" ≠ "plain" ∧ (none : Option Octets) = none ∧
      openFile sealedFiles "sealed" plainKey none (some 2) "plain" =
        (.ok 2, sealedFiles.write "plain" [104, 105]) ∧
      openFile sealedFiles "sealed" plainKey none (some 1) "plain" = (.ok 1, sealedFiles.write "plain" [104]) ∧
      (openFile sealedFiles "sealed" plainKey none (some 4) "plain").1 =
        .error (.failed (.decryption (.plaintextLengthMismatch 4 3))) := by
  have hf : sealedFiles.get? "sealed" =
      some (sealWith plainKey (List.replicate 16 3) ([104, 105] ++ List.replicate 1 0)) := Files.get?_write _ _ _
  have hio : "sealed" ≠ "plain" := by decide
  have hd : (none : Option Octets) = none ∨
      none = some (Sha256.digest (sealWith plainKey (List.replicate 16 3) ([104, 105] ++ List.replicate 1 0))) :=
    Or.inl rfl
  obtain ⟨hwhole, -, hshort, hlong⟩ := opened_sealed rfl hf hio hd
  exact ⟨rfl, hf, hio, rfl, hwhole, hshort 1 (by decide), hlong 4 (by decide)⟩

end RoundTrip

end SealedDownload.Envelope
