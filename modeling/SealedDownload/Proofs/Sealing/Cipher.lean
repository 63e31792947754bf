import SealedDownload.Sealing.Aes

/-! Decrypting a block undoes its encryption with the same keys, one layer of a round after another. -/

namespace SealedDownload.Aes

/-! ### Bytes -/

theorem map_unsub_substitutes : substitutes.toList.map unsub = (List.range 256).map UInt8.ofNat := by
  decide +kernel

theorem getElem?_eq_some_getD {table : Array UInt8} (h : table.size = 256) (b : UInt8) :
    table[b.toNat]? = some (table.getD b.toNat 0) := by
  have hb : b.toNat < table.size := h ▸ b.toNat_lt
  rw [Array.getD_eq_getD_getElem?, Array.getElem?_eq_getElem hb, Option.getD_some]

theorem unsub_sub (b : UInt8) : unsub (sub b) = b := by
  have hs : substitutes.toList[b.toNat]? = some (sub b) := by
    rw [Array.getElem?_toList, sub]
    exact getElem?_eq_some_getD (by decide +kernel) b
  have hm : (substitutes.toList.map unsub)[b.toNat]? = some b := by
    rw [map_unsub_substitutes, List.getElem?_map, List.getElem?_range b.toNat_lt, Option.map_some, UInt8.ofNat_toNat]
  rw [List.getElem?_map, hs, Option.map_some] at hm
  exact Option.some.inj hm

theorem xor_left_comm (a b c : UInt8) : a ^^^ (b ^^^ c) = b ^^^ (a ^^^ c) := by
  rw [← UInt8.xor_assoc, UInt8.xor_comm a b, UInt8.xor_assoc]

theorem le_xor_iff (a b : UInt8) : 128 ≤ a ^^^ b ↔ ¬(128 ≤ a ↔ 128 ≤ b) := by
  have hm : ∀ c : UInt8, 128 ≤ c ↔ c.toBitVec.msb = true := fun c => by
    rw [BitVec.msb_eq_decide, decide_eq_true_iff]
    exact Iff.rfl
  rw [hm, hm, hm, UInt8.toBitVec_xor, BitVec.msb_xor]
  cases a.toBitVec.msb <;> cases b.toBitVec.msb <;> simp

theorem double_eq (a : UInt8) : double a = (a <<< 1) ^^^ (if 128 ≤ a then 27 else 0) := by
  unfold double
  split
  · rfl
  · rw [UInt8.xor_zero]

/-- Doubling is linear: what the top bit carries over is carried for each term. -/
theorem double_xor (a b : UInt8) : double (a ^^^ b) = double a ^^^ double b := by
  rw [double_eq, double_eq, double_eq, UInt8.shiftLeft_xor]
  by_cases ha : 128 ≤ a <;> by_cases hb : 128 ≤ b <;>
    simp [le_xor_iff, ha, hb, UInt8.xor_assoc, UInt8.xor_comm, xor_left_comm]

theorem double_zero : double 0 = 0 := by
  decide

/-! ### Columns -/

namespace Column

theorem add_add_cancel (x k : Column) : (x.add k).add k = x := by
  simp only [add, UInt8.xor_assoc, UInt8.xor_self, UInt8.xor_zero]

theorem mix_add (x y : Column) : (x.add y).mix = x.mix.add y.mix := by
  simp only [add, mix, triple, double_xor, mk.injEq]
  refine ⟨?_, ?_, ?_, ?_⟩ <;> ac_rfl

theorem unmix_add (x y : Column) : (x.add y).unmix = x.unmix.add y.unmix := by
  simp only [add, unmix, times14, times11, times13, times9, eightfold, double_xor, mk.injEq]
  refine ⟨?_, ?_, ?_, ?_⟩ <;> ac_rfl

theorem mix_rotate (x : Column) : x.rotate.mix = x.mix.rotate := by
  simp only [rotate, mix, mk.injEq]
  refine ⟨?_, ?_, ?_, ?_⟩ <;> ac_rfl

theorem unmix_rotate (x : Column) : x.rotate.unmix = x.unmix.rotate := by
  simp only [rotate, unmix, mk.injEq]
  refine ⟨?_, ?_, ?_, ?_⟩ <;> ac_rfl

theorem unmix_mix_single (a : UInt8) : (mix ⟨a, 0, 0, 0⟩).unmix = ⟨a, 0, 0, 0⟩ := by
  simp [mix, unmix, times14, times11, times13, times9, eightfold, triple, double_xor, double_zero,
    UInt8.xor_assoc, UInt8.xor_comm, xor_left_comm]

theorem unmix_mix_rotate (x : Column) (h : x.mix.unmix = x) : x.rotate.mix.unmix = x.rotate := by
  rw [mix_rotate, unmix_rotate, h]

/-- Mixing is linear and the same for each byte, so that one byte decides it. -/
theorem unmix_mix (x : Column) : x.mix.unmix = x := by
  have hd : ∀ a, (mix ⟨0, 0, 0, a⟩).unmix = ⟨0, 0, 0, a⟩ := fun a => unmix_mix_rotate ⟨a, 0, 0, 0⟩ (unmix_mix_single a)
  have hc : ∀ a, (mix ⟨0, 0, a, 0⟩).unmix = ⟨0, 0, a, 0⟩ := fun a => unmix_mix_rotate ⟨0, 0, 0, a⟩ (hd a)
  have hb : ∀ a, (mix ⟨0, a, 0, 0⟩).unmix = ⟨0, a, 0, 0⟩ := fun a => unmix_mix_rotate ⟨0, 0, a, 0⟩ (hc a)
  have hx : x = add ⟨x.a, 0, 0, 0⟩ (add ⟨0, x.b, 0, 0⟩ (add ⟨0, 0, x.c, 0⟩ ⟨0, 0, 0, x.d⟩)) := by
    simp only [add, UInt8.xor_zero, UInt8.zero_xor]
  rw [hx]
  simp only [mix_add, unmix_add, unmix_mix_single, hb, hc, hd]

theorem map_unsub_map_sub (x : Column) : (x.map sub).map unsub = x := by
  simp only [map, unsub_sub]

end Column

/-! ### Blocks -/

namespace Block

theorem add_add_cancel (x k : Block) : (x.add k).add k = x := by
  simp only [add, Column.add_add_cancel]

theorem map_unmix_map_mix (x : Block) : (x.map Column.mix).map Column.unmix = x := by
  simp only [map, Column.unmix_mix]

theorem unshift_shift (x : Block) : x.shift.unshift = x := by
  rfl

theorem unscramble_scramble (x : Block) : x.scramble.unscramble = x := by
  rw [scramble, unscramble, unshift_shift]
  simp only [map, Column.map_unsub_map_sub]

end Block

/-! ### Rounds -/

variable (keys : List Block) (key last x : Block)

theorem encryptRounds_cons_cons :
    encryptRounds (key :: last :: keys) x = encryptRounds (last :: keys) ((x.scramble.map Column.mix).add key) := by
  rfl

theorem decryptRounds_cons_cons :
    decryptRounds (key :: last :: keys) x =
      (((decryptRounds (last :: keys) x).add key).map Column.unmix).unscramble := by
  rfl

theorem decryptRounds_encryptRounds_last : decryptRounds [last] (encryptRounds [last] x) = x := by
  have he : encryptRounds [last] x = x.scramble.add last := by rfl
  have hd : decryptRounds [last] (x.scramble.add last) = ((x.scramble.add last).add last).unscramble := by rfl
  rw [he, hd, Block.add_add_cancel, Block.unscramble_scramble]

/-- The last round is undone first: the induction goes with the keys, whatever the block has become. -/
theorem decryptRounds_encryptRounds : decryptRounds keys (encryptRounds keys x) = x := by
  induction keys generalizing x with
  | nil => rfl
  | cons key keys ih =>
    cases keys with
    | nil => exact decryptRounds_encryptRounds_last key x
    | cons last keys =>
      rw [encryptRounds_cons_cons, decryptRounds_cons_cons, ih, Block.add_add_cancel, Block.map_unmix_map_mix,
        Block.unscramble_scramble]

theorem decrypt_encrypt : decrypt keys (encrypt keys x) = x := by
  cases keys with
  | nil => rfl
  | cons key keys =>
    have he : encrypt (key :: keys) x = encryptRounds keys (x.add key) := by rfl
    have hd : decrypt (key :: keys) (encryptRounds keys (x.add key)) =
        (decryptRounds keys (encryptRounds keys (x.add key))).add key := by rfl
    rw [he, hd, decryptRounds_encryptRounds, Block.add_add_cancel]

end SealedDownload.Aes
