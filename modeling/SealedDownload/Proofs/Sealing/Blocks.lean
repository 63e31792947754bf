import SealedDownload.Sealing.Envelope

/-! Byte strings made of blocks: cutting, chaining and padding of a text in terms of its parts. -/

namespace SealedDownload.Envelope

/-! ### Cutting -/

/-- What follows the first piece of whole pieces is whole pieces. -/
theorem dvd_length_rest {size : Nat} (hs : 0 < size) {x : UInt8} {rest : Octets} (h : size ∣ (x :: rest).length) :
    (rest.drop (size - 1)).length = (x :: rest).length - size ∧ size ∣ (rest.drop (size - 1)).length := by
  have hl : size ≤ rest.length + 1 := Nat.le_of_dvd (Nat.succ_pos _) h
  have hlen : (rest.drop (size - 1)).length = (x :: rest).length - size := by
    rw [List.length_drop, List.length_cons]
    omega
  refine ⟨hlen, ?_⟩
  rw [hlen]
  exact Nat.dvd_sub h (Nat.dvd_refl size)

theorem pieces_append {size : Nat} (hs : 0 < size) {a : Octets} (b : Octets) (h : size ∣ a.length) :
    pieces size (a ++ b) = pieces size a ++ pieces size b := by
  fun_induction pieces size a with
  | case1 => rfl
  | case2 x rest ih =>
    have hl : size ≤ rest.length + 1 := Nat.le_of_dvd (Nat.succ_pos _) h
    have hr : size - 1 ≤ rest.length := by omega
    obtain ⟨-, hd⟩ := dvd_length_rest hs h
    rw [List.cons_append, pieces, List.take_append_of_le_length hr, List.drop_append_of_le_length hr, ih hd]
    rfl

theorem length_pieces {size : Nat} (hs : 0 < size) {a : Octets} (h : size ∣ a.length) :
    (pieces size a).length * size = a.length := by
  fun_induction pieces size a with
  | case1 => simp
  | case2 x rest ih =>
    have hl : size ≤ rest.length + 1 := Nat.le_of_dvd (Nat.succ_pos _) h
    obtain ⟨hlen, hd⟩ := dvd_length_rest hs h
    rw [List.length_cons, Nat.succ_mul, ih hd, hlen, List.length_cons]
    omega

theorem blocks_nil : blocks [] = [] := by
  rw [blocks, pieces, List.map_nil]

theorem blocks_append {a : Octets} (b : Octets) (h : blockLength ∣ a.length) :
    blocks (a ++ b) = blocks a ++ blocks b := by
  unfold blocks
  rw [pieces_append (by decide) b h, List.map_append]

theorem length_blocks {a : Octets} (h : blockLength ∣ a.length) : (blocks a).length * blockLength = a.length := by
  unfold blocks
  rw [List.length_map, length_pieces (by decide) h]

theorem bytesOf_append (xs ys : List Aes.Block) : bytesOf (xs ++ ys) = bytesOf xs ++ bytesOf ys := by
  exact List.flatMap_append

theorem length_bytesOf (xs : List Aes.Block) : (bytesOf xs).length = xs.length * blockLength := by
  induction xs with
  | nil => rfl
  | cons x xs ih =>
    have hb : bytesOf (x :: xs) = x.toOctets ++ bytesOf xs := rfl
    have hx : x.toOctets.length = blockLength := rfl
    rw [hb, List.length_append, ih, hx, List.length_cons, Nat.succ_mul, Nat.add_comm]

/-! ### Chaining -/

variable (keys : List Aes.Block) (v : Aes.Block)

theorem unchain_cons (x : Aes.Block) (xs : List Aes.Block) :
    unchain keys v (x :: xs) = (Aes.decrypt keys x).add v :: unchain keys x xs := by
  rfl

theorem length_unchain (xs : List Aes.Block) : (unchain keys v xs).length = xs.length := by
  unfold unchain
  rw [List.length_zipWith, List.length_cons]
  omega

theorem getLastD_append (xs ys : List Aes.Block) : (xs ++ ys).getLastD v = ys.getLastD (xs.getLastD v) := by
  simp only [List.getLastD_eq_getLast?, List.getLast?_append]
  cases ys.getLast? <;> rfl

/-- Blocks that follow others are chained to the last of those. -/
theorem unchain_append (xs ys : List Aes.Block) :
    unchain keys v (xs ++ ys) = unchain keys v xs ++ unchain keys (xs.getLastD v) ys := by
  induction xs generalizing v with
  | nil => rfl
  | cons x xs ih => rw [List.cons_append, unchain_cons, unchain_cons, ih, List.cons_append, List.getLastD_cons]

/-! ### Padding -/

theorem isPadding_iff {block : Octets} {count : Nat} (hc : count ≤ blockLength) :
    (block.all fun b => b.toNat = count) = true ↔ block = List.replicate block.length (UInt8.ofNat count) := by
  have hn : (UInt8.ofNat count).toNat = count := UInt8.toNat_ofNat_of_lt (Nat.lt_of_le_of_lt hc (by decide))
  simp only [List.all_eq_true, List.eq_replicate_iff, true_and, decide_eq_true_eq]
  refine ⟨fun h b hb => ?_, fun h b hb => ?_⟩
  · rw [← h b hb, UInt8.ofNat_toNat]
  · rw [h b hb, hn]

theorem getLastD_append_replicate (plain : Octets) {count : Nat} (hc : 1 ≤ count) (b : UInt8) :
    (plain ++ List.replicate count b).getLastD 0 = b := by
  rw [List.getLastD_eq_getLast?, List.getLast?_append, List.getLast?_replicate, if_neg (Nat.ne_of_gt hc)]
  rfl

/-- Padding is a number of bytes, from one to a block of them, each of which tells how many there are. -/
theorem unpad?_eq_some_iff {padded plain : Octets} :
    unpad? padded = some plain ↔
      ∃ count, 1 ≤ count ∧ count ≤ blockLength ∧ padded = plain ++ List.replicate count (UInt8.ofNat count) := by
  constructor
  · intro h
    simp only [unpad?] at h
    split at h
    · cases h
    · rename_i hc
      simp only [not_or, Nat.not_lt] at hc
      obtain ⟨h0, hb, hl⟩ := hc
      split at h
      · rename_i ha
        obtain rfl := Option.some.inj h
        refine ⟨_, Nat.pos_of_ne_zero h0, hb, ?_⟩
        have hr := (isPadding_iff hb).mp ha
        rw [List.length_drop, Nat.sub_sub_self hl] at hr
        rw [← hr, List.take_append_drop]
      · cases h
  · rintro ⟨count, h1, hb, rfl⟩
    have hn : (UInt8.ofNat count).toNat = count := UInt8.toNat_ofNat_of_lt (Nat.lt_of_le_of_lt hb (by decide))
    have hl : (plain ++ List.replicate count (UInt8.ofNat count)).length - count = plain.length := by
      rw [List.length_append, List.length_replicate, Nat.add_sub_cancel]
    simp only [unpad?, getLastD_append_replicate plain h1, hn, hl]
    rw [if_neg, if_pos]
    · rw [List.take_left]
    · rw [List.drop_left, isPadding_iff hb, List.length_replicate]
    · rw [List.length_append, List.length_replicate]
      omega

theorem getLastD_append_of_length (out : Octets) {held : Octets} (hl : held.length = blockLength) :
    (out ++ held).getLastD 0 = held.getD (blockLength - 1) 0 := by
  rw [List.getLastD_eq_getLast?, List.getLast?_append, List.getLast?_eq_getElem?, hl, List.getD_eq_getElem?_getD]
  cases hg : held[blockLength - 1]? with
  | some b => rfl
  | none =>
    have hlen : held.length ≤ blockLength - 1 := List.getElem?_eq_none_iff.mp hg
    rw [hl] at hlen
    exact absurd hlen (by decide)

/-- The padding of a text is found in its last block. -/
theorem unpad?_append (out : Octets) {held : Octets} (hl : held.length = blockLength) :
    unpad? (out ++ held) =
      if paddingCount held = 0 ∨ blockLength < paddingCount held then none
      else if (held.drop (blockLength - paddingCount held)).all fun b => b.toNat = paddingCount held then
        some (out ++ held.take (blockLength - paddingCount held))
      else none := by
  have hc : ((out ++ held).getLastD 0).toNat = paddingCount held := by
    rw [getLastD_append_of_length out hl]
    rfl
  have hlen : (out ++ held).length = out.length + blockLength := by rw [List.length_append, hl]
  simp only [unpad?, hc, hlen]
  by_cases hb : paddingCount held = 0 ∨ blockLength < paddingCount held
  · rw [if_pos hb, if_pos (by omega)]
  · have hs : out.length + blockLength - paddingCount held = out.length + (blockLength - paddingCount held) := by
      omega
    rw [if_neg hb, if_neg (by omega), hs, List.drop_length_add_append, List.take_length_add_append]

end SealedDownload.Envelope
