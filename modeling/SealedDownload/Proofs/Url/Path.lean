import SealedDownload.Proofs.Text.Percent

/-! Where a relative path leads to. Its segments are appended one by one. As long as the way up never leads past where
    it began, what it began with stays, and without segments that go up or stay the text is appended as it is. -/

namespace SealedDownload

namespace Text

variable {isMark isMark' : Char → Bool} {c : Char} {text front rest piece : List Char} {pieces : List (List Char)}

theorem cut_ne_nil (isMark : Char → Bool) (text : List Char) : cut isMark text ≠ [] := by
  cases text with
  | nil => exact List.cons_ne_nil _ _
  | cons c rest =>
    unfold cut
    split
    · exact List.cons_ne_nil _ _
    · split <;> exact List.cons_ne_nil _ _

theorem cut_cons_of_mark (h : isMark c = true) (rest : List Char) : cut isMark (c :: rest) = [] :: cut isMark rest := by
  rw [cut, if_pos h]

theorem cut_cons (h : isMark c = false) (hp : cut isMark rest = piece :: pieces) :
    cut isMark (c :: rest) = (c :: piece) :: pieces := by
  rw [cut, if_neg (by rw [h]; exact Bool.false_ne_true), hp]

theorem cut_congr (h : ∀ c ∈ text, isMark c = isMark' c) : cut isMark text = cut isMark' text := by
  induction text with
  | nil => rfl
  | cons c rest ih =>
    rw [cut, cut, h c List.mem_cons_self, ih fun c hm => h c (List.mem_cons_of_mem _ hm)]

/-- What comes before the first mark belongs to the first piece. -/
theorem cut_append (h : ∀ c ∈ front, isMark c = false) (hp : cut isMark rest = piece :: pieces) :
    cut isMark (front ++ rest) = (front ++ piece) :: pieces := by
  induction front with
  | nil => exact hp
  | cons c front ih =>
    exact cut_cons (h c List.mem_cons_self) (ih fun c hm => h c (List.mem_cons_of_mem _ hm))

/-- If the marks alone are written as marks, the pieces of what is written are what the pieces are written as. -/
theorem cut_flatMap {g : Char → List Char} (hm : ∀ c, isMark c = true → g c = [c])
    (hn : ∀ c, isMark c = false → ∀ d ∈ g c, isMark d = false) (text : List Char) :
    cut isMark (text.flatMap g) = (cut isMark text).map (List.flatMap g) := by
  induction text with
  | nil => rfl
  | cons c rest ih =>
    rw [List.flatMap_cons]
    cases hc : isMark c with
    | true =>
      rw [hm c hc, List.singleton_append, cut_cons_of_mark hc, cut_cons_of_mark hc, ih]
      rfl
    | false =>
      obtain ⟨piece, pieces, hp⟩ := List.exists_cons_of_ne_nil (cut_ne_nil isMark rest)
      rw [hp] at ih
      rw [cut_append (hn c hc) ih, cut_cons hc hp]
      rfl

/-- The pieces with a slash before each are the text with a slash before it. -/
theorem flatMap_cut {isMark : Char → Bool} {g : Char → List Char} (hg : ∀ c, isMark c = true → g c = ['/'])
    (text : List Char) : (cut isMark text).flatMap (fun piece => '/' :: piece.flatMap g) = '/' :: text.flatMap g := by
  induction text with
  | nil => rfl
  | cons c rest ih =>
    cases hc : isMark c with
    | true =>
      rw [cut_cons_of_mark hc, List.flatMap_cons, ih, List.flatMap_cons, hg c hc]
      rfl
    | false =>
      obtain ⟨piece, pieces, hp⟩ := List.exists_cons_of_ne_nil (cut_ne_nil isMark rest)
      rw [hp, List.flatMap_cons] at ih
      rw [cut_cons hc hp, List.flatMap_cons, List.flatMap_cons, List.flatMap_cons, ← (List.cons.inj ih).2]
      simp

end Text

namespace UrlPath

/-- Whether a piece is neither a segment that stays nor one that goes up. -/
def isPlain (piece : List Char) : Bool := !isDot piece && !isDoubleDot piece

/-- Whether pieces that are gone through at some depth never go up from depth zero. -/
def staysBelow (depth : Nat) : List (List Char) → Bool
  | [] => true
  | piece :: rest =>
    if isDoubleDot piece then 0 < depth && staysBelow (depth - 1) rest
    else if isDot piece then staysBelow depth rest
    else staysBelow (depth + 1) rest

/-- The segments after a piece that is not the last one. -/
def advance (scheme : String) (kept : List String) (piece : List Char) : List String :=
  if isDoubleDot piece then shorten scheme kept
  else if isDot piece then kept
  else kept ++ [segment piece]

variable {scheme : String} {kept front names : List String} {c : Char} {b : UInt8} {piece mark : List Char}
  {pieces rest : List (List Char)}

theorem shorten_eq_dropLast (hs : scheme ≠ "file") (names : List String) : shorten scheme names = names.dropLast := by
  unfold shorten
  split
  · rw [if_neg (by simp [hs])]
    rfl
  · rfl

theorem follow_cons (hr : rest ≠ []) :
    follow scheme kept (piece :: rest) = follow scheme (advance scheme kept piece) rest := by
  obtain ⟨next, rest, rfl⟩ := List.exists_cons_of_ne_nil hr
  rw [follow.eq_3 _ _ _ _ (List.cons_ne_nil _ _), advance]
  split
  · rfl
  · split <;> rfl

theorem follow_singleton : follow scheme kept [piece] =
    if isPlain piece then kept ++ [segment piece] else advance scheme kept piece ++ [""] := by
  cases hdd : isDoubleDot piece <;> cases hd : isDot piece <;> simp [follow, isPlain, advance, hdd, hd]

theorem advance_of_isPlain (h : isPlain piece = true) : advance scheme kept piece = kept ++ [segment piece] := by
  simp only [isPlain, Bool.and_eq_true, Bool.not_eq_true'] at h
  simp [advance, h]

/-- Pieces that are no dots are appended. -/
theorem follow_of_isPlain (h : ∀ piece ∈ pieces, isPlain piece = true) :
    follow scheme kept pieces = kept ++ pieces.map segment := by
  induction pieces generalizing kept with
  | nil => simp [follow]
  | cons piece rest ih =>
    have hp := h piece List.mem_cons_self
    by_cases hr : rest = []
    · rw [hr, follow_singleton, if_pos hp]
      rfl
    · rw [follow_cons hr, advance_of_isPlain hp, ih fun piece hm => h piece (List.mem_cons_of_mem _ hm)]
      simp

/-- Going up takes away what has been appended, and nothing above. -/
theorem advance_append (hs : scheme ≠ "file") (front : List String)
    (h : staysBelow kept.length (piece :: rest) = true) :
    advance scheme (front ++ kept) piece = front ++ advance scheme kept piece ∧
      staysBelow (advance scheme kept piece).length rest = true := by
  unfold staysBelow at h
  unfold advance
  by_cases hdd : isDoubleDot piece = true
  · rw [if_pos hdd] at h
    obtain ⟨hpos, hrest⟩ := Bool.and_eq_true_iff.mp h
    have hne : kept ≠ [] := List.length_pos_iff.mp (of_decide_eq_true hpos)
    rw [if_pos hdd, if_pos hdd, shorten_eq_dropLast hs, shorten_eq_dropLast hs, List.length_dropLast]
    exact ⟨List.dropLast_append_of_ne_nil hne, hrest⟩
  · rw [if_neg hdd] at h ⊢
    rw [if_neg hdd]
    by_cases hd : isDot piece = true
    · rw [if_pos hd] at h ⊢
      rw [if_pos hd]
      exact ⟨rfl, h⟩
    · rw [if_neg hd] at h ⊢
      rw [if_neg hd, List.length_append]
      exact ⟨List.append_assoc .., h⟩

/-- As long as the way stays below, what lies above is kept. -/
theorem follow_append (hs : scheme ≠ "file") (kept front : List String) (h : staysBelow kept.length pieces = true) :
    follow scheme (front ++ kept) pieces = front ++ follow scheme kept pieces := by
  induction pieces generalizing kept with
  | nil => rfl
  | cons piece rest ih =>
    obtain ⟨hadvance, hbelow⟩ := advance_append hs front h
    by_cases hr : rest = []
    · rw [hr, follow_singleton, follow_singleton, hadvance]
      split <;> rw [List.append_assoc]
    · rw [follow_cons hr, follow_cons hr, hadvance, ih _ hbelow]

theorem follow_ne_nil (scheme : String) (kept : List String) (hp : pieces ≠ []) : follow scheme kept pieces ≠ [] := by
  induction pieces generalizing kept with
  | nil => exact absurd rfl hp
  | cons piece rest ih =>
    by_cases hr : rest = []
    · rw [hr, follow_singleton]
      split <;> simp
    · rw [follow_cons hr]
      exact ih _ hr

/-! ### Encoded keys -/

/-- What a dot of a segment may be written as, in lower case. -/
def dotMarks : List (List Char) := [['.'], ['%', '2', 'e']]

/-- A piece of an object key as it is encoded. -/
def encoded (piece : List Char) : List Char := piece.flatMap (Percent.encodeChar Percent.objectKey)

theorem isDot_iff (piece : List Char) : isDot piece = true ↔ piece.map Char.toLower ∈ dotMarks := by
  simp [isDot, isOneOf, dotMarks, ← String.toList_inj]

theorem exists_of_isDoubleDot (h : isDoubleDot piece = true) :
    ∃ mark ∈ dotMarks, ∃ mark' ∈ dotMarks, piece.map Char.toLower = mark ++ mark' := by
  simpa [isDoubleDot, isOneOf, dotMarks, ← String.toList_inj, or_assoc] using h

/-- A byte that is no dot is written neither as one nor as the beginning of one. -/
theorem not_isPrefix_encodeByte (hb : b ≠ 46) (hm : mark ∈ dotMarks) (back : List Char) :
    ¬mark <+: (Percent.encodeByte Percent.objectKey b).map Char.toLower ++ back := by
  have hall : ∀ b : UInt8, b ≠ 46 → ∀ mark ∈ dotMarks,
      ¬mark <+: (Percent.encodeByte Percent.objectKey b).map Char.toLower ∧
      ¬(Percent.encodeByte Percent.objectKey b).map Char.toLower <+: mark :=
    Percent.forall_byte (by decide +kernel)
  obtain ⟨hn, hn'⟩ := hall b hb mark hm
  intro hp
  rcases List.prefix_or_prefix_of_prefix hp (List.prefix_append _ back) with h | h
  · exact hn h
  · exact hn' h

theorem not_isPrefix_encodeChar (hc : c ≠ '.') (hm : mark ∈ dotMarks) (back : List Char) :
    ¬mark <+: (Percent.encodeChar Percent.objectKey c ++ back).map Char.toLower := by
  obtain ⟨b, bytes, hbytes⟩ := List.exists_cons_of_ne_nil (String.utf8EncodeChar_ne_nil (c := c))
  have hb : b ≠ 46 := by
    rintro rfl
    exact hc (Char.toNat_inj.mp (Json.toNat_of_mem_utf8EncodeChar (by decide) (hbytes ▸ List.mem_cons_self)))
  unfold Percent.encodeChar Percent.encodeOctets
  rw [hbytes, List.flatMap_cons, List.append_assoc, List.map_append]
  exact not_isPrefix_encodeByte hb hm _

theorem encodeChar_dot : Percent.encodeChar Percent.objectKey '.' = ['.'] :=
  Percent.encodeChar_self (by decide) (by decide)

theorem not_mem_encodeChar (hc : c ≠ '/') : '/' ∉ Percent.encodeChar Percent.objectKey c := by
  intro hm
  obtain ⟨b, hb, hm⟩ := List.mem_flatMap.mp hm
  rcases Percent.mem_encodeByte hm with h | h | ⟨-, -, rfl⟩
  · exact absurd h (by decide)
  · exact absurd h (by decide)
  · exact hc (Char.toNat_inj.mp (Json.toNat_of_mem_utf8EncodeChar (by decide) hb))

/-- The pieces of an encoded key are those of the key. -/
theorem cut_encode (key : String) : Text.cut (· = '/') (Percent.encode Percent.objectKey key).toList =
    (Text.cut (· = '/') key.toList).map encoded := by
  rw [Percent.toList_encode]
  refine Text.cut_flatMap (fun c hc => ?_) (fun c hc d hd => decide_eq_false fun he => ?_) key.toList
  · rw [of_decide_eq_true hc]
    exact Percent.encodeChar_self (by decide) (by decide)
  · exact not_mem_encodeChar (of_decide_eq_false hc) (he ▸ hd)

/-- An encoded piece begins as a dot is written only if the piece begins with a dot. -/
theorem eq_of_isPrefix_encoded (hm : mark ∈ dotMarks) {back : List Char}
    (h : (encoded piece).map Char.toLower = mark ++ back) :
    ∃ rest, piece = '.' :: rest ∧ (encoded rest).map Char.toLower = back := by
  have hne : mark ≠ [] := by
    rintro rfl
    exact absurd hm (by decide)
  cases piece with
  | nil => exact absurd (List.append_eq_nil_iff.mp h.symm).1 hne
  | cons c rest =>
    unfold encoded at h
    rw [List.flatMap_cons] at h
    by_cases hc : c = '.'
    · subst hc
      rw [encodeChar_dot] at h
      refine ⟨rest, rfl, ?_⟩
      rcases List.mem_cons.mp hm with rfl | hm
      · exact (List.cons.inj h).2
      · rw [List.mem_singleton.mp hm] at h
        cases (List.cons.inj h).1
    · exact absurd ⟨back, h.symm⟩ (not_isPrefix_encodeChar hc hm _)

theorem eq_nil_of_encoded (h : (encoded piece).map Char.toLower = []) : piece = [] := by
  cases piece with
  | nil => rfl
  | cons c rest =>
    rw [List.map_eq_nil_iff, encoded, List.flatMap_cons] at h
    exact absurd (List.append_eq_nil_iff.mp h).1 (Percent.encodeChar_ne_nil _ c)

theorem eq_of_isDot_encoded (h : isDot (encoded piece) = true) : piece = ['.'] := by
  have hwhole : (encoded piece).map Char.toLower = (encoded piece).map Char.toLower ++ [] := (List.append_nil _).symm
  obtain ⟨rest, rfl, hrest⟩ := eq_of_isPrefix_encoded ((isDot_iff _).mp h) hwhole
  rw [eq_nil_of_encoded hrest]

theorem isPlain_encoded (hd : piece ≠ ['.']) (hdd : piece ≠ ['.', '.']) : isPlain (encoded piece) = true := by
  have h : isDot (encoded piece) = false := Bool.eq_false_iff.mpr fun h => hd (eq_of_isDot_encoded h)
  have h' : isDoubleDot (encoded piece) = false := by
    refine Bool.eq_false_iff.mpr fun h => ?_
    obtain ⟨mark, hm, mark', hm', he⟩ := exists_of_isDoubleDot h
    obtain ⟨rest, rfl, hrest⟩ := eq_of_isPrefix_encoded hm he
    have hdot : rest = ['.'] := eq_of_isDot_encoded ((isDot_iff _).mpr (hrest ▸ hm'))
    exact hdd (congrArg _ hdot)
  rw [isPlain, h, h']
  rfl

/-! ### The text of a path -/

theorem toList_render (names : List String) :
    (render (.segments names)).toList = names.flatMap fun name => '/' :: name.toList := by
  unfold render
  rw [String.toList_join, List.flatMap_map]
  exact congrArg names.flatMap (funext fun name => String.toList_append)

theorem render_append (front back : List String) :
    render (.segments (front ++ back)) = render (.segments front) ++ render (.segments back) := by
  rw [← String.toList_inj, String.toList_append, toList_render, toList_render, toList_render, List.flatMap_append]

theorem toList_segment (piece : List Char) :
    (segment piece).toList = piece.flatMap (Percent.encodeChar segmentMarks) := by
  rw [segment, Percent.toList_encode, String.toList_ofList]

/-- The pieces of a text are written as the text is. -/
theorem render_map_segment (text : List Char) : render (.segments ((Text.cut (· = '/') text).map segment)) =
    "/" ++ Percent.encode segmentMarks (String.ofList text) := by
  have hslash : ∀ c, decide (c = '/') = true → Percent.encodeChar segmentMarks c = ['/'] := by
    intro c hc
    rw [of_decide_eq_true hc]
    exact Percent.encodeChar_self (by decide) (by decide)
  rw [← String.toList_inj, toList_render, List.flatMap_map, String.toList_append, Percent.toList_encode,
    String.toList_ofList, String.toList_ofList]
  refine Eq.trans (congrArg (List.flatMap · _) (funext fun piece => ?_)) (Text.flatMap_cut hslash text)
  rw [toList_segment]

end UrlPath
end SealedDownload
