import Mathlib.Data.List.Basic
import Mathlib.Data.List.TakeWhile
import SealedDownload.Url.Reader
import SealedDownload.Proofs.Url.Path

/-! A text that begins with a folder, read relative to a locator that has a server. It leads to the same server; which
    path it leads to is decided by its pieces, and it has a query or a fragment only if it has their mark. -/

namespace SealedDownload.Url

/-- The pieces of the path that a text is read as, seen from a locator. -/
def pathPieces (scheme text : String) : List (List Char) :=
  Text.cut (UrlPath.isSlash scheme) (Reference.ofChars (Reference.clean text)).main

/-- A text of which nothing is cut off or left out, and whose pieces are those between its slashes. -/
structure IsVerbatim (text : String) : Prop where
  not_mem : ∀ c ∈ ['?', '#', '\\', '\t', '\n', '\r'], c ∉ text.toList
  last : ∀ c ∈ text.toList.getLast?, 32 < c.toNat

/-- A name of letters, which stands in a path as it is. -/
structure IsFolderName (folder : String) : Prop where
  ne_nil : folder.toList ≠ []
  alpha : ∀ c ∈ folder.toList, c.isAlpha = true
  plain : UrlPath.isPlain folder.toList = true
  segment_eq : UrlPath.segment folder.toList = folder

/-- Where a text that begins with a folder leads to from a base. -/
structure IsBelow (base : Url) (folder text : String) (url : Url) : Prop where
  scheme_eq : url.scheme = base.scheme
  username_eq : url.username = base.username
  password_eq : url.password = base.password
  host_eq : url.host = base.host
  port_eq : url.port = base.port
  query : '?' ∉ text.toList → url.query = none
  fragment : '#' ∉ text.toList → url.fragment = none
  /-- as long as no segment that goes up leads out of the folder, the path is below it -/
  below : UrlPath.staysBelow 0 (pathPieces base.scheme text).tail = true →
    ∃ rest, url.path.render = base.asFolder.path.render ++ folder ++ "/" ++ rest
  /-- without such segments the path is the text -/
  exact : IsVerbatim text → (∀ piece ∈ Text.cut (· = '/') text.toList, UrlPath.isPlain piece = true) →
    url.path.render = base.asFolder.path.render ++ Percent.encode UrlPath.segmentMarks text

variable {base : Url} {scheme text folder below : String} {names : List String} {front rest chars : List Char}
  {p : Char → Bool}

/-! ### What is cut off and left out -/

theorem dropWhile_of_forall (h : ∀ c ∈ chars, p c = false) : chars.dropWhile p = chars := by
  cases chars with
  | nil => rfl
  | cons c rest => exact List.dropWhile_cons_of_neg (by simp [h c List.mem_cons_self])

theorem dropWhile_append_of_forall (h : ∀ c ∈ front, p c = false) (hne : front ≠ []) :
    (front ++ rest).dropWhile p = front ++ rest := by
  obtain ⟨c, front, rfl⟩ := List.exists_cons_of_ne_nil hne
  exact List.dropWhile_cons_of_neg (by simp [h c List.mem_cons_self])

theorem dropWhile_append_of_stop (h : front.dropWhile p = front) :
    (rest ++ front).dropWhile p = rest.dropWhile p ++ front := by
  rw [List.dropWhile_append, h]
  split
  · rename_i hempty
    rw [List.isEmpty_iff.mp hempty, List.nil_append]
  · rfl

namespace Reference

theorem filter_of_ne (h : ∀ c ∈ chars, c ≠ '\t' ∧ c ≠ '\n' ∧ c ≠ '\r') :
    chars.filter (fun c => c ≠ '\t' && c ≠ '\n' && c ≠ '\r') = chars :=
  List.filter_eq_self.mpr fun c hm => by simp [h c hm]

theorem clean_of_front (h : text.toList = front ++ rest) (hne : front ≠ []) (hf : ∀ c ∈ front, 32 < c.toNat) :
    ∃ rest', clean text = front ++ rest' := by
  have hblank : ∀ c ∈ front, decide (c.toNat ≤ 32) = false := fun c hm => decide_eq_false (Nat.not_le.mpr (hf c hm))
  have hback : (front.reverse).dropWhile (·.toNat ≤ 32) = front.reverse :=
    dropWhile_of_forall fun c hm => hblank c (List.mem_reverse.mp hm)
  have hkept := filter_of_ne fun c hm => by
    have hlt := hf c hm
    refine ⟨?_, ?_, ?_⟩ <;> rintro rfl <;> exact absurd hlt (by decide)
  refine ⟨((rest.reverse.dropWhile (·.toNat ≤ 32)).reverse).filter
    (fun c => c ≠ '\t' && c ≠ '\n' && c ≠ '\r'), ?_⟩
  simp only [clean]
  rw [h, dropWhile_append_of_forall hblank hne, List.reverse_append, dropWhile_append_of_stop hback,
    List.reverse_append, List.reverse_reverse, List.filter_append, hkept]

theorem mem_of_mem_clean {c : Char} (h : c ∈ clean text) : c ∈ text.toList := by
  simp only [clean] at h
  have hm := List.mem_reverse.mp (List.mem_filter.mp h).1
  exact (List.dropWhile_sublist _).mem (List.mem_reverse.mp ((List.dropWhile_sublist _).mem hm))

/-- A text that is taken as it is begins and ends with no blank. -/
theorem clean_of_isVerbatim (h : IsVerbatim text) (hf : ∀ c ∈ text.toList.head?, 32 < c.toNat) :
    clean text = text.toList := by
  have hend : ∀ {chars : List Char}, (∀ c ∈ chars.head?, 32 < c.toNat) → chars.dropWhile (·.toNat ≤ 32) = chars := by
    intro chars hc
    cases chars with
    | nil => rfl
    | cons c rest => exact List.dropWhile_cons_of_neg (by simpa using hc c rfl)
  simp only [clean]
  rw [hend hf, hend (by rw [List.head?_reverse]; exact h.last), List.reverse_reverse]
  have hne : ∀ c ∈ text.toList, ∀ d ∈ ['?', '#', '\\', '\t', '\n', '\r'], c ≠ d :=
    fun c hm d hd he => h.not_mem d hd (he ▸ hm)
  exact filter_of_ne fun c hm => ⟨hne c hm _ (by simp), hne c hm _ (by simp), hne c hm _ (by simp)⟩

theorem main_of_front (rest : List Char) (hf : ∀ c ∈ front, c ≠ '?' ∧ c ≠ '#') :
    ∃ rest', (ofChars (front ++ rest)).main = front ++ rest' := by
  have htake : ∀ {mark : Char} {chars : List Char}, (∀ c ∈ front, c ≠ mark) →
      (front ++ chars).takeWhile (fun c => !decide (c = mark)) = front ++ chars.takeWhile (fun c => !decide (c = mark)) :=
    fun hm => List.takeWhile_append_of_pos fun c hc => by simp [hm c hc]
  simp only [ofChars, Text.breakAt]
  rw [htake fun c hc => (hf c hc).2, htake fun c hc => (hf c hc).1]
  exact ⟨_, rfl⟩

/-- Without its mark there is no part. -/
theorem eq_nil_of_not_mem {mark : Char} (h : mark ∉ chars) : chars.dropWhile (fun c => !decide (c = mark)) = [] := by
  rw [List.dropWhile_eq_nil_iff]
  intro c hc
  have hne : c ≠ mark := fun he => h (he ▸ hc)
  simp [hne]

theorem query_eq_none (h : '?' ∉ chars) : (ofChars chars).query = none := by
  have hfront : '?' ∉ chars.takeWhile fun c => !decide (c = '#') := fun hm => h ((List.takeWhile_sublist _).mem hm)
  simp only [ofChars, Text.breakAt, eq_nil_of_not_mem hfront]
  rfl

theorem fragment_eq_none (h : '#' ∉ chars) : (ofChars chars).fragment = none := by
  simp only [ofChars, Text.breakAt, eq_nil_of_not_mem h]
  rfl

theorem main_eq_self (hq : '?' ∉ chars) (hf : '#' ∉ chars) : (ofChars chars).main = chars := by
  have htake : ∀ {mark : Char}, mark ∉ chars → chars.takeWhile (fun c => !decide (c = mark)) = chars := by
    intro mark h
    rw [List.takeWhile_eq_self_iff]
    intro c hc
    have hne : c ≠ mark := fun he => h (he ▸ hc)
    simp [hne]
  simp only [ofChars, Text.breakAt]
  rw [htake hf, htake hq]

end Reference

/-! ### What is read -/

theorem ne_of_isAlpha {c mark : Char} (hc : c.isAlpha = true) (hm : mark.isAlpha = false) : c ≠ mark := by
  rintro rfl
  cases hm.symm.trans hc

theorem scheme?_of_front (hf : ∀ c ∈ front, c.isAlpha = true) : scheme? (front ++ '/' :: rest) = none := by
  have hpart : ∀ c ∈ front, (c.isAlphanum || decide (c = '+') || decide (c = '-') || decide (c = '.')) = true := by
    intro c hm
    simp [Char.isAlphanum, hf c hm]
  simp only [scheme?]
  rw [List.dropWhile_append_of_pos hpart, List.dropWhile_cons_of_neg (by decide)]
  split
  · rename_i he
    cases he
  · rfl

/-- A text that begins with a folder says nothing of its own about scheme and server. -/
theorem join_of_main (hne : front ≠ []) (hf : ∀ c ∈ front, c.isAlpha = true)
    (hm : (Reference.ofChars (Reference.clean text)).main = front ++ '/' :: rest) :
    base.join text = if base.isBase then base.relative (Reference.ofChars (Reference.clean text))
      else .error .relativeToVerbatim := by
  have hnone : scheme? (front ++ '/' :: rest) = none := scheme?_of_front hf
  have hfragment : (Reference.ofChars (Reference.clean text)).isFragment = false := by
    unfold Reference.isFragment
    rw [hm]
    obtain ⟨c, front, rfl⟩ := List.exists_cons_of_ne_nil hne
    rfl
  rw [← hm] at hnone
  simp only [join, read, hnone, hfragment]
  rfl

theorem isAnySlash_of_isAlpha {c : Char} (h : c.isAlpha = true) : isAnySlash c = false := by
  simp [isAnySlash, ne_of_isAlpha h (by decide : '/'.isAlpha = false), ne_of_isAlpha h (by decide : '\\'.isAlpha = false)]

theorem isSlash_of_isAlpha {c : Char} (h : c.isAlpha = true) : UrlPath.isSlash scheme c = false := by
  simp [UrlPath.isSlash, ne_of_isAlpha h (by decide : '/'.isAlpha = false),
    ne_of_isAlpha h (by decide : '\\'.isAlpha = false)]

/-- A text that begins with a folder keeps the server, and goes on from the folder that the locator is. -/
theorem join_of_front (hs : base.scheme ≠ "file") (hp : base.isBase = true) (hne : front ≠ [])
    (hf : ∀ c ∈ front, c.isAlpha = true)
    (hm : (Reference.ofChars (Reference.clean text)).main = front ++ '/' :: rest) :
    base.join text = .ok (base.withPath
      (UrlPath.follow base.scheme base.segments.dropLast (pathPieces base.scheme text))
      (Reference.ofChars (Reference.clean text))) := by
  have hread : base.join text = _ := join_of_main hne hf hm
  obtain ⟨c, front, rfl⟩ := List.exists_cons_of_ne_nil hne
  have hc := hf c List.mem_cons_self
  rw [hread, if_pos hp, relative, if_neg hs, pathPieces, ← UrlPath.shorten_eq_dropLast hs, hm]
  rw [List.cons_append]
  split
  · rename_i he
    cases he
  · rename_i he
    exact absurd (List.cons.inj he).1 (ne_of_isAlpha hc rfl)
  · rename_i he
    obtain ⟨rfl, rfl⟩ := List.cons.inj he
    rw [isAnySlash_of_isAlpha hc, if_neg Bool.false_ne_true]
    rfl

/-- It leads somewhere from every locator that has segments, that of a file included. -/
theorem exists_join_of_front (hp : base.isBase = true) (hne : front ≠ []) (hf : ∀ c ∈ front, c.isAlpha = true)
    (hm : (Reference.ofChars (Reference.clean text)).main = front ++ '/' :: rest) : ∃ url, base.join text = .ok url := by
  by_cases hs : base.scheme = "file"
  · have hread : base.join text = _ := join_of_main hne hf hm
    obtain ⟨c, front, rfl⟩ := List.exists_cons_of_ne_nil hne
    rw [hread, if_pos hp, relative, if_pos hs, ofFile, hm]
    simp only [List.cons_append, isSlash_of_isAlpha (hf c List.mem_cons_self)]
    exact ⟨_, rfl⟩
  · exact ⟨_, join_of_front hs hp hne hf hm⟩

/-! ### Bases -/

theorem isBase_ofAuthority {r : Reference} {url : Url} (h : ofAuthority scheme chars r = .ok url) :
    url.isBase = true := by
  simp only [ofAuthority, bind, Except.bind] at h
  split at h
  · cases h
  · cases h
    rfl

theorem isBase_ofFile {r : Reference} {url : Url} (h : ofFile none r = .ok url) : url.isBase = true := by
  simp only [ofFile, Option.getD_none] at h
  split at h
  · cases h
    rfl
  · split at h
    · cases h
      rfl
    · split at h
      · cases h
        rfl
      · split at h
        · cases h
          rfl
        · generalize fileHost _ = host at h
          cases host <;> cases h
          rfl

/-- A locator of a server or a file has segments. -/
theorem isBase_of_ofText {url : Url} (h : ofText text = .ok url) (hs : isSpecial url.scheme = true) :
    url.isBase = true := by
  simp only [ofText, read] at h
  split at h
  · rename_i scheme rest _
    simp only [absolute] at h
    split at h
    · exact isBase_ofFile h
    · split at h
      · exact isBase_ofAuthority h
      · rename_i hnot
        split at h
        · exact isBase_ofAuthority h
        · cases h
          rfl
        · cases h
          exact absurd hs hnot
  · cases h

/-- The folder that a locator with segments is differs from it in the segments alone, and has an empty one at its end. -/
theorem exists_asFolder (h : base.isBase = true) :
    ∃ names, base.asFolder = { base with path := .segments (names ++ [""]) } := by
  obtain ⟨names, hp⟩ : ∃ names, base.path = .segments names := by
    cases hp : base.path with
    | segments names => exact ⟨names, rfl⟩
    | verbatim text =>
      simp only [isBase, hp] at h
      cases h
  simp only [asFolder, hp]
  by_cases hlast : names.getLast? = some ""
  · rw [if_pos hlast]
    have hnames : names.dropLast ++ [""] = names := List.dropLast_append_getLast? "" hlast
    exact ⟨names.dropLast, by rw [hnames, ← hp]⟩
  · rw [if_neg hlast]
    exact ⟨names, rfl⟩

@[simp] theorem isBase_asFolder (base : Url) : base.asFolder.isBase = base.isBase := by
  unfold asFolder
  split <;> split <;> simp_all [isBase]

/-! ### Folders -/

theorem lt_of_isAlpha {c : Char} (h : c.isAlpha = true) : 32 < c.toNat := by
  have hbound : ∀ first : Char, 32 < first.toNat → first.val ≤ c.val → 32 < c.toNat := fun first hf hle =>
    Nat.lt_of_lt_of_le hf (UInt32.le_iff_toNat_le.mp hle)
  rcases Bool.or_eq_true_iff.mp h with hupper | hlower
  · have hupper : 'A'.val ≤ c.val ∧ c.val ≤ 'Z'.val := of_decide_eq_true hupper
    exact hbound 'A' (by decide) hupper.1
  · have hlower : (decide ('a'.val ≤ c.val) && decide (c.val ≤ 'z'.val)) = true := hlower
    exact hbound 'a' (by decide) (of_decide_eq_true (Bool.and_eq_true_iff.mp hlower).1)

theorem main_of_folder (hf : IsFolderName folder) (ht : text = folder ++ "/" ++ below) :
    ∃ rest, (Reference.ofChars (Reference.clean text)).main = folder.toList ++ '/' :: rest := by
  have hfront : ∀ c ∈ folder.toList ++ ['/'], c.isAlpha = true ∨ c = '/' := by
    intro c hm
    rcases List.mem_append.mp hm with hm | hm
    · exact Or.inl (hf.alpha c hm)
    · exact Or.inr (List.mem_singleton.mp hm)
  have htext : text.toList = (folder.toList ++ ['/']) ++ below.toList := by
    rw [ht, String.toList_append, String.toList_append]
    rfl
  obtain ⟨rest, hclean⟩ := Reference.clean_of_front htext (by simp) fun c hm => by
    rcases hfront c hm with hc | rfl
    · exact lt_of_isAlpha hc
    · decide
  have hmarks : ∀ c ∈ folder.toList ++ ['/'], c ≠ '?' ∧ c ≠ '#' := by
    intro c hm
    rcases hfront c hm with hc | rfl
    · exact ⟨ne_of_isAlpha hc (by decide), ne_of_isAlpha hc (by decide)⟩
    · decide
  obtain ⟨rest', hmain⟩ := Reference.main_of_front rest hmarks
  exact ⟨rest', by rw [hclean, hmain, List.append_assoc]; rfl⟩

/-- The first piece is the folder. -/
theorem pathPieces_of_main (scheme : String) (hf : IsFolderName folder)
    (hm : (Reference.ofChars (Reference.clean text)).main = folder.toList ++ '/' :: rest) :
    pathPieces scheme text = folder.toList :: Text.cut (UrlPath.isSlash scheme) rest := by
  unfold pathPieces
  rw [hm]
  have hslash : Text.cut (UrlPath.isSlash scheme) ('/' :: rest) = [] :: Text.cut (UrlPath.isSlash scheme) rest :=
    Text.cut_cons_of_mark rfl rest
  exact (Text.cut_append (fun c hc => isSlash_of_isAlpha (hf.alpha c hc)) hslash).trans (by rw [List.append_nil])

theorem render_of_below (hf : IsFolderName folder) (hs : scheme ≠ "file") {pieces : List (List Char)}
    (hp : pieces ≠ []) (hb : UrlPath.staysBelow 0 pieces = true) : ∃ rest,
    UrlPath.render (.segments (UrlPath.follow scheme names (folder.toList :: pieces))) =
      UrlPath.render (.segments names) ++ "/" ++ folder ++ "/" ++ rest := by
  rw [UrlPath.follow_cons hp, UrlPath.advance_of_isPlain hf.plain, hf.segment_eq]
  obtain ⟨first, others, hne⟩ := List.exists_cons_of_ne_nil (UrlPath.follow_ne_nil scheme [] hp)
  have hkept := UrlPath.follow_append hs [] (names ++ [folder]) hb
  rw [List.append_nil, hne] at hkept
  rw [hkept]
  refine ⟨first ++ UrlPath.render (.segments others), ?_⟩
  rw [← String.toList_inj]
  simp [UrlPath.toList_render]

theorem pathPieces_of_isVerbatim (h : IsVerbatim text) (hf : ∀ c ∈ text.toList.head?, 32 < c.toNat) :
    pathPieces scheme text = Text.cut (· = '/') text.toList := by
  unfold pathPieces
  rw [Reference.clean_of_isVerbatim h hf, Reference.main_eq_self (h.not_mem _ (by simp)) (h.not_mem _ (by simp))]
  refine Text.cut_congr fun c hm => ?_
  have hne : c ≠ '\\' := fun he => h.not_mem '\\' (by simp) (he ▸ hm)
  simp [UrlPath.isSlash, hne]

/-- Where a text that begins with a folder leads, if there is anything below a locator. -/
theorem join_asFolder (hf : IsFolderName folder) (ht : text = folder ++ "/" ++ below) :
    (base.isBase = true → ∃ url, base.asFolder.join text = .ok url) ∧
      (base.isBase = false → base.asFolder.join text = .error .relativeToVerbatim) := by
  obtain ⟨rest, hm⟩ := main_of_folder hf ht
  refine ⟨fun hp => ?_, fun hp => ?_⟩
  · exact exists_join_of_front ((isBase_asFolder base).trans hp) hf.ne_nil hf.alpha hm
  · rw [join_of_main hf.ne_nil hf.alpha hm, isBase_asFolder, hp]
    rfl

/-- A text that begins with a folder leads to a locator on the server of the base. -/
theorem exists_join (hf : IsFolderName folder) (hs : base.scheme ≠ "file") (hp : base.isBase = true)
    (ht : text = folder ++ "/" ++ below) : ∃ url, base.asFolder.join text = .ok url ∧ base.IsBelow folder text url := by
  obtain ⟨names, hfolder⟩ := exists_asFolder hp
  obtain ⟨rest, hm⟩ := main_of_folder hf ht
  have hpieces := pathPieces_of_main base.scheme hf hm
  have hslash : base.asFolder.path.render = UrlPath.render (.segments names) ++ "/" := by
    rw [hfolder]
    exact UrlPath.render_append names [""]
  have hkept : base.asFolder.segments.dropLast = names := by
    rw [hfolder]
    exact List.dropLast_concat
  have hscheme : base.asFolder.scheme = base.scheme := by rw [hfolder]
  have hfile : base.asFolder.scheme ≠ "file" := hscheme ▸ hs
  have hjoin := join_of_front hfile (by rw [hfolder]; rfl) hf.ne_nil hf.alpha hm
  rw [hkept, hscheme] at hjoin
  have hhead : ∀ c ∈ text.toList.head?, 32 < c.toNat := by
    intro c hc
    rw [ht, String.toList_append, String.toList_append, List.append_assoc, List.head?_append_of_ne_nil _ hf.ne_nil] at hc
    exact lt_of_isAlpha (hf.alpha c (List.mem_of_head? hc))
  refine ⟨_, hjoin, ?_⟩
  rw [hfolder]
  refine ⟨rfl, rfl, rfl, rfl, rfl, fun hq => ?_, fun hq => ?_, fun hb => ?_, fun hv hplain => ?_⟩
  · have hnone := Reference.query_eq_none fun hm => hq (Reference.mem_of_mem_clean hm)
    exact congrArg (Option.map _) hnone
  · have hnone := Reference.fragment_eq_none fun hm => hq (Reference.mem_of_mem_clean hm)
    exact congrArg (Option.map _) hnone
  · rw [hslash]
    rw [hpieces] at hb ⊢
    exact render_of_below hf hs (Text.cut_ne_nil _ _) hb
  · rw [hslash, pathPieces_of_isVerbatim hv hhead]
    have hrender := UrlPath.render_append names ((Text.cut (· = '/') text.toList).map UrlPath.segment)
    rw [UrlPath.render_map_segment, String.ofList_toList, ← String.append_assoc] at hrender
    exact (congrArg (fun names => UrlPath.render (.segments names)) (UrlPath.follow_of_isPlain hplain)).trans hrender

end SealedDownload.Url
