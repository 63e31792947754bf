import SealedDownload.Proofs.Http.Message
import SealedDownload.Proofs.Http.Ranges

/-! What a call returns whose last response was a part of an object. The size of the object and the last byte of the
    part, which the response names too, are not looked at, nor is its first byte where no range was asked for. So the
    file is all of the object exactly if it was begun at the first byte and the body that came was the rest. -/

namespace SealedDownload.Http

/-- Whether a response brings an object from its first byte on. -/
def Head.IsFromStart (head : Head) : Prop := head.status = Head.partialContent → head.start? = some 0

/-- A file that a call has returned, `head` being the response accepted last: a part of an object from byte `s` on,
    which has `size` bytes as a whole. -/
structure Returned (past : List Moment) (files : Files) (path : Path) (head : Head) (s size : Nat) (sent : Sent)
    (first : Head) (kept body : Octets) : Prop where
  asked_eq : (asked past).head? = some sent
  taken_eq : taken? past = some ⟨head, kept, body⟩
  first_eq : begunWith? past path = some first
  file_eq : files.get? path = some (kept ++ body)
  /-- the body goes behind the bytes before `s` if it was asked for from there on, and otherwise it is the file -/
  kept_eq : (∃ k validator, k.toNat = s ∧ sent.AsksFrom k validator) ∧ kept.length = s ∨
    sent.AsksAll ∧ first = head ∧ kept = []
  whole_iff : (kept ++ body).length = size ∧ first.IsFromStart ↔ s + body.length = size ∧ first.IsFromStart

variable {t : HttpTransport} {files : Files} {past : List Moment} {c : Chain} {path : Path} {head : Head}
  {s e size : Nat}

/-- When a call ends well after a part of an object, it is not the whole that is sure, but when it is that. -/
theorem returned_of_partialContent (h : History t files past c) (hl : c.link = .idle (some (.ok path)))
    (ha : lastAccepted? past path = some head) (hs : head.status = Head.partialContent)
    (hc : head.header? "content-range" = some (Head.contentRange s e size)) :
    ∃ sent first kept body, Returned past c.files path head s size sent first kept body := by
  obtain ⟨sent, ⟨head', kept, body⟩, first, hm⟩ := (follows_of_history h).left _ hl
  obtain rfl : head' = head := Option.some.inj (hm.last_eq.symm.trans ha)
  have hkept : (∃ k validator, k.toNat = s ∧ sent.AsksFrom k validator) ∧ kept.length = s ∨
      sent.AsksAll ∧ first = head' ∧ kept = [] := by
    cases hm.answers with
    | rest _ hr hk hlen =>
      have he := Head.toNat_of_start? hc hk
      exact Or.inl ⟨⟨_, _, he, hr⟩, hlen.trans he⟩
    | anew _ hr hf hk => exact Or.inr ⟨hr hs, hf, hk⟩
  refine ⟨sent, first, kept, body, hm.asked_eq, hm.taken_eq, hm.first_eq, hm.file_eq, hkept, ?_⟩
  refine and_congr_left fun hstart => ?_
  rw [List.length_append]
  rcases hkept with ⟨-, hlen⟩ | ⟨-, rfl, rfl⟩
  · rw [hlen]
  · have he := Head.toNat_of_start? hc (hstart hs)
    rw [← he]
    rfl

/-- A chain whose last call has returned a file. -/
def returning (t : HttpTransport) (files : Files) (path : Path) : Chain :=
  ⟨t, ⟨1, "a", []⟩, files, .idle (some (.ok path))⟩

/-- The rest of an object is asked for, a part from there on comes, and the call ends well. -/
theorem exists_returning {url : Url} {kept : Octets} {k : UInt64} {validator : String} {e size : Nat} (body : Octets)
    (h : History t .empty past (awaiting t files url path k (some validator))) (hk : 0 < k)
    (hg : files.get? path = some kept) (head : Head) (hs : head.status = Head.partialContent)
    (hc : head.header? "content-range" = some (Head.contentRange k.toNat e size)) : ∃ files' past',
    History t .empty past' (returning t files' path) ∧ lastAccepted? past' path = some head ∧
      asked past' = asked past ∧ files'.get? path = some (kept ++ body) := by
  have hstart : head.start? = some k := by
    rw [Head.start?_of_contentRange hc, if_pos k.toNat_lt_size, UInt64.ofNat_toNat]
  have hstep : (awaiting t files url path k (some validator)).happen? (.input (.head head)) =
      some (⟨t, ⟨1, "a", []⟩, files.append path [], .busy ⟨url, [], .zero, ⟨url.render, path, k, head.validator?⟩,
        .reading (head.length.map (· + k))⟩⟩, []) := by
    simp [awaiting, Chain.happen?, Chain.step?, Chain.input?, Fetch.step, Fetch.respond, Fetch.accept, Chain.going,
      Fetch.result?, hs, hk, hstart]
  have h := ((h.input (.head head) hstep).input (.chunk body) rfl).input .finish rfl
  refine ⟨_, _, h, ?_, ?_, ?_⟩
  · rw [lastAccepted?_cons rfl, lastAccepted?_cons rfl]
    exact lastAccepted?_cons_self rfl
  · rw [asked_cons rfl, asked_cons rfl, asked_cons rfl]
    rfl
  · rw [← List.append_nil kept]
    exact Files.get?_append body (Files.get?_append [] hg)

/-- The rest of an interrupted object comes, and the call returns the whole. -/
theorem returned_of_partialContent_resumed : ∃ t past c path head sent first kept body,
    History t .empty past c ∧ c.link = .idle (some (.ok path)) ∧ c.files.get? path = some [1, 2, 3] ∧
      Returned past c.files path head 1 3 sent first kept body := by
  obtain ⟨t, url, path, -, files, m, past, -, h, -, hg⟩ := exists_awaiting
  have hc : Head.header? ⟨206, [("content-range", Head.contentRange 1 2 3)], none⟩ "content-range" =
      some (Head.contentRange 1 2 3) := List.lookup_cons_self
  obtain ⟨files, past, h, ha, -, hg⟩ := exists_returning [2, 3] h (by decide) hg _ rfl hc
  obtain ⟨sent, first, kept, body, hr⟩ := returned_of_partialContent h rfl ha rfl hc
  exact ⟨t, past, _, path, _, sent, first, kept, body, h, rfl, hg, hr⟩

/-- A part that has not been asked for, and one that is not all of what has been asked for: both calls end well. -/
theorem part_returned_as_whole :
    (∃ t past c path head bytes, History t .empty past c ∧ c.link = .idle (some (.ok path)) ∧
      lastAccepted? past path = some head ∧ head.status = Head.partialContent ∧
      head.header? "content-range" = some (Head.contentRange 5 9 10) ∧
      c.files.get? path = some bytes ∧ bytes.length = 5 ∧ begunWith? past path = some head ∧ ¬head.IsFromStart) ∧
    ∃ t past c path head bytes, History t .empty past c ∧ c.link = .idle (some (.ok path)) ∧
      (∃ sent, asked past = [sent] ∧ sent.AsksFrom 1 "a") ∧
      lastAccepted? past path = some head ∧ head.status = Head.partialContent ∧
      head.header? "content-range" = some (Head.contentRange 1 1 3) ∧
      c.files.get? path = some bytes ∧ bytes.length = 2 := by
  obtain ⟨t, url, path, first, files, m, past, h, h', ⟨sent, -, hasked, hsent⟩, hg⟩ := exists_awaiting
  constructor
  · let head : Head := ⟨206, [("content-range", Head.contentRange 5 9 10)], none⟩
    have hc : head.header? "content-range" = some (Head.contentRange 5 9 10) := List.lookup_cons_self
    have h := ((h.input (.head head) rfl).input (.chunk [53, 54, 55, 56, 57]) rfl).input .finish rfl
    refine ⟨t, _, _, path, head, _, h, rfl, ?_, rfl, hc, Files.get?_append _ (Files.get?_write ..), rfl, ?_, ?_⟩
    · rw [lastAccepted?_cons rfl, lastAccepted?_cons rfl]
      exact lastAccepted?_cons_self rfl
    · rw [begunWith?_cons rfl, begunWith?_cons rfl]
      exact begunWith?_cons_self (Option.filter_eq_some_iff.mpr ⟨rfl, decide_eq_true (Files.get?_write ..)⟩)
    · exact fun hs => absurd (Head.toNat_of_start? hc (hs rfl)) (by decide)
  · have hc : Head.header? ⟨206, [("content-range", Head.contentRange 1 1 3)], none⟩ "content-range" =
        some (Head.contentRange 1 1 3) := List.lookup_cons_self
    obtain ⟨files, past, h, ha, he, hg⟩ := exists_returning [2] h' (by decide) hg _ rfl hc
    exact ⟨t, past, _, path, _, _, h, rfl, ⟨sent, he.trans hasked, hsent⟩, ha, rfl, hc, hg, rfl⟩

end SealedDownload.Http
