import SealedDownload.Proofs.Downloader.Linking

/-! The numbers of downloads. They are given out in order and come round only after `2 ^ 64` of them, so no two
    downloads share one before. -/

namespace SealedDownload.Downloader

variable {d d' : Downloader} {action : Action} {actions : List Action} {i j : Nat}

/-- The downloads are numbered in order, in words. -/
structure Numbered (first : TransferId) (d : Downloader) : Prop where
  next : d.nextId.val = first.val + UInt64.ofNat d.downloads.length
  id : ∀ i (x : Download), d.downloads[i]? = some x → x.id.val = first.val + UInt64.ofNat i

/-- Nothing but an accepted request takes a number. -/
theorem Step.accepts (h : Step d action d') :
    (∃ request caller limit, action = .ask request caller ∧ d.limitFor request = .ok limit ∧ d.shutDown = false ∧
      d' = d.accepted request caller limit) ∨
    d'.nextId = d.nextId ∧ d'.downloads.length = d.downloads.length := by
  cases h with
  | accept hl hs => exact Or.inl ⟨_, _, _, rfl, hl, hs, rfl⟩
  | @feed i x t action input hd hp hi =>
    have hd' : (d.stored action).downloads[i]? = some x := getElem?_stored hd
    obtain ⟨tripped, hset⟩ := (feed_spec hd' t input).downloads
    obtain ⟨shared, tracker, downloads, demands, hf⟩ :=
      performAll_frame ((d.stored action).move i x (.transferring (t.step input).1)) i (t.step input).2
    refine Or.inr ⟨(congrArg Downloader.nextId hf).trans (stored_keeps d action).2.2.2, ?_⟩
    rw [hset, List.length_set, move, put, List.length_set, (stored_eq d action).1]
  | refuse | cancel | shutdown | setCeiling | work => exact Or.inr ⟨rfl, rfl⟩
  | _ => exact Or.inr ⟨rfl, List.length_set ..⟩

theorem Step.numbered {first : TransferId} (h : Step d action d') (hn : Numbered first d) : Numbered first d' := by
  rcases h.accepts with ⟨request, caller, limit, -, -, -, rfl⟩ | ⟨hnext, hlength⟩
  · refine ⟨?_, fun i x hd => ?_⟩
    · have hnext : (d.accepted request caller limit).nextId.val = d.nextId.val + 1 := rfl
      rw [hnext, hn.next, accepted, List.length_append, List.length_singleton, UInt64.ofNat_add, UInt64.add_assoc]
      rfl
    · rcases Nat.lt_or_ge i d.downloads.length with hl | hl
      · rw [accepted, List.getElem?_append_left hl] at hd
        exact hn.id i x hd
      · rw [accepted, List.getElem?_append_right hl, List.getElem?_singleton] at hd
        split at hd
        · obtain rfl : i = d.downloads.length := by omega
          cases hd
          exact hn.next
        · cases hd
  · refine ⟨by rw [hnext, hlength, hn.next], fun i x' hd' => ?_⟩
    have hl := (List.getElem?_eq_some_iff.mp hd').1
    rw [hlength] at hl
    obtain ⟨y, hy, hc⟩ := h.continues (List.getElem?_eq_getElem hl)
    cases hd'.symm.trans hy
    rw [hc.id, hn.id i _ (List.getElem?_eq_getElem hl)]

theorem numbered_run {first : TransferId} (hn : Numbered first d) (h : d.run? actions = some d') :
    Numbered first d' := by
  induction actions generalizing d with
  | nil =>
    cases h
    exact hn
  | cons action rest ih =>
    obtain ⟨e, he, hr⟩ := Option.bind_eq_some_iff.mp h
    exact ih ((step_of_step? he).numbered hn) hr

theorem IsFresh.numbered (hf : d.IsFresh) : Numbered d.nextId d where
  next := by
    rw [hf.downloads]
    simp
  id i x hd := by
    rw [hf.downloads] at hd
    cases hd

/-- Downloads that share a number are `2 ^ 64` apart. -/
theorem Numbered.apart {first : TransferId} (hn : Numbered first d) {x y : Download} (hx : d.downloads[i]? = some x)
    (hy : d.downloads[j]? = some y) (h : x.id = y.id) : i % UInt64.size = j % UInt64.size := by
  have he := (hn.id i x hx).symm.trans ((congrArg TransferId.val h).trans (hn.id j y hy))
  have hw : UInt64.ofNat i = UInt64.ofNat j := (UInt64.add_right_inj first.val).mp he
  have ht := congrArg UInt64.toNat hw
  rwa [UInt64.toNat_ofNat', UInt64.toNat_ofNat'] at ht

end SealedDownload.Downloader
