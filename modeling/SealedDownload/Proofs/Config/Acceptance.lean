import SealedDownload.Http.Watch
import SealedDownload.Proofs.Http.Location

/-! What settings are good for once they have passed their check. A transport and a downloader can be made of them, as
    long as the channel of events is not too large, and attachments can be located below every base that has segments.
    The check knows nothing of either condition: it takes any capacity but zero, and any locator as a base. -/

namespace SealedDownload

namespace Config

variable {config : Config} {entries : List (UInt32 × String)}

theorem exists_basesOf (h : checkOrigins entries = .ok ()) : ∃ bases, HttpTransport.basesOf entries = .ok bases := by
  induction entries with
  | nil => exact ⟨[], rfl⟩
  | cons entry rest ih =>
    obtain ⟨number, text⟩ := entry
    unfold checkOrigins at h
    unfold HttpTransport.basesOf
    cases hu : Url.ofText text with
    | error fault =>
      rw [hu] at h
      cases h
    | ok url =>
      rw [hu] at h
      obtain ⟨bases, hb⟩ := ih h
      rw [hb]
      exact ⟨_, rfl⟩

/-- What the check says of the capacity and of the bases. -/
theorem sound_of_check (h : config.check = .ok ()) :
    0 < config.eventCapacity.toNat ∧ checkOrigins config.origins.entries = .ok () := by
  unfold check at h
  split at h
  · cases h
  split at h
  · cases h
  split at h
  · cases h
  rename_i hcapacity
  split at h
  · cases h
  refine ⟨Nat.pos_of_ne_zero fun hz => hcapacity ?_, h⟩
  exact UInt64.toNat_inj.mp hz

theorem exists_ofConfig (h : config.check = .ok ()) : ∃ t, HttpTransport.ofConfig config = .ok t := by
  obtain ⟨bases, hb⟩ := exists_basesOf (sound_of_check h).2
  unfold HttpTransport.ofConfig
  rw [hb]
  exact ⟨_, rfl⟩

end Config

namespace Downloader

variable {config : Config} {t : HttpTransport}

/-- Once the check has passed, the channel alone decides whether there is a downloader. -/
theorem withHttp?_of_check (ceiling : Nat) (files : Files) (hc : config.check = .ok ())
    (ht : HttpTransport.ofConfig config = .ok t) :
    (config.eventCapacity.toNat ≤ Broadcast.maxCapacity → ∃ d, withHttp? config ceiling files = some (.ok (t, d))) ∧
      (Broadcast.maxCapacity < config.eventCapacity.toNat → withHttp? config ceiling files = none) := by
  have hpos := (Config.sound_of_check hc).1
  simp only [withHttp?, ht, start?, hc, Broadcast.open?]
  refine ⟨fun hle => ?_, fun hlt => ?_⟩
  · rw [if_pos ⟨hpos, hle⟩]
    exact ⟨_, rfl⟩
  · rw [if_neg fun h => Nat.not_le_of_lt hlt h.2]
    rfl

end Downloader

namespace Request

variable {request : Request} {metadata : Metadata}

theorem cdn_of_metadata? (hm : request.metadata? = some metadata) : request.cdn = metadata.cdn := by
  cases request with
  | backup => cases hm
  | transient | attachment =>
    cases hm
    rfl

theorem exists_forTransport (hm : request.metadata? = some metadata) (hk : metadata.cdnKey ≠ "") :
    ∃ r, request.forTransport = .ok r := by
  unfold forTransport
  rw [path_of_metadata? hm, attachmentPath_of_ne hk]
  exact ⟨_, rfl⟩

end Request

namespace HttpTransport

variable {config : Config} {t : HttpTransport} {text : String} {base : Url} {request : Request} {r : TransportRequest}

/-- Whether a request can be located depends on the base alone. -/
theorem locate_of_forTransport (ht : ofConfig config = .ok t) (ho : config.origins.get? request.cdn = some text)
    (hb : Url.ofText text = .ok base) (hr : request.forTransport = .ok r) :
    (base.isBase = true → ∃ url, t.locate r = .ok url) ∧
      (base.isBase = false → t.locate r = .error (.protocol ("invalid path " ++ Text.quote r.path ++ ": " ++
        Url.Fault.relativeToVerbatim.message))) := by
  obtain ⟨hpath, hcdn⟩ := Request.path_of_forTransport hr
  obtain ⟨below, hbelow⟩ := Request.path_eq hpath
  have hlookup : t.bases.lookup r.cdn = some base.asFolder := lookup_of_ofConfig ht (hcdn ▸ ho) hb
  have hjoin : (base.isBase = true → ∃ url, base.asFolder.join r.path = .ok url) ∧ _ :=
    Url.join_asFolder (Request.isFolderName_folder request) hbelow
  refine ⟨fun hp => ?_, fun hp => ?_⟩
  · obtain ⟨url, hu⟩ := hjoin.1 hp
    exact ⟨url, by simp only [locate, hlookup, hu]⟩
  · simp only [locate, hlookup, hjoin.2 hp]

end HttpTransport

namespace Config

/-- Settings that have passed the check make a transport, and a downloader unless their channel is too large. Every
    network has a locator as its base, and an attachment with a key is located below it if it has segments. -/
theorem usable_of_check {config : Config} (hc : config.check = .ok ()) (ceiling : Nat) (files : Files) :
    ∃ t, HttpTransport.ofConfig config = .ok t ∧
      (config.eventCapacity.toNat ≤ Broadcast.maxCapacity →
        ∃ d, Downloader.withHttp? config ceiling files = some (.ok (t, d))) ∧
      (Broadcast.maxCapacity < config.eventCapacity.toNat → Downloader.withHttp? config ceiling files = none) ∧
      ∀ number text, config.origins.get? number = some text → ∃ base, Url.ofText text = .ok base ∧
        ∀ request metadata, Request.metadata? request = some metadata → metadata.cdn = number →
          metadata.cdnKey ≠ "" → ∃ r, request.forTransport = .ok r ∧
            (base.isBase = true → ∃ url, t.locate r = .ok url) ∧
            (base.isBase = false → t.locate r = .error (.protocol ("invalid path " ++ Text.quote r.path ++ ": " ++
              Url.Fault.relativeToVerbatim.message))) := by
  obtain ⟨t, ht⟩ := exists_ofConfig hc
  obtain ⟨hopen, hpanic⟩ := Downloader.withHttp?_of_check ceiling files hc ht
  refine ⟨t, ht, hopen, hpanic, fun number text ho => ?_⟩
  obtain ⟨base, hb, -⟩ := HttpTransport.lookup_basesOf (HttpTransport.basesOf_of_ofConfig ht) ho
  refine ⟨base, hb, fun request metadata hm hn hk => ?_⟩
  obtain ⟨r, hr⟩ := Request.exists_forTransport hm hk
  have hcdn : request.cdn = number := (Request.cdn_of_metadata? hm).trans hn
  exact ⟨r, hr, HttpTransport.locate_of_forTransport ht (hcdn ▸ ho) hb hr⟩

/-- The settings that hold if none are given. -/
theorem usable_of_check_standard : ∃ t d request metadata r url, (standard "t").check = .ok () ∧
    HttpTransport.ofConfig (standard "t") = .ok t ∧
    Downloader.withHttp? (standard "t") 100 .empty = some (.ok (t, d)) ∧
    Request.metadata? request = some metadata ∧ metadata.cdn = 2 ∧ metadata.cdnKey = "a/b" ∧
    request.forTransport = .ok r ∧ t.locate r = .ok url := by
  have hc : (standard "t").check = .ok () := rfl
  let metadata : Metadata := ⟨"", 2, "a/b", ⟨List.replicate 64 0, rfl⟩, none, none⟩
  obtain ⟨t, ht, hopen, -, hlocate⟩ := usable_of_check hc 100 .empty
  obtain ⟨d, hd⟩ := hopen (by decide)
  obtain ⟨base, hb, hrequest⟩ := hlocate 2 "https://cdn2.signal.org" (by decide +kernel)
  obtain ⟨r, hr, hurl, -⟩ := hrequest (.transient metadata) metadata rfl rfl (by decide)
  have hbase : (Url.ofText "https://cdn2.signal.org").map Url.isBase = .ok true := rfl
  rw [hb] at hbase
  obtain ⟨url, hu⟩ := hurl (Except.ok.inj hbase)
  exact ⟨t, d, _, metadata, r, url, hc, ht, hd, rfl, rfl, rfl, hr, hu⟩

/-- The check takes a locator below which nothing can be, and a capacity that no channel can have. -/
theorem check_accepts_unusable :
    (∃ config ceiling t d request metadata r failure, config.check = .ok () ∧
      config.origins.get? 2 = some "mailto:x" ∧ Request.metadata? request = some metadata ∧ metadata.cdn = 2 ∧
      metadata.cdnKey = "a" ∧ Downloader.withHttp? config ceiling .empty = some (.ok (t, d)) ∧
      request.forTransport = .ok r ∧ t.locate r = .error failure) ∧
    ∃ config ceiling, config.check = .ok () ∧ config.eventCapacity = UInt64.ofNat (UInt64.size - 1) ∧
      Downloader.withHttp? config ceiling .empty = none := by
  refine ⟨?_, { standard "t" with eventCapacity := UInt64.ofNat (UInt64.size - 1) }, 100, rfl, rfl, rfl⟩
  obtain ⟨config, hc, ho, hle⟩ : ∃ config : Config, config.check = .ok () ∧
      config.origins.get? 2 = some "mailto:x" ∧ config.eventCapacity.toNat ≤ Broadcast.maxCapacity :=
    ⟨{ standard "t" with origins := .ofList [(2, "mailto:x")] }, rfl, by decide +kernel, by decide⟩
  obtain ⟨t, ht⟩ := exists_ofConfig hc
  obtain ⟨d, hd⟩ := (Downloader.withHttp?_of_check 100 .empty hc ht).1 hle
  obtain ⟨base, hb, -⟩ := HttpTransport.lookup_basesOf (HttpTransport.basesOf_of_ofConfig ht) ho
  have hbase : (Url.ofText "mailto:x").map Url.isBase = .ok false := rfl
  rw [hb] at hbase
  let request : Request := .transient ⟨"", 2, "a", ⟨List.replicate 64 0, rfl⟩, none, none⟩
  have ho : config.origins.get? request.cdn = some "mailto:x" := ho
  obtain ⟨r, hr⟩ : ∃ r, request.forTransport = .ok r := Request.exists_forTransport rfl (by decide)
  have hu := (HttpTransport.locate_of_forTransport ht ho hb hr).2 (Except.ok.inj hbase)
  exact ⟨config, 100, t, d, request, _, r, _, hc, ho, rfl, rfl, rfl, hd, hr, hu⟩

end Config
end SealedDownload
