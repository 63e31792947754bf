import SealedDownload.Proofs.Http.Steps
import SealedDownload.Proofs.Request.Path
import SealedDownload.Proofs.Url.Relative

/-! Where a request goes. Its locator is on the server of its network. The key of an attachment is encoded, so that
    nothing in it is a mark but the slash; the directory and the name of a backup are not. What neither does anything
    about are segments that go up. -/

namespace SealedDownload

namespace Request

/-- The folder below which the objects of a request are. -/
def folder (request : Request) : String :=
  match request.kind with
  | .backup => "backups"
  | .transient => "attachments"
  | .attachment => "attachments"

variable {request : Request} {path key : String}

theorem isFolderName_folder (request : Request) : Url.IsFolderName request.folder := by
  have hnames : Url.IsFolderName "backups" ∧ Url.IsFolderName "attachments" := by
    constructor <;> exact ⟨by decide, List.all_eq_true.mp (by decide), by decide, by decide +kernel⟩
  cases request with
  | backup => exact hnames.1
  | transient | attachment => exact hnames.2

theorem path_of_forTransport {r : TransportRequest} (h : request.forTransport = .ok r) :
    request.path = .ok r.path ∧ r.cdn = request.cdn := by
  unfold Request.forTransport at h
  cases hp : request.path with
  | error failure =>
    rw [hp] at h
    cases h
  | ok path =>
    rw [hp] at h
    cases h
    exact ⟨rfl, rfl⟩

theorem path_eq (h : request.path = .ok path) : ∃ below, path = request.folder ++ "/" ++ below := by
  cases request with
  | backup location headers =>
    simp only [Request.path] at h
    split at h <;> cases h
    exact ⟨location.directory ++ "/" ++ location.name, rfl⟩
  | transient | attachment => exact ⟨_, eq_of_attachmentPath h⟩

theorem isKeyChar_of_attachmentPath (h : attachmentPath key = .ok path) :
    ∀ c ∈ path.toList, Percent.isKeyChar c = true := by
  intro c hc
  rw [eq_of_attachmentPath h, String.toList_append] at hc
  rcases List.mem_append.mp hc with hc | hc
  · exact List.all_eq_true.mp (by decide : ("attachments" ++ "/").toList.all Percent.isKeyChar = true) c hc
  · exact Percent.isKeyChar_of_mem_encode hc

/-- The path of an attachment has no marks but slashes. -/
theorem isVerbatim_of_attachmentPath (h : attachmentPath key = .ok path) : Url.IsVerbatim path := by
  refine ⟨fun c hc hm => ?_, fun c hc => ?_⟩
  · have hmark : ['?', '#', '\\', '\t', '\n', '\r'].all (!Percent.isKeyChar ·) = true := by decide
    have hnot := List.all_eq_true.mp hmark c hc
    rw [isKeyChar_of_attachmentPath h c hm] at hnot
    cases hnot
  · have hkey := isKeyChar_of_attachmentPath h c (List.mem_of_getLast? hc)
    simp only [Percent.isKeyChar, Bool.and_eq_true, decide_eq_true_eq] at hkey
    exact hkey.1.1

/-- The path of an attachment is not encoded again. -/
theorem encode_of_attachmentPath (h : attachmentPath key = .ok path) :
    Percent.encode UrlPath.segmentMarks path = path :=
  Percent.encode_self fun c hc => Percent.segmentMarks_of_isKeyChar (isKeyChar_of_attachmentPath h c hc)

/-- Only the dots of a key are dots of its path. -/
theorem isPlain_of_attachmentPath (h : attachmentPath key = .ok path)
    (hk : ∀ piece ∈ Text.cut (· = '/') key.toList, piece ≠ ['.'] ∧ piece ≠ ['.', '.']) :
    ∀ piece ∈ Text.cut (· = '/') path.toList, UrlPath.isPlain piece = true := by
  have hcut : Text.cut (· = '/') path.toList =
      "attachments".toList :: (Text.cut (· = '/') key.toList).map UrlPath.encoded := by
    have hslash : Text.cut (· = '/') ('/' :: (Percent.encode Percent.objectKey key).toList) = [] :: _ :=
      Text.cut_cons_of_mark rfl _
    rw [UrlPath.cut_encode] at hslash
    rw [eq_of_attachmentPath h, String.toList_append, String.toList_append, List.append_assoc]
    have hfront : "attachments".toList.all (· ≠ '/') = true := by decide
    exact Text.cut_append (fun c hc => by simpa using List.all_eq_true.mp hfront c hc) hslash
  intro piece hp
  rw [hcut] at hp
  rcases List.mem_cons.mp hp with rfl | hp
  · decide
  · obtain ⟨own, ho, rfl⟩ := List.mem_map.mp hp
    exact UrlPath.isPlain_encoded (hk own ho).1 (hk own ho).2

end Request

namespace HttpTransport

variable {entries : List (UInt32 × String)} {bases : List (UInt32 × Url)} {number : UInt32} {text : String}

/-- The base of a network is the locator that its text spells, with a slash at its end. -/
theorem lookup_basesOf (h : basesOf entries = .ok bases) (hl : entries.lookup number = some text) :
    ∃ base, Url.ofText text = .ok base ∧ bases.lookup number = some base.asFolder := by
  induction entries generalizing bases with
  | nil => cases hl
  | cons entry rest ih =>
    obtain ⟨other, first⟩ := entry
    unfold basesOf at h
    cases hu : Url.ofText first with
    | error fault =>
      rw [hu] at h
      cases h
    | ok base =>
      rw [hu] at h
      cases hr : basesOf rest with
      | error failure =>
        rw [hr] at h
        cases h
      | ok later =>
        rw [hr] at h
        cases h
        rw [List.lookup_cons] at hl ⊢
        cases hn : number == other with
        | true =>
          rw [hn] at hl
          cases hl
          exact ⟨base, hu, rfl⟩
        | false =>
          rw [hn] at hl
          exact ih hr hl

theorem basesOf_of_ofConfig {config : Config} {t : HttpTransport} (ht : ofConfig config = .ok t) :
    basesOf config.origins.entries = .ok t.bases := by
  unfold ofConfig at ht
  cases hbases : basesOf config.origins.entries with
  | error failure =>
    rw [hbases] at ht
    cases ht
  | ok bases =>
    rw [hbases] at ht
    cases ht
    rfl

theorem lookup_of_ofConfig {config : Config} {t : HttpTransport} {base : Url} (ht : ofConfig config = .ok t)
    (ho : config.origins.get? number = some text) (hb : Url.ofText text = .ok base) :
    t.bases.lookup number = some base.asFolder := by
  obtain ⟨base', hb', hl⟩ := lookup_basesOf (basesOf_of_ofConfig ht) ho
  cases hb.symm.trans hb'
  exact hl

theorem locate_of_ofConfig {config : Config} {t : HttpTransport} {request : TransportRequest} {base : Url}
    (ht : ofConfig config = .ok t) (ho : config.origins.get? request.cdn = some text) (hb : Url.ofText text = .ok base)
    {url : Url} (hj : base.asFolder.join request.path = .ok url) : t.locate request = .ok url := by
  simp only [locate, lookup_of_ofConfig ht ho hb, hj]

end HttpTransport

namespace Http

variable {f f' : Fetch} {files files' : Files} {again : Bool} {input : FetchInput} {effects : List FetchEffect}
  {sent : Sent}

/-! ### What is sent -/

theorem url_of_failed {failure : Failure} (h : Fetch.Failed f files failure f' files') : f'.url = f.url := by
  cases h <;> rfl

theorem url_of_sends (h : Fetch.Sends f files again f' files' effects) :
    f'.url = f.url ∧ ∀ sent, .send sent ∈ effects → sent.url = f.url.render := by
  cases h with
  | send =>
    refine ⟨rfl, fun sent hm => ?_⟩
    cases List.mem_singleton.mp hm
    rfl
  | block _ hf => exact ⟨url_of_failed hf, fun _ hm => by cases hm⟩

theorem url_of_step (h : Fetch.Step f files input f' files' effects) :
    f'.url = f.url ∧ ∀ sent, .send sent ∈ effects → sent.url = f.url.render := by
  cases h with
  | ignore | append | begin | complete => exact ⟨rfl, fun _ hm => by cases hm⟩
  | receive => exact ⟨rfl, fun _ hm => by cases List.mem_singleton.mp hm⟩
  | restart _ _ _ _ hd => exact url_of_sends (f := f.anew) hd
  | refuse _ _ hf | fail _ hf => exact ⟨url_of_failed hf, fun _ hm => by cases hm⟩

/-- Whatever comes to a fetch, it only sends requests for its locator. -/
theorem url_of_run (f : Fetch) (files : Files) (inputs : List FetchInput) :
    ∀ sent, .send sent ∈ (f.run files inputs).2.2 → sent.url = f.url.render := by
  induction inputs generalizing f files with
  | nil => exact fun _ hm => by cases hm
  | cons input rest ih =>
    intro sent hm
    obtain ⟨hurl, hsent⟩ := url_of_step (Fetch.step_spec f files input)
    rcases List.mem_append.mp hm with hm | hm
    · exact hsent sent hm
    · exact hurl ▸ ih _ _ sent hm

theorem url_of_start {t : HttpTransport} {request : TransportRequest} {resume : Option ResumeToken} {url : Url}
    (hu : t.locate request = .ok url) (h : Fetch.start t request resume files = (.ok (f, effects), files')) :
    f.url = url ∧ ∀ sent, .send sent ∈ effects → sent.url = url.render := by
  rcases Fetch.start_spec t request resume files with
    ⟨failure, hst, -⟩ | ⟨url', made, part, files₁, f₁, effects₁, files₂, hu', -, -, hsend, hst⟩
  · cases hst.symm.trans h
  · cases hst.symm.trans h
    cases hu.symm.trans hu'
    exact url_of_sends hsend

/-- The locator of a request for a network whose base is one of the web is on the server of the base, and all that a
    call sends goes there. It is below the folder of the request unless segments of the path that go up lead out of it,
    and without such segments it is the path itself. That of an attachment has no query and no fragment; that of a
    backup may. -/
theorem located_below_base {config : Config} {t : HttpTransport} {request : Request} {r : TransportRequest}
    {text : String} {base : Url} (ht : HttpTransport.ofConfig config = .ok t)
    (ho : config.origins.get? request.cdn = some text) (hb : Url.ofText text = .ok base)
    (hs : base.scheme = "http" ∨ base.scheme = "https") (hr : request.forTransport = .ok r) :
    ∃ url, t.locate r = .ok url ∧ base.IsBelow request.folder r.path url ∧
      (∀ metadata, request.metadata? = some metadata → url.query = none ∧ url.fragment = none ∧
        ((∀ piece ∈ Text.cut (· = '/') metadata.cdnKey.toList, piece ≠ ['.'] ∧ piece ≠ ['.', '.']) →
          url.path.render = base.asFolder.path.render ++ r.path)) ∧
      ∀ resume files f effects files', Fetch.start t r resume files = (.ok (f, effects), files') →
        ∀ inputs sent, .send sent ∈ effects ++ (f.run files' inputs).2.2 → sent.url = url.render := by
  obtain ⟨hpath, hcdn⟩ := Request.path_of_forTransport hr
  have hspecial : Url.isSpecial base.scheme = true ∧ base.scheme ≠ "file" := by
    rcases hs with hs | hs <;> rw [hs] <;> decide
  obtain ⟨below, hbelow⟩ := Request.path_eq hpath
  obtain ⟨url, hjoin, hurl⟩ := Url.exists_join (Request.isFolderName_folder request) hspecial.2
    (Url.isBase_of_ofText hb hspecial.1) hbelow
  have hlocate := HttpTransport.locate_of_ofConfig ht (hcdn ▸ ho) hb hjoin
  refine ⟨url, hlocate, hurl, ?_, ?_⟩
  · intro metadata hm
    rw [Request.path_of_metadata? hm] at hpath
    have hverbatim := Request.isVerbatim_of_attachmentPath hpath
    have hquery := hurl.query (hverbatim.not_mem _ (by decide))
    have hfragment := hurl.fragment (hverbatim.not_mem _ (by decide))
    refine ⟨hquery, hfragment, fun hk => ?_⟩
    rw [hurl.exact hverbatim (Request.isPlain_of_attachmentPath hpath hk), Request.encode_of_attachmentPath hpath]
  · intro resume files f effects files' hstart inputs sent hm
    obtain ⟨hf, hsent⟩ := url_of_start hlocate hstart
    rcases List.mem_append.mp hm with hm | hm
    · exact hsent sent hm
    · exact hf ▸ url_of_run f files' inputs sent hm

/-- A key with a blank and a slash, below a base with a folder. -/
theorem located_below_base_nested :
    let config := { Config.standard "t" with origins := .ofList [(2, "http://o/cdn")] }
    let request := Request.transient ⟨"", 2, "a b/c", ⟨List.replicate 64 0, rfl⟩, none, none⟩
    ∃ t r base url, HttpTransport.ofConfig config = .ok t ∧ request.forTransport = .ok r ∧
      Url.ofText "http://o/cdn" = .ok base ∧ t.locate r = .ok url ∧ base.IsBelow "attachments" r.path url ∧
      url.query = none ∧ url.fragment = none ∧ url.path.render = "/cdn/attachments/a%20b/c" := by
  intro config request
  obtain ⟨t, ht⟩ : ∃ t, HttpTransport.ofConfig config = .ok t := ⟨_, rfl⟩
  obtain ⟨r, hr, hpath⟩ : ∃ r, request.forTransport = .ok r ∧ r.path = "attachments/a%20b/c" :=
    ⟨_, rfl, by decide +kernel⟩
  obtain ⟨base, hb, hs, hfolder⟩ : ∃ base, Url.ofText "http://o/cdn" = .ok base ∧ base.scheme = "http" ∧
    base.asFolder.path.render = "/cdn/" := ⟨_, rfl, by decide +kernel, by decide +kernel⟩
  obtain ⟨url, hu, hbelow, hattachment, -⟩ := located_below_base ht (by decide +kernel) hb (Or.inl hs) hr
  obtain ⟨hquery, hfragment, hexact⟩ := hattachment _ rfl
  refine ⟨t, r, base, url, ht, hr, hb, hu, hbelow, hquery, hfragment, ?_⟩
  rw [hexact (by decide +kernel), hfolder, hpath]
  decide

/-- A key that goes up leads out of the folder, and the name of a backup may hold a query and a fragment. -/
theorem key_leads_out :
    let config := { Config.standard "t" with origins := .ofList [(2, "http://o/cdn")] }
    let request := Request.transient ⟨"", 2, "../x", ⟨List.replicate 64 0, rfl⟩, none, none⟩
    let archive := Request.backup ⟨2, "a", "b?c#d"⟩ []
    ∃ t r url r' url', HttpTransport.ofConfig config = .ok t ∧
      request.forTransport = .ok r ∧ r.path = "attachments/../x" ∧
      t.locate r = .ok url ∧ url.path.render = "/cdn/x" ∧
      archive.forTransport = .ok r' ∧ t.locate r' = .ok url' ∧ url'.query = some "c" ∧ url'.fragment = some "d" := by
  exact ⟨_, _, _, _, _, rfl, rfl, by decide +kernel, rfl, by decide +kernel, rfl, rfl, by decide +kernel,
    by decide +kernel⟩

end Http
end SealedDownload
