import Mathlib.Data.List.Nodup
import SealedDownload.Proofs.Double.Finite
import SealedDownload.Proofs.Json.Record

/-! Events that are written and read again. The members of an event may be in any order, with its name at any position,
    and unknown ones may stand between them: what is read is the same event. Of its name and its fields each must be
    there, and none may come twice. -/

namespace SealedDownload

/-! ### Values that can be kept -/

namespace Json

variable {depth : Nat} {fields : Fields}

theorem isPlain_ofText (depth : Nat) (text : String) : (ofText text).isPlain depth = true := by
  simp [ofText, isPlain]

theorem isPlain_ofNat (depth : Nat) {n : Nat} (hn : n < UInt64.size) : (ofNat n).isPlain depth = true := by
  have hv : List.foldl (fun n d => 10 * n + d) 0 (((Nat.toDigits 10 n).map byteOf).map digitValue) = n := by
    rw [List.foldl_map]
    exact digitsValue_toDigits n
  have hf : (ofNat n).float?.isSome = true := by
    have he : (ofNat n).float? = (numberParts? (Octets.ofText (toString n))).bind (·.float?) := rfl
    rw [he, numberParts?_ofText]
    exact Decimal.isSome_float? (by rw [hv]; exact hn)
  simpa only [ofNat, isPlain] using hf

theorem isPlain_ofFields (h : ∀ field ∈ fields, field.2.isPlain depth = true) :
    (ofFields fields).isPlain (depth + 1) = true := by
  have hm : arePlainMembers depth (fields.map fun field => member field.1 field.2) = true := by
    induction fields with
    | nil => simp [arePlainMembers]
    | cons field rest ih =>
      obtain ⟨hfield, hrest⟩ := List.forall_mem_cons.mp h
      rw [List.map_cons, member, arePlainMembers, textOf?_escape, hfield, ih hrest]
      rfl
  simp only [ofFields, isPlain, hm]

end Json

/-! ### Members -/

namespace Event

open Json (Fields)

/-- The members of an event, its name first. -/
def members (event : Event) : Fields := ("type", .ofText event.typeName) :: event.fields

/-- The names of the members of an event. -/
def names (event : Event) : List String := event.members.map (·.1)

variable {event : Event} {members more known : Fields} {name : String} {value : Json}

theorem nodup_names (event : Event) : event.names.Nodup := by
  cases event <;> exact Json.distinct_iff.mp rfl

/-- The values of an event are texts and words. -/
theorem forall_members {P : Json → Prop} (ht : ∀ text, P (.ofText text)) (hn : ∀ n : UInt64, P (.ofNat n.toNat)) :
    ∀ member ∈ event.members, P member.2 := by
  have hn32 : ∀ n : UInt32, P (.ofNat n.toNat) := fun n => by simpa using hn n.toUInt64
  cases event <;> simp [members, fields, TransferId.toJson, ht, hn, hn32]

theorem isWritten_members (event : Event) : ∀ member ∈ event.members, member.2.IsWritten :=
  forall_members .text fun _ => Json.isWritten_ofNat _

theorem isPlain_members (depth : Nat) (event : Event) : ∀ member ∈ event.members, member.2.isPlain depth = true :=
  forall_members (P := fun value => value.isPlain depth = true) (Json.isPlain_ofText depth) fun n => Json.isPlain_ofNat depth n.toNat_lt

/-! ### The name of an event -/

/-- The members besides the name. -/
def untagged (members : Fields) : Fields := members.filter fun member => member.1 ≠ "type"

theorem filter_isTag (members : Fields) : (members.map fun member => Json.member member.1 member.2).filter isTag =
    (members.filter fun member => member.1 = "type").map fun member => Json.member member.1 member.2 := by
  rw [List.filter_map]
  congr 2
  funext member
  simp [isTag, Json.member]

theorem filter_not_isTag (members : Fields) :
    (members.map fun member => Json.member member.1 member.2).filter (!isTag ·) =
      (untagged members).map fun member => Json.member member.1 member.2 := by
  unfold untagged
  rw [List.filter_map]
  congr 2
  funext member
  simp [isTag, Json.member]

/-- An object with one name is read as the record of the other members. -/
theorem ofJson?_of_tag {typeName : String} (hp : (Json.ofFields members).isPlain depthLimit = true)
    (ht : members.filter (fun member => member.1 = "type") = [("type", .ofText typeName)]) :
    ofJson? (.ofFields members) = ofFields? typeName (.ofFields (untagged members)) := by
  have hf := filter_isTag members
  rw [ht] at hf
  unfold ofJson?
  rw [if_pos hp]
  simp only [Json.ofFields, hf, filter_not_isTag]
  simp [Json.member]

/-- An object that is read as an event has one name. -/
theorem tag_of_ofJson? (h : ofJson? (.ofFields members) = some event) : ∃ tag typeName,
    members.filter (fun member => member.1 = "type") = [("type", tag)] ∧ tag.text? = some typeName ∧
      ofFields? typeName (.ofFields (untagged members)) = some event := by
  unfold ofJson? at h
  split at h
  · simp only [Json.ofFields, filter_isTag, filter_not_isTag] at h
    split at h
    · rename_i tag hs
      obtain ⟨member, hm, he⟩ := List.map_eq_singleton_iff.mp hs
      cases he
      obtain ⟨typeName, htext, hread⟩ := Option.bind_eq_some_iff.mp h
      have hname : member.1 = "type" := by
        have hin : member ∈ members.filter fun member => member.1 = "type" := hm ▸ List.mem_singleton_self member
        exact of_decide_eq_true (List.mem_filter.mp hin).2
      exact ⟨member.2, typeName, hm.trans (by rw [← hname]), htext, hread⟩
    · cases h
  · cases h

/-! ### The fields of an event -/

theorem ofJson?_toJson (id : TransferId) : TransferId.ofJson? id.toJson = some id := by
  unfold TransferId.ofJson? TransferId.toJson
  rw [Json.word64?_ofNat]
  rfl

theorem ofName?_choice? (kind : RequestKind) :
    ((Json.ofText kind.name).choice? Json.isEmpty).bind RequestKind.ofName? = some kind := by
  have ht : (Json.ofText kind.name).choice? Json.isEmpty = some kind.name := Json.textOf?_escape kind.name
  rw [ht]
  cases kind <;> rfl

theorem isSome_of_required {α : Type} {read : Json → Option α} {x : α} (h : known.required name read = some x) :
    (known.get? name).isSome = true := by
  obtain ⟨value, hv, -⟩ := Option.bind_eq_some_iff.mp h
  rw [hv]
  rfl

/-- The names of the fields of an event. -/
def declared (event : Event) : List String := event.fields.map (·.1)

/-- A record with the fields of an event, in any order. -/
theorem ofFields?_of_perm {record : Json} (hf : record.fields? event.declared = some known)
    (hp : known.Perm event.fields) : ofFields? event.typeName record = some event := by
  have hd : (known.map (·.1)).Nodup := ((hp.map _).nodup_iff).mpr (List.nodup_cons.mp event.nodup_names).2
  have hget : ∀ member ∈ event.fields, known.get? member.1 = some member.2 := fun member hm =>
    Json.get?_of_mem hd (hp.mem_iff.mpr hm)
  cases event <;>
    simp only [declared, fields, List.map_cons, List.map_nil] at hf <;>
    simp only [fields, List.forall_mem_cons] at hget <;>
    simp [ofFields?, typeName, hf, Json.Fields.required, hget, ofJson?_toJson, ofName?_choice?, Json.word32?_ofNat,
      Json.word64?_ofNat]

/-- A record that is read as an event of a name has all fields of such an event. -/
theorem fields_of_ofFields? {record : Json} {other : Event} (h : ofFields? event.typeName record = some other) :
    ∃ known, record.fields? event.declared = some known ∧
      ∀ name ∈ event.declared, (Json.Fields.get? known name).isSome = true := by
  cases event with
  | admitted | decryptionStarted | decryptionComplete =>
    simp only [ofFields?, typeName, Option.bind_eq_bind, Option.bind_eq_some_iff] at h
    obtain ⟨known, hf, _, hid, -⟩ := h
    exact ⟨known, hf, List.forall_mem_singleton.mpr (isSome_of_required hid)⟩
  | queued | transferComplete | transferFailed | decryptionFailed =>
    simp only [ofFields?, typeName, Option.bind_eq_bind, Option.bind_eq_some_iff] at h
    obtain ⟨known, hf, _, hid, _, hx, -⟩ := h
    exact ⟨known, hf, List.forall_mem_cons.mpr ⟨isSome_of_required hid,
      List.forall_mem_singleton.mpr (isSome_of_required hx)⟩⟩
  | retrying =>
    simp only [ofFields?, typeName, Option.bind_eq_bind, Option.bind_eq_some_iff] at h
    obtain ⟨known, hf, _, hid, _, ha, _, hd, _, he, -⟩ := h
    refine ⟨known, hf, ?_⟩
    simp [declared, fields, isSome_of_required hid, isSome_of_required ha, isSome_of_required hd, isSome_of_required he]

/-! ### Objects -/

theorem filter_tag_members (event : Event) :
    event.members.filter (fun member => member.1 = "type") = [("type", .ofText event.typeName)] := by
  cases event <;> rfl

theorem untagged_members (event : Event) : untagged event.members = event.fields := by
  cases event <;> rfl

theorem filter_declared (event : Event) :
    event.fields.filter (fun member => event.declared.contains member.1) = event.fields :=
  List.filter_eq_self.mpr fun _ hm => List.contains_iff_mem.mpr (List.mem_map_of_mem hm)

/-- An object with the members of an event, and others of other names, is read as the event. -/
theorem ofJson?_of_perm (hu : ∀ member ∈ more, member.1 ∉ event.names)
    (hplain : ∀ member ∈ more, member.2.isPlain 126 = true) (hp : members.Perm (event.members ++ more)) :
    ofJson? (.ofFields members) = some event := by
  have hobject : (Json.ofFields members).isPlain (126 + 1) = true := Json.isPlain_ofFields fun member hm =>
    (List.mem_append.mp (hp.mem_iff.mp hm)).elim (isPlain_members 126 event member) (hplain member)
  have ht : members.filter (fun member => member.1 = "type") = [("type", .ofText event.typeName)] := by
    have hmore : more.filter (fun member => member.1 = "type") = [] := List.filter_eq_nil_iff.mpr fun member hm he =>
      hu member hm (by rw [of_decide_eq_true he]; exact List.mem_cons_self)
    have hperm := hp.filter fun member => member.1 = "type"
    rw [List.filter_append, filter_tag_members, hmore, List.append_nil] at hperm
    exact List.perm_singleton.mp hperm
  rw [ofJson?_of_tag hobject ht]
  have hknown : ((untagged members).filter fun member => event.declared.contains member.1).Perm event.fields := by
    have hmore : (untagged more).filter (fun member => event.declared.contains member.1) = [] :=
      List.filter_eq_nil_iff.mpr fun member hm hc =>
        hu member (List.mem_filter.mp hm).1 (List.mem_cons_of_mem _ (List.contains_iff_mem.mp hc))
    have hperm := (hp.filter fun member => member.1 ≠ "type").filter fun member => event.declared.contains member.1
    rw [List.filter_append, List.filter_append] at hperm
    have hsplit : (untagged event.members).filter (fun member => event.declared.contains member.1) ++
        (untagged more).filter (fun member => event.declared.contains member.1) = event.fields := by
      rw [untagged_members, filter_declared, hmore, List.append_nil]
    exact hsplit ▸ hperm
  refine ofFields?_of_perm ?_ hknown
  rw [Json.fields?_ofFields, if_pos]
  exact Json.distinct_iff.mpr (((hknown.map _).nodup_iff).mpr (List.nodup_cons.mp event.nodup_names).2)

theorem count_map (members : Fields) (name : String) :
    (members.map (·.1)).count name = (members.filter fun member => member.1 = name).length := by
  rw [List.count, List.countP_map, List.countP_eq_length_filter]
  rfl

theorem count_tag_of_ofJson? (h : ofJson? (.ofFields members) = some event) : (members.map (·.1)).count "type" = 1 := by
  obtain ⟨tag, typeName, hm, -⟩ := tag_of_ofJson? h
  rw [count_map, hm]
  rfl

/-- An object that is read as an event has each member of the event that it names exactly once. -/
theorem count_of_ofJson? {other : Event} (ht : ("type", .ofText event.typeName) ∈ members)
    (h : ofJson? (.ofFields members) = some other) : ∀ name ∈ event.names, (members.map (·.1)).count name = 1 := by
  obtain ⟨tag, typeName, hm, htext, hread⟩ := tag_of_ofJson? h
  have hin : ("type", .ofText event.typeName) ∈ members.filter fun member => member.1 = "type" :=
    List.mem_filter.mpr ⟨ht, rfl⟩
  rw [hm] at hin
  cases List.mem_singleton.mp hin
  cases (Json.text?_ofText event.typeName).symm.trans htext
  obtain ⟨known, hf, hget⟩ := fields_of_ofFields? hread
  rw [Json.fields?_ofFields] at hf
  split at hf
  · rename_i hd
    cases hf
    refine List.forall_mem_cons.mpr ⟨count_tag_of_ofJson? h, fun name (hn : name ∈ event.declared) => ?_⟩
    have hone := List.count_eq_one_of_mem (Json.distinct_iff.mp hd) (Json.mem_of_get? (hget name hn))
    have hne : name ≠ "type" := ne_of_mem_of_not_mem hn (List.nodup_cons.mp event.nodup_names).1
    rw [count_map, untagged, List.filter_filter, List.filter_filter] at hone
    rw [count_map, ← hone]
    congr 2
    funext member
    by_cases hname : member.1 = name
    · simp [hname, hne, hn]
    · simp [hname]
  · cases hf

/-! ### The text of an event -/

theorem ofText?_render_ofFields (h : ∀ member ∈ members, member.2.IsWritten) :
    ofText? (Json.ofFields members).render = ofJson? (.ofFields members) := by
  unfold ofText?
  rw [Json.read?_render (Json.isWritten_ofFields h)]
  rfl

/-- The text of an event is that of an object, and is read as the event. So is that of an object with the same members in
    another order and any others of unknown names; but not if one of the names comes again, or one of the members is
    missing. -/
theorem reads_back (event : Event) (more members : Fields) (hw : ∀ member ∈ more, member.2.IsWritten) :
    event.render = (Json.ofFields event.members).render ∧ ofText? event.render = some event ∧
    ((∀ member ∈ more, member.1 ∉ event.names ∧ ∃ text, member.2 = .ofText text) →
      members.Perm (event.members ++ more) → ofText? (Json.ofFields members).render = some event) ∧
    ((∃ member ∈ more, member.1 ∈ event.names) →
      members.Perm (event.members ++ more) → ofText? (Json.ofFields members).render = none) ∧
    ∀ name ∈ event.names, (∀ member ∈ more, member.1 ≠ name) →
      members.Perm ((event.members.filter fun member => member.1 ≠ name) ++ more) →
        ofText? (Json.ofFields members).render = none := by
  have hwritten : ∀ {own : Fields}, (∀ member ∈ own, member ∈ event.members) → members.Perm (own ++ more) →
      ∀ member ∈ members, member.2.IsWritten := fun ho hp member hm =>
    (List.mem_append.mp (hp.mem_iff.mp hm)).elim (fun h => event.isWritten_members member (ho member h)) (hw member)
  refine ⟨rfl, ?_, fun hu hp => ?_, fun hr hp => ?_, fun name hn hmore hp => ?_⟩
  · have hself : event.members.Perm (event.members ++ []) := .of_eq (List.append_nil _).symm
    have hread : ofText? event.render = ofJson? (.ofFields event.members) :=
      ofText?_render_ofFields event.isWritten_members
    rw [hread, ofJson?_of_perm (fun _ hm => by cases hm) (fun _ hm => by cases hm) hself]
  · rw [ofText?_render_ofFields (hwritten (fun _ hm => hm) hp)]
    refine ofJson?_of_perm (fun member hm => (hu member hm).1) (fun member hm => ?_) hp
    obtain ⟨text, ht⟩ := (hu member hm).2
    rw [ht]
    exact Json.isPlain_ofText 126 text
  · rw [ofText?_render_ofFields (hwritten (fun _ hm => hm) hp)]
    obtain ⟨member, hm, hname⟩ := hr
    refine Option.eq_none_iff_forall_ne_some.mpr fun other ho => ?_
    have hone := count_of_ofJson? (hp.mem_iff.mpr (List.mem_append_left _ List.mem_cons_self)) ho member.1 hname
    rw [(hp.map (·.1)).count_eq, List.map_append, List.count_append] at hone
    have hown : 0 < (event.members.map (·.1)).count member.1 := List.count_pos_iff.mpr hname
    have hagain : 0 < (more.map (·.1)).count member.1 := List.count_pos_iff.mpr (List.mem_map_of_mem hm)
    omega
  · rw [ofText?_render_ofFields (hwritten (fun _ hm => (List.mem_filter.mp hm).1) hp)]
    refine Option.eq_none_iff_forall_ne_some.mpr fun other ho => ?_
    have hnone : (members.map (·.1)).count name = 0 := by
      rw [count_map, List.length_eq_zero_iff, List.filter_eq_nil_iff]
      intro member hm
      rcases List.mem_append.mp (hp.mem_iff.mp hm) with hm | hm
      · simpa using (List.mem_filter.mp hm).2
      · simpa using hmore member hm
    by_cases ht : name = "type"
    · rw [ht, count_tag_of_ofJson? ho] at hnone
      cases hnone
    · have htag : ("type", .ofText event.typeName) ∈ members := hp.mem_iff.mpr
        (List.mem_append_left _ (List.mem_filter.mpr ⟨List.mem_cons_self, by simpa using Ne.symm ht⟩))
      rw [count_of_ofJson? htag ho name hn] at hnone
      cases hnone

/-- A note in front and the name at the end; a second number; no name. -/
theorem reads_back_shuffled : ∃ event : Event, event = .retrying ⟨18446744073709551615⟩ 1 250 "caf\u00e9 \"x\"" ∧
    (∀ member ∈ [("note", Json.ofText "y")], member.2.IsWritten ∧ member.1 ∉ event.names) ∧
    ofText? (Json.ofFields ([("note", .ofText "y")] ++ (event.fields ++ [("type", .ofText "retrying")]))).render =
      some event ∧
    ofText? (Json.ofFields (event.members ++ [("id", .null)])).render = none ∧
    ofText? (Json.ofFields event.fields).render = none := by
  let event : Event := .retrying ⟨18446744073709551615⟩ 1 250 "caf\u00e9 \"x\""
  have hnote : ∀ member ∈ [("note", Json.ofText "y")], member.2.IsWritten ∧ member.1 ∉ event.names :=
    List.forall_mem_singleton.mpr ⟨.text "y", by decide⟩
  have hnull : ∀ member ∈ [("id", Json.null)], member.2.IsWritten := List.forall_mem_singleton.mpr .null
  refine ⟨event, rfl, hnote, ?_, ?_, ?_⟩
  · refine (reads_back event [("note", .ofText "y")] _ fun member hm => (hnote member hm).1).2.2.1 ?_ ?_
    · exact fun member hm => ⟨(hnote member hm).2, "y", by cases List.mem_singleton.mp hm; rfl⟩
    · exact List.perm_append_comm.trans (List.perm_append_comm.append_right _)
  · exact (reads_back event [("id", .null)] _ hnull).2.2.2.1 ⟨_, List.mem_singleton_self _, by decide⟩ (.refl _)
  · refine (reads_back event [] event.fields fun _ hm => by cases hm).2.2.2.2 "type" List.mem_cons_self ?_ ?_
    · exact fun _ hm => by cases hm
    · exact .of_eq (event.untagged_members.symm.trans (List.append_nil _).symm)

end Event
end SealedDownload
