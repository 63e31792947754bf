import SealedDownload.Proofs.Json.Reading
import SealedDownload.Json.Fields
import SealedDownload.Event.Wire

/-! Records: the fields of an object that has been written with declared names are found again. -/

namespace SealedDownload.Json

/-- The object with the given members. -/
def ofFields (fields : Fields) : Json := .object (fields.map fun field => member field.1 field.2)

variable {fields : Fields} {declared : List String} {name : String} {value : Json}

theorem word64?_ofNat (n : UInt64) : (ofNat n.toNat).word64? = some n := by
  unfold word64?
  rw [natBelow?_ofNat n.toNat_lt]
  exact congrArg some UInt64.ofNat_toNat

theorem word32?_ofNat (n : UInt32) : (ofNat n.toNat).word32? = some n := by
  unfold word32?
  rw [natBelow?_ofNat n.toNat_lt]
  exact congrArg some UInt32.ofNat_toNat

theorem isWritten_ofFields (h : ∀ field ∈ fields, IsWritten field.2) : (ofFields fields).IsWritten := by
  refine .object (fun entry hm => ?_) fun entry hm => ?_
  · obtain ⟨field, -, rfl⟩ := List.mem_map.mp hm
    exact ⟨field.1, rfl⟩
  · obtain ⟨field, hf, rfl⟩ := List.mem_map.mp hm
    exact h field hf

/-! ### Finding fields -/

theorem distinct_iff {names : List String} : distinct names = true ↔ names.Nodup := by
  induction names with
  | nil => simp [distinct]
  | cons name rest ih => simp [distinct, ih]

theorem names?_members (fields : Fields) : names? (fields.map fun field => member field.1 field.2) = some fields := by
  induction fields with
  | nil => rfl
  | cons field fields ih =>
    rw [List.map_cons, member, names?, textOf?_escape, ih]

/-- The fields of a record are the members with declared names, if none of these comes twice. -/
theorem fields?_ofFields (declared : List String) (fields : Fields) : fields? declared (ofFields fields) =
    if distinct ((fields.filter fun field => declared.contains field.1).map (·.1)) then
      some (fields.filter fun field => declared.contains field.1)
    else none := by
  have he : ∀ members, fields? declared (.object members) = (names? members).bind fun all =>
      let known := all.filter fun field => declared.contains field.1
      if distinct (known.map (·.1)) then some known else none := fun _ => rfl
  rw [ofFields, he, names?_members, Option.bind_some]

/-- The fields of a record that has been written with its declared names. -/
theorem fields?_declared (hn : fields.map (·.1) = declared) (hd : distinct declared = true) :
    fields? declared (ofFields fields) = some fields := by
  subst hn
  have hf : fields.filter (fun field => (fields.map (·.1)).contains field.1) = fields :=
    List.filter_eq_self.mpr fun _ hm => List.contains_iff_mem.mpr (List.mem_map_of_mem hm)
  rw [fields?_ofFields, hf, if_pos hd]

theorem get?_of_mem (hd : (fields.map (·.1)).Nodup) (hm : (name, value) ∈ fields) : fields.get? name = some value := by
  induction fields with
  | nil => cases hm
  | cons field rest ih =>
    obtain ⟨hnot, hrest⟩ := List.nodup_cons.mp hd
    unfold Fields.get?
    rw [List.lookup_cons]
    rcases List.mem_cons.mp hm with rfl | hm
    · rw [beq_self_eq_true]
    · have hin : name ∈ rest.map (·.1) := List.mem_map.mpr ⟨_, hm, rfl⟩
      have hne : (name == field.1) = false := beq_false_of_ne (ne_of_mem_of_not_mem hin hnot)
      rw [hne]
      exact ih hrest hm

theorem mem_of_get? (h : (fields.get? name).isSome = true) : name ∈ fields.map (·.1) := by
  obtain ⟨value, hv⟩ := Option.isSome_iff_exists.mp h
  obtain ⟨front, rest, rfl, -⟩ := List.lookup_eq_some_iff.mp hv
  simp

/-! ### A single field -/

theorem fields?_single (name : String) (value : Json) :
    fields? [name] (.object [member name value]) = some [(name, value)] :=
  @fields?_declared [(name, value)] [name] rfl (by simp [distinct])

theorem isWritten_single (name : String) (h : value.IsWritten) : (Json.object [member name value]).IsWritten :=
  @isWritten_ofFields [(name, value)] (List.forall_mem_singleton.mpr h)

end SealedDownload.Json
