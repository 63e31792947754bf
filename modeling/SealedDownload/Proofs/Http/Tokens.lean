import SealedDownload.Proofs.Json.Record
import SealedDownload.Http.Partial

/-! A token of the HTTP transport is read back as what it was made from. -/

namespace SealedDownload.Partial

/-- The fields of the record of a partial file. -/
def fields (p : Partial) : Json.Fields :=
  [("url", .ofText p.url), ("path", .ofText p.path), ("received", .ofNat p.received.toNat),
    ("validator", match p.validator with
      | some text => .ofText text
      | none => .null)]

theorem toJson_eq (p : Partial) : p.toJson = .ofFields p.fields := rfl

theorem isWritten_toJson (p : Partial) : p.toJson.IsWritten := by
  rw [toJson_eq]
  refine Json.isWritten_ofFields fun field h => ?_
  simp only [fields, List.mem_cons, List.not_mem_nil, or_false] at h
  rcases h with rfl | rfl | rfl | rfl
  · exact .text p.url
  · exact .text p.path
  · exact Json.isWritten_ofNat p.received.toNat
  · cases p.validator with
    | none => exact .null
    | some text => exact .text text

theorem ofJson?_toJson (p : Partial) : ofJson? p.toJson = some p := by
  have hf : p.toJson.fields? fieldNames = some p.fields := by
    rw [toJson_eq]
    exact Json.fields?_declared rfl rfl
  have hu : p.fields.required "url" Json.text? = some p.url := Json.text?_ofText p.url
  have hp : p.fields.required "path" Json.text? = some p.path := Json.text?_ofText p.path
  have hr : p.fields.required "received" Json.word64? = some p.received := Json.word64?_ofNat p.received
  have hv : p.fields.optional "validator" none optionalText? = some p.validator := by
    obtain ⟨url, path, received, validator⟩ := p
    cases validator with
    | none => rfl
    | some text => exact congrArg (Option.map some) (Json.text?_ofText text)
  have hc : isComplete p.toJson = true := rfl
  unfold ofJson?
  rw [if_pos hc, hf]
  simp [hu, hp, hr, hv]

/-- A token holds all that it was made from. -/
@[simp] theorem decode?_encode (p : Partial) : decode? p.encode = some p := by
  have hr : Json.read? p.encode.bytes = some p.toJson := Json.read?_render p.isWritten_toJson
  unfold decode?
  rw [hr]
  exact p.ofJson?_toJson

theorem encode_injective : Function.Injective encode := by
  intro p q h
  have hq : decode? p.encode = some q := h ▸ q.decode?_encode
  exact Option.some.inj (p.decode?_encode.symm.trans hq)

theorem ofOctets?_render (p : Partial) : ResumeToken.ofOctets? p.toJson.render = some p.encode :=
  dif_neg p.render_ne_nil

/-- Every partial file has a token, from which it is read back and which no other one has. -/
theorem remembered (p : Partial) : ResumeToken.ofOctets? p.toJson.render = some p.encode ∧ p.encode.bytes ≠ [] ∧
    decode? p.encode = some p ∧ ∀ q : Partial, q.encode = p.encode → q = p :=
  ⟨p.ofOctets?_render, p.encode.bytes_ne_nil, p.decode?_encode, fun _ h => encode_injective h⟩

end SealedDownload.Partial
