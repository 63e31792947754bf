import SealedDownload.Event.Wire
import SealedDownload.Json.Reader
import SealedDownload.Json.Printer
import SealedDownload.Files

/-! What a resume token of the HTTP transport remembers: from where a file comes, how much of it there
    is, and by what the server will know whether the object is still the same. -/

namespace SealedDownload

/-- A file that has been received in part. -/
structure Partial where
  /-- the text of the locator that it comes from -/
  url : String
  path : Path
  received : UInt64
  /-- the entity tag or date that the server gave -/
  validator : Option String
deriving DecidableEq, Inhabited

namespace Partial

/-- The names of the fields, in order. -/
def fieldNames : List String := ["url", "path", "received", "validator"]

/-- The record of a partial file. -/
def toJson (p : Partial) : Json :=
  .object [Json.member "url" (.ofText p.url), Json.member "path" (.ofText p.path),
    Json.member "received" (.ofNat p.received.toNat),
    Json.member "validator" (match p.validator with
      | some text => .ofText text
      | none => .null)]

/-- A text, or none for `null`. -/
def optionalText? : Json → Option (Option String)
  | .null => some none
  | value => value.text?.map some

/-- Whether a record has all fields that it must have; an array must name them all. -/
def isComplete : Json → Bool
  | .array items => items.length = fieldNames.length
  | _ => true

/-- The partial file that a record tells of. -/
def ofJson? (value : Json) : Option Partial :=
  if isComplete value then do
    let fields ← value.fields? fieldNames
    let url ← fields.required "url" Json.text?
    let path ← fields.required "path" Json.text?
    let received ← fields.required "received" Json.word64?
    let validator ← fields.optional "validator" none optionalText?
    return ⟨url, path, received, validator⟩
  else none

/-- The text of the record, which is never empty. -/
theorem render_ne_nil (p : Partial) : p.toJson.render ≠ [] := by
  simp [toJson, Json.render]

/-- The token of a partial file. -/
def encode (p : Partial) : ResumeToken := ⟨p.toJson.render, p.render_ne_nil⟩

/-- The partial file of a token, if the token is one of this transport. -/
def decode? (token : ResumeToken) : Option Partial := (Json.read? token.bytes).bind ofJson?

end Partial
end SealedDownload
