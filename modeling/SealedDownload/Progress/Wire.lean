import SealedDownload.Progress
import SealedDownload.Event.Wire

/-! Published fractions as JSON. -/

namespace SealedDownload.ProgressUpdate

/-- The update that a record gives. -/
def ofJson? (value : Json) : Option ProgressUpdate := do
  let fields ← value.fields? ["attachment_id", "fraction"]
  let id ← fields.required "attachment_id" AttachmentId.ofJson?
  let fraction ← fields.required "fraction" Json.float?
  return ⟨id, fraction⟩

end SealedDownload.ProgressUpdate
