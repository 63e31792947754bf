import SealedDownload.Event
import SealedDownload.Json.Fields
import SealedDownload.Json.Reader
import SealedDownload.Json.Printer

/-! Events and the small records around them as JSON. An event is an object whose member `type` names
    it, at any position, or an array that begins with that name; the rest is the record of its
    fields. -/

namespace SealedDownload

/-- A number below `2 ^ 64`. -/
def Json.word64? (value : Json) : Option UInt64 := (value.natBelow? UInt64.size).map UInt64.ofNat

/-- A number below `2 ^ 32`. -/
def Json.word32? (value : Json) : Option UInt32 := (value.natBelow? UInt32.size).map UInt32.ofNat

/-- A signed number of 64 bits. -/
def Json.signed64? (value : Json) : Option Int64 :=
  value.integer?.bind fun n =>
    if Int64.minValue.toInt ≤ n ∧ n ≤ Int64.maxValue.toInt then some (Int64.ofInt n) else none

/-- The integer that a signed number of 64 bits is. -/
instance coeSigned : Coe Int64 Int := ⟨Int64.toInt⟩

/-- A member of an object that is written. -/
def Json.member (name : String) (value : Json) : Octets × Json := (Json.escape name, value)

namespace TransferId

/-- The number itself. -/
def toJson (id : TransferId) : Json := .ofNat id.val.toNat

/-- The download that a number stands for. -/
def ofJson? (value : Json) : Option TransferId := value.word64?.map TransferId.mk

end TransferId

namespace AttachmentId

/-- The attachment that a number stands for. -/
def ofJson? (value : Json) : Option AttachmentId := value.signed64?.map AttachmentId.mk

end AttachmentId

namespace RequestKind

/-- The kind that a value names. -/
def ofJson? (value : Json) : Option RequestKind := (value.choice? Json.isNull).bind ofName?

end RequestKind

namespace TransferState

/-- The state that a value names. -/
def ofJson? (value : Json) : Option TransferState := (value.choice? Json.isNull).bind ofName?

end TransferState

namespace BackupLocation

/-- The record of a location. -/
def toJson (location : BackupLocation) : Json :=
  .object [Json.member "cdn" (.ofInt location.cdn.toInt), Json.member "backup_dir" (.ofText location.directory),
    Json.member "backup_name" (.ofText location.name)]

/-- The location that a record gives. -/
def ofJson? (value : Json) : Option BackupLocation := do
  let fields ← value.fields? ["cdn", "backup_dir", "backup_name"]
  let cdn ← fields.required "cdn" Json.signed64?
  let directory ← fields.required "backup_dir" Json.text?
  let name ← fields.required "backup_name" Json.text?
  return ⟨cdn, directory, name⟩

end BackupLocation

namespace Event

/-- The name of an event. -/
def typeName : Event → String
  | .queued .. => "queued"
  | .admitted _ => "admitted"
  | .retrying .. => "retrying"
  | .transferComplete .. => "transfer_complete"
  | .transferFailed .. => "transfer_failed"
  | .decryptionStarted _ => "decryption_started"
  | .decryptionComplete _ => "decryption_complete"
  | .decryptionFailed .. => "decryption_failed"

/-- The fields of an event by name, in order. -/
def fields : Event → List (String × Json)
  | .queued id kind => [("id", id.toJson), ("kind", .ofText kind.name)]
  | .admitted id => [("id", id.toJson)]
  | .retrying id attempt delayMs error =>
    [("id", id.toJson), ("attempt", .ofNat attempt.toNat), ("delay_ms", .ofNat delayMs.toNat),
      ("error", .ofText error)]
  | .transferComplete id bytes => [("id", id.toJson), ("bytes", .ofNat bytes.toNat)]
  | .transferFailed id error => [("id", id.toJson), ("error", .ofText error)]
  | .decryptionStarted id => [("id", id.toJson)]
  | .decryptionComplete id => [("id", id.toJson)]
  | .decryptionFailed id error => [("id", id.toJson), ("error", .ofText error)]

/-- An event as an object, its name first. -/
def toJson (event : Event) : Json :=
  .object (Json.member "type" (.ofText event.typeName) ::
    event.fields.map fun (name, value) => Json.member name value)

/-- The event of a name that a record of fields gives. -/
def ofFields? (typeName : String) (record : Json) : Option Event :=
  let kind? (value : Json) := (value.choice? Json.isEmpty).bind RequestKind.ofName?
  match typeName with
  | "queued" => do
    let f ← record.fields? ["id", "kind"]
    return .queued (← f.required "id" TransferId.ofJson?) (← f.required "kind" kind?)
  | "admitted" => do
    let f ← record.fields? ["id"]
    return .admitted (← f.required "id" TransferId.ofJson?)
  | "retrying" => do
    let f ← record.fields? ["id", "attempt", "delay_ms", "error"]
    return .retrying (← f.required "id" TransferId.ofJson?) (← f.required "attempt" Json.word32?)
      (← f.required "delay_ms" Json.word64?) (← f.required "error" Json.text?)
  | "transfer_complete" => do
    let f ← record.fields? ["id", "bytes"]
    return .transferComplete (← f.required "id" TransferId.ofJson?) (← f.required "bytes" Json.word64?)
  | "transfer_failed" => do
    let f ← record.fields? ["id", "error"]
    return .transferFailed (← f.required "id" TransferId.ofJson?) (← f.required "error" Json.text?)
  | "decryption_started" => do
    let f ← record.fields? ["id"]
    return .decryptionStarted (← f.required "id" TransferId.ofJson?)
  | "decryption_complete" => do
    let f ← record.fields? ["id"]
    return .decryptionComplete (← f.required "id" TransferId.ofJson?)
  | "decryption_failed" => do
    let f ← record.fields? ["id", "error"]
    return .decryptionFailed (← f.required "id" TransferId.ofJson?) (← f.required "error" Json.text?)
  | _ => none

/-- How many containers may be nested in an event. -/
def depthLimit : Nat := 127

/-- Whether a member carries the name of the event. -/
def isTag (member : Octets × Json) : Bool := Json.textOf? member.1 = some "type"

/-- The event that a value gives. -/
def ofJson? (value : Json) : Option Event :=
  if value.isPlain depthLimit then
    match value with
    | .object members =>
      match members.filter isTag with
      | [(_, tag)] =>
        tag.text?.bind fun name => ofFields? name (.object (members.filter (!isTag ·)))
      | _ => none
    | .array (tag :: fields) => tag.text?.bind fun name => ofFields? name (.array fields)
    | _ => none
  else none

/-- The event that a text spells. -/
def ofText? (text : Octets) : Option Event := (Json.read? text).bind ofJson?

/-- The text of an event. -/
def render (event : Event) : Octets := event.toJson.render

end Event
end SealedDownload
