import SealedDownload.Config
import SealedDownload.Event.Wire
import SealedDownload.Json.Reader
import SealedDownload.Json.Printer

/-! Settings as JSON. Every setting may be left out; spans of time are in milliseconds, and networks
    are members named by their numbers. -/

namespace SealedDownload

/-! ### Leaves -/

/-- A span as its complete milliseconds. -/
def Span.toJson (span : Span) : Json := .ofNat span.millisWord.toNat

/-- The span that a number of milliseconds gives. -/
def Span.ofJson? (value : Json) : Option Span := (value.natBelow? UInt64.size).map Span.ofMillis

/-- A double as a literal; infinities and what is no number are written as `null`. -/
def Json.ofFloat (x : Float) : Json :=
  if x.isFinite then .number (Octets.ofText (Decimal.literal x)) else .null

namespace RetryPolicy

/-- The names of the fields, in order. -/
def fieldNames : List String :=
  ["max_attempts", "initial_delay", "max_delay", "backoff_multiplier", "jitter"]

/-- The record of a policy. -/
def toJson (p : RetryPolicy) : Json :=
  .object [Json.member "max_attempts" (.ofNat p.maxAttempts.toNat),
    Json.member "initial_delay" p.initialDelay.toJson, Json.member "max_delay" p.maxDelay.toJson,
    Json.member "backoff_multiplier" (.ofFloat p.multiplier), Json.member "jitter" (.bool p.jitter)]

/-- The policy that a record gives. -/
def ofJson? (value : Json) : Option RetryPolicy := do
  let fields ← value.fields? fieldNames
  let maxAttempts ← fields.optional "max_attempts" standard.maxAttempts Json.word32?
  let initialDelay ← fields.optional "initial_delay" standard.initialDelay Span.ofJson?
  let maxDelay ← fields.optional "max_delay" standard.maxDelay Span.ofJson?
  let multiplier ← fields.optional "backoff_multiplier" standard.multiplier Json.float?
  let jitter ← fields.optional "jitter" standard.jitter Json.bool?
  return ⟨maxAttempts, initialDelay, maxDelay, multiplier, jitter⟩

end RetryPolicy

namespace TransferSettings

/-- The names of the fields, in order. -/
def fieldNames : List String := ["max_concurrent_transfers", "retry", "request_timeout", "temp_dir"]

/-- The record of the settings. -/
def toJson (s : TransferSettings) : Json :=
  .object [Json.member "max_concurrent_transfers" (.ofNat s.maxConcurrent.toNat),
    Json.member "retry" s.retry.toJson, Json.member "request_timeout" s.timeout.toJson,
    Json.member "temp_dir" (.ofText s.folder)]

/-- The settings that a record gives; `folder` stands for one that is left out. -/
def ofJson? (folder : String) (value : Json) : Option TransferSettings := do
  let fields ← value.fields? fieldNames
  let absent := standard folder
  let maxConcurrent ← fields.optional "max_concurrent_transfers" absent.maxConcurrent Json.word64?
  let retry ← fields.optional "retry" absent.retry RetryPolicy.ofJson?
  let timeout ← fields.optional "request_timeout" absent.timeout Span.ofJson?
  let folder ← fields.optional "temp_dir" absent.folder Json.text?
  return ⟨maxConcurrent, retry, timeout, folder⟩

end TransferSettings

namespace Origins

/-- The number that the name of a member spells. -/
def number? (name : Octets) : Option UInt32 := (Json.number name).word32?

/-- The base that the record of a network gives. -/
def base? (value : Json) : Option String :=
  (value.fields? ["base_url"]).bind fun fields => fields.required "base_url" Json.text?

/-- The object of the networks. -/
def toJson (origins : Origins) : Json :=
  .object (origins.entries.map fun (number, base) =>
    Json.member (toString number) (.object [Json.member "base_url" (.ofText base)]))

/-- The entries that the members of an object give. -/
def entries? : List (Octets × Json) → Option (List (UInt32 × String))
  | [] => some []
  | (name, value) :: rest => do
    let number ← number? name
    let base ← base? value
    return (number, base) :: (← entries? rest)

/-- The networks that an object gives. -/
def ofJson? : Json → Option Origins
  | .object members => (entries? members).map ofList
  | _ => Option.none

end Origins

namespace Config

/-- The names of the fields, in order. -/
def fieldNames : List String := ["transfer", "limits", "cdns", "event_channel_capacity"]

/-- The record of the fixed ceilings. -/
def limitsToJson (maxBackupSize : UInt64) : Json :=
  .object [Json.member "backup_max_download_size_bytes" (.ofNat maxBackupSize.toNat)]

/-- The ceiling that their record gives. -/
def limitsOfJson? (value : Json) : Option UInt64 :=
  (value.fields? ["backup_max_download_size_bytes"]).bind fun fields =>
    fields.optional "backup_max_download_size_bytes" standardBackupSize Json.word64?

/-- The record of all settings. -/
def toJson (c : Config) : Json :=
  .object [Json.member "transfer" c.transfer.toJson, Json.member "limits" (limitsToJson c.maxBackupSize),
    Json.member "cdns" c.origins.toJson,
    Json.member "event_channel_capacity" (.ofNat c.eventCapacity.toNat)]

/-- The settings that a record gives; `folder` stands for one that is left out. -/
def ofJson? (folder : String) (value : Json) : Option Config := do
  let fields ← value.fields? fieldNames
  let transfer ← fields.optional "transfer" (.standard folder) (TransferSettings.ofJson? folder)
  let maxBackupSize ← fields.optional "limits" standardBackupSize limitsOfJson?
  let origins ← fields.optional "cdns" .standard Origins.ofJson?
  let eventCapacity ← fields.optional "event_channel_capacity" standardEventCapacity Json.word64?
  return ⟨transfer, maxBackupSize, origins, eventCapacity⟩

/-- The settings that a text spells. -/
def ofText? (folder : String) (text : Octets) : Option Config :=
  (Json.read? text).bind (ofJson? folder)

/-- The text of settings. -/
def render (c : Config) : Octets := c.toJson.render

end Config

/-- The ceiling for attachments that a remote configuration gives. -/
def attachmentCeiling? (text : Octets) : Option UInt64 := do
  let value ← Json.read? text
  let fields ← value.fields? ["attachments.maxDownloadSizeBytes"]
  fields.optional "attachments.maxDownloadSizeBytes" defaultAttachmentCeiling Json.word64?

end SealedDownload
