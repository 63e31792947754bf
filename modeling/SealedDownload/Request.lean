import SealedDownload.Failure
import SealedDownload.Text.Percent

/-! What can be downloaded: a backup archive, an attachment that is only passed through, or an
    attachment tracked under an identifier. -/

namespace SealedDownload

/-- A 64-byte attachment key: the key of the cipher, then the key of the authentication code. -/
structure Key where
  bytes : Octets
  length_eq : bytes.length = 64
deriving DecidableEq

namespace Key

/-- The key that the bytes are, if there are exactly 64. -/
def ofOctets? (bytes : Octets) : Option Key :=
  if h : bytes.length = 64 then some ⟨bytes, h⟩ else none

/-- The half that encrypts. -/
def cipherHalf (key : Key) : Octets := key.bytes.take 32

/-- The half that authenticates. -/
def macHalf (key : Key) : Octets := key.bytes.drop 32

/-- A description without any key material. -/
def describe (_ : Key) : String := "EncryptionKey(<redacted>)"

end Key

/-- The identifier under which the progress of an attachment is kept. -/
structure AttachmentId where
  val : Int64
deriving DecidableEq, Inhabited

/-- What is known about an attachment before it is downloaded. -/
structure Metadata where
  mimeType : String
  cdn : UInt32
  cdnKey : String
  key : Key
  /-- The SHA-256 digest of the whole ciphertext, if known. -/
  digest : Option Octets
  /-- The length of the plaintext that the sender declared. -/
  plaintextLength : Option UInt32
deriving DecidableEq

/-- Where a backup archive lies. -/
structure BackupLocation where
  cdn : Int64
  directory : String
  name : String
deriving DecidableEq

/-- Headers of a request, ordered by name, each name once. -/
abbrev Headers := List (String × String)

namespace Headers

/-- Adds a header unless one of exactly that name is there. -/
def orInsert (name value : String) : Headers → Headers
  | [] => [(name, value)]
  | (other, text) :: rest =>
    if other = name then (other, text) :: rest
    else if name < other then (name, value) :: (other, text) :: rest
    else (other, text) :: orInsert name value rest

/-- Adds a header, in place of one of that name. -/
def insert (name value : String) : Headers → Headers
  | [] => [(name, value)]
  | (other, text) :: rest =>
    if other = name then (name, value) :: rest
    else if name < other then (name, value) :: (other, text) :: rest
    else (other, text) :: insert name value rest

/-- The headers in a list of pairs; of a repeated name the last one counts. -/
def ofList (pairs : List (String × String)) : Headers :=
  pairs.foldl (fun headers (name, value) => insert name value headers) []

end Headers

/-- What is to be downloaded. -/
inductive Request where
  | backup (location : BackupLocation) (headers : Headers)
  | transient (metadata : Metadata)
  | attachment (metadata : Metadata) (id : AttachmentId)

/-- The kinds of request. -/
inductive RequestKind where
  | backup
  | transient
  | attachment
deriving DecidableEq, Inhabited

namespace RequestKind

/-- The name of a kind. -/
def name : RequestKind → String
  | .backup => "backup"
  | .transient => "transient_attachment"
  | .attachment => "attachment"

/-- The kind of a name. -/
def ofName? (name : String) : Option RequestKind :=
  [RequestKind.backup, .transient, .attachment].find? fun kind => kind.name = name

end RequestKind

namespace Request

/-- The kind of a request. -/
def kind : Request → RequestKind
  | .backup .. => .backup
  | .transient _ => .transient
  | .attachment .. => .attachment

/-- Where an attachment lies below a base URL: its key with every delimiter escaped. -/
def attachmentPath (cdnKey : String) : Except Failure String :=
  if cdnKey.isEmpty then .error (.protocol "invalid cdn key")
  else .ok ("attachments/" ++ Percent.encode Percent.objectKey cdnKey)

/-- Where the object lies below a base URL. -/
def path : Request → Except Failure String
  | .backup location _ =>
    if location.directory.isEmpty || location.name.isEmpty then
      .error (.protocol "backup location is missing a directory or name")
    else .ok s!"backups/{location.directory}/{location.name}"
  | .transient metadata => attachmentPath metadata.cdnKey
  | .attachment metadata _ => attachmentPath metadata.cdnKey

/-- The number of the network that serves the object; that of a backup is brought into range. -/
def cdn : Request → UInt32
  | .backup location _ => UInt32.ofNat (min location.cdn.toInt.toNat (UInt32.size - 1))
  | .transient metadata => metadata.cdn
  | .attachment metadata _ => metadata.cdn

/-- Headers of the request's own. -/
def headers : Request → Headers
  | .backup _ headers => headers
  | .transient _ => []
  | .attachment .. => []

/-- The identifier under which progress is published, if it is. -/
def attachmentId? : Request → Option AttachmentId
  | .attachment _ id => some id
  | _ => none

/-- The metadata of an attachment of either sort. -/
def metadata? : Request → Option Metadata
  | .backup .. => none
  | .transient metadata => some metadata
  | .attachment metadata _ => some metadata

end Request

/-- One request as a transport sees it. -/
structure TransportRequest where
  cdn : UInt32
  path : String
  headers : Headers
deriving DecidableEq

/-- The request to a transport; without a content type of its own it names plain bytes. -/
def Request.forTransport (request : Request) : Except Failure TransportRequest :=
  request.path.map fun path =>
    ⟨request.cdn, path, request.headers.orInsert "Content-Type" "application/octet-stream"⟩

end SealedDownload
