import SealedDownload.Request

/-! What a download reports about itself: the events of its lifecycle, and the states of its
    transfer. -/

namespace SealedDownload

/-- The number of a download, given in the order of the calls. -/
structure TransferId where
  val : UInt64
deriving DecidableEq, Inhabited

namespace TransferId

/-- The number after this one; the last one is followed by zero. -/
def next (id : TransferId) : TransferId := ⟨id.val + 1⟩

instance : ToString TransferId := ⟨fun id => toString id.val⟩

end TransferId

/-- An event in the life of a download. -/
inductive Event where
  /-- the request waits for a slot -/
  | queued (id : TransferId) (kind : RequestKind)
  /-- the request has a slot -/
  | admitted (id : TransferId)
  /-- an attempt failed, and another follows after a delay -/
  | retrying (id : TransferId) (attempt : UInt32) (delayMs : UInt64) (error : String)
  /-- the ciphertext is complete -/
  | transferComplete (id : TransferId) (bytes : UInt64)
  /-- the transfer has failed -/
  | transferFailed (id : TransferId) (error : String)
  /-- the ciphertext is being opened -/
  | decryptionStarted (id : TransferId)
  /-- the ciphertext has been opened -/
  | decryptionComplete (id : TransferId)
  /-- the ciphertext could not be opened -/
  | decryptionFailed (id : TransferId) (error : String)
deriving DecidableEq, Inhabited

/-- The download that an event is about. -/
def Event.id : Event → TransferId
  | .queued id _ => id
  | .admitted id => id
  | .retrying id .. => id
  | .transferComplete id _ => id
  | .transferFailed id _ => id
  | .decryptionStarted id => id
  | .decryptionComplete id => id
  | .decryptionFailed id _ => id

/-- The states of one transfer. -/
inductive TransferState where
  | idle
  | inFlight
  | retrying
  | succeeded
  | failed
deriving DecidableEq, Inhabited

namespace TransferState

/-- Whether the transfer is over. -/
def isTerminal : TransferState → Bool
  | .succeeded => true
  | .failed => true
  | _ => false

/-- The name of a state. -/
def name : TransferState → String
  | .idle => "idle"
  | .inFlight => "in_flight"
  | .retrying => "retrying"
  | .succeeded => "succeeded"
  | .failed => "failed"

/-- The state of a name. -/
def ofName? (name : String) : Option TransferState :=
  [TransferState.idle, .inFlight, .retrying, .succeeded, .failed].find? fun s => s.name = name

end TransferState
end SealedDownload
