import SealedDownload.Octets

/-! Why a download failed. A failure carries its cause; its wording is `Failure.message`. Two of the
    causes may carry a token with which a later attempt goes on from where this one stopped. -/

namespace SealedDownload

/-- An opaque token for going on with an interrupted transfer; it is never empty. -/
structure ResumeToken where
  bytes : Octets
  bytes_ne_nil : bytes ≠ []
deriving DecidableEq

namespace ResumeToken

/-- The token that the bytes are; no bytes are no token. -/
def ofOctets? (bytes : Octets) : Option ResumeToken :=
  if h : bytes = [] then none else some ⟨bytes, h⟩

/-- A description that gives the size and not the contents. -/
def describe (token : ResumeToken) : String :=
  s!"ResumeData({token.bytes.length} bytes)"

end ResumeToken

/-- Kinds of input and output errors. -/
inductive IoKind where
  | notFound | permissionDenied | connectionRefused | connectionReset | hostUnreachable
  | networkUnreachable | connectionAborted | notConnected | addrInUse | addrNotAvailable
  | networkDown | brokenPipe | alreadyExists | wouldBlock | notADirectory | isADirectory
  | directoryNotEmpty | readOnlyFilesystem | staleNetworkFileHandle | invalidInput | invalidData
  | timedOut | writeZero | storageFull | notSeekable | quotaExceeded | fileTooLarge | resourceBusy
  | executableFileBusy | deadlock | crossesDevices | tooManyLinks | invalidFilename
  | argumentListTooLong | interrupted | unsupported | unexpectedEof | outOfMemory | other
deriving DecidableEq, Inhabited

namespace IoKind

/-- Every kind with its name. -/
def names : List (IoKind × String) :=
  [(notFound, "NotFound"), (permissionDenied, "PermissionDenied"),
   (connectionRefused, "ConnectionRefused"), (connectionReset, "ConnectionReset"),
   (hostUnreachable, "HostUnreachable"), (networkUnreachable, "NetworkUnreachable"),
   (connectionAborted, "ConnectionAborted"), (notConnected, "NotConnected"),
   (addrInUse, "AddrInUse"), (addrNotAvailable, "AddrNotAvailable"), (networkDown, "NetworkDown"),
   (brokenPipe, "BrokenPipe"), (alreadyExists, "AlreadyExists"), (wouldBlock, "WouldBlock"),
   (notADirectory, "NotADirectory"), (isADirectory, "IsADirectory"),
   (directoryNotEmpty, "DirectoryNotEmpty"), (readOnlyFilesystem, "ReadOnlyFilesystem"),
   (staleNetworkFileHandle, "StaleNetworkFileHandle"), (invalidInput, "InvalidInput"),
   (invalidData, "InvalidData"), (timedOut, "TimedOut"), (writeZero, "WriteZero"),
   (storageFull, "StorageFull"), (notSeekable, "NotSeekable"), (quotaExceeded, "QuotaExceeded"),
   (fileTooLarge, "FileTooLarge"), (resourceBusy, "ResourceBusy"),
   (executableFileBusy, "ExecutableFileBusy"), (deadlock, "Deadlock"),
   (crossesDevices, "CrossesDevices"), (tooManyLinks, "TooManyLinks"),
   (invalidFilename, "InvalidFilename"), (argumentListTooLong, "ArgumentListTooLong"),
   (interrupted, "Interrupted"), (unsupported, "Unsupported"), (unexpectedEof, "UnexpectedEof"),
   (outOfMemory, "OutOfMemory"), (other, "Other")]

/-- The name of a kind. -/
def name (kind : IoKind) : String := (names.lookup kind).getD "Other"

/-- The kind of a name. -/
def ofName? (name : String) : Option IoKind := (names.find? fun e => e.2 = name).map (·.1)

/-- The wording of the operating system for the kinds that the file operations here meet. -/
def systemText : IoKind → String
  | .notFound => "No such file or directory (os error 2)"
  | .notADirectory => "Not a directory (os error 20)"
  | .isADirectory => "Is a directory (os error 21)"
  | .permissionDenied => "Permission denied (os error 13)"
  | .alreadyExists => "File exists (os error 17)"
  | kind => kind.name

end IoKind

/-- Why a ciphertext cannot be opened. -/
inductive SealFault where
  | tooShort (length : Nat)
  | misaligned (length : Nat)
  | badMac
  | digestMismatch
  | invalidPadding
  | plaintextLengthMismatch (declared actual : Nat)
  | invalidKey
deriving DecidableEq, Inhabited

namespace SealFault

/-- The wording of a fault. -/
def message : SealFault → String
  | .tooShort length => s!"ciphertext too short: {length} bytes"
  | .misaligned length => s!"ciphertext body of {length} bytes is not block aligned"
  | .badMac => "MAC verification failed"
  | .digestMismatch => "ciphertext digest mismatch"
  | .invalidPadding => "invalid PKCS7 padding"
  | .plaintextLengthMismatch declared actual =>
    s!"declared plaintext length {declared} exceeds decrypted length {actual}"
  | .invalidKey => "invalid key length"

end SealFault

/-- Why a download failed. -/
inductive Failure where
  /-- a setting that cannot work, and its name -/
  | config (message : String) (key : Option String)
  /-- the caller cancelled -/
  | cancelled
  /-- the connection failed -/
  | network (message : String) (resume : Option ResumeToken)
  /-- nothing came in time -/
  | timeout (message : String) (resume : Option ResumeToken)
  /-- a claimed or measured size above the ceiling -/
  | oversize (limit observed : Nat)
  /-- the request could not be built -/
  | protocol (message : String)
  /-- the server answered with a status other than success -/
  | httpStatus (status : Nat) (url : String)
  /-- the ciphertext could not be opened -/
  | decryption (fault : SealFault)
  /-- the content was rejected -/
  | validation (message : String)
  /-- an input or output error; without a text, the wording is the operating system's -/
  | io (kind : IoKind) (text : Option String)
  /-- a text is no JSON of the expected form, and why -/
  | serialization (reason : String)
  /-- no new downloads are taken -/
  | shuttingDown
deriving DecidableEq, Inhabited

namespace Failure

/-- The wording of a failure. -/
def message : Failure → String
  | .config message _ => s!"configuration error: {message}"
  | .cancelled => "download cancelled"
  | .network message _ => s!"network error: {message}"
  | .timeout message _ => s!"timed out: {message}"
  | .oversize limit observed => s!"download of {observed} bytes exceeds limit of {limit} bytes"
  | .protocol message => s!"protocol error: {message}"
  | .httpStatus status url => s!"HTTP {status} from {url}"
  | .decryption fault => s!"decryption error: {fault.message}"
  | .validation message => s!"validation error: {message}"
  | .io kind text => s!"I/O error: {text.getD kind.systemText}"
  | .serialization reason => s!"serialization error: {reason}"
  | .shuttingDown => "shutdown in progress: not accepting new downloads"

/-- The token that a failure carries. -/
def resume? : Failure → Option ResumeToken
  | .network _ resume => resume
  | .timeout _ resume => resume
  | _ => none

/-- The failure with its token replaced; a cause that carries none stays as it is. -/
def withResume (token : Option ResumeToken) : Failure → Failure
  | .network message _ => .network message token
  | .timeout message _ => .timeout message token
  | failure => failure

/-- The failure without a token. -/
def withoutResume (failure : Failure) : Failure := failure.withResume none

/-- Whether the failure is a size above the ceiling. -/
def isOversize : Failure → Bool
  | .oversize .. => true
  | _ => false

/-- Whether another attempt may succeed: the connection failed, or nothing came in time. -/
def isRetryable : Failure → Bool
  | .network .. => true
  | .timeout .. => true
  | .io kind _ => match kind with
    | .timedOut | .connectionRefused | .connectionReset | .connectionAborted | .notConnected
    | .brokenPipe | .unexpectedEof => true
    | _ => false
  | _ => false

end Failure
end SealedDownload
