import SealedDownload.Http.Partial
import SealedDownload.Http.Message
import SealedDownload.Config
import SealedDownload.Text.Quoted

/-! The HTTP transport. A body goes straight to a file. When the connection breaks or falls silent and
    the server has said by what the object can be known again, the failure carries a token; the next
    fetch then asks for the rest, and a server whose object has changed sends all of it.

    A fetch is a machine: what comes from the network is an input, and files are changed on the way. Redirects are
    assumed to be followed by the client that requests are handed to: a request counts once, however often it is
    redirected, and the response is that of the last locator. A client that gives up on its way there, as it does in a
    loop, fails the fetch (`FetchInput.failed`). -/

namespace SealedDownload

/-- The transport: the bases of the networks, the folder of its files, and its patience. -/
structure HttpTransport where
  bases : List (UInt32 × Url)
  folder : Path
  timeout : Span

namespace HttpTransport

/-- The bases of all networks, each with a slash at its end. -/
def basesOf : List (UInt32 × String) → Except Failure (List (UInt32 × Url))
  | [] => .ok []
  | (number, base) :: rest =>
    match Url.ofText base with
    | .error fault => .error (Config.badOrigin number fault)
    | .ok url => (basesOf rest).map ((number, url.asFolder) :: ·)

/-- The transport for some settings. -/
def ofConfig (config : Config) : Except Failure HttpTransport :=
  (basesOf config.origins.entries).map fun bases =>
    ⟨bases, config.transfer.folder, config.transfer.timeout⟩

/-- The locator of a request. -/
def locate (t : HttpTransport) (request : TransportRequest) : Except Failure Url :=
  match t.bases.lookup request.cdn with
  | none => .error (.protocol s!"no origin configured for CDN {request.cdn}")
  | some base => match base.join request.path with
    | .ok url => .ok url
    | .error fault =>
      .error (.protocol ("invalid path " ++ Text.quote request.path ++ ": " ++ fault.message))

end HttpTransport

namespace Http

/-- A request as it is sent. -/
structure Sent where
  url : String
  headers : List (String × String)

/-- Where a fetch is. -/
inductive FetchPhase where
  /-- a response is awaited; whether this is the second request -/
  | sending (again : Bool)
  /-- the body comes in; the size of the whole object, if it is known -/
  | reading (total : Option UInt64)
  | ended (result : Except Failure Path)

/-- One call of the transport. -/
structure Fetch where
  url : Url
  headers : Headers
  timeout : Span
  part : Partial
  phase : FetchPhase

/-- What comes from outside. -/
inductive FetchInput where
  | head (head : Head)
  | chunk (bytes : Octets)
  /-- the body is complete -/
  | finish
  /-- the connection has failed -/
  | broken (message : String)
  /-- nothing has come for as long as the transport waits -/
  | silent
  /-- the client has given up for a reason that lies neither in the connection nor in the time, such as a loop of
      redirects or a body that it cannot make out -/
  | failed (message : String)
  | cancel

/-- What a fetch does besides changing files. -/
inductive FetchEffect where
  | send (request : Sent)
  | report (completed : UInt64) (total : Option UInt64)

namespace Fetch

/-- Whether a character may stand in the name of a locator's server and not in a request: a quotation
    mark, a grave accent, or a brace. -/
def isUnsendable (c : Char) : Bool := c = '"' || [0x60, 0x7b, 0x7d].contains c.toNat

/-- The longest locator of a request, in bytes. -/
def longestLocator : Nat := UInt16.size - 2

/-- Whether a request for a locator can be sent at all. Its user is not a part of what is sent. -/
def isFetchable (url : Url) : Bool :=
  (url.scheme = "http" || url.scheme = "https") &&
    !(url.host.elim "" Host.render).toList.any isUnsendable &&
    ({ url with username := "", password := "" } : Url).render.utf8ByteSize ≤ longestLocator

/-- The headers that ask for the rest of a partial file. -/
def rangeHeaders (part : Partial) : List (String × String) :=
  match part.validator with
  | some validator =>
    if 0 < part.received then [("range", s!"bytes={part.received}-"), ("if-range", validator)] else []
  | none => []

/-- What is sent for a partial file. -/
def request (f : Fetch) : Sent := ⟨f.url.render, f.headers ++ rangeHeaders f.part⟩

/-- Whether a failure of the network leaves something to go on with. -/
def isResumable (part : Partial) : Bool := 0 < part.received && part.validator.isSome

/-- The fetch has failed. A broken connection leaves a token if it can; anything else leaves no
    file. -/
def fail (f : Fetch) (files : Files) (failure : Failure) : Fetch × Files :=
  let interrupted := match failure with
    | .network .. => true
    | .timeout .. => true
    | _ => false
  if interrupted && isResumable f.part then
    ({ f with phase := .ended (.error (failure.withResume (some f.part.encode))) }, files)
  else ({ f with phase := .ended (.error failure) }, files.erase f.part.path)

/-- Sends a request, if it can be sent. -/
def send (f : Fetch) (files : Files) (again : Bool) : Fetch × Files × List FetchEffect :=
  if isFetchable f.url && f.request.headers.all isHeader then
    ({ f with phase := .sending again }, files, [.send f.request])
  else
    let (f, files) := f.fail files (.protocol "builder error")
    (f, files, [])

/-- The partial file of a token, if it is of the same object, can be checked, and is as long as the
    token says. A file that cannot be gone on with is removed. -/
def resumePoint (files : Files) (url : String) (token : ResumeToken) : Option Partial × Files :=
  match Partial.decode? token with
  | none => (none, files)
  | some part =>
    if part.url ≠ url || part.validator.isNone then (none, files.erase part.path)
    else match files.get? part.path with
      | some bytes =>
        if bytes.length = part.received.toNat then (some part, files)
        else (none, files.erase part.path)
      | none => (none, files.erase part.path)

/-- Begins a fetch: the locator is found, the folder made, the token looked at, and a request sent. -/
def start (t : HttpTransport) (request : TransportRequest) (resume : Option ResumeToken)
    (files : Files) : Except Failure (Fetch × List FetchEffect) × Files :=
  match t.locate request with
  | .error failure => (.error failure, files)
  | .ok url => match files.makeFolder t.folder with
    | .error failure => (.error failure, files)
    | .ok files =>
      let (found, files) := match resume with
        | some token => resumePoint files url.render token
        | none => (none, files)
      let (part, files) := match found with
        | some part => (part, files)
        | none => (⟨url.render, files.nextPath t.folder "download", 0, none⟩, files.draw)
      let (f, files, effects) :=
        send ⟨url, request.headers, t.timeout, part, .sending false⟩ files false
      (.ok (f, effects), files)

/-- A response is taken: the rest of a partial file is appended, anything else begins it anew. -/
def accept (f : Fetch) (files : Files) (head : Head) : Fetch × Files :=
  let append := head.status = Head.partialContent && 0 < f.part.received
  if append || head.isSuccess then
    let received := if append then f.part.received else 0
    let files := if append then files.append f.part.path [] else files.write f.part.path []
    ({ f with
      part := { f.part with received, validator := head.validator? }
      phase := .reading (head.length.map (· + received)) }, files)
  else f.fail files (.httpStatus head.status f.url.render)

/-- A response begins. A part that does not go on where the file ends is not taken; all of the object
    is asked for instead. -/
def respond (f : Fetch) (files : Files) (again : Bool) (head : Head) :
    Fetch × Files × List FetchEffect :=
  if !again && head.status = Head.partialContent && 0 < f.part.received
      && head.start? ≠ some f.part.received then
    send { f with part := { f.part with received := 0, validator := none } } files true
  else
    let (f, files) := f.accept files head
    (f, files, [])

/-- One input; one that does not fit where the fetch is changes nothing. -/
def step (f : Fetch) (files : Files) (input : FetchInput) : Fetch × Files × List FetchEffect :=
  let failWith (failure : Failure) : Fetch × Files × List FetchEffect :=
    let (f, files) := f.fail files failure
    (f, files, [])
  match f.phase, input with
  | .sending again, .head head => f.respond files again head
  | .sending _, .broken message => failWith (.network message none)
  | .sending _, .silent =>
    failWith (.timeout s!"no response from {f.url.render} within {f.timeout.millis}ms" none)
  | .sending _, .failed message => failWith (.protocol message)
  | .sending _, .cancel => failWith .cancelled
  | .reading total, .chunk bytes =>
    let received := f.part.received + UInt64.ofNat bytes.length
    ({ f with part := { f.part with received } }, files.append f.part.path bytes,
      [.report received total])
  | .reading _, .finish => ({ f with phase := .ended (.ok f.part.path) }, files, [])
  | .reading _, .broken message => failWith (.network message none)
  | .reading _, .silent =>
    failWith (.timeout s!"no data from {f.url.render} for {f.timeout.millis}ms" none)
  | .reading _, .failed message => failWith (.protocol message)
  | .reading _, .cancel => failWith .cancelled
  | _, _ => (f, files, [])

/-- Inputs one after the other, and all effects. -/
def run (f : Fetch) (files : Files) : List FetchInput → Fetch × Files × List FetchEffect
  | [] => (f, files, [])
  | input :: rest =>
    let (f, files, effects) := f.step files input
    let (f, files, more) := f.run files rest
    (f, files, effects ++ more)

/-- The result of a fetch that has ended. -/
def result? (f : Fetch) : Option (Except Failure Path) :=
  match f.phase with
  | .ended result => some result
  | _ => none

/-- A token is given up, and its file with it. -/
def discard (files : Files) (token : ResumeToken) : Files :=
  match Partial.decode? token with
  | some part => files.erase part.path
  | none => files

end Fetch
end Http
end SealedDownload
