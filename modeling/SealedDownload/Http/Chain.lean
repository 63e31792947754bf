import SealedDownload.Http

/-! Calls of the transport for one request, one after the other. Each is given the token that the failure of
    the call before it has left. -/

namespace SealedDownload.Http

/-- Where a chain of calls is. -/
inductive Link where
  /-- between two calls; how the last one has ended, if there has been one -/
  | idle (last : Option (Except Failure Path))
  | busy (fetch : Fetch)

/-- Calls of one transport for one request, and the files. -/
structure Chain where
  transport : HttpTransport
  request : TransportRequest
  files : Files
  link : Link

/-- What can happen next: the next call begins, or something comes from outside to the one that goes on. -/
inductive ChainAction where
  | call
  | input (input : FetchInput)

namespace Chain

/-- No call yet. -/
def start (transport : HttpTransport) (request : TransportRequest) (files : Files) : Chain :=
  ⟨transport, request, files, .idle none⟩

/-- The token that the next call is given. -/
def token? (c : Chain) : Option ResumeToken :=
  match c.link with
  | .idle (some (.error failure)) => failure.resume?
  | _ => none

/-- The chain with a call as it is now; one that has ended is over. -/
def going (c : Chain) (f : Fetch) (files : Files) : Chain :=
  { c with
    files
    link := match f.result? with
      | some result => .idle (some result)
      | none => .busy f }

/-- The next call begins. -/
def call? (c : Chain) : Option (Chain × List FetchEffect) :=
  match c.link with
  | .busy _ => none
  | .idle _ => match Fetch.start c.transport c.request c.token? c.files with
    | (.error failure, files) => some ({ c with files, link := .idle (some (.error failure)) }, [])
    | (.ok (f, effects), files) => some (c.going f files, effects)

/-- Something comes from outside. -/
def input? (c : Chain) (input : FetchInput) : Option (Chain × List FetchEffect) :=
  match c.link with
  | .idle _ => none
  | .busy f =>
    let (f, files, effects) := f.step c.files input
    some (c.going f files, effects)

/-- The chain after an action, where it can happen, and what is done besides changing files. -/
def step? (c : Chain) : ChainAction → Option (Chain × List FetchEffect)
  | .call => c.call?
  | .input input => c.input? input

end Chain
end SealedDownload.Http
