import SealedDownload.Http
import SealedDownload.Transfer

/-! A transfer over the HTTP transport, with the files. Each attempt is one call of the transport; what the call
    reports goes to the transfer, and what the transfer wants done with tokens and files is done at once. Besides
    what comes from the network, the disk can fail, and others use the same folder. -/

namespace SealedDownload.Http

/-- Where the call of an attempt is. -/
inductive Call where
  | going (fetch : Fetch)
  | over (result : Except Failure Path)

/-- A transfer and its transport. -/
structure Session where
  transport : HttpTransport
  request : Request
  transfer : Transfer
  /-- the call that is going on, or whose result the transfer has not taken yet -/
  call : Option Call
  files : Files
  /-- whether the token of the transfer is cancelled -/
  cancelled : Bool
  /-- whether that of the attempt is -/
  tripped : Bool
  /-- the files of its calls -/
  created : List Path

/-- What can happen next. -/
inductive SessionAction where
  /-- the transfer goes on where it waits for nothing -/
  | go
  | net (input : FetchInput)
  /-- the file of a call cannot be opened, written or flushed -/
  | spoil (kind : IoKind)
  /-- the transfer takes the result of its call -/
  | settle (draw : Float)
  /-- the size of the file is looked up -/
  | measure (size : Except IoKind Nat) (draw : Float)
  /-- a pause is over -/
  | wake
  | cancel
  /-- others have changed files -/
  | others (files : Files)

/-- The length of the longest file that there can be, in bytes. -/
def longestFile : Nat := UInt64.size / 2 - 1

/-- Whether an input can come to a fetch: once it is stopped, nothing of a body is read any more, and no file grows
    beyond its longest. -/
def Fetch.admits (f : Fetch) (stopped : Bool) : FetchInput → Bool
  | .cancel => stopped
  | input =>
    let deaf := match f.phase with
      | .reading _ => stopped
      | _ => false
    let tooLong := match input with
      | .chunk bytes => longestFile < f.part.received.toNat + bytes.length
      | _ => false
    !deaf && !tooLong

/-- The call of a fetch as it is now. -/
def Call.ofFetch (f : Fetch) : Call :=
  match f.result? with
  | some result => .over result
  | none => .going f

namespace Session

/-- A transfer before its first attempt. -/
def start (transport : HttpTransport) (id : TransferId) (request : Request) (limit : Nat) (policy : RetryPolicy)
    (files : Files) : Session :=
  ⟨transport, request, .start id request limit policy, none, files, false, false, []⟩

/-- Whether the call of the attempt is to stop. -/
def isStopped (s : Session) : Bool := s.cancelled || s.tripped

/-- Begins a call; the file that it works on is one of this transfer's. -/
def callFor (s : Session) (request : TransportRequest) (resume : Option ResumeToken) : Session :=
  match Fetch.start s.transport request resume s.files with
  | (.error failure, files) => { s with files, call := some (.over (.error failure)), tripped := false }
  | (.ok (f, _), files) =>
    { s with files, call := some (.ofFetch f), tripped := false, created := f.part.path :: s.created }

/-- Does what the transfer wants done with the transport and the files. -/
def perform (s : Session) : Transfer.Effect → Session
  | .call resume => match s.request.forTransport with
    | .ok request => s.callFor request resume
    | .error _ => s
  | .trip => { s with tripped := true }
  | .discard token => { s with files := Fetch.discard s.files token }
  | .remove file => { s with files := s.files.erase file }
  | .publish .. => s
  | .emit _ => s
  | .rest _ => s

/-- Gives the transfer an input. -/
def feed (s : Session) (input : Transfer.Input) : Session :=
  let (transfer, effects) := s.transfer.step input
  effects.foldl perform { s with transfer }

/-- The session after what a fetch has done: its reports go to the transfer. -/
def hear (s : Session) : FetchEffect → Session
  | .send _ => s
  | .report completed total => s.feed (.report completed.toNat (total.map UInt64.toNat))

/-- The transfer goes on, if it waits for nothing. -/
def go? (s : Session) : Option Session :=
  match s.transfer.phase with
  | .doomed _ => some (s.feed (.begin s.cancelled))
  | .ready _ => some (s.feed (.begin s.cancelled))
  | .resting _ => if s.cancelled then some (s.feed .interrupt) else none
  | _ => none

/-- Something comes from the network to the call that is going on. -/
def net? (s : Session) (input : FetchInput) : Option Session :=
  match s.call with
  | some (.going f) =>
    if f.admits s.isStopped input then
      let (f, files, effects) := f.step s.files input
      some (effects.foldl hear { s with files, call := some (.ofFetch f) })
    else none
  | _ => none

/-- The disk fails the call that is going on. -/
def spoil? (s : Session) (kind : IoKind) : Option Session :=
  match s.call with
  | some (.going f) =>
    let (f, files) := f.fail s.files (.io kind none)
    some { s with files, call := some (.ofFetch f) }
  | _ => none

/-- The transfer takes the result of its call. -/
def settle? (s : Session) (draw : Float) : Option Session :=
  match s.call with
  | some (.over result) => some ({ s with call := none }.feed (.settle result draw))
  | _ => none

/-- Whether a size can be what is found for a file. -/
def isSizeOf (s : Session) (file : Path) : Except IoKind Nat → Bool
  | .ok size => (s.files.get? file).map List.length = some size
  | .error _ => true

/-- The size of the file is looked up. -/
def measure? (s : Session) (size : Except IoKind Nat) (draw : Float) : Option Session :=
  match s.transfer.phase with
  | .measuring file => if s.isSizeOf file size then some (s.feed (.measure size draw)) else none
  | _ => none

/-- A pause is over, unless the transfer has been cancelled. -/
def wake? (s : Session) : Option Session :=
  match s.transfer.phase with
  | .resting _ => if s.cancelled then none else some (s.feed .wake)
  | _ => none

/-- Others have changed files, but none of this transfer's, and none of them is in the way of the folder. -/
def others? (s : Session) (files : Files) : Option Session :=
  if s.created.all (fun path => files.get? path = s.files.get? path) && !files.blocks s.transport.folder then
    some { s with files }
  else none

/-- The session after an action, where it can happen. -/
def step? (s : Session) : SessionAction → Option Session
  | .go => s.go?
  | .net input => s.net? input
  | .spoil kind => s.spoil? kind
  | .settle draw => s.settle? draw
  | .measure size draw => s.measure? size draw
  | .wake => s.wake?
  | .cancel => some { s with cancelled := true }
  | .others files => s.others? files

/-- The session after actions one after the other. -/
def run? (s : Session) : List SessionAction → Option Session
  | [] => some s
  | action :: rest => (s.step? action).bind (run? · rest)

end Session
end SealedDownload.Http
