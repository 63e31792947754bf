import SealedDownload.Downloader
import SealedDownload.Http.Session

/-! A downloader over the HTTP transport, watched at one of its downloads. Its transfer is a session, which shares the
    files, the token and the transfer itself with the downloader. All that happens to the other downloads, to the
    worker and to callers is open, as long as it leaves the files of the watched calls alone. -/

namespace SealedDownload

/-- A downloader and the HTTP transport that it fetches with, if settings can work. A capacity of the channel that is
    out of range stops it altogether, which is the outer `none`. -/
def Downloader.withHttp? (config : Config) (ceiling : Nat) (files : Files) :
    Option (Except Failure (HttpTransport × Downloader)) :=
  match HttpTransport.ofConfig config with
  | .error failure => some (.error failure)
  | .ok transport =>
    (start? config ceiling (.decrypting (validatedIn config.transfer.folder)) files).map fun downloader =>
      downloader.map (transport, ·)

namespace Http

/-- A downloader and the call of the transport for one of its downloads. -/
structure Watch where
  transport : HttpTransport
  /-- the number of the download that is watched -/
  number : Nat
  downloader : Downloader
  /-- the call that is going on for it, or whose result its transfer has not taken yet -/
  call : Option Call
  /-- the files of its calls -/
  created : List Path

/-- What can happen next. -/
inductive WatchAction where
  /-- an action of the downloader that is no input of the watched transfer -/
  | act (action : Downloader.Action)
  /-- the watched transfer goes on where it waits for nothing outside -/
  | go
  | net (input : FetchInput)
  | spoil (kind : IoKind)
  | settle (draw : Float)
  | wake
  /-- others have changed files -/
  | others (files : Files)

namespace Watch

/-- A downloader before anything has happened. -/
def start (transport : HttpTransport) (number : Nat) (downloader : Downloader) : Watch :=
  ⟨transport, number, downloader, none, []⟩

/-- The files. -/
def files (w : Watch) : Files := w.downloader.shared.files

/-- The transfer of the watched download, if it is under way. -/
def session? (w : Watch) : Option Session := do
  let download ← w.downloader.downloads[w.number]?
  match download.phase with
  | .transferring transfer =>
    some ⟨w.transport, download.request, transfer, w.call, w.files, w.downloader.isCancelled download, download.tripped,
      w.created⟩
  | _ => none

/-- Whether an action is no input of the watched transfer. -/
def leaves (w : Watch) (action : Downloader.Action) : Bool :=
  match w.session? with
  | none => true
  | some s => match action with
    | .advance i => i ≠ w.number || s.transfer.result?.isSome
    | .report i .. => i ≠ w.number
    | .settle i .. => i ≠ w.number
    | .wake i => i ≠ w.number
    | _ => true

/-- Whether files are as others leave them: those of the watched calls have not changed, and none is in the way of the
    folder. -/
def spares (w : Watch) (files : Files) : Bool :=
  w.created.all (fun path => files.get? path = w.files.get? path) && !files.blocks w.transport.folder

/-- The watch with another downloader. A call that no transfer waits for any more is dropped with the transfer, and
    nothing of it is run. -/
def become (w : Watch) (downloader : Downloader) : Watch :=
  let next := { w with downloader }
  { next with call := if next.session?.isSome then w.call else none }

/-- The watch with other files. -/
def withFiles (w : Watch) (files : Files) : Watch :=
  { w with downloader := { w.downloader with shared := { w.downloader.shared with files } } }

/-- An action of the downloader. -/
def act? (w : Watch) (action : Downloader.Action) : Option Watch :=
  if w.leaves action then
    (w.downloader.step? action).bind fun d => if w.spares d.shared.files then some (w.become d) else none
  else none

/-- What an action is for a session. The transfer looks the size of a file up at once. -/
def forSession (w : Watch) (s : Session) : WatchAction → Option SessionAction
  | .go => match s.transfer.phase with
    | .measuring file => some (.measure (w.downloader.sizeOf file) 0)
    | _ => some .go
  | .net input => some (.net input)
  | .spoil kind => some (.spoil kind)
  | .settle draw => some (.settle draw)
  | .wake => some .wake
  | .act _ => none
  | .others _ => none

/-- The report of the watched transport that an effect of its call is. -/
def report? (w : Watch) : FetchEffect → Option Downloader.Action
  | .send _ => none
  | .report completed total => some (.report w.number completed.toNat (total.map UInt64.toNat))

/-- What an action is for the downloader. -/
def forDownloader (w : Watch) (s : Session) : WatchAction → List Downloader.Action
  | .go => [.advance w.number]
  | .net input => match s.call with
    | some (.going f) => (f.step s.files input).2.2.filterMap w.report?
    | _ => []
  | .settle draw => match s.call with
    | some (.over result) => [.settle w.number result none draw]
    | _ => []
  | .wake => [.wake w.number]
  | _ => []

/-- Whether the next path that is drawn is that of no file. -/
def drawsFresh (w : Watch) : Bool := !w.files.contains (w.files.nextPath w.transport.folder "download")

/-- A step of the watched transfer or its call, which is one of the session and one of the downloader. -/
def own? (w : Watch) (action : WatchAction) : Option Watch := do
  let s ← w.session?
  let input ← w.forSession s action
  let next ← s.step? input
  let downloader ← w.downloader.run? (w.forDownloader s action)
  if w.drawsFresh then
    some ({ w with downloader, call := next.call, created := next.created }.withFiles next.files)
  else none

/-- The watch after an action, where it can happen. -/
def step? (w : Watch) : WatchAction → Option Watch
  | .act action => w.act? action
  | .others files => if w.spares files then some (w.withFiles files) else none
  | action => w.own? action

/-- The watch after actions one after the other. -/
def run? (w : Watch) : List WatchAction → Option Watch
  | [] => some w
  | action :: rest => (w.step? action).bind (run? · rest)

end Watch
end Http
end SealedDownload
