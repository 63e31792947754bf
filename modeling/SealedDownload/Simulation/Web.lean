import SealedDownload.Http
import SealedDownload.Downloader

/-! The HTTP transport where no server can be reached: every connection is refused, so a fetch ends
    as soon as it has been sent. -/

namespace SealedDownload.Simulation

open Http

/-- What becomes of a request if no connection can be made. -/
def refusal (url : String) : FetchInput := .broken ("error sending request for url (" ++ url ++ ")")

/-- A fetch without a server; it may have been cancelled before. -/
def fetchRefused (t : HttpTransport) (request : TransportRequest) (resume : Option ResumeToken)
    (cancelled : Bool) (files : Files) : Except Failure Path × Files :=
  match Fetch.start t request resume files with
  | (.error failure, files) => (.error failure, files)
  | (.ok (f, _), files) =>
    let input := if cancelled then .cancel else refusal f.url.render
    let (f, files, _) := f.step files input
    (f.result?.getD (.error .cancelled), files)

/-! ### One transport -/

/-- A token as a command names it. -/
inductive TokenSource where
  | none
  /-- the one that the last failed fetch has left -/
  | last
  | raw (bytes : Octets)
  /-- a record that is made of a path; its file may be there already -/
  | made (record : Path → Octets) (file : Option Octets)

/-- A transport, its files, and the token that the last failed fetch has left. -/
structure Web where
  transport : HttpTransport
  files : Files
  last : Option ResumeToken

/-- A command. -/
inductive WebCommand where
  | download (request : TransportRequest) (token : TokenSource) (cancelled : Bool)
  | discard (token : TokenSource)

namespace Web

/-- The token of a source, and the files with the one that belongs to it. -/
def tokenOf (w : Web) : TokenSource → Option ResumeToken × Web
  | .none => (Option.none, w)
  | .last => (w.last, w)
  | .raw bytes => (ResumeToken.ofOctets? bytes, w)
  | .made record file =>
    let path := w.files.nextPath w.transport.folder "download"
    let files := match file with
      | some bytes => w.files.draw.write path bytes
      | Option.none => w.files.draw
    (ResumeToken.ofOctets? (record path), { w with files })

/-- A command, and the result of a fetch. -/
def step (w : Web) : WebCommand → Option (Except Failure Path) × Web
  | .download request source cancelled =>
    let (token, w) := w.tokenOf source
    let (result, files) := fetchRefused w.transport request token cancelled w.files
    let last := match result with
      | .ok _ => w.last
      | .error failure => failure.resume?
    (some result, { w with files, last })
  | .discard source =>
    let (token, w) := w.tokenOf source
    match token with
    | some token => (Option.none, { w with files := Fetch.discard w.files token })
    | Option.none => (Option.none, w)

end Web

/-! ### One download -/

/-- A downloader over the transport, and how many of its demands have been met. -/
structure WebDownload where
  transport : HttpTransport
  downloader : Downloader
  met : Nat

namespace WebDownload

/-- Meets a demand of the first download. -/
def meet (w : WebDownload) (demand : Demand) : WebDownload :=
  let shared := w.downloader.shared
  match demand with
  | .fetch i request resume =>
    let (result, files) := fetchRefused w.transport request resume false shared.files
    let d := { w.downloader with shared := { shared with files } }
    { w with downloader := (d.settle? i result Option.none 0).getD d }
  | .discard token =>
    let files := Fetch.discard shared.files token
    { w with downloader := { w.downloader with shared := { shared with files } } }
  | .rest i _ => { w with downloader := (w.downloader.wake? i).getD w.downloader }

/-- The next step: of the download, of the worker, or towards a demand. -/
def step? (w : WebDownload) : Option WebDownload :=
  match w.downloader.demands[w.met]? with
  | some demand => some ({ w with met := w.met + 1 }.meet demand)
  | none => match w.downloader.advance? 0 with
    | some downloader => some { w with downloader }
    | none => w.downloader.work?.map fun downloader => { w with downloader }

/-- Steps one after the other; `fuel` bounds their number. -/
def run (w : WebDownload) : (fuel : Nat) → WebDownload
  | 0 => w
  | fuel + 1 => match w.step? with
    | some w => w.run fuel
    | none => w

/-- More steps than a number of attempts can take. -/
def fuelFor (attempts : Nat) : Nat := 10 * (attempts + 5)

/-- A download from its beginning to its end. -/
def ofRequest (transport : HttpTransport) (downloader : Downloader) (request : Request)
    (attempts : Nat) : Except Failure Delivered × Downloader :=
  match downloader.ask request 0 with
  | .error failure => (.error failure, downloader)
  | .ok d =>
    let w := (WebDownload.mk transport d 0).run (fuelFor attempts)
    match w.downloader.phase? 0 with
    | some (.over result) => (result, w.downloader)
    | _ => (.error .cancelled, w.downloader)

end WebDownload
end SealedDownload.Simulation
