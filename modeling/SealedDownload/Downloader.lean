import SealedDownload.Admission
import SealedDownload.Pipeline
import SealedDownload.Transfer
import SealedDownload.Config
import SealedDownload.Sealing.PaddedSize

/-! A downloader: any number of downloads that share the slots, the pipeline, the files and the channel
    of events. It goes in small steps, which may come in any order: steps of a download, of the task
    that links its token to that of the caller, of the transport, and of the worker of the pipeline.

    Tokens form a tree. The token of a download is below the one of the downloader, and the token of an
    attempt is below that of its download; a token is cancelled if it, or one above it, has been. The
    token of a caller is outside the tree, and only the linking task carries its cancellation over. -/

namespace SealedDownload

/-- What a caller gets. -/
inductive Delivered where
  | ciphertext (path : Path)
  | opened (product : Product)
deriving DecidableEq, Inhabited

/-- The file that a caller gets. -/
def Delivered.path : Delivered → Path
  | .ciphertext path => path
  | .opened result => result.path

/-- Where a download is. -/
inductive DownloadPhase where
  /-- it has its number, and has not been announced -/
  | begun
  /-- it is about to ask for a slot -/
  | arriving
  | waiting (ticket : Nat)
  /-- it has a slot, and nothing has been done with it -/
  | admitted
  | transferring (transfer : Transfer)
  /-- the ciphertext is there, and the slot has been given back -/
  | transferred (file : Path)
  /-- its job is in the pipeline -/
  | opening
  /-- it has failed before the pipeline, and that has not been announced -/
  | failing (failure : Failure)
  | over (result : Except Failure Delivered)
  /-- the caller has dropped it -/
  | dropped

/-- A download that has been accepted. -/
structure Download where
  request : Request
  /-- the token of the caller -/
  caller : Nat
  id : TransferId
  limit : Nat
  /-- whether its own token has been cancelled -/
  cancelled : Bool
  /-- whether the linking task still runs -/
  linking : Bool
  /-- whether the token of the attempt has been cancelled -/
  tripped : Bool
  phase : DownloadPhase

/-- What a downloader wants done outside. -/
inductive Demand where
  /-- the transport is to fetch an object for a download -/
  | fetch (download : Nat) (request : TransportRequest) (resume : Option ResumeToken)
  /-- the transport is to give up a token -/
  | discard (token : ResumeToken)
  /-- a download is to be woken after a pause -/
  | rest (download : Nat) (delay : Span)

/-- A downloader. -/
structure Downloader where
  retry : RetryPolicy
  /-- the largest backup archive that is accepted -/
  backupLimit : Nat
  /-- the largest attachment that is accepted at present -/
  ceiling : Nat
  /-- the folder of plaintexts -/
  plaintextFolder : Path
  validator : Validator
  shutDown : Bool
  admission : Admission
  pipeline : Pipeline
  shared : Shared
  tracker : Tracker
  nextId : TransferId
  /-- the tokens of callers that are cancelled -/
  cancelledCallers : List Nat
  downloads : List Download
  /-- everything that has been demanded, first one first -/
  demands : List Demand

namespace Downloader

/-- Where plaintexts are kept below a folder. -/
def plaintextIn (folder : Path) : Path := folder ++ "/plaintext"

/-- Where validated attachments are kept below a folder. -/
def validatedIn (folder : Path) : Path := folder ++ "/validated"

/-- A downloader without downloads, if its settings can work. A capacity of the channel that is out of
    range stops it altogether, which is the outer `none`. -/
def start? (config : Config) (ceiling : Nat) (validator : Validator) (files : Files) :
    Option (Except Failure Downloader) :=
  match config.check with
  | .error failure => some (.error failure)
  | .ok () => (Broadcast.open? config.eventCapacity.toNat).map fun events => .ok
    { retry := config.transfer.retry
      backupLimit := config.maxBackupSize.toNat
      ceiling
      plaintextFolder := plaintextIn config.transfer.folder
      validator
      shutDown := false
      admission := .ofCapacity config.transfer.maxConcurrent.toNat
      pipeline := .idle
      shared := ⟨files, events⟩
      tracker := .empty
      nextId := ⟨1⟩
      cancelledCallers := []
      downloads := []
      demands := [] }

/-! ### Small changes -/

/-- Where the download of a number is. -/
def phase? (d : Downloader) (i : Nat) : Option DownloadPhase := (d.downloads[i]?).map (·.phase)

/-- Announces an event. -/
def announce (d : Downloader) (event : Event) : Downloader := { d with shared := d.shared.announce event }

/-- Demands something. -/
def demand (d : Downloader) (demand : Demand) : Downloader := { d with demands := d.demands ++ [demand] }

/-- Puts a download in its place. -/
def put (d : Downloader) (i : Nat) (download : Download) : Downloader :=
  { d with downloads := d.downloads.set i download }

/-- Moves a download to another phase. -/
def move (d : Downloader) (i : Nat) (download : Download) (phase : DownloadPhase) : Downloader :=
  d.put i { download with phase }

/-- A download ends, and its token is cancelled with it. -/
def leave (d : Downloader) (i : Nat) (download : Download) (phase : DownloadPhase) : Downloader :=
  d.put i { download with phase, cancelled := true }

/-- A slot becomes free. -/
def release (d : Downloader) : Downloader := { d with admission := d.admission.release }

/-- Whether the token of a download is cancelled. -/
def isCancelled (d : Downloader) (download : Download) : Bool := d.shutDown || download.cancelled

/-- Whether the token of the attempt of a download is cancelled. -/
def isStopped (d : Downloader) (download : Download) : Bool :=
  d.isCancelled download || download.tripped

/-- Whether the token of the download of a number is cancelled. -/
def isCancelledAt (d : Downloader) (i : Nat) : Bool :=
  ((d.downloads[i]?).map d.isCancelled).getD true

/-! ### Beginning -/

/-- The ceiling for a request. An attachment whose declared length shows that it is too large is
    refused. -/
def limitFor (d : Downloader) (request : Request) : Except Failure Nat :=
  match request.metadata? with
  | none => .ok d.backupLimit
  | some metadata => match metadata.plaintextLength with
    | none => .ok d.ceiling
    | some length =>
      let expected := estimatedSize length.toNat
      if d.ceiling < expected then .error (.oversize d.ceiling expected) else .ok d.ceiling

/-- A caller asks for a download. It is refused, or gets a number and a token. -/
def ask (d : Downloader) (request : Request) (caller : Nat) : Except Failure Downloader := do
  let limit ← d.limitFor request
  if d.shutDown then throw .shuttingDown
  return { d with
    nextId := d.nextId.next
    downloads := d.downloads ++ [⟨request, caller, d.nextId, limit, false, true, false, .begun⟩] }

/-! ### Steps of a download -/

/-- Does what a transfer wants done. -/
def perform (d : Downloader) (i : Nat) (download : Download) (effect : Transfer.Effect) :
    Downloader :=
  match effect with
  | .call resume => match download.request.forTransport with
    | .ok request => (d.put i { download with tripped := false }).demand (.fetch i request resume)
    | .error _ => d
  | .trip => d.put i { download with tripped := true }
  | .discard token => d.demand (.discard token)
  | .remove file => { d with shared := d.shared.erase file }
  | .publish id fraction => { d with tracker := d.tracker.set id fraction }
  | .emit event => d.announce event
  | .rest delay => d.demand (.rest i delay)

/-- Does all that a transfer wants done. -/
def performAll (d : Downloader) (i : Nat) (effects : List Transfer.Effect) : Downloader :=
  effects.foldl (fun d effect =>
    match d.downloads[i]? with
    | some download => d.perform i download effect
    | none => d) d

/-- Gives the transfer of a download an input. -/
def feed (d : Downloader) (i : Nat) (download : Download) (transfer : Transfer)
    (input : Transfer.Input) : Downloader :=
  let (transfer, effects) := transfer.step input
  (d.move i download (.transferring transfer)).performAll i effects

/-- The size of a file. -/
def sizeOf (d : Downloader) (file : Path) : Except IoKind Nat :=
  match d.shared.files.get? file with
  | some bytes => .ok bytes.length
  | none => .error .notFound

/-- The next step of a transfer that does not depend on anything outside. -/
def stepTransfer? (d : Downloader) (i : Nat) (download : Download) (transfer : Transfer) :
    Option Downloader :=
  match transfer.phase with
  | .doomed _ => some (d.feed i download transfer (.begin (d.isCancelled download)))
  | .ready _ => some (d.feed i download transfer (.begin (d.isCancelled download)))
  | .calling _ => none
  | .measuring file => some (d.feed i download transfer (.measure (d.sizeOf file) 0))
  | .resting _ =>
    if d.isCancelled download then some (d.feed i download transfer .interrupt) else none
  | .ended result =>
    some (d.release.move i download (match result with
      | .ok file => .transferred file
      | .error failure => .failing failure))

/-- The work that is done on the ciphertext of an attachment. -/
def workFor (d : Downloader) (request : Request) : Option Work :=
  match request with
  | .backup .. => none
  | .transient metadata => some (Work.decrypt d.plaintextFolder metadata)
  | .attachment metadata _ => some (Work.validate d.validator metadata)

/-- The ciphertext is handed to the caller or to the pipeline, whose worker is there as long as the downloader is. -/
def handOver (d : Downloader) (i : Nat) (download : Download) (file : Path) : Downloader :=
  match d.workFor download.request with
  | none => d.leave i download (.over (.ok (.ciphertext file)))
  | some work =>
    let (submitted, pipeline, shared) :=
      Pipeline.submit (d.isCancelled download) false ⟨i, download.id, file, work⟩ d.pipeline d.shared
    let d := { d with pipeline, shared }
    match submitted with
    | .ok () => d.move i download .opening
    | .error failure => d.leave i download (.over (.error failure))

/-- The next step of a download, if it has one that does not depend on anything outside. -/
def advance? (d : Downloader) (i : Nat) : Option Downloader := do
  let download ← d.downloads[i]?
  match download.phase with
  | .begun =>
    some ((d.announce (.queued download.id download.request.kind)).move i download .arriving)
  | .arriving =>
    if d.isCancelled download then some (d.move i download (.failing .cancelled))
    else match d.admission.enter with
      | (.slot, admission) => some ({ d with admission }.move i download .admitted)
      | (.ticket ticket, admission) => some ({ d with admission }.move i download (.waiting ticket))
  | .waiting ticket =>
    if d.isCancelled download then
      some ({ d with admission := d.admission.leave ticket }.move i download (.failing .cancelled))
    else if d.admission.isGranted ticket then
      some ({ d with admission := d.admission.claim ticket }.move i download .admitted)
    else none
  | .admitted =>
    some ((d.announce (.admitted download.id)).move i download
      (.transferring (.start download.id download.request download.limit d.retry)))
  | .transferring transfer => d.stepTransfer? i download transfer
  | .transferred file => some (d.handOver i download file)
  | .opening =>
    match d.pipeline.collect? i with
    | some (result, pipeline) =>
      some ({ d with pipeline }.leave i download (.over (result.map .opened)))
    | none => none
  | .failing failure =>
    some ((d.announce (.transferFailed download.id failure.message)).leave i download
      (.over (.error failure)))
  | .over _ => none
  | .dropped => none

/-- The caller drops a download where it waits for something. -/
def drop? (d : Downloader) (i : Nat) : Option Downloader := do
  let download ← d.downloads[i]?
  match download.phase with
  | .waiting ticket =>
    some ({ d with admission := d.admission.leave ticket }.leave i download .dropped)
  | .transferring transfer =>
    match transfer.phase with
    | .calling _ | .measuring _ | .resting _ => some (d.release.leave i download .dropped)
    | _ => none
  | .opening => some ({ d with pipeline := d.pipeline.hangUp i }.leave i download .dropped)
  | _ => none

/-- The task that links the token of a download to that of its caller goes on: it carries a
    cancellation over, and it ends once the token of the download is cancelled. -/
def link? (d : Downloader) (i : Nat) : Option Downloader := do
  let download ← d.downloads[i]?
  if !download.linking then none
  else if d.cancelledCallers.contains download.caller then
    some (d.put i { download with cancelled := true, linking := false })
  else if d.isCancelled download then some (d.put i { download with linking := false })
  else none

/-! ### What comes from outside -/

/-- The transfer of a download that the transport works for. -/
def calling? (d : Downloader) (i : Nat) : Option (Download × Transfer) := do
  let download ← d.downloads[i]?
  match download.phase with
  | .transferring transfer =>
    match transfer.phase with
    | .calling _ => some (download, transfer)
    | _ => none
  | _ => none

/-- The transport reports progress. -/
def report? (d : Downloader) (i : Nat) (completed : Nat) (total : Option Nat) : Option Downloader :=
  (d.calling? i).map fun (download, transfer) => d.feed i download transfer (.report completed total)

/-- The transport is done; a file that it hands over with a content is written first. -/
def settle? (d : Downloader) (i : Nat) (outcome : Except Failure Path) (content : Option Octets)
    (draw : Float) : Option Downloader :=
  (d.calling? i).map fun (download, transfer) =>
    let files := match outcome, content with
      | .ok path, some bytes => d.shared.files.write path bytes
      | _, _ => d.shared.files
    { d with shared := { d.shared with files } }.feed i download transfer (.settle outcome draw)

/-- The pause of a download is over. -/
def wake? (d : Downloader) (i : Nat) : Option Downloader := do
  let download ← d.downloads[i]?
  match download.phase with
  | .transferring transfer =>
    match transfer.phase with
    | .resting _ => some (d.feed i download transfer .wake)
    | _ => none
  | _ => none

/-- The worker of the pipeline goes on. -/
def work? (d : Downloader) : Option Downloader :=
  (d.pipeline.step? d.isCancelledAt d.shared).map fun (pipeline, shared) => { d with pipeline, shared }

/-- A caller cancels its token. -/
def cancel (d : Downloader) (caller : Nat) : Downloader :=
  { d with cancelledCallers := caller :: d.cancelledCallers }

/-- No more downloads are accepted, and all that are not over are cancelled. -/
def shutdown (d : Downloader) : Downloader := { d with shutDown := true }

/-- Another ceiling holds for attachments from now on. -/
def setCeiling (d : Downloader) (ceiling : Nat) : Downloader := { d with ceiling }

/-! ### Runs -/

/-- What may happen next. -/
inductive Action where
  | ask (request : Request) (caller : Nat)
  | advance (download : Nat)
  | drop (download : Nat)
  | link (download : Nat)
  | report (download : Nat) (completed : Nat) (total : Option Nat)
  | settle (download : Nat) (outcome : Except Failure Path) (content : Option Octets) (draw : Float)
  | wake (download : Nat)
  | work
  | cancel (caller : Nat)
  | shutdown
  | setCeiling (ceiling : Nat)

/-- The downloader after an action, where it can happen; a request that is refused changes nothing. -/
def step? (d : Downloader) : Action → Option Downloader
  | .ask request caller => match d.ask request caller with
    | .ok d => some d
    | .error _ => some d
  | .advance i => d.advance? i
  | .drop i => d.drop? i
  | .link i => d.link? i
  | .report i completed total => d.report? i completed total
  | .settle i outcome content draw => d.settle? i outcome content draw
  | .wake i => d.wake? i
  | .work => d.work?
  | .cancel caller => some (d.cancel caller)
  | .shutdown => some d.shutdown
  | .setCeiling ceiling => some (d.setCeiling ceiling)

/-- The downloader after actions one after the other. -/
def run? (d : Downloader) : List Action → Option Downloader
  | [] => some d
  | action :: rest => (d.step? action).bind (run? · rest)

end Downloader
end SealedDownload
