import SealedDownload.Pipeline.Product
import SealedDownload.Broadcast
import SealedDownload.Event

/-! Works on ciphertexts, one at a time and in the order they were handed in. A work whose token is
    cancelled by the time it is taken up is skipped. The worker goes in small steps, between which
    anything else may happen: it takes a job up, announces that it begins, does the work, announces how
    it ended, removes the ciphertext of a failure, and replies. Once the worker is gone a call is turned away,
    and the jobs that nobody will do are lost, one by one, with the replies to their calls. -/

namespace SealedDownload

/-- What the parts of a downloader share: the files and the channel of events. -/
structure Shared where
  files : Files
  events : Broadcast Event
deriving Inhabited

/-- The shared things after an event. -/
def Shared.announce (shared : Shared) (event : Event) : Shared :=
  { shared with events := shared.events.send event }

/-- The shared things without a file. -/
def Shared.erase (shared : Shared) (path : Path) : Shared :=
  { shared with files := shared.files.erase path }

/-- A piece of work that has been handed in by a call. -/
structure Job where
  /-- the number of the call -/
  call : Nat
  id : TransferId
  ciphertext : Path
  work : Work

/-- Where the worker is. -/
inductive Worker where
  | idle
  /-- it has taken a job up, and will do the work or skip it -/
  | decided (job : Job) (start : Bool)
  /-- it has announced the beginning -/
  | operating (job : Job)
  /-- the work has ended -/
  | operated (job : Job) (result : Except Failure Product)
  /-- the end has been announced, or the work was skipped -/
  | announced (job : Job) (result : Except Failure Product)
  /-- the ciphertext of a failure has been removed -/
  | cleared (job : Job) (result : Except Failure Product)

/-- Whether the worker has no job. -/
def Worker.isIdle : Worker → Bool
  | .idle => true
  | _ => false

/-- What a call that has handed in a job is waiting for. -/
inductive Reply where
  /-- nothing has come yet -/
  | expected
  /-- the result has come and has not been taken -/
  | arrived (result : Except Failure Product)
  /-- nothing will come -/
  | lost

/-- The jobs in line, the worker, and the calls that still listen for a reply. -/
structure Pipeline where
  queue : List Job
  worker : Worker
  replies : List (Nat × Reply)

namespace Pipeline

/-- Nothing to do. -/
def idle : Pipeline := ⟨[], .idle, []⟩

/-- The reply that a call is waiting for. -/
def reply? (p : Pipeline) (call : Nat) : Option Reply := p.replies.lookup call

/-- A call no longer listens. -/
def hangUp (p : Pipeline) (call : Nat) : Pipeline :=
  { p with replies := p.replies.filter (·.1 ≠ call) }

/-- What a call is waiting for has changed. -/
def setReply (p : Pipeline) (call : Nat) (reply : Reply) : Pipeline :=
  { p with replies := (call, reply) :: p.replies.filter (·.1 ≠ call) }

/-- A job is put in line. -/
def push (p : Pipeline) (job : Job) : Pipeline :=
  { p with queue := p.queue ++ [job] }.setReply job.call .expected

/-- A job is sent to the worker. If the worker is gone the job comes back and is skipped on the spot: its ciphertext is
    removed, and the call is turned away. -/
def handIn (gone : Bool) (job : Job) (p : Pipeline) (shared : Shared) : Except Failure Unit × Pipeline × Shared :=
  if gone then (.error .shuttingDown, p, shared.erase job.ciphertext)
  else (.ok (), p.push job, shared)

/-- A call hands in a job. If its token is cancelled it is refused and its ciphertext is removed. -/
def submit (cancelled gone : Bool) (job : Job) (p : Pipeline) (shared : Shared) :
    Except Failure Unit × Pipeline × Shared :=
  if cancelled then (.error .cancelled, p, shared.erase job.ciphertext)
  else p.handIn gone job shared

/-- A call takes what it has been waiting for, if it is there. -/
def collect? (p : Pipeline) (call : Nat) : Option (Except Failure Product × Pipeline) :=
  match p.reply? call with
  | some (.arrived result) => some (result, p.hangUp call)
  | some .lost => some (.error .shuttingDown, p.hangUp call)
  | _ => none

/-- The event that tells how a work has ended. -/
def ending (id : TransferId) : Except Failure Product → Event
  | .ok _ => .decryptionComplete id
  | .error failure => .decryptionFailed id failure.message

/-- The result of a job is sent. If nobody listens, what it owns is removed. -/
def send (p : Pipeline) (shared : Shared) (call : Nat) (result : Except Failure Product) :
    Pipeline × Shared :=
  if (p.reply? call).isSome then (p.setReply call (.arrived result), shared)
  else match result with
    | .ok product => (p, { shared with files := product.discard shared.files })
    | .error _ => (p, shared)

/-- The job ends without a reply. -/
def breakOff (p : Pipeline) (call : Nat) : Pipeline :=
  if (p.reply? call).isSome then p.setReply call .lost else p

/-- One step of the worker, if there is anything to do. `isCancelled` tells whether the token of a call
    is cancelled at this moment. -/
def step? (isCancelled : Nat → Bool) (p : Pipeline) (shared : Shared) : Option (Pipeline × Shared) :=
  match p.worker with
  | .idle =>
    match p.queue with
    | [] => none
    | job :: queue => some ({ p with queue, worker := .decided job (!isCancelled job.call) }, shared)
  | .decided job true =>
    some ({ p with worker := .operating job }, shared.announce (.decryptionStarted job.id))
  | .decided job false => some ({ p with worker := .announced job (.error .cancelled) }, shared)
  | .operating job =>
    let (outcome, files) := job.work shared.files job.ciphertext
    let shared := { shared with files }
    match outcome with
    | .returned result => some ({ p with worker := .operated job result }, shared)
    | .crashed => some ({ p with worker := .idle }.breakOff job.call, shared)
  | .operated job result =>
    some ({ p with worker := .announced job result }, shared.announce (ending job.id result))
  | .announced job result =>
    let shared := match result with
      | .ok _ => shared
      | .error _ => shared.erase job.ciphertext
    some ({ p with worker := .cleared job result }, shared)
  | .cleared job result => some ({ p with worker := .idle }.send shared job.call result)

/-- The first job in line is lost with the worker; its ciphertext stays. -/
def lose? (p : Pipeline) : Option Pipeline :=
  match p.queue with
  | [] => none
  | job :: queue => some ({ p with queue }.breakOff job.call)

/-- The job that has been taken up is lost with the worker, if it has not begun; its ciphertext stays. -/
def miss? (p : Pipeline) : Option Pipeline :=
  match p.worker with
  | .decided job _ => some ({ p with worker := .idle }.breakOff job.call)
  | _ => none

end Pipeline
end SealedDownload
