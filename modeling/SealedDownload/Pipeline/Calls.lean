import SealedDownload.Pipeline

/-! Calls that hand jobs to one pipeline, step by step. The steps of different calls and those of the worker may
    come in any order. A token may be shared by calls and be cancelled at any moment, a caller may stop waiting
    wherever its call is, and the worker may go. -/

namespace SealedDownload.Pipeline

/-- Where a call is. -/
inductive Stage where
  /-- it has not begun -/
  | fresh
  /-- it has found its token uncancelled, and is about to hand in its job -/
  | ready
  /-- it has found its token cancelled, and its ciphertext is being removed; whether the caller still waits -/
  | refused (heard : Bool)
  /-- its job has been handed in -/
  | waiting
  | ended (result : Except Failure Product)
  /-- its caller has stopped waiting -/
  | abandoned

/-- A call: what its job is made of, and the name of its token; a call without one cannot be cancelled. -/
structure Call where
  id : TransferId
  ciphertext : Path
  work : Work
  token : Option String
  stage : Stage

namespace Call

/-- The job that a call hands in, where calls are numbered. -/
def job (call : Call) (number : Nat) : Job := ⟨number, call.id, call.ciphertext, call.work⟩

/-- The result of a call that is over. -/
def result? (call : Call) : Option (Except Failure Product) :=
  match call.stage with
  | .ended result => some result
  | _ => none

end Call

/-- Any number of calls to one pipeline; each is named by its place in the list. -/
structure Calls where
  pipeline : Pipeline
  shared : Shared
  /-- the tokens that are cancelled -/
  cancelled : List String
  calls : List Call
  /-- whether the worker is gone -/
  gone : Bool

/-- What can happen next. -/
inductive Action where
  /-- a call comes up, with a content for its ciphertext if there is a file -/
  | enter (id : TransferId) (ciphertext : Path) (work : Work) (token : Option String) (content : Option Octets)
  /-- a token is cancelled -/
  | cancel (token : String)
  /-- a call begins with a look at its token -/
  | begin (call : Nat)
  /-- a call hands in its job -/
  | push (call : Nat)
  /-- the ciphertext of a call that is refused is removed -/
  | clear (call : Nat)
  /-- a call takes the reply that has come, or finds that none will -/
  | collect (call : Nat)
  /-- a caller stops waiting -/
  | abandon (call : Nat)
  /-- the worker goes on -/
  | work
  /-- the worker goes: it takes up no job any more, and finishes the one that has begun -/
  | close
  /-- the first job in line is lost with the worker -/
  | lose
  /-- the job that the worker has taken up is lost with it, before it has begun -/
  | miss

namespace Calls

/-- No calls, over some files and a channel. -/
def start (shared : Shared) : Calls := ⟨.idle, shared, [], [], false⟩

/-- Whether the token of a call is cancelled. -/
def isCancelled (c : Calls) (call : Call) : Bool :=
  match call.token with
  | some token => c.cancelled.contains token
  | none => false

/-- Whether the token of the call of a number is cancelled. -/
def isCancelledAt (c : Calls) (i : Nat) : Bool := ((c.calls[i]?).map c.isCancelled).getD false

/-- Moves a call to another stage. -/
def move (c : Calls) (i : Nat) (call : Call) (stage : Stage) : Calls :=
  { c with calls := c.calls.set i { call with stage } }

/-- A call comes up. -/
def enter (c : Calls) (call : Call) (content : Option Octets) : Calls :=
  { c with
    calls := c.calls ++ [call]
    shared := match content with
      | some bytes => { c.shared with files := c.shared.files.write call.ciphertext bytes }
      | none => c.shared }

/-- A call looks at its token. -/
def begin? (c : Calls) (i : Nat) : Option Calls := do
  let call ← c.calls[i]?
  match call.stage with
  | .fresh => some (c.move i call (if c.isCancelled call then .refused true else .ready))
  | _ => none

/-- A call hands in its job, or is turned away. -/
def push? (c : Calls) (i : Nat) : Option Calls := do
  let call ← c.calls[i]?
  match call.stage with
  | .ready =>
    let (handed, pipeline, shared) := c.pipeline.handIn c.gone (call.job i) c.shared
    some ({ c with pipeline, shared }.move i call (match handed with
      | .ok () => .waiting
      | .error failure => .ended (.error failure)))
  | _ => none

/-- The ciphertext of a call that is refused is removed, and the call is over. -/
def clear? (c : Calls) (i : Nat) : Option Calls := do
  let call ← c.calls[i]?
  match call.stage with
  | .refused heard =>
    some ({ c with shared := c.shared.erase call.ciphertext }.move i call
      (if heard then .ended (.error .cancelled) else .abandoned))
  | _ => none

/-- A call takes the reply that has come, or finds that none will. -/
def collect? (c : Calls) (i : Nat) : Option Calls := do
  let call ← c.calls[i]?
  match call.stage with
  | .waiting =>
    match c.pipeline.collect? i with
    | some (result, pipeline) => some ({ c with pipeline }.move i call (.ended result))
    | none => none
  | _ => none

/-- A caller stops waiting; what is being removed is removed nevertheless. -/
def abandon? (c : Calls) (i : Nat) : Option Calls := do
  let call ← c.calls[i]?
  match call.stage with
  | .fresh => some (c.move i call .abandoned)
  | .refused true => some (c.move i call (.refused false))
  | .waiting => some ({ c with pipeline := c.pipeline.hangUp i }.move i call .abandoned)
  | _ => none

/-- The worker goes on. Once it is gone it takes up no job. -/
def work? (c : Calls) : Option Calls :=
  if c.gone && c.pipeline.worker.isIdle then none
  else (c.pipeline.step? c.isCancelledAt c.shared).map fun (pipeline, shared) => { c with pipeline, shared }

/-- The first job in line is lost, if the worker is gone. -/
def lose? (c : Calls) : Option Calls :=
  if c.gone then c.pipeline.lose?.map fun pipeline => { c with pipeline } else none

/-- The job that has been taken up and has not begun is lost, if the worker is gone. -/
def miss? (c : Calls) : Option Calls :=
  if c.gone then c.pipeline.miss?.map fun pipeline => { c with pipeline } else none

/-- The calls after an action, where it can happen. -/
def step? (c : Calls) : Action → Option Calls
  | .enter id ciphertext work token content => some (c.enter ⟨id, ciphertext, work, token, .fresh⟩ content)
  | .cancel token => some { c with cancelled := token :: c.cancelled }
  | .begin i => c.begin? i
  | .push i => c.push? i
  | .clear i => c.clear? i
  | .collect i => c.collect? i
  | .abandon i => c.abandon? i
  | .work => c.work?
  | .close => some { c with gone := true }
  | .lose => c.lose?
  | .miss => c.miss?

/-- The calls after actions one after the other. -/
def run? (c : Calls) : List Action → Option Calls
  | [] => some c
  | action :: rest => (c.step? action).bind (run? · rest)

end Calls
end SealedDownload.Pipeline
