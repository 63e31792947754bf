import SealedDownload.Retry
import SealedDownload.Event
import SealedDownload.Progress
import SealedDownload.Files

/-! One transfer as a machine: attempts to get an object below a size ceiling, with pauses between
    them. What happens to it comes as an input; what it wants done comes back as effects, in order.

    A token that a failed attempt leaves is handed to the next attempt or given up, and a transfer that
    has ended has none. The first report above the ceiling decides the attempt whatever the transport
    makes of it. -/

namespace SealedDownload

/-- Where a transfer is. -/
inductive TransferPhase where
  /-- before the first attempt of a request that cannot be built -/
  | doomed (failure : Failure)
  /-- before an attempt -/
  | ready (resume : Option ResumeToken)
  /-- the transport is at work; the first size above the ceiling that has been reported, or `noViolation` -/
  | calling (observed : Nat)
  /-- the object has come, and its size is looked up -/
  | measuring (file : Path)
  /-- between two attempts -/
  | resting (resume : Option ResumeToken)
  | ended (result : Except Failure Path)

/-- A transfer. -/
structure Transfer where
  id : TransferId
  /-- the largest size that is accepted -/
  limit : Nat
  /-- under which identifier progress is published, if it is -/
  attachment : Option AttachmentId
  maxAttempts : Nat
  jitter : Bool
  backoff : Backoff
  /-- the number of the attempt at hand, from one -/
  number : Nat
  phase : TransferPhase

namespace Transfer

/-- What happens to a transfer. -/
inductive Input where
  /-- the next attempt may begin; whether the transfer has been cancelled by then -/
  | begin (cancelled : Bool)
  /-- the transport reports how many bytes there are, and of how many -/
  | report (completed : Nat) (total : Option Nat)
  /-- the transport is done; `draw` stretches the pause that may follow -/
  | settle (outcome : Except Failure Path) (draw : Float)
  /-- the size of the object is known, or why it cannot be looked up -/
  | measure (size : Except IoKind Nat) (draw : Float)
  /-- the pause is over -/
  | wake
  /-- the transfer is cancelled in a pause -/
  | interrupt

/-- What a transfer wants done. -/
inductive Effect where
  /-- the transport is to go to work -/
  | call (resume : Option ResumeToken)
  /-- the transport is to be stopped -/
  | trip
  /-- a token will not be used any more -/
  | discard (token : ResumeToken)
  | remove (file : Path)
  | publish (id : AttachmentId) (fraction : Float)
  | emit (event : Event)
  | rest (delay : Span)

/-- A transfer before its first attempt. -/
def start (id : TransferId) (request : Request) (limit : Nat) (policy : RetryPolicy) : Transfer :=
  let phase := match request.forTransport with
    | .ok _ => .ready none
    | .error failure => .doomed failure
  ⟨id, limit, request.attachmentId?, policy.attempts, policy.jitter, .ofPolicy policy, 1, phase⟩

/-- The state that a transfer shows. -/
def state (t : Transfer) : TransferState :=
  match t.phase with
  | .doomed _ => .idle
  | .ready _ => if t.number = 1 then .idle else .retrying
  | .calling _ => .inFlight
  | .measuring _ => .inFlight
  | .resting _ => .retrying
  | .ended (.ok _) => .succeeded
  | .ended (.error _) => .failed

/-- Stands for no size above the ceiling. -/
def noViolation : Nat := 0

/-- Gives a token up, if there is one. -/
def discards (token : Option ResumeToken) : List Effect := (token.map Effect.discard).toList

/-- The transfer after it has ended. -/
def finish (t : Transfer) (result : Except Failure Path) : Transfer := { t with phase := .ended result }

/-- The size above the ceiling that a report shows, the total before the bytes so far. -/
def excess? (limit completed : Nat) (total : Option Nat) : Option Nat :=
  match total with
  | some total => if limit < total then some total else if limit < completed then some completed else none
  | none => if limit < completed then some completed else none

/-- The pause before the next attempt. -/
def pause (t : Transfer) (draw : Float) : Span :=
  if t.jitter then t.backoff.delay.stretch draw else t.backoff.delay

/-- An attempt has failed. Where another one may succeed and is allowed, a pause follows. -/
def fail (t : Transfer) (failure : Failure) (draw : Float) : Transfer × List Effect :=
  if failure.isRetryable ∧ t.number < t.maxAttempts then
    let delay := t.pause draw
    ({ t with phase := .resting failure.resume?, backoff := t.backoff.advance },
      [.emit (.retrying t.id (UInt32.ofNat t.number) delay.millisWord failure.message), .rest delay])
  else (t.finish (.error failure.withoutResume), discards failure.resume?)

/-- The size that stays noted when another one above the ceiling is reported: the first one. -/
def note (noted observed : Nat) : Nat := if noted = noViolation then observed else noted

/-- A report of the transport. -/
def report (t : Transfer) (noted completed : Nat) (total : Option Nat) : Transfer × List Effect :=
  if completed = 0 then (t, [])
  else match excess? t.limit completed total with
    | some observed => ({ t with phase := .calling (note noted observed) }, [.trip])
    | none => match t.attachment, Progress.fraction? completed total with
      | some id, some fraction => (t, [.publish id fraction])
      | _, _ => (t, [])

/-- The transport is done. -/
def settle (t : Transfer) (noted : Nat) (outcome : Except Failure Path) (draw : Float) : Transfer × List Effect :=
  if noted ≠ noViolation then
    (t.finish (.error (.oversize t.limit noted)), match outcome with
      | .ok file => [.remove file]
      | .error failure => discards failure.resume?)
  else match outcome with
    | .ok file => ({ t with phase := .measuring file }, [])
    | .error failure => t.fail failure draw

/-- The size of the object is known, or cannot be looked up. -/
def measure (t : Transfer) (file : Path) (size : Except IoKind Nat) (draw : Float) :
    Transfer × List Effect :=
  match size with
  | .error kind =>
    let (t, effects) := t.fail (.io kind none) draw
    (t, .remove file :: effects)
  | .ok size =>
    if t.limit < size then (t.finish (.error (.oversize t.limit size)), [.remove file])
    else (t.finish (.ok file), [.emit (.transferComplete t.id (UInt64.ofNat size))])

/-- One input; one that does not fit where the transfer is changes nothing. -/
def step (t : Transfer) (input : Input) : Transfer × List Effect :=
  match t.phase, input with
  | .doomed failure, .begin _ => (t.finish (.error failure), [])
  | .ready resume, .begin true => (t.finish (.error .cancelled), discards resume)
  | .ready resume, .begin false => ({ t with phase := .calling noViolation }, [.call resume])
  | .calling noted, .report completed total => t.report noted completed total
  | .calling noted, .settle outcome draw => t.settle noted outcome draw
  | .measuring file, .measure size draw => t.measure file size draw
  | .resting resume, .wake => ({ t with phase := .ready resume, number := t.number + 1 }, [])
  | .resting resume, .interrupt => (t.finish (.error .cancelled), discards resume)
  | _, _ => (t, [])

/-- Inputs one after the other, and all effects. -/
def run (t : Transfer) : List Input → Transfer × List Effect
  | [] => (t, [])
  | input :: rest =>
    let (t, effects) := t.step input
    let (t, more) := t.run rest
    (t, effects ++ more)

/-- The result of a transfer that has ended. -/
def result? (t : Transfer) : Option (Except Failure Path) :=
  match t.phase with
  | .ended result => some result
  | _ => none

end Transfer
end SealedDownload
