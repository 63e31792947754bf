import SealedDownload.Simulation.Script

/-! One transfer against a scripted transport, in virtual time. A cancellation takes effect once the
    transfer has gone as far as it can at that time. -/

namespace SealedDownload.Simulation

/-- A transfer and all around it. -/
structure Solo where
  transfer : Transfer
  request : Request
  stage : ScriptedTransport
  /-- the call of the transport that is going on -/
  running : Option Running
  /-- until when the transfer rests -/
  restUntil : Nat
  /-- whether the token of the attempt is cancelled -/
  tripped : Bool
  files : Files
  tracker : Tracker
  events : List Event
  now : Nat
  /-- whether the caller has cancelled -/
  cancelled : Bool
  /-- when the caller will cancel -/
  cancelAt : Option Nat

namespace Solo

/-- A transfer before its first attempt. -/
def start (id : TransferId) (request : Request) (limit : Nat) (policy : RetryPolicy)
    (script : List ScriptStep) (cancelAt : Option Nat) : Solo :=
  let stage := match request.path with
    | .ok path => ScriptedTransport.empty.append path script
    | .error _ => .empty
  ⟨.start id request limit policy, request, stage, none, 0, false, .empty, .empty, [], 0,
    cancelAt = some 0, (cancelAt.filter (0 < ·)).map (timer 0)⟩

/-- Does what the transfer wants done. -/
def perform (s : Solo) : Transfer.Effect → Solo
  | .call resume => match s.request.forTransport with
    | .ok request =>
      let (running, stage) := s.stage.call s.now request resume
      { s with running := some running, stage, tripped := false }
    | .error _ => s
  | .trip => { s with tripped := true }
  | .discard token => { s with stage := s.stage.discard s.now token }
  | .remove file => { s with files := s.files.erase file }
  | .publish id fraction => { s with tracker := s.tracker.set id fraction }
  | .emit event => { s with events := s.events ++ [event] }
  | .rest delay => { s with restUntil := timer s.now delay.ceilMillis }

/-- Gives the transfer an input. -/
def feed (s : Solo) (input : Transfer.Input) : Solo :=
  let (transfer, effects) := s.transfer.step input
  effects.foldl perform { s with transfer }

/-- The caller cancels if it is time to, or else time passes until something is due. -/
def wait? (s : Solo) (due : Option Nat) : Option Solo :=
  if s.cancelAt.any (· ≤ s.now) then some { s with cancelled := true, cancelAt := none }
  else
    let times := (due.toList ++ s.cancelAt.toList).filter (s.now < ·)
    times.min?.map fun time => { s with now := time }

/-- The call of the transport moves. -/
def moveCall? (s : Solo) (call : Running) : Option Solo :=
  match call.next s.now (s.cancelled || s.tripped) with
  | .wait due => s.wait? due
  | .report completed total rest =>
    some ({ s with running := some rest }.feed (.report completed total))
  | .settle finale =>
    let (outcome, content) := ScriptedTransport.outcome finale s.files
    let files := match outcome, content with
      | .ok path, some bytes => s.files.write path bytes
      | _, _ => s.files
    some ({ s with running := none, stage := s.stage.ended, files := files.draw }.feed
      (.settle outcome 0))

/-- The size of a file. -/
def sizeOf (s : Solo) (file : Path) : Except IoKind Nat :=
  match s.files.get? file with
  | some bytes => .ok bytes.length
  | none => .error .notFound

/-- The next step, until the transfer has ended or waits for ever. -/
def step? (s : Solo) : Option Solo :=
  match s.transfer.phase with
  | .doomed _ => some (s.feed (.begin s.cancelled))
  | .ready _ => some (s.feed (.begin s.cancelled))
  | .calling _ => s.running.bind s.moveCall?
  | .measuring file => some (s.feed (.measure (s.sizeOf file) 0))
  | .resting _ =>
    if s.cancelled then some (s.feed .interrupt)
    else if s.restUntil ≤ s.now then some (s.feed .wake)
    else s.wait? (some s.restUntil)
  | .ended _ => none

/-- Steps one after the other; `fuel` bounds their number. -/
def run (s : Solo) : (fuel : Nat) → Solo
  | 0 => s
  | fuel + 1 => match s.step? with
    | some s => s.run fuel
    | none => s

/-- More steps than a script of so many reports in so many steps can take. -/
def fuelFor (script : List ScriptStep) : Nat :=
  20 * (script.length + 2) + script.foldl (fun sum step => sum + step.reports.length) 0

end Solo
end SealedDownload.Simulation
