import SealedDownload.Simulation.Script
import SealedDownload.Downloader

/-! A downloader against a scripted transport, in virtual time. Time stands still while anything can
    go on. At each moment the linking tasks go first, then the downloads in the order of their numbers,
    then the worker, until nothing moves; a download goes as far as it can in its turn, and looking up
    the size of a file ends its turn. -/

namespace SealedDownload.Simulation

/-- A command. -/
inductive FleetCommand where
  | start (name : String) (request : Request) (token : Option String) (script : List ScriptStep)
  | advance (millis : Nat)
  | cancel (token : String)
  | abort (name : String)
  | shutdown
  | watch
  | signal
  | setCeiling (ceiling : Nat)
  | look

/-- A downloader and all around it. -/
structure Fleet where
  downloader : Downloader
  stage : ScriptedTransport
  /-- the calls of the transport that are going on, by download -/
  running : List (Nat × Running)
  /-- until when downloads rest -/
  rests : List (Nat × Nat)
  /-- the names of the downloads -/
  names : List (String × Nat)
  /-- the names of the tokens of callers; the number zero is for callers that never cancel -/
  tokens : List String
  /-- how many demands have been met -/
  met : Nat
  /-- the events so far with their times -/
  stamped : List (Nat × Event)
  /-- results that have not been told -/
  untold : List (String × Except Failure Delivered)
  /-- the downloads whose results have been told or will be -/
  noted : List Nat
  /-- whether a signal is being watched for -/
  watching : Bool
  now : Nat

namespace Fleet

/-- Nothing has happened yet. -/
def start (downloader : Downloader) : Fleet :=
  ⟨downloader, .empty, [], [], [], [], 0, [], [], [], false, 0⟩

/-- The number of the token of a name, and the fleet that knows it. -/
def tokenOf (f : Fleet) (name : Option String) : Nat × Fleet :=
  match name with
  | none => (0, f)
  | some name => match f.tokens.findIdx? (· = name) with
    | some i => (i + 1, f)
    | none => (f.tokens.length + 1, { f with tokens := f.tokens ++ [name] })

/-! ### Moves at one moment -/

/-- Meets a demand. -/
def meet (f : Fleet) : Demand → Fleet
  | .fetch i request resume =>
    let (running, stage) := f.stage.call f.now request resume
    { f with stage, running := (i, running) :: f.running }
  | .discard token => { f with stage := f.stage.discard f.now token }
  | .rest i delay => { f with rests := (i, timer f.now delay.ceilMillis) :: f.rests.filter (·.1 ≠ i) }

/-- Takes the downloader after a step, and meets its new demands. -/
def take (f : Fleet) (downloader : Downloader) : Fleet :=
  let demands := downloader.demands.drop f.met
  demands.foldl meet { f with downloader, met := downloader.demands.length }

/-- The call of the transport for a download is over. -/
def endCall (f : Fleet) (i : Nat) : Fleet :=
  if f.running.any (·.1 = i) then
    { f with running := f.running.filter (·.1 ≠ i), stage := f.stage.ended }
  else f

/-- The call of the transport for a download moves. -/
def moveCall? (f : Fleet) (i : Nat) : Option Fleet := do
  let call ← f.running.lookup i
  let download ← f.downloader.downloads[i]?
  match call.next f.now (f.downloader.isStopped download) with
  | .wait _ => none
  | .report completed total rest =>
    let d ← f.downloader.report? i completed total
    return { f with running := (i, rest) :: f.running.filter (·.1 ≠ i) }.take d
  | .settle finale =>
    let files := f.downloader.shared.files
    let (outcome, content) := ScriptedTransport.outcome finale files
    let drawn := { f.downloader with shared := { f.downloader.shared with files := files.draw } }
    let d ← drawn.settle? i outcome content 0
    return (f.endCall i).take d

/-- A download is woken if its rest is over. -/
def wake? (f : Fleet) (i : Nat) : Option Fleet := do
  let due ← f.rests.lookup i
  if due ≤ f.now then
    let d ← f.downloader.wake? i
    return { f with rests := f.rests.filter (·.1 ≠ i) }.take d
  else none

/-- The next step of a download. -/
def step? (f : Fleet) (i : Nat) : Option Fleet :=
  match f.downloader.advance? i with
  | some d => some (f.take d)
  | none => match f.moveCall? i with
    | some f => some f
    | none => f.wake? i

/-- Whether a download looks up the size of a file. -/
def isMeasuring (f : Fleet) (i : Nat) : Bool :=
  match f.downloader.phase? i with
  | some (.transferring transfer) => match transfer.phase with
    | .measuring _ => true
    | _ => false
  | _ => false

/-- The turn of a download, and whether anything has moved; `fuel` bounds the steps. -/
def turn (f : Fleet) (i : Nat) : (fuel : Nat) → Bool × Fleet
  | 0 => (false, f)
  | fuel + 1 => match f.step? i with
    | none => (false, f)
    | some f => if f.isMeasuring i then (true, f) else (true, (f.turn i fuel).2)

/-- The numbers of all downloads. -/
def numbers (f : Fleet) : List Nat := List.range f.downloader.downloads.length

/-- The linking tasks move. -/
def links (f : Fleet) : Bool × Fleet :=
  f.numbers.foldl (fun (moved, f) i => match f.downloader.link? i with
    | some d => (true, f.take d)
    | none => (moved, f)) (false, f)

/-- Every download has a turn. -/
def turns (f : Fleet) (fuel : Nat) : Bool × Fleet :=
  f.numbers.foldl (fun (moved, f) i =>
    let (more, f) := f.turn i fuel
    (moved || more, f)) (false, f)

/-- The worker goes as far as it can. -/
def works (f : Fleet) : (fuel : Nat) → Bool × Fleet
  | 0 => (false, f)
  | fuel + 1 => match f.downloader.work? with
    | some d => (true, ((f.take d).works fuel).2)
    | none => (false, f)

/-- Everything moves until nothing can; `fuel` bounds the rounds, and the steps in each. -/
def settle (f : Fleet) (fuel : Nat) : (rounds : Nat) → Fleet
  | 0 => f
  | rounds + 1 =>
    let (linked, f) := f.links
    let (turned, f) := f.turns fuel
    let (worked, f) := f.works fuel
    if linked || turned || worked then f.settle fuel rounds else f

/-- More steps than all scripts and downloads together can take. -/
def fuel (f : Fleet) : Nat :=
  let steps (script : List ScriptStep) := script.foldl (fun sum step => sum + 10 + step.reports.length) 0
  50 + 20 * f.downloader.downloads.length + f.stage.scripts.foldl (fun sum entry => sum + steps entry.2) 0 +
    f.running.foldl (fun sum entry => sum + entry.2.reports.length) 0

/-- Events that are new get the time of now. -/
def stamp (f : Fleet) : Fleet :=
  let fresh := f.downloader.shared.events.sent.drop f.stamped.length
  { f with stamped := f.stamped ++ fresh.map fun event => (f.now, event) }

/-- The name of a download. -/
def nameOf (f : Fleet) (i : Nat) : String := ((f.names.find? (·.2 = i)).map (·.1)).getD ""

/-- Notes the downloads that are over. -/
def note (f : Fleet) : Fleet :=
  f.numbers.foldl (fun f i =>
    match f.downloader.phase? i with
    | some (.over result) =>
      if f.noted.contains i then f
      else { f with noted := i :: f.noted, untold := f.untold ++ [(f.nameOf i, result)] }
    | _ => f) f

/-- Everything that can happen at this moment happens. -/
def quiet (f : Fleet) : Fleet := ((f.settle f.fuel f.fuel).stamp).note

/-! ### Time -/

/-- The times at which something is due. -/
def dueTimes (f : Fleet) : List Nat :=
  f.running.filterMap (fun entry => entry.2.due) ++ f.rests.map (·.2)

/-- Time passes up to a moment; what is due at that very moment is left to what comes next. `fuel`
    bounds how often something is due on the way. -/
def passTo (f : Fleet) (target : Nat) : (fuel : Nat) → Fleet
  | 0 => { f with now := target }
  | fuel + 1 =>
    match (f.dueTimes.filter fun due => f.now < due ∧ due < target).min? with
    | some due => ({ f with now := due }.quiet).passTo target fuel
    | none => { f with now := target }

/-! ### Commands -/

/-- A download is asked for; it has its first turn at once. -/
def begin (f : Fleet) (name : String) (request : Request) (token : Option String)
    (script : List ScriptStep) : Fleet :=
  let (token, f) := f.tokenOf token
  let f := match request.path with
    | .ok path => { f with stage := f.stage.append path script }
    | .error _ => f
  match f.downloader.ask request token with
  | .error failure => { f with untold := f.untold ++ [(name, .error failure)] }
  | .ok d =>
    let i := f.downloader.downloads.length
    let f := { f with names := (name, i) :: f.names }.take d
    (f.turn i f.fuel).2

/-- A download is dropped by its caller, unless it is over. -/
def abort (f : Fleet) (name : String) : Fleet :=
  match f.names.lookup name with
  | none => f
  | some i => match f.downloader.drop? i with
    | some d =>
      let f := (f.endCall i).take d
      { f with rests := f.rests.filter (·.1 ≠ i) }
    | none => f

/-- What a command does at once. -/
def act (f : Fleet) : FleetCommand → Fleet
  | .start name request token script => f.begin name request token script
  | .cancel name =>
    let (token, f) := f.tokenOf (some name)
    { f with downloader := f.downloader.cancel token }
  | .abort name => f.abort name
  | .shutdown => { f with downloader := f.downloader.shutdown }
  | .watch => { f with watching := true }
  | .signal =>
    if f.watching then { f with downloader := f.downloader.shutdown, watching := false } else f
  | .setCeiling ceiling => { f with downloader := f.downloader.setCeiling ceiling }
  | .advance _ => f
  | .look => f

/-- When a command that begins at a time is over. -/
def finish (now : Nat) : FleetCommand → Nat
  | .advance millis => timer now millis
  | _ => now + 1

/-- One command, and the time that it takes. -/
def command (f : Fleet) (c : FleetCommand) : Fleet :=
  let f := (f.act c).quiet
  let target := finish f.now c
  f.passTo target (f.fuel + (target - f.now))

/-- The results that have not been told, and the fleet once they are. -/
def tell (f : Fleet) : List (String × Except Failure Delivered) × Fleet :=
  (f.untold, { f with untold := [] })

/-- The events from one on, those of one time in the order of the downloads. -/
def eventsFrom (f : Fleet) (count : Nat) : List (Nat × Event) :=
  (f.stamped.drop count).mergeSort fun a b => a.1 < b.1 || (a.1 = b.1 && a.2.id.val ≤ b.2.id.val)

end Fleet
end SealedDownload.Simulation
