import SealedDownload.Pipeline.Calls

/-! One pipeline on a bench: jobs are handed in, held, let go and waited for by command. The worker goes
    as far as it can after every command; a job that is held stops it where its work would begin. -/

namespace SealedDownload.Simulation

/-- What a job on the bench does. -/
inductive BenchWork where
  | decrypt (metadata : Metadata)
  | validate (validator : Validator) (metadata : Metadata)
  | succeed
  | fail
  | crash

/-- A job on the bench. -/
structure BenchJob where
  name : String
  id : TransferId
  work : BenchWork
  /-- the content of the ciphertext; without one there is no file -/
  ciphertext : Option Octets
  token : Option String
  held : Bool

/-- A command. -/
inductive BenchCommand where
  | start (job : BenchJob)
  | cancel (token : String)
  | abandon (name : String)
  | release (name : String)
  | wait (name : String)

/-- A job that has been started. -/
structure BenchCall where
  job : BenchJob
  /-- whether its work may not begin yet -/
  held : Bool
  abandoned : Bool

namespace BenchCall

/-- The call with its work free to begin. -/
def letGo (call : BenchCall) : BenchCall := { call with held := false }

/-- The call when nobody waits for it any more. -/
def abandon (call : BenchCall) : BenchCall := { call with abandoned := true }

end BenchCall

/-- The bench: the calls to the pipeline, and what is known of each of them, in the same order. -/
structure Bench where
  line : Pipeline.Calls
  calls : List BenchCall
  /-- names of the jobs whose scripted work has begun -/
  ran : List String

namespace Bench

/-- The folder of plaintexts. -/
def plaintextFolder : Path := "plaintext"

/-- The folder of validated attachments. -/
def validatedFolder : Path := "validated"

/-- The ciphertext of a job. -/
def ciphertextPath (name : String) : Path := "ciphertext/" ++ name ++ ".download"

/-- The output of a job that succeeds. -/
def outputPath (name : String) : Path := "output/" ++ name

/-- What such a job writes. -/
def outputText : Octets := Octets.ofText "result"

/-- An empty bench; the channel of events keeps all that a script can send. -/
def empty : Bench := ⟨.start ⟨.empty, ⟨Broadcast.maxCapacity, []⟩⟩, [], []⟩

/-- The files and the channel of events. -/
def shared (b : Bench) : Shared := b.line.shared

/-- The work of a job. -/
def workOf (job : BenchJob) : Work :=
  match job.work with
  | .decrypt metadata => Work.decrypt plaintextFolder metadata
  | .validate validator metadata => Work.validate validator metadata
  | .succeed => fun files _ =>
    (.returned (.ok (.plaintext (outputPath job.name))), files.write (outputPath job.name) outputText)
  | .fail => fun files _ => (.returned (.error (.validation "scripted")), files)
  | .crash => fun files _ => (.crashed, files)

/-- Whether a job is scripted, so that its beginning is recorded. -/
def isScripted : BenchWork → Bool
  | .decrypt _ => false
  | .validate .. => false
  | _ => true

/-- The number of the call of a name. -/
def number? (b : Bench) (name : String) : Option Nat := b.calls.findIdx? (·.job.name = name)

/-- Changes the call of a name. -/
def update (b : Bench) (name : String) (change : BenchCall → BenchCall) : Bench :=
  { b with calls := b.calls.map fun call => if call.job.name = name then change call else call }

/-- Whether the work that the worker is about to do is held. -/
def isHeld (b : Bench) : Bool :=
  match b.line.pipeline.worker with
  | .operating job => ((b.calls[job.call]?).map (·.held)).getD false
  | _ => false

/-- The name to record if the worker is about to do a scripted work. -/
def beginning (b : Bench) : List String :=
  match b.line.pipeline.worker with
  | .operating job =>
    match b.calls[job.call]? with
    | some call => if isScripted call.job.work then [call.job.name] else []
    | none => []
  | _ => []

/-- The worker goes on until it has nothing to do or is held; `steps` bounds how far. -/
def advance (b : Bench) : (steps : Nat) → Bench
  | 0 => b
  | steps + 1 =>
    if b.isHeld then b
    else
      match b.line.step? .work with
      | none => b
      | some line => { b with line, ran := b.ran ++ b.beginning }.advance steps

/-- No job needs more steps of the worker than these. -/
def stepsPerJob : Nat := 6

/-- The worker goes as far as it can. -/
def settle (b : Bench) : Bench := b.advance (stepsPerJob * (b.calls.length + 1))

/-- Takes those of some actions that can happen. -/
def take (b : Bench) (actions : List Pipeline.Action) : Bench :=
  { b with line := actions.foldl (fun line action => (line.step? action).getD line) b.line }

/-- Hands a job in. -/
def start (b : Bench) (job : BenchJob) : Bench :=
  let number := b.calls.length
  let call : BenchCall := ⟨job, job.held, false⟩
  { b with calls := b.calls ++ [call] }.take
    [.enter job.id (ciphertextPath job.name) (workOf job) job.token job.ciphertext,
      .begin number, .push number, .clear number]

/-- The result of the call of a number that has been waited for. -/
def resultOf (b : Bench) (number : Nat) : Option (Except Failure Product) :=
  if ((b.calls[number]?).map (·.abandoned)).getD true then none
  else (b.line.calls[number]?).bind (·.result?)

/-- One command, and the result that it waits for. -/
def step (b : Bench) (command : BenchCommand) : Option (Except Failure Product) × Bench :=
  match command with
  | .start job => (none, (b.start job).settle)
  | .cancel token => (none, (b.take [.cancel token]).settle)
  | .abandon name =>
    match b.number? name with
    | some number => (none, (b.take [.abandon number]).update name BenchCall.abandon)
    | none => (none, b)
  | .release name => finish (b.update name BenchCall.letGo) name
  | .wait name => finish b name
where
  finish (b : Bench) (name : String) : Option (Except Failure Product) × Bench :=
    let b := b.settle
    match b.number? name with
    | some number =>
      let b := b.take [.collect number]
      (b.resultOf number, b)
    | none => (none, b)

/-- Lets every job go. -/
def close (b : Bench) : Bench :=
  { b with calls := b.calls.map BenchCall.letGo }.settle

/-- The names of calls for whose names a file exists, in order. -/
def namesWith (b : Bench) (path : String → Path) : List String :=
  ((b.calls.map (·.job.name)).filter fun name => b.shared.files.contains (path name)).mergeSort
    fun a b => a ≤ b

end Bench
end SealedDownload.Simulation
