import SealedDownload.Admission.Calls
import SealedDownload.Failure

/-! Calls for slots that are advanced by hand, one turn at a time: nothing moves unless a command says
    so. A call asks for a slot only, or has work to do once it holds one. -/

namespace SealedDownload.Simulation

open Admission (Stage)

/-- What a call does with its slot: it rests some turns, and then succeeds or fails. -/
structure TurnWork where
  rests : Nat
  fails : Bool

/-- A call that is not over. -/
structure TurnCall where
  name : String
  token : Option String
  stage : Stage
  work : Option TurnWork

/-- A command. -/
inductive TurnCommand where
  | create (name : String) (token : Option String)
  | ask (name : String) (token : Option String)
  | enqueue (name : String) (token : Option String) (work : TurnWork)
  | poll (name : String)
  | drop (name : String)
  | cancel (token : String)

/-- What a command answers. -/
inductive TurnAnswer where
  | nothing
  | created
  | pending
  | admitted
  | held
  | finished (name : String)
  | failed (failure : Failure)
  | dropped
  | gone

/-- The slots, the calls, the tokens that are cancelled, and the names of those whose work began. -/
structure Turns where
  admission : Admission
  calls : List TurnCall
  cancelled : List String
  ran : List String

namespace Turns

/-- Nothing has happened yet. -/
def start (capacity : Nat) : Turns := ⟨.ofCapacity capacity, [], [], []⟩

/-- Whether the token of a call is cancelled. -/
def isCancelled (t : Turns) (call : TurnCall) : Bool :=
  match call.token with
  | some token => t.cancelled.contains token
  | none => false

/-- The call of a name. -/
def find? (t : Turns) (name : String) : Option TurnCall := t.calls.find? (·.name = name)

/-- Takes a call out. -/
def forget (t : Turns) (name : String) : Turns :=
  { t with calls := t.calls.filter (·.name ≠ name) }

/-- Puts a call in its place, or adds it. -/
def keep (t : Turns) (call : TurnCall) : Turns :=
  { t with calls := call :: t.calls.filter (·.name ≠ call.name) }

/-- Takes actions of a call one after the other, as far as they can happen. -/
def act (t : Turns) (call : TurnCall) : List Admission.Action → Turns × TurnCall
  | [] => (t, call)
  | action :: rest =>
    match call.stage.act? t.admission (t.isCancelled call) action with
    | some (stage, admission) => act { t with admission } { call with stage } rest
    | none => (t, call)

/-- A turn of a call that holds a slot and has work. -/
def workOn (t : Turns) (call : TurnCall) (work : TurnWork) : TurnAnswer × Turns :=
  match work.rests with
  | rests + 1 => (.pending, t.keep { call with work := some { work with rests } })
  | 0 =>
    let (t, _) := t.act call [.release (if work.fails then .failed else .succeeded)]
    (if work.fails then .failed (.protocol call.name) else .finished call.name, t.forget call.name)

/-- What follows once a call holds a slot. -/
def begin (t : Turns) (call : TurnCall) : TurnAnswer × Turns :=
  match call.work with
  | none => (.admitted, t.keep call)
  | some work => workOn { t with ran := t.ran ++ [call.name] } call work

/-- What a call answers that has asked for a slot, or has waited for one. -/
def heed (t : Turns) (call : TurnCall) : TurnAnswer × Turns :=
  match call.stage with
  | .holding => t.begin call
  | .ended .shuttingDown => (.failed .shuttingDown, t.forget call.name)
  | .ended _ => (.failed .cancelled, t.forget call.name)
  | _ => (.pending, t.keep call)

/-- A turn of a call. -/
def turn (t : Turns) (call : TurnCall) : TurnAnswer × Turns :=
  match call.stage with
  | .fresh =>
    let (t, call) := t.act call [.begin, .arrive]
    t.heed call
  | .waiting _ =>
    let (t, call) := t.act call
      (if t.isCancelled call then [.notice, .tidy, .handOn] else [.claim, .confirm])
    t.heed call
  | .holding =>
    match call.work with
    | none => (.held, t)
    | some work => t.workOn call work
  | _ => (.gone, t)

/-- A call is given up wherever it is. -/
def drop (t : Turns) (call : TurnCall) : Turns :=
  let (t, call) := t.act call (match call.stage with
    | .holding => [.release .dropped]
    | _ => [.drop, .tidy, .handOn])
  t.forget call.name

/-- One command. -/
def step (t : Turns) : TurnCommand → TurnAnswer × Turns
  | .create name token => (.created, t.keep ⟨name, token, .fresh, none⟩)
  | .ask name token => t.turn ⟨name, token, .fresh, none⟩
  | .enqueue name token work => t.turn ⟨name, token, .fresh, some work⟩
  | .poll name =>
    match t.find? name with
    | some call => t.turn call
    | none => (.gone, t)
  | .drop name =>
    match t.find? name with
    | some call => (.dropped, t.drop call)
    | none => (.gone, t)
  | .cancel token => (.nothing, { t with cancelled := token :: t.cancelled })

/-- What a step is reported with: how many slots are taken, and how many wait. -/
structure TurnReport where
  answer : TurnAnswer
  inFlight : Nat
  waiting : Nat

/-- Commands one after the other. -/
def run (t : Turns) : List TurnCommand → List TurnReport × Turns
  | [] => ([], t)
  | command :: rest =>
    let (answer, t) := t.step command
    let (reports, last) := t.run rest
    (⟨answer, t.admission.inFlight, t.admission.waiters.length⟩ :: reports, last)

/-- Gives up every call that is left, in the order of the names. -/
def close (t : Turns) : Turns :=
  (t.calls.mergeSort fun a b => a.name ≤ b.name).foldl drop t

end Turns
end SealedDownload.Simulation
