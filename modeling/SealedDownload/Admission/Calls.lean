import SealedDownload.Admission

/-! Calls that ask for a slot, step by step. The steps of different calls may come in any order; the
    token of a call may be cancelled at any moment, and its caller may drop it wherever it waits. A call
    that is given up in the line hears of nothing any more, and tidies its ticket up later. -/

namespace SealedDownload.Admission

/-- How the work of a call that holds a slot is over. -/
inductive WorkEnd where
  | succeeded
  | failed
  | dropped
deriving DecidableEq, Inhabited

/-- Why a call is given up. -/
inductive Reason where
  /-- its token is cancelled -/
  | cancelled
  /-- its caller has dropped it -/
  | dropped
deriving DecidableEq, Inhabited

/-- How a call is over. -/
inductive Ending where
  /-- it has held a slot for its work -/
  | served (work : WorkEnd)
  /-- it was given up before its work -/
  | givenUp (reason : Reason)
  /-- it waited for a slot that nobody could send it any more -/
  | shuttingDown
deriving DecidableEq, Inhabited

/-- Where a call is. -/
inductive Stage where
  /-- it has not begun -/
  | fresh
  /-- it has found its token uncancelled, and is about to ask -/
  | asking
  /-- it is in the line, or has been given a slot it does not know of -/
  | waiting (ticket : Nat)
  /-- it has been given up, and its ticket is still to be tidied up -/
  | leaving (ticket : Nat) (reason : Reason)
  /-- its ticket was not in the line, so it is about to hand on the slot of the ticket -/
  | returning (ticket : Nat) (reason : Reason)
  /-- it has taken the slot it was given, and is about to look at its token once more -/
  | claimed
  /-- it holds a slot and has found its token cancelled -/
  | yielding
  /-- it holds a slot for its work -/
  | holding
  /-- it is over -/
  | ended (ending : Ending)
deriving DecidableEq, Inhabited

/-- What can happen to a call. -/
inductive Action where
  /-- its token is cancelled -/
  | cancel
  /-- it begins with a look at its token -/
  | begin
  /-- it asks for a slot -/
  | arrive
  /-- it takes the slot it has been given -/
  | claim
  /-- it notices in the line that its token is cancelled -/
  | notice
  /-- its caller drops it before it has a slot -/
  | drop
  /-- its ticket is taken out of the line, if it is there -/
  | tidy
  /-- it hands on the slot of its ticket -/
  | handOn
  /-- it looks at its token once more -/
  | confirm
  /-- it gives its slot back, because its token is cancelled -/
  | yield
  /-- it gives its slot back, because its work is over -/
  | release (work : WorkEnd)
deriving DecidableEq

/-- What an action makes of a call and of the slots, where it can happen. -/
def Stage.act? (a : Admission) (cancelled : Bool) : Stage → Action → Option (Stage × Admission)
  | .fresh, .begin => some (if cancelled then .ended (.givenUp .cancelled) else .asking, a)
  | .fresh, .drop => some (.ended (.givenUp .dropped), a)
  | .asking, .arrive =>
    match a.enter with
    | (.slot, a) => some (.holding, a)
    | (.ticket ticket, a) => some (.waiting ticket, a)
  | .waiting ticket, .claim =>
    if a.isGranted ticket then some (.claimed, a.claim ticket)
    else if a.waiters.contains ticket then none
    else some (.ended .shuttingDown, a)
  | .waiting ticket, .notice => if cancelled then some (.leaving ticket .cancelled, a) else none
  | .waiting ticket, .drop => some (.leaving ticket .dropped, a)
  | .leaving ticket reason, .tidy =>
    if a.waiters.contains ticket then some (.ended (.givenUp reason), a.withdraw ticket)
    else some (.returning ticket reason, a)
  | .returning ticket reason, .handOn => some (.ended (.givenUp reason), a.handOn ticket)
  | .claimed, .confirm => some (if cancelled then .yielding else .holding, a)
  | .yielding, .yield => some (.ended (.givenUp .cancelled), a.release)
  | .holding, .release work => some (.ended (.served work), a.release)
  | _, _ => none

/-- A call, and whether its token is cancelled. Where calls share a token, its cancellation reaches one
    after the other. -/
structure Call where
  stage : Stage
  cancelled : Bool
deriving DecidableEq, Inhabited

namespace Call

/-- A call that has not begun. -/
def fresh : Call := ⟨.fresh, false⟩

/-- What an action makes of a call and of the slots, where it can happen. -/
def act? (a : Admission) (call : Call) : Action → Option (Call × Admission)
  | .cancel => some ({ call with cancelled := true }, a)
  | action => (call.stage.act? a call.cancelled action).map fun (stage, a) => ({ call with stage }, a)

end Call

/-- Any number of calls for the same slots; each is named by its place in the list. -/
structure Calls where
  admission : Admission
  calls : List Call
deriving DecidableEq

namespace Calls

/-- Calls that have not begun. -/
def start (capacity count : Nat) : Calls :=
  ⟨.ofCapacity capacity, List.replicate count .fresh⟩

/-- An action of one of the calls. -/
def step? (c : Calls) (i : Nat) (action : Action) : Option Calls := do
  let call ← c.calls[i]?
  let (call, admission) ← call.act? c.admission action
  return ⟨admission, c.calls.set i call⟩

/-- Actions one after the other. -/
def run? (c : Calls) : List (Nat × Action) → Option Calls
  | [] => some c
  | (i, action) :: rest => (c.step? i action).bind (run? · rest)

end Calls
end SealedDownload.Admission
