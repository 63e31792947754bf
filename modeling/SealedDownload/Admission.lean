/-! Admission to a limited number of slots, in order of arrival. A slot that becomes free passes to the
    first waiter and never to a newcomer. A waiter that leaves is taken out of the line; if it had been
    given a slot by then, it hands the slot on. -/

namespace SealedDownload

/-- The slots and the line before them. -/
structure Admission where
  capacity : Nat
  /-- how many slots are taken -/
  inFlight : Nat
  /-- the tickets in the line, first one first -/
  waiters : List Nat
  /-- how many tickets have been given out: no more than there have been calls, so that a word holds it as long as
      these are fewer than `2 ^ 64` -/
  nextTicket : Nat
  /-- tickets that have been given a slot and have neither claimed it nor handed it on -/
  granted : List Nat
deriving DecidableEq, Inhabited

namespace Admission

/-- Slots of which none is taken; there is always at least one. -/
def ofCapacity (capacity : Nat) : Admission := ⟨max 1 capacity, 0, [], 0, []⟩

/-- A slot at once, or a ticket for the end of the line. -/
inductive Entry where
  | slot
  | ticket (number : Nat)
deriving DecidableEq

/-- A newcomer arrives. It gets a slot at once only if one is free and nobody waits. -/
def enter (a : Admission) : Entry × Admission :=
  if a.waiters = [] ∧ a.inFlight < a.capacity then (.slot, { a with inFlight := a.inFlight + 1 })
  else (.ticket a.nextTicket,
    { a with waiters := a.waiters ++ [a.nextTicket], nextTicket := a.nextTicket + 1 })

/-- A slot becomes free and passes to the first waiter. -/
def release (a : Admission) : Admission :=
  let inFlight := a.inFlight - 1
  match a.waiters with
  | ticket :: rest =>
    if inFlight < a.capacity then
      { a with inFlight := inFlight + 1, waiters := rest, granted := ticket :: a.granted }
    else { a with inFlight := inFlight }
  | [] => { a with inFlight := inFlight }

/-- Whether a ticket has been given a slot. -/
def isGranted (a : Admission) (ticket : Nat) : Bool := a.granted.contains ticket

/-- A ticket that has been given a slot takes it. -/
def claim (a : Admission) (ticket : Nat) : Admission := { a with granted := a.granted.erase ticket }

/-- A ticket is taken out of the line. -/
def withdraw (a : Admission) (ticket : Nat) : Admission :=
  { a with waiters := a.waiters.erase ticket }

/-- The slot that a ticket has been given, and that nobody will take, becomes free. -/
def handOn (a : Admission) (ticket : Nat) : Admission := (a.claim ticket).release

/-- A ticket is given up: its place in the line, or the slot it has been given. -/
def leave (a : Admission) (ticket : Nat) : Admission :=
  if a.waiters.contains ticket then a.withdraw ticket else a.handOn ticket

end Admission
end SealedDownload
