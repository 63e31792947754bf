/-! A channel that keeps the latest messages for any number of subscribers. Each subscriber receives
    every message sent after it joined; one that falls behind by more than the channel keeps is told
    once how many it missed, and goes on with the oldest message kept. -/

namespace SealedDownload

/-- The messages sent so far, and how many of the latest are kept. -/
structure Broadcast (α : Type) where
  capacity : Nat
  sent : List α
deriving Inhabited

namespace Broadcast

variable {α : Type}

/-- The least power of two from `n` on; `steps` bounds the search. -/
def powerFrom (n : Nat) : (steps : Nat) → (power : Nat) → Nat
  | 0, power => power
  | steps + 1, power => if n ≤ power then power else powerFrom n steps (2 * power)

/-- The least power of two that is not below `n`. -/
def roundUp (n : Nat) : Nat := powerFrom n n 1

/-- The largest capacity that can be asked for. -/
def maxCapacity : Nat := UInt64.size / 2 - 1

/-- A channel of at least the given capacity, which must be a positive one in range. -/
def open? (capacity : Nat) : Option (Broadcast α) :=
  if 0 < capacity ∧ capacity ≤ maxCapacity then some ⟨roundUp capacity, []⟩ else none

/-- The channel after one more message. -/
def send (c : Broadcast α) (message : α) : Broadcast α := { c with sent := c.sent ++ [message] }

end Broadcast

/-- A subscriber, as the number of messages it has received or missed. -/
structure Subscriber where
  seen : Nat
deriving Inhabited

/-- What a subscriber is given. -/
inductive Delivery (α : Type) where
  | empty
  | missed (count : Nat)
  | message (value : α)

namespace Subscriber

variable {α : Type}

/-- A subscriber that joins now. -/
def join (c : Broadcast α) : Subscriber := ⟨c.sent.length⟩

/-- What comes next for a subscriber, and the subscriber after it. -/
def receive (s : Subscriber) (c : Broadcast α) : Delivery α × Subscriber :=
  let oldest := c.sent.length - c.capacity
  if s.seen < oldest then (.missed (oldest - s.seen), ⟨oldest⟩)
  else match c.sent[s.seen]? with
    | some message => (.message message, ⟨s.seen + 1⟩)
    | none => (.empty, s)

/-- The next message, where a notice of missed ones is passed over. -/
def next (s : Subscriber) (c : Broadcast α) : Option α × Subscriber :=
  match s.receive c with
  | (.message message, s) => (some message, s)
  | (.empty, s) => (none, s)
  | (.missed _, s) =>
    match s.receive c with
    | (.message message, s) => (some message, s)
    | (_, s) => (none, s)

/-- All that is there for a subscriber, and the subscriber after it. -/
def drain (s : Subscriber) (c : Broadcast α) : List (Delivery α) × Subscriber :=
  let oldest := c.sent.length - c.capacity
  let notice := if s.seen < oldest then [Delivery.missed (oldest - s.seen)] else []
  (notice ++ (c.sent.drop (max s.seen oldest)).map .message, ⟨c.sent.length⟩)

end Subscriber
end SealedDownload
