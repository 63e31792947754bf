import SealedDownload.Span

/-! The pauses between the attempts of a transfer: the first is given, each is a multiple of the one
    before, and none exceeds a ceiling. -/

namespace SealedDownload

/-- How often a transfer is attempted and how long it pauses in between. -/
structure RetryPolicy where
  /-- The number of attempts, the first included; zero counts as one. -/
  maxAttempts : UInt32
  initialDelay : Span
  maxDelay : Span
  multiplier : Float
  /-- Whether each pause is stretched by a random part of itself. -/
  jitter : Bool
deriving Inhabited

/-- The number of attempts that a policy allows, never none. -/
def RetryPolicy.attempts (policy : RetryPolicy) : Nat := max 1 policy.maxAttempts.toNat

/-- The schedule of pauses: the next one, and what the ones after it follow from. -/
structure Backoff where
  delay : Span
  maxDelay : Span
  multiplier : Float

namespace Backoff

/-- The schedule of a policy. -/
def ofPolicy (policy : RetryPolicy) : Backoff :=
  ⟨policy.initialDelay.min policy.maxDelay, policy.maxDelay, policy.multiplier⟩

/-- The multiplier of a schedule, where a negative one and one that is no number count as zero. -/
def factor (b : Backoff) : Float := if 0 < b.multiplier then b.multiplier else 0

/-- The pause after a given one: its product with the factor, or the ceiling where that is shorter or
    the product is no span. -/
def following (b : Backoff) (delay : Span) : Span :=
  match Span.ofSeconds? (delay.seconds * b.factor) with
  | some next => next.min b.maxDelay
  | none => b.maxDelay

/-- The schedule after its next pause. -/
def advance (b : Backoff) : Backoff := { b with delay := b.following b.delay }

/-- The first pauses of a schedule. -/
def delays (b : Backoff) : (count : Nat) → List Span
  | 0 => []
  | count + 1 => b.delay :: b.advance.delays count

end Backoff

/-- A pause stretched by a part of itself, which a draw between zero and one decides. -/
def Span.stretch (delay : Span) (draw : Float) : Span :=
  (Span.ofSeconds? (delay.seconds * (1 + draw))).getD delay

end SealedDownload
