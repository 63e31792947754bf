import SealedDownload.Failure

/-! Computations that something may halt: a failure, which is an answer, or a crash, where an operation is
    used outside of what it is defined for. Where an operation is partial, `require` stands before it. -/

namespace SealedDownload

/-- What halts a computation. -/
inductive Halt where
  | failed (failure : Failure)
  | crashed
deriving DecidableEq, Inhabited

/-- A value, unless the computation of it was halted. -/
abbrev Checked := Except Halt

namespace Checked

variable {m : Type → Type} [Monad m] [MonadExceptOf Halt m]

/-- Crashes unless a condition holds. -/
def require (condition : Prop) [Decidable condition] : m Unit :=
  if condition then pure () else throw Halt.crashed

/-- Halts with a failure. -/
def fail {α : Type} (failure : Failure) : m α := throw (.failed failure)

/-- Reads as many bytes as are asked for, of those that a file has left; too few are a failure. -/
def read (count : Nat) (left : Octets) : m (Octets × Octets) :=
  if count ≤ left.length then pure (left.splitAt count)
  else fail (.io .unexpectedEof (some "failed to fill whole buffer"))

theorem require_of {condition : Prop} [Decidable condition] (h : condition) :
    (require condition : m Unit) = pure () := by
  exact if_pos h

theorem read_append {count : Nat} (bytes left : Octets) (h : bytes.length = count) :
    (read count (bytes ++ left) : m (Octets × Octets)) = pure (bytes, left) := by
  have hc : count ≤ (bytes ++ left).length := by
    rw [List.length_append, h]
    exact Nat.le_add_right _ _
  unfold read
  rw [if_pos hc, List.splitAt_eq, List.take_left' h, List.drop_left' h]

end Checked
end SealedDownload
