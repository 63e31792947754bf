/-! Reading a decimal as a double: the leading digits that fit a 64-bit word are converted first and
    then scaled by a power of ten, in double arithmetic throughout. -/

namespace SealedDownload.Decimal

/-- The digits of a decimal before and after the point, and its written power of ten. -/
structure Literal where
  negative : Bool
  whole : List Nat
  fraction : List Nat
  power : Int

/-- The value and number of the digits taken into the word so far, and whether one has been left
    out already. -/
structure Word where
  value : Nat
  taken : Nat
  full : Bool

/-- Takes one more digit while the word stays below `2 ^ 64`; digits after the first that does not
    fit are left out as well. -/
def Word.take (w : Word) (d : Nat) : Word :=
  if w.full || UInt64.size ≤ 10 * w.value + d then { w with full := true }
  else ⟨10 * w.value + d, w.taken + 1, false⟩

/-- The power of ten as a double. -/
def powerOfTen (n : Nat) : Float := Float.ofScientific 1 false n

/-- Scales down by `10 ^ n`, in steps of at most `10 ^ 308`. -/
def scaleDown (x : Float) (n : Nat) : Float :=
  if n ≤ 308 then x / powerOfTen n
  else if x == 0 then x
  else scaleDown (x / powerOfTen 308) (n - 308)
termination_by n
decreasing_by omega

/-- Scales up by `10 ^ n`; none if the result is not finite. -/
def scaleUp? (x : Float) (n : Nat) : Option Float :=
  if n ≤ 308 then
    let y := x * powerOfTen n
    if y.isInf then none else some y
  else if x == 0 then some x
  else none

/-- The double of a literal; none if it is too large. -/
def Literal.float? (l : Literal) : Option Float :=
  let whole := l.whole.foldl Word.take ⟨0, 0, false⟩
  let word := l.fraction.foldl Word.take { whole with full := false }
  let shift : Int := (l.whole.length - whole.taken : Nat) - (word.taken - whole.taken : Nat)
  let start : Float := (UInt64.ofNat word.value).toFloat
  let size := match l.power + shift with
    | .ofNat n => scaleUp? start n
    | .negSucc n => some (scaleDown start (n + 1))
  size.map fun x => if l.negative then -x else x

end SealedDownload.Decimal
