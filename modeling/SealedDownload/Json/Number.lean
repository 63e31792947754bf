import SealedDownload.Json
import SealedDownload.Decimal.Scaled

/-! Number literals: an optional minus, a whole part without leading zeros, an optional fraction and
    an optional power of ten. An integer is a literal with neither of the last two, and minus zero is
    none. -/

namespace SealedDownload.Json

/-- The parts of a literal, as written. -/
structure NumberParts where
  negative : Bool
  whole : Octets
  /-- The digits after the point, if there is a point. -/
  fraction : Option Octets
  /-- The sign and digits after `e`, if there is one. -/
  power : Option (Bool × Octets)

/-- The power of ten at the end of a literal; `none` outside if the rest is no power at all. -/
def power? : Octets → Option (Option (Bool × Octets))
  | [] => some none
  | mark :: rest =>
    if mark = 69 || mark = 101 then
      let (negative, digits) := match rest with
        | 43 :: digits => (false, digits)
        | 45 :: digits => (true, digits)
        | digits => (false, digits)
      if digits.isEmpty || !digits.all isDigit then none else some (some (negative, digits))
    else none

/-- The parts of a literal, if it is one. -/
def numberParts? (literal : Octets) : Option NumberParts :=
  let (negative, text) := match literal with
    | 45 :: text => (true, text)
    | text => (false, text)
  let whole := text.takeWhile isDigit
  let rest := text.dropWhile isDigit
  if whole.isEmpty || (whole.head? = some 48 && 1 < whole.length) then none
  else match rest with
    | 46 :: rest =>
      let fraction := rest.takeWhile isDigit
      if fraction.isEmpty then none
      else (power? (rest.dropWhile isDigit)).map fun power => ⟨negative, whole, some fraction, power⟩
    | rest => (power? rest).map fun power => ⟨negative, whole, none, power⟩

/-- The value of a row of digits. -/
def digitsValue (digits : Octets) : Nat := digits.foldl (fun n d => 10 * n + digitValue d) 0

namespace NumberParts

/-- The integer that a literal spells. -/
def integer? (parts : NumberParts) : Option Int :=
  match parts.fraction, parts.power with
  | none, none =>
    let size := digitsValue parts.whole
    if parts.negative then if size = 0 then none else some (-size) else some size
  | _, _ => none

/-- The double that a literal spells, if it is not too large for one. -/
def float? (parts : NumberParts) : Option Float :=
  let power : Int := match parts.power with
    | none => 0
    | some (false, digits) => digitsValue digits
    | some (true, digits) => -digitsValue digits
  Decimal.Literal.float? ⟨parts.negative, parts.whole.map digitValue,
    (parts.fraction.getD []).map digitValue, power⟩

end NumberParts

/-! ### Numbers as values -/

/-- The literal of a natural number. -/
def ofNat (n : Nat) : Json := .number (Octets.ofText (toString n))

/-- The literal of an integer. -/
def ofInt (n : Int) : Json := .number (Octets.ofText (toString n))

/-- The integer that a value spells. -/
def integer? : Json → Option Int
  | .number literal => (numberParts? literal).bind (·.integer?)
  | _ => none

/-- The natural number below a bound that a value spells. -/
def natBelow? (bound : Nat) (value : Json) : Option Nat :=
  value.integer?.bind fun n => if 0 ≤ n ∧ n < bound then some n.toNat else none

/-- The double that a value spells. -/
def float? : Json → Option Float
  | .number literal => (numberParts? literal).bind (·.float?)
  | _ => none

end SealedDownload.Json
