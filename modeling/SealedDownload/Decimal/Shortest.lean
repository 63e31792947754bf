/-! The fewest decimal digits that read back as a given double, and two ways to write them. A double
    is `m · 2 ^ q`; the reals that round to it form an interval around it, and the digits are those of
    the point of the coarsest decimal grid that lies in it and is nearest to the double. -/

namespace SealedDownload.Decimal

/-- A positive rational, as a numerator and a denominator. -/
structure Ratio where
  num : Nat
  den : Nat

namespace Ratio

/-- Comparison by cross multiplication. -/
def le (a b : Ratio) : Bool := a.num * b.den ≤ b.num * a.den

/-- Strict comparison by cross multiplication. -/
def lt (a b : Ratio) : Bool := a.num * b.den < b.num * a.den

/-- The rational `m · b ^ e`. -/
def scale (m b : Nat) (e : Int) : Ratio :=
  match e with
  | .ofNat n => ⟨m * b.pow n, 1⟩
  | .negSucc n => ⟨m, b.pow (n + 1)⟩

/-- The largest multiple of `10 ^ e` that does not exceed the value, counted in such units. -/
def floorAt (a : Ratio) (e : Int) : Nat :=
  match e with
  | .ofNat n => a.num / (a.den * Nat.pow 10 n)
  | .negSucc n => a.num * Nat.pow 10 (n + 1) / a.den

end Ratio

/-- A finite double that is not zero, without its sign: `mantissa · 2 ^ exponent`. -/
structure Magnitude where
  mantissa : Nat
  exponent : Int
  /-- The neighbour below is half as far away as the one above. -/
  isPowerOfTwo : Bool

/-- The magnitude that the bits of a double give it; none for zero, infinities and not-a-number. -/
def Magnitude.ofBits? (bits : UInt64) : Option Magnitude :=
  let fraction : Nat := bits.toNat % Nat.pow 2 52
  let biased : Nat := bits.toNat / Nat.pow 2 52 % Nat.pow 2 11
  if biased = 2047 then none
  else if biased = 0 then
    if fraction = 0 then none else some ⟨fraction, -1074, false⟩
  else some ⟨Nat.pow 2 52 + fraction, (biased : Int) - 1075, fraction = 0 ∧ 1 < biased⟩

namespace Magnitude

/-- The value itself. -/
def value (x : Magnitude) : Ratio := .scale x.mantissa 2 x.exponent

/-- The lower end of the interval of reals that round to the value. -/
def lower (x : Magnitude) : Ratio :=
  if x.isPowerOfTwo then .scale (4 * x.mantissa - 1) 2 (x.exponent - 2)
  else .scale (2 * x.mantissa - 1) 2 (x.exponent - 1)

/-- The upper end of the interval of reals that round to the value. -/
def upper (x : Magnitude) : Ratio := .scale (2 * x.mantissa + 1) 2 (x.exponent - 1)

/-- Whether a real rounds to the value; a tie goes to the even mantissa. -/
def covers (x : Magnitude) (r : Ratio) : Bool :=
  if x.mantissa % 2 = 0 then x.lower.le r && r.le x.upper else x.lower.lt r && r.lt x.upper

/-- The position of the first digit: the value lies in `[10 ^ e, 10 ^ (e + 1))`. -/
def leading (x : Magnitude) : Int :=
  let fits (e : Int) : Bool := (Ratio.scale 1 10 e).le x.value && x.value.lt (.scale 1 10 (e + 1))
  ((List.range 640).map fun i : Nat => (i : Int) - 330).find? fits |>.getD 0

/-- The point of the grid of step `10 ^ e` that reads back as the value, the nearer one if both
    neighbours do. -/
def onGrid? (x : Magnitude) (e : Int) : Option Nat :=
  let below := x.value.floorAt e
  let above := below + 1
  match 0 < below && x.covers (.scale below 10 e), x.covers (.scale above 10 e) with
  | true, true =>
    -- the nearer neighbour: compare the value with the middle of the two
    let middle := Ratio.scale (10 * below + 5) 10 (e - 1)
    if x.value.lt middle then some below
    else if middle.lt x.value then some above
    else some (if below % 2 = 0 then below else above)
  | true, false => some below
  | false, true => some above
  | false, false => none

end Magnitude

/-- A decimal: `digits · 10 ^ exponent`. -/
structure Digits where
  digits : Nat
  exponent : Int

/-- The shortest decimal that reads back as the value. -/
def shortest (x : Magnitude) : Digits :=
  let top := x.leading
  ((List.range 17).findSome? fun n : Nat =>
    (x.onGrid? (top - n)).map fun d => ⟨d, top - n⟩).getD ⟨0, 0⟩

/-- Drops the zeros at the end of the digits. -/
def Digits.trim (d : Digits) : Digits :=
  let text := (Nat.toDigits 10 d.digits).reverse
  let zeros := (text.takeWhile (· = '0')).length
  if d.digits = 0 then d else ⟨d.digits / Nat.pow 10 zeros, d.exponent + zeros⟩

/-! ### Writing -/

/-- Places before the point are filled with zeros, and places after it as well; no exponent is ever
    written. `fraction` says what follows the digits of a whole number. -/
def Digits.positional (d : Digits) (fraction : String) : String :=
  let text := Nat.toDigits 10 d.digits
  match d.exponent with
  | .ofNat n => String.ofList (text ++ List.replicate n '0') ++ fraction
  | .negSucc n =>
    let places := n + 1
    if places < text.length then
      String.ofList (text.take (text.length - places) ++ ['.'] ++ text.drop (text.length - places))
    else String.ofList (['0', '.'] ++ List.replicate (places - text.length) '0' ++ text)

/-- The first digit, a point if more follow, and the power of ten after `e`. -/
def Digits.exponential (d : Digits) : String :=
  let text := Nat.toDigits 10 d.digits
  let power := d.exponent + (text.length - 1 : Nat)
  String.ofList (text.take 1 ++ (if 1 < text.length then '.' :: text.drop 1 else []))
    ++ "e" ++ toString power

/-- Whether the sign bit of a double is set. -/
def isNegative (x : Float) : Bool := UInt64.size / 2 ≤ x.toBits.toNat

/-- A double for a reader: its shortest digits in full, never an exponent. -/
def display (x : Float) : String :=
  if x.isNaN then "NaN"
  else
    let sign := if isNegative x then "-" else ""
    if x.isInf then sign ++ "inf"
    else match Magnitude.ofBits? x.toBits with
      | none => sign ++ "0"
      | some m => sign ++ (shortest m).trim.positional ""

/-- A finite double as a literal of a data format: a whole number keeps `.0`, and values from `1e16`
    on and below `1e-5` have an exponent. -/
def literal (x : Float) : String :=
  let sign := if isNegative x then "-" else ""
  match Magnitude.ofBits? x.toBits with
  | none => sign ++ "0.0"
  | some m =>
    let d := (shortest m).trim
    let point := d.exponent + ((Nat.toDigits 10 d.digits).length : Nat)
    sign ++ if -5 < point ∧ point ≤ 16 then d.positional ".0" else d.exponential

end SealedDownload.Decimal
