/-! Punycode: a label outside ASCII written with the letters, digits and hyphens of ASCII. The
    characters outside ASCII are put in, lowest first, at places given as differences, which are
    written in base 36 with thresholds that adapt to the differences before. -/

namespace SealedDownload.Punycode

/-- The character of a digit below 36. -/
def digit (d : Nat) : Char := if d < 26 then Char.ofNat (97 + d) else Char.ofNat (22 + d)

/-- The digit that a character is. -/
def digit? (c : Char) : Option Nat :=
  if 'a' ≤ c ∧ c ≤ 'z' then some (c.toNat - 97)
  else if 'A' ≤ c ∧ c ≤ 'Z' then some (c.toNat - 65)
  else if '0' ≤ c ∧ c ≤ '9' then some (c.toNat - 22)
  else none

/-- The threshold of a digit's position. -/
def threshold (position bias : Nat) : Nat :=
  if position ≤ bias then 1 else if bias + 26 ≤ position then 26 else position - bias

/-- Divides by 35 until the rest is small, and counts the base for each division. -/
def damp (delta count : Nat) : Nat × Nat :=
  if 455 < delta then damp (delta / 35) (count + 36) else (delta, count)
termination_by delta
decreasing_by exact Nat.div_lt_self (by omega) (by omega)

/-- The bias after a difference. -/
def adapt (delta points : Nat) (first : Bool) : Nat :=
  let delta := if first then delta / 700 else delta / 2
  let (delta, count) := damp (delta + delta / points) 0
  count + 36 * delta / (delta + 38)

/-! ### Writing -/

/-- The digits of a difference; `fuel` bounds their number. -/
def digits (bias : Nat) : (fuel position q : Nat) → List Char
  | 0, _, _ => []
  | fuel + 1, position, q =>
    let t := threshold position bias
    if q < t then [digit q]
    else digit (t + (q - t) % (36 - t)) :: digits bias fuel (position + 36) ((q - t) / (36 - t))

/-- What the writer knows: the last character written, the difference so far, the bias, and how many
    characters are written. -/
structure Writer where
  last : Nat
  delta : Nat
  bias : Nat
  written : Nat
  basic : Nat

/-- One pass over the label, which writes the places of one character. -/
def Writer.pass (target : Nat) (w : Writer) : List Char → List Char × Writer
  | [] => ([], w)
  | c :: rest =>
    if c.toNat < target then Writer.pass target { w with delta := w.delta + 1 } rest
    else if c.toNat = target then
      let text := digits w.bias (w.delta + 1) 36 w.delta
      let bias := adapt w.delta (w.written + 1) (w.written = w.basic)
      let (more, w) :=
        Writer.pass target { w with delta := 0, bias := bias, written := w.written + 1 } rest
      (text ++ more, w)
    else Writer.pass target w rest

/-- Writes the characters outside ASCII, given lowest first and each once. -/
def Writer.run (label : List Char) (w : Writer) : List Nat → List Char
  | [] => []
  | target :: targets =>
    let w := { w with delta := w.delta + (target - w.last) * (w.written + 1) }
    let (text, w) := w.pass target label
    text ++ Writer.run label { w with last := target + 1, delta := w.delta + 1 } targets

/-- The Punycode form of a label. -/
def encode (label : List Char) : List Char :=
  let basic := label.filter (·.toNat < 128)
  let others := ((label.map (·.toNat)).filter (128 ≤ ·)).mergeSort.eraseDups
  let head := if basic.isEmpty then [] else basic ++ ['-']
  head ++ Writer.run label ⟨128, 0, 72, basic.length, basic.length⟩ others

/-! ### Reading -/

/-- The values that a reader takes are below this. -/
def valueLimit : Nat := UInt32.size

/-- Reads one difference and adds it to `value`: the sum and the text after it. -/
def difference? (bias : Nat) : (position weight value : Nat) → List Char → Option (Nat × List Char)
  | _, _, _, [] => none
  | position, weight, value, c :: rest =>
    match digit? c with
    | none => none
    | some d =>
      let value := value + d * weight
      let t := threshold position bias
      if valueLimit ≤ value then none
      else if d < t then some (value, rest)
      else if valueLimit ≤ weight * (36 - t) then none
      else difference? bias (position + 36) (weight * (36 - t)) value rest

/-- Puts in the characters that the differences name; `fuel` bounds their number. -/
def insertAll? : (fuel point place bias : Nat) → List Char → List Char → Option (List Char)
  | _, _, _, _, label, [] => some label
  | 0, _, _, _, _, _ :: _ => none
  | fuel + 1, point, place, bias, label, text =>
    match difference? bias 36 1 place text with
    | none => none
    | some (sum, rest) =>
      let size := label.length + 1
      let point := point + sum / size
      let at' := sum % size
      if point.isValidChar then
        insertAll? fuel point (at' + 1) (adapt (sum - place) size (place = 0))
          (label.take at' ++ Char.ofNat point :: label.drop at') rest
      else none

/-- The label that a Punycode text stands for. The last hyphen ends the characters of ASCII, unless
    there are none before it. -/
def decode? (text : List Char) : Option (List Char) :=
  let back := text.reverse
  let basic := ((back.dropWhile (· ≠ '-')).drop 1).reverse
  let rest := if basic.isEmpty then text else (back.takeWhile (· ≠ '-')).reverse
  insertAll? rest.length 128 0 72 basic rest

end SealedDownload.Punycode
