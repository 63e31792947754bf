import SealedDownload.Url
import SealedDownload.Url.Mapping
import SealedDownload.Url.Punycode
import SealedDownload.Text.Composition
import SealedDownload.Text.Direction
import SealedDownload.Text.Joining
import SealedDownload.Text.Percent

/-! Registered names. A name is percent-decoded, its characters are mapped and composed, and its
    labels are checked and written in ASCII: a label with other characters becomes `xn--` and its
    Punycode, and one that is given in that form must be what writing gives. No name holds a mark
    that delimits parts of a locator, a control or a blank. -/

namespace SealedDownload.Domain

/-- A mark that no name may hold. -/
def isForbidden (c : Char) : Bool :=
  c.toNat ≤ 32 || c.toNat = 127 || "#/:<>?@[\\]^|%".toList.contains c

/-- Whether a text holds ASCII alone. -/
def isAscii (text : List Char) : Bool := text.all (·.toNat < 128)

/-- A name in its mapped and composed form, if every character of it may stand in one. -/
def normalize? (name : List Char) : Option (List Char) := do
  let name := Text.Composition.compose (← name.mapM mapChar?).flatten
  if name.any isForbidden then none else some name

/-! ### Joiners -/

/-- Whether a character joins or parts its neighbours without being seen. -/
def isJoiner (c : Char) : Bool := c.toNat = 0x200C || c.toNat = 0x200D

/-- Whether a joiner may stand between two texts, of which the first is given last character first:
    after a virama, and one that parts letters also where they would join. -/
def mayJoin (c : Char) (before after : List Char) : Bool :=
  match before with
  | [] => false
  | last :: _ =>
    Text.Composition.isVirama last ||
      (c.toNat = 0x200C &&
        ((before.dropWhile Text.Joining.isTransparent).head?.any Text.Joining.joinsAfter) &&
        ((after.dropWhile Text.Joining.isTransparent).head?.any Text.Joining.joinsBefore))

/-- Whether each joiner of a label stands where one may; `before` is the text already seen, last
    character first. -/
def joinersStand (before : List Char) : List Char → Bool
  | [] => true
  | c :: rest => (!isJoiner c || mayJoin c before rest) && joinersStand (c :: before) rest

/-! ### Labels -/

/-- The most characters that a label outside ASCII may have. -/
def labelLimit : Nat := 1000

/-- The most characters of a Punycode text that is read. -/
def punycodeLimit : Nat := 2000

/-- The label that a Punycode text stands for, if the text is the only way to write it. -/
def decoded? (text : List Char) : Option (List Char) :=
  if text.getLastD '-' = '-' || punycodeLimit < text.length then none
  else (Punycode.decode? text).bind fun label =>
    if label.contains '.' then none
    else if normalize? label = some label then some label else none

/-- Whether a label may stand in a name: it does not start with a mark, its joiners stand where they
    may, and it is not too long. -/
def isSound (label : List Char) : Bool :=
  isAscii label ||
    (!label.head?.any Text.Mark.isMark && joinersStand [] label && label.length ≤ labelLimit)

/-- The label that a text stands for. -/
def label? (text : List Char) : Option (List Char) := do
  let label ← match text with
    | 'x' :: 'n' :: '-' :: '-' :: text => if isAscii text then decoded? text else none
    | _ => some text
  if isSound label then some label else none

/-- The ASCII form of a label. -/
def labelToAscii (label : List Char) : List Char :=
  if isAscii label then label else "xn--".toList ++ Punycode.encode label

/-! ### Direction -/

/-- Whether a character makes a name one that is read from right to left. -/
def turns (c : Char) : Bool :=
  128 ≤ c.toNat && (Text.Direction.of c = .rightToLeft || Text.Direction.of c = .arabicNumber)

/-- Whether a label keeps to one direction: it starts with a letter of that direction, ends with one
    or with a number, and holds no letter of the other direction. A label from left to right holds no
    Arabic number, and one from right to left not numbers of both kinds. -/
def keepsDirection (label : List Char) : Bool :=
  let directions := label.map Text.Direction.of
  match directions with
  | [] => true
  | first :: _ =>
    let last := (directions.reverse.dropWhile (· = .attached)).headD first
    match first with
    | .leftToRight =>
      (last = .leftToRight || last = .europeanNumber) &&
        !directions.contains .rightToLeft && !directions.contains .arabicNumber
    | .rightToLeft =>
      (last = .rightToLeft || last = .europeanNumber || last = .arabicNumber) &&
        !directions.contains .leftToRight &&
        !(directions.contains .europeanNumber && directions.contains .arabicNumber)
    | _ => false

/-! ### Names -/

/-- Labels with points between them. -/
def join : List (List Char) → List Char
  | [] => []
  | [label] => label
  | label :: labels => label ++ '.' :: join labels

/-- The ASCII form of a name. -/
def toAscii? (name : List Char) : Option (List Char) := do
  let labels ← (Text.cut (· = '.') (← normalize? name)).mapM label?
  if labels.any (·.any turns) && !labels.all keepsDirection then none
  else some (join (labels.map labelToAscii))

/-- The ASCII form of a name that may hold percent-escapes. -/
def ofText? (text : List Char) : Option (List Char) :=
  (Octets.text? (Percent.decode (Octets.ofText (String.ofList text)))).bind fun name =>
    toAscii? name.toList

end SealedDownload.Domain
