import SealedDownload.Url.Domain

/-! Reading the server of a locator: an address in brackets, four bytes in one to four numbers, or a
    name. -/

namespace SealedDownload.Host

/-! ### Addresses of four bytes -/

/-- The value of a row of digits in a base, if all are digits of that base. -/
def numeral? (base : Nat) (digits : List Char) : Option Nat :=
  digits.foldl (fun value c => do
    let d ← Octets.hexValue? c
    if d < base then some (base * (← value) + d) else none) (some 0)

/-- A number of an address: decimal, octal after `0`, hexadecimal after `0x`. -/
def number? : List Char → Option Nat
  | [] => none
  | '0' :: 'x' :: digits => numeral? 16 digits
  | '0' :: 'X' :: digits => numeral? 16 digits
  | '0' :: c :: digits => numeral? 8 (c :: digits)
  | digits => numeral? 10 digits

/-- The labels of a name without an empty one at the end. -/
def labels (name : List Char) : List (List Char) :=
  match (Text.cut (· = '.') name).reverse with
  | [] :: rest => rest.reverse
  | rest => rest.reverse

/-- Whether a name must be read as an address: its last label is a number. -/
def endsInNumber (name : List Char) : Bool :=
  match (labels name).getLast? with
  | some last => (!last.isEmpty && last.all Char.isDigit) || (number? last).isSome
  | none => false

/-- The address that one to four numbers give: the last one fills the bytes that the ones before it
    leave. -/
def address? : List Nat → Option Nat
  | [] => none
  | numbers =>
    let last := numbers.getLastD 0
    let others := numbers.dropLast
    if 4 < numbers.length || others.any (255 < ·) || Nat.pow 256 (4 - others.length) ≤ last then none
    else some (others.zipIdx.foldl (fun sum (n, i) => sum + n * Nat.pow 256 (3 - i)) last)

/-- The four bytes that a name gives. -/
def ipv4? (name : List Char) : Option Nat := ((labels name).mapM number?).bind address?

/-! ### Addresses of eight groups -/

/-- A group of at most four hexadecimal digits. -/
def group? (text : List Char) : Option Nat :=
  if text.isEmpty || 4 < text.length then none else numeral? 16 text

/-- A decimal byte without a leading zero. -/
def byte? (text : List Char) : Option Nat :=
  if text.isEmpty || 3 < text.length || (text.head? = some '0' && 1 < text.length) then none
  else (numeral? 10 text).bind fun n => if n ≤ 255 then some n else none

/-- The two groups that four decimal bytes give. -/
def dottedGroups? (text : List Char) : Option (List Nat) :=
  match (Text.cut (· = '.') text).mapM byte? with
  | some [a, b, c, d] => some [256 * a + b, 256 * c + d]
  | _ => none

/-- Groups with colons between them; the last may be written as four decimal bytes where that is
    allowed. -/
def groups? (dottedLast : Bool) : List (List Char) → Option (List Nat)
  | [] => some []
  | [last] =>
    if last.contains '.' then (if dottedLast then dottedGroups? last else none)
    else (group? last).map ([·])
  | text :: rest => do
    let group ← group? text
    return group :: (← groups? dottedLast rest)

/-- One side of the double colon, which may be empty. -/
def side? (dottedLast : Bool) (text : List Char) : Option (List Nat) :=
  if text.isEmpty then some [] else groups? dottedLast (Text.cut (· = ':') text)

/-- The text before the first double colon and the text after it. -/
def splitDouble? : List Char → Option (List Char × List Char)
  | ':' :: ':' :: rest => some ([], rest)
  | c :: rest => (splitDouble? rest).map fun (before, after) => (c :: before, after)
  | [] => none

/-- The eight groups that a text gives; a double colon stands for all groups that are missing, and
    for at least one. -/
def ipv6? (text : List Char) : Option (List Nat) :=
  match splitDouble? text with
  | none => (groups? true (Text.cut (· = ':') text)).bind fun groups =>
    if groups.length = 8 then some groups else none
  | some (before, after) => do
    let before ← side? false before
    let after ← side? true after
    let count := before.length + after.length
    if count ≤ 7 then some (before ++ List.replicate (8 - count) 0 ++ after) else none

/-! ### Hosts -/

/-- The address that a text in brackets gives. -/
def bracketed (text : List Char) : Except Url.Fault Host :=
  match text.reverse with
  | ']' :: inner => match ipv6? inner.reverse with
    | some groups => .ok (.ipv6 groups)
    | none => .error .invalidIpv6
  | _ => .error .invalidIpv6

/-- The host of a locator that is about servers or files. -/
def ofText (text : List Char) : Except Url.Fault Host :=
  match text with
  | '[' :: rest => bracketed rest
  | text => match Domain.ofText? text with
    | none => .error .invalidDomain
    | some [] => .error .emptyHost
    | some ascii =>
      if endsInNumber ascii then
        match ipv4? ascii with
        | some address => .ok (.ipv4 address)
        | none => .error .invalidIpv4
      else .ok (.name (String.ofList ascii))

/-- A character that no uninterpreted host may hold. -/
def isForbidden (c : Char) : Bool := "\x00\t\n\r #/:<>?@[\\]^|".toList.contains c

/-- The host of any other locator, which is not interpreted unless it stands in brackets. -/
def uninterpreted (text : List Char) : Except Url.Fault Host :=
  match text with
  | '[' :: rest => bracketed rest
  | [] => .ok .empty
  | text =>
    if text.any isForbidden then .error .invalidHostCharacter
    else .ok (.name (Percent.encode Percent.isControl (String.ofList text)))

end SealedDownload.Host
