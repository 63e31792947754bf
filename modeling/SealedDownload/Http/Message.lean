import SealedDownload.Octets

/-! The parts of HTTP messages that the transport looks at: whether a header can be sent, and what the
    headers of a response say about its body. -/

namespace SealedDownload.Http

/-- A character of a header's name. -/
def isNameChar (c : Char) : Bool :=
  c.isAlphanum || "!\"#$%&'*+-.^_|~".toList.contains c || c.toNat = 96

/-- Whether a text can be the name of a header. -/
def isHeaderName (name : String) : Bool :=
  !name.isEmpty && name.length < UInt16.size && name.toList.all isNameChar

/-- A byte of a header's value: a tab, or anything that is no control character. -/
def isValueByte (b : UInt8) : Bool := b = 9 || (32 ≤ b && b ≠ 127)

/-- Whether a text can be the value of a header. -/
def isHeaderValue (value : String) : Bool := (Octets.ofText value).all isValueByte

/-- Whether a header can be sent. -/
def isHeader (header : String × String) : Bool := isHeaderName header.1 && isHeaderValue header.2

/-- The beginning of a response. -/
structure Head where
  status : Nat
  /-- names in lower case, in the order in which they came -/
  headers : List (String × String)
  /-- the length of the body, if it is known -/
  length : Option UInt64

namespace Head

/-- The status of a part of an object. -/
def partialContent : Nat := 206

/-- Whether the server has done what it was asked for. -/
def isSuccess (head : Head) : Bool := 200 ≤ head.status && head.status < 300

/-- A character of a value that can be read as a text. -/
def isVisible (c : Char) : Bool := c = '\t' || (32 ≤ c.toNat && c.toNat < 127)

/-- A value as a text; one with other characters is unusable. -/
def usable? (value : String) : Option String := if value.toList.all isVisible then some value else none

/-- The first header of a name. -/
def header? (head : Head) (name : String) : Option String := head.headers.lookup name

/-- By what the object can be known again: its entity tag or, where there is none, its date. -/
def validator? (head : Head) : Option String :=
  ((head.header? "etag").or (head.header? "last-modified")).bind usable?

/-- A number below `2 ^ 64`, which a plus may precede. -/
def word? (text : List Char) : Option UInt64 :=
  let digits := match text with
    | '+' :: rest => rest
    | rest => rest
  if digits.isEmpty || !digits.all Char.isDigit then none
  else
    let n := digits.foldl (fun n c => 10 * n + (c.toNat - 48)) 0
    if n < UInt64.size then some (UInt64.ofNat n) else none

/-- A text without blanks at its ends. -/
def trim (text : List Char) : List Char :=
  let strip (text : List Char) := text.dropWhile Char.isWhitespace
  (strip (strip text).reverse).reverse

/-- The first byte of the range that a text names. -/
def rangeStart? (text : List Char) : Option UInt64 :=
  match trim text with
  | 'b' :: 'y' :: 't' :: 'e' :: 's' :: ' ' :: range =>
    if range.contains '-' then word? (trim (range.takeWhile (· ≠ '-'))) else none
  | _ => none

/-- The first byte of the part that a response brings. -/
def start? (head : Head) : Option UInt64 :=
  ((head.header? "content-range").bind usable?).bind fun text => rangeStart? text.toList

end Head
end SealedDownload.Http
