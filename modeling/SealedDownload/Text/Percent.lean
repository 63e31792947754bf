import SealedDownload.Octets

/-! Percent-encoding of byte strings. A byte of the escape set, and every byte outside ASCII, is
    written as `%` and two upper-case digits; every other byte stands for itself. -/

namespace SealedDownload.Percent

/-- The three characters that stand for an escaped byte. -/
def escape (b : UInt8) : List Char :=
  ['%', Octets.upperHexDigit (b.toNat / 16), Octets.upperHexDigit (b.toNat % 16)]

/-- A byte as it is written under an escape set. -/
def encodeByte (escaped : UInt8 → Bool) (b : UInt8) : List Char :=
  if escaped b || 128 ≤ b then escape b else [Char.ofNat b.toNat]

/-- The text of a byte string under an escape set. -/
def encodeOctets (escaped : UInt8 → Bool) (bytes : Octets) : List Char :=
  bytes.flatMap (encodeByte escaped)

/-- The UTF-8 bytes of a text, percent-encoded. -/
def encode (escaped : UInt8 → Bool) (text : String) : String :=
  String.ofList (encodeOctets escaped (Octets.ofText text))

/-- One character percent-encoded. -/
def encodeChar (escaped : UInt8 → Bool) (c : Char) : List Char :=
  encodeOctets escaped (String.utf8EncodeChar c)

/-- The value of a byte that is a hexadecimal digit. -/
def digit? (b : UInt8) : Option Nat := Octets.hexValue? (Char.ofNat b.toNat)

/-- The byte that two hexadecimal digits spell. -/
def byte? (hi lo : UInt8) : Option UInt8 :=
  match digit? hi, digit? lo with
  | some h, some l => some (UInt8.ofNat (16 * h + l))
  | _, _ => none

/-- Replaces each complete escape by its byte; a `%` that starts none stays. -/
def decode : Octets → Octets
  | [] => []
  | [b] => [b]
  | [b, hi] => [b, hi]
  | b :: hi :: lo :: rest =>
    if b = 37 then
      match byte? hi lo with
      | some value => value :: decode rest
      | none => b :: decode (hi :: lo :: rest)
    else b :: decode (hi :: lo :: rest)

/-! ### Escape sets -/

/-- The control characters of ASCII. -/
def isControl (b : UInt8) : Bool := b < 32 || b = 127

/-- Whether a byte is one of the characters of a text. -/
def isOneOf (marks : String) (b : UInt8) : Bool :=
  b < 128 && marks.toList.contains (Char.ofNat b.toNat)

/-- The escape set of an object key: controls, blanks, the marks that delimit parts of a URL or are
    no URL characters, and `%` itself; `/` and marks such as `+` and `=` stay. -/
def objectKey (b : UInt8) : Bool := isControl b || isOneOf " \"#%<>?[\\]^`\x7b|\x7d" b

end SealedDownload.Percent
