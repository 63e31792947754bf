import SealedDownload.Octets

/-! JSON values as they stand in a text. Numbers and strings keep their spelling, so that a value
    nobody looks at costs no more than its grammar, and each reader decides how much of a spelling it
    accepts. -/

namespace SealedDownload

/-- A JSON value. A string is held as the bytes between its quotes, a number as its literal, and the
    members of an object in their order, repeated names included. -/
inductive Json where
  | null
  | bool (value : Bool)
  | number (literal : Octets)
  | string (raw : Octets)
  | array (items : List Json)
  | object (members : List (Octets × Json))
deriving Inhabited

namespace Json

/-! ### The marks of the grammar, as bytes -/

def quote : UInt8 := 34
def backslash : UInt8 := 92
def comma : UInt8 := 44
def colon : UInt8 := 58
def openBracket : UInt8 := 91
def closeBracket : UInt8 := 93
def openBrace : UInt8 := 123
def closeBrace : UInt8 := 125

/-- White space between tokens. -/
def isBlank (b : UInt8) : Bool := b = 32 || b = 9 || b = 10 || b = 13

/-- A decimal digit. -/
def isDigit (b : UInt8) : Bool := 48 ≤ b && b ≤ 57

/-- The value of a decimal digit. -/
def digitValue (b : UInt8) : Nat := b.toNat - 48

/-- A hexadecimal digit. -/
def isHexDigit (b : UInt8) : Bool := (Octets.hexValue? (Char.ofNat b.toNat)).isSome

/-- A byte that a number literal may hold. -/
def isNumberByte (b : UInt8) : Bool := isDigit b || b = 43 || b = 45 || b = 46 || b = 69 || b = 101

/-- What may stand after a backslash, `u` apart: `" \ / b f n r t`. -/
def isShortEscape (b : UInt8) : Bool :=
  b = 34 || b = 92 || b = 47 || b = 98 || b = 102 || b = 110 || b = 114 || b = 116

end Json
end SealedDownload
