/-! Byte strings as lists: the contents of files, keys and tokens, their hexadecimal text, and the
    UTF-8 text they may hold. -/

namespace SealedDownload

/-- A byte string. -/
abbrev Octets := List UInt8

namespace Octets

/-! ### Hexadecimal text -/

/-- The lower-case digit of a value below sixteen. -/
def hexDigit (n : Nat) : Char :=
  if n < 10 then Char.ofNat (48 + n) else Char.ofNat (87 + n)

/-- The upper-case digit of a value below sixteen. -/
def upperHexDigit (n : Nat) : Char :=
  if n < 10 then Char.ofNat (48 + n) else Char.ofNat (55 + n)

/-- The value of a hexadecimal digit of either case. -/
def hexValue? (c : Char) : Option Nat :=
  if '0' ≤ c ∧ c ≤ '9' then some (c.toNat - 48)
  else if 'a' ≤ c ∧ c ≤ 'f' then some (c.toNat - 87)
  else if 'A' ≤ c ∧ c ≤ 'F' then some (c.toNat - 55)
  else none

/-- Two lower-case digits for each byte. -/
def hex (bytes : Octets) : String :=
  String.ofList (bytes.flatMap fun b => [hexDigit (b.toNat / 16), hexDigit (b.toNat % 16)])

/-- Reads pairs of digits; `read` holds the bytes so far, last first. -/
def ofHexDigits? (read : Octets) : List Char → Option Octets
  | [] => some read.reverse
  | [_] => none
  | hi :: lo :: rest =>
    match hexValue? hi, hexValue? lo with
    | some h, some l => ofHexDigits? (UInt8.ofNat (16 * h + l) :: read) rest
    | _, _ => none

/-- The byte string that a hexadecimal text spells. -/
def ofHex? (text : String) : Option Octets := ofHexDigits? [] text.toList

/-! ### UTF-8 text -/

/-- The UTF-8 form of a text. -/
def ofText (text : String) : Octets := text.toUTF8.data.toList

/-- The text whose UTF-8 form the bytes are, if there is one. -/
def text? (bytes : Octets) : Option String := String.fromUTF8? ⟨bytes.toArray⟩

/-! ### Words -/

/-- The value of the bytes as one number, first byte highest. -/
def toNat (bytes : Octets) : Nat := bytes.foldl (fun n b => 256 * n + b.toNat) 0

/-- The lowest `count` bytes of a number, highest first. -/
def ofNat : (count : Nat) → Nat → Octets
  | 0, _ => []
  | count + 1, n => UInt8.ofNat (n / Nat.pow 256 count) :: ofNat count n

end Octets
end SealedDownload
