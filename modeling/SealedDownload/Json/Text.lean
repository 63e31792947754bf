import SealedDownload.Json

/-! String literals. Writing escapes quotes, backslashes and the control characters below the space;
    reading resolves every escape, joins surrogate pairs, and refuses a lone surrogate and bytes that
    are not UTF-8. -/

namespace SealedDownload.Json

/-! ### Writing -/

/-- The bytes of a character inside quotes. -/
def escapeChar (c : Char) : Octets :=
  match c.toNat with
  | 34 => [backslash, quote]
  | 92 => [backslash, backslash]
  | 8 => [backslash, 98]
  | 9 => [backslash, 116]
  | 10 => [backslash, 110]
  | 12 => [backslash, 102]
  | 13 => [backslash, 114]
  | n =>
    if n < 32 then
      [backslash, 117, 48, 48] ++
        [Octets.hexDigit (n / 16), Octets.hexDigit (n % 16)].map fun d => UInt8.ofNat d.toNat
    else String.utf8EncodeChar c

/-- The string literal of a text, without its quotes. -/
def escape (text : String) : Octets := text.toList.flatMap escapeChar

/-- A text as a value. -/
def ofText (text : String) : Json := .string (escape text)

/-! ### Reading -/

/-- The value of four hexadecimal digits. -/
def codeUnit? (a b c d : UInt8) : Option Nat :=
  match hexOf a, hexOf b, hexOf c, hexOf d with
  | some a, some b, some c, some d => some (((a * 16 + b) * 16 + c) * 16 + d)
  | _, _, _, _ => none
where
  hexOf (b : UInt8) : Option Nat := Octets.hexValue? (Char.ofNat b.toNat)

/-- The byte that a short escape stands for. -/
def shortEscape? (b : UInt8) : Option UInt8 :=
  match b.toNat with
  | 34 => some 34
  | 92 => some 92
  | 47 => some 47
  | 98 => some 8
  | 102 => some 12
  | 110 => some 10
  | 114 => some 13
  | 116 => some 9
  | _ => none

/-- The character of a leading and a trailing surrogate. -/
def joinSurrogates (high low : Nat) : Char :=
  Char.ofNat (0x10000 + (high - 0xD800) * 0x400 + (low - 0xDC00))

/-- What a reader of a string literal has behind it: nothing pending, a backslash, the hexadecimal
    digits of a code unit, or a leading surrogate and how much of the next unit has come. -/
inductive Pending where
  | none
  | backslash
  | unit (digits : Octets)
  | leading (high : Nat)
  | leadingBackslash (high : Nat)
  | leadingUnit (high : Nat) (digits : Octets)

/-- The code unit that four digits spell, last digit first in the list. -/
def unitOf? : Octets → Option Nat
  | [d, c, b, a] => codeUnit? a b c d
  | _ => none

/-- Resolves escapes; `read` holds the bytes so far, last first. -/
def unescape? (pending : Pending) (read : Octets) : Octets → Option Octets
  | [] => match pending with
    | .none => some read.reverse
    | _ => none
  | b :: rest =>
    match pending with
    | .none =>
      if b = Json.backslash then unescape? .backslash read rest
      else if b < 32 then none
      else unescape? .none (b :: read) rest
    | .backslash =>
      if b = 117 then unescape? (.unit []) read rest
      else match shortEscape? b with
        | some value => unescape? .none (value :: read) rest
        | none => none
    | .unit digits =>
      if digits.length < 3 then unescape? (.unit (b :: digits)) read rest
      else match unitOf? (b :: digits) with
        | some unit =>
          if 0xD800 ≤ unit ∧ unit < 0xDC00 then unescape? (.leading unit) read rest
          else if 0xDC00 ≤ unit ∧ unit < 0xE000 then none
          else unescape? .none ((String.utf8EncodeChar (Char.ofNat unit)).reverse ++ read) rest
        | none => none
    | .leading high => if b = Json.backslash then unescape? (.leadingBackslash high) read rest else none
    | .leadingBackslash high => if b = 117 then unescape? (.leadingUnit high []) read rest else none
    | .leadingUnit high digits =>
      if digits.length < 3 then unescape? (.leadingUnit high (b :: digits)) read rest
      else match unitOf? (b :: digits) with
        | some unit =>
          if 0xDC00 ≤ unit ∧ unit < 0xE000 then
            unescape? .none ((String.utf8EncodeChar (joinSurrogates high unit)).reverse ++ read) rest
          else none
        | none => none

/-- The text of a string literal without its quotes. -/
def textOf? (raw : Octets) : Option String := (unescape? .none [] raw).bind Octets.text?

/-- The text that a value holds. -/
def text? : Json → Option String
  | .string raw => textOf? raw
  | _ => none

/-- The truth value that a value holds. -/
def bool? : Json → Option Bool
  | .bool value => some value
  | _ => none

end SealedDownload.Json
