import SealedDownload.Json.Number

/-! The tokens of a JSON text. A string runs to the first quote that no backslash precedes, a number
    as far as its bytes go, and a word to its last letter; blanks stand between tokens and are
    dropped. -/

namespace SealedDownload.Json

/-- A token. -/
inductive Token where
  | openBrace
  | closeBrace
  | openBracket
  | closeBracket
  | comma
  | colon
  | null
  | bool (value : Bool)
  | number (literal : Octets)
  | string (raw : Octets)

/-- Where the scanner stands; the bytes of the token at hand are kept last first. -/
inductive Scan where
  | between
  | number (read : Octets)
  /-- the bytes that must still come, and the token that they complete -/
  | word (missing : Octets) (token : Token)
  | string (read : Octets)
  | escape (read : Octets)
  | unicode (missing : Nat) (read : Octets)

/-- The word that a letter begins: the bytes that must follow, and the token. -/
def Token.ofLetter? (b : UInt8) : Option (Octets × Token) :=
  if b = 110 then some ([117, 108, 108], .null)
  else if b = 116 then some ([114, 117, 101], .bool true)
  else if b = 102 then some ([97, 108, 115, 101], .bool false)
  else none

/-- A number token, if the literal is one. -/
def Token.ofNumber? (literal : Octets) : Option Token :=
  (numberParts? literal).map fun _ => .number literal

/-- The token that a single byte is. -/
def Token.ofMark? (b : UInt8) : Option Token :=
  if b = Json.openBrace then some .openBrace
  else if b = Json.closeBrace then some .closeBrace
  else if b = Json.openBracket then some .openBracket
  else if b = Json.closeBracket then some .closeBracket
  else if b = Json.comma then some .comma
  else if b = Json.colon then some .colon
  else none

/-- What a byte between tokens begins: the next state, and the tokens with the byte's own one if it
    is a mark. -/
def Scan.start? (tokens : List Token) (b : UInt8) : Option (List Token × Scan) :=
  if isBlank b then some (tokens, .between)
  else if b = quote then some (tokens, .string [])
  else if isDigit b || b = 45 then some (tokens, .number [b])
  else match Token.ofLetter? b with
    | some (missing, token) => some (tokens, .word missing token)
    | none => (Token.ofMark? b).map fun token => (token :: tokens, .between)

/-- One byte of the text; `tokens` holds those already complete, last first. -/
def Scan.step (tokens : List Token) (b : UInt8) : Scan → Option (List Token × Scan)
  | .between => start? tokens b
  | .number read =>
    if isNumberByte b then some (tokens, .number (b :: read))
    else (Token.ofNumber? read.reverse).bind fun token => start? (token :: tokens) b
  | .word missing token =>
    if missing.head? ≠ some b then none
    else if missing.length = 1 then some (token :: tokens, .between)
    else some (tokens, .word (missing.drop 1) token)
  | .string read =>
    if b = quote then some (.string read.reverse :: tokens, .between)
    else if b = backslash then some (tokens, .escape (b :: read))
    else if b < 32 then none
    else some (tokens, .string (b :: read))
  | .escape read =>
    if b = 117 then some (tokens, .unicode 4 (b :: read))
    else if isShortEscape b then some (tokens, .string (b :: read))
    else none
  | .unicode missing read =>
    if !isHexDigit b then none
    else if missing ≤ 1 then some (tokens, .string (b :: read))
    else some (tokens, .unicode (missing - 1) (b :: read))

/-- The tokens once the text has ended. -/
def Scan.finish? (tokens : List Token) : Scan → Option (List Token)
  | .between => some tokens.reverse
  | .number read => (Token.ofNumber? read.reverse).map fun token => (token :: tokens).reverse
  | .word .. | .string _ | .escape _ | .unicode .. => none

/-- Reads the rest of a text from a state. -/
def Scan.run (tokens : List Token) (scan : Scan) : Octets → Option (List Token)
  | [] => scan.finish? tokens
  | b :: rest =>
    match scan.step tokens b with
    | some (tokens, scan) => run tokens scan rest
    | none => none

/-- The tokens of a text. -/
def tokens? (text : Octets) : Option (List Token) := Scan.run [] .between text

end SealedDownload.Json
