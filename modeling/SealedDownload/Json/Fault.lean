import SealedDownload.Json.Reader
import SealedDownload.Json.Fields

/-! Why a text is no JSON value that can be kept, and where: the first byte that cannot stand where it
    stands, or the end of the text where something is missing. A number must be a double, a string a
    text, and containers are nested to a bounded depth. -/

namespace SealedDownload.Json

/-- Why a text is no value. -/
inductive Cause where
  | endInValue
  | endInString
  | endInArray
  | endInObject
  | expectedValue
  | expectedWord
  | expectedColon
  | expectedItemEnd
  | expectedMemberEnd
  | trailingComma
  | trailingText
  | nameNotString
  | invalidEscape
  | invalidNumber
  | numberTooLarge
  | controlCharacter
  | brokenPair
  | loneSurrogate
  | tooDeep
deriving DecidableEq

/-- The wording of a cause. -/
def Cause.message : Cause → String
  | .endInValue => "EOF while parsing a value"
  | .endInString => "EOF while parsing a string"
  | .endInArray => "EOF while parsing a list"
  | .endInObject => "EOF while parsing an object"
  | .expectedValue => "expected value"
  | .expectedWord => "expected ident"
  | .expectedColon => "expected \x60:\x60"
  | .expectedItemEnd => "expected \x60,\x60 or \x60]\x60"
  | .expectedMemberEnd => "expected \x60,\x60 or \x60\x7d\x60"
  | .trailingComma => "trailing comma"
  | .trailingText => "trailing characters"
  | .nameNotString => "key must be a string"
  | .invalidEscape => "invalid escape"
  | .invalidNumber => "invalid number"
  | .numberTooLarge => "number out of range"
  | .controlCharacter => "control character (\\u0000-\\u001F) found while parsing a string"
  | .brokenPair => "unexpected end of hex escape"
  | .loneSurrogate => "lone leading surrogate in hex escape"
  | .tooDeep => "recursion limit exceeded"

/-- A cause and its place: the line from one, and the bytes of that line up to the fault. -/
structure Fault where
  cause : Cause
  line : Nat
  column : Nat
deriving DecidableEq

/-- The fault behind the part of a text that has been read, given last byte first. -/
def Fault.behind (cause : Cause) (read : Octets) : Fault :=
  ⟨cause, 1 + read.count 10, (read.takeWhile (· ≠ 10)).length⟩

/-- The wording of a fault. -/
def Fault.message (fault : Fault) : String :=
  s!"{fault.cause.message} at line {fault.line} column {fault.column}"

/-! ### Numbers -/

/-- How far a number has been read. -/
inductive NumberPart where
  | start
  | sign
  | zero
  | whole
  | point
  | fraction
  | mark
  | powerSign
  | power

namespace NumberPart

/-- What a number goes on with behind its whole part. -/
def afterWhole? (b : UInt8) : Option NumberPart :=
  if b = 46 then some .point else if b = 69 || b = 101 then some .mark else none

/-- The part that one more byte belongs to, if the number can go on with it. -/
def next? (part : NumberPart) (b : UInt8) : Option NumberPart :=
  let digit (next : NumberPart) := if isDigit b then some next else none
  let first := if b = 48 then some .zero else digit .whole
  match part with
  | .start => if b = 45 then some .sign else first
  | .sign => first
  | .zero => afterWhole? b
  | .whole => (digit .whole).or (afterWhole? b)
  | .point => digit .fraction
  | .fraction => (digit .fraction).or (if b = 69 || b = 101 then some .mark else none)
  | .mark => if b = 43 || b = 45 then some .powerSign else digit .power
  | .powerSign => digit .power
  | .power => digit .power

/-- Whether a number may end before a byte, or with the text. -/
def mayEnd (part : NumberPart) (next : Option UInt8) : Bool :=
  match part with
  | .zero => !(next.map isDigit).getD false
  | .whole | .fraction | .power => true
  | .start | .sign | .point | .mark | .powerSign => false

end NumberPart

/-- How many digits of a power of ten follow the one with which it leaves 31 bits. -/
def digitsBeyond (value : Nat) : Octets → Nat
  | [] => 0
  | d :: rest =>
    let value := 10 * value + digitValue d
    if value < UInt32.size / 2 then digitsBeyond value rest else rest.length

/-- The fault of a literal that is too large for a double, behind the byte that shows it. -/
def numberFault? (literal read : Octets) : Option Fault :=
  match numberParts? literal with
  | none => none
  | some parts =>
    if parts.float?.isSome then none
    else
      let digits := (parts.power.map (·.2)).getD []
      some (.behind .numberTooLarge (read.drop (digitsBeyond 0 digits)))

/-! ### Strings -/

/-- Where in a string a byte comes; `paired` tells whether a leading surrogate waits for the trailing
    one. -/
inductive StringPart where
  | plain (paired : Bool)
  | escape (paired : Bool)
  /-- the digits of a code unit: how many are missing, and their value so far -/
  | unit (paired : Bool) (missing value : Nat)

/-- The fault of the four digits that must follow, if they are none; `read` is what comes before
    them. -/
def unitFault? (read rest : Octets) : Option Fault :=
  if rest.length < 4 then some (.behind .endInString (rest.reverse ++ read))
  else if (rest.take 4).all isHexDigit then none
  else some (.behind .invalidEscape ((rest.take 4).reverse ++ read))

/-- The state behind a code unit. -/
def StringPart.ofUnit (paired : Bool) (unit : Nat) : Except Cause StringPart :=
  if 0xDC00 ≤ unit ∧ unit < 0xE000 then
    if paired then .ok (.plain false) else .error .loneSurrogate
  else if paired then .error .loneSurrogate
  else .ok (.plain (0xD800 ≤ unit ∧ unit < 0xDC00))

/-- The state behind one more byte that does not end the string; `read` is what comes before it, and
    `rest` what follows. -/
def StringPart.next (part : StringPart) (b : UInt8) (read rest : Octets) : Except Fault StringPart :=
  let refuse {α : Type} (cause : Cause) : Except Fault α := .error (.behind cause (b :: read))
  match part with
  | .plain paired =>
    if b = backslash then .ok (.escape paired)
    else if paired then refuse .brokenPair
    else if b < 32 then refuse .controlCharacter
    else .ok (.plain false)
  | .escape paired =>
    if b = 117 then
      match unitFault? (b :: read) rest with
      | some fault => .error fault
      | none => .ok (.unit paired 4 0)
    else if paired then refuse .brokenPair
    else if isShortEscape b then .ok (.plain false)
    else refuse .invalidEscape
  | .unit paired missing value =>
    let value := 16 * value + (Octets.hexValue? (Char.ofNat b.toNat)).getD 0
    if missing ≤ 1 then
      match StringPart.ofUnit paired value with
      | .ok part => .ok part
      | .error cause => refuse cause
    else .ok (.unit paired (missing - 1) value)

/-! ### Texts -/

/-- What is being read; the bytes of a number are kept last first. -/
inductive Spot where
  | between
  | number (part : NumberPart) (literal : Octets)
  /-- the bytes that must still come, and the token that they complete -/
  | word (missing : Octets) (token : Token)
  | string (part : StringPart)

namespace Reader

/-- How many containers may be open at once. -/
def deepest : Nat := 127

/-- Why a byte cannot begin what comes next. -/
def misplaced (r : Reader) (b : UInt8) : Cause :=
  match r.want, r.frames with
  | .value, .array _ :: _ => if b = closeBracket then .trailingComma else .expectedValue
  | .value, _ => .expectedValue
  | .firstItem, _ => .expectedValue
  | .firstName, _ => .nameNotString
  | .name, _ => if b = closeBrace then .trailingComma else .nameNotString
  | .colon, _ => .expectedColon
  | .separator, .array _ :: _ => .expectedItemEnd
  | .separator, _ => .expectedMemberEnd
  | .nothing _, _ => .trailingText

/-- What is missing at the end of the text; nothing once the value is complete. -/
def missing? (r : Reader) : Option Cause :=
  match r.want, r.frames with
  | .value, _ => some .endInValue
  | .firstItem, _ => some .endInArray
  | .firstName, _ => some .endInObject
  | .name, _ => some .endInValue
  | .colon, _ => some .endInObject
  | .separator, .array _ :: _ => some .endInArray
  | .separator, _ => some .endInObject
  | .nothing _, _ => none

/-- A byte between tokens. -/
def enter (r : Reader) (b : UInt8) : Except Cause (Reader × Spot) :=
  let ifAllowed (token : Token) (spot : Spot) :=
    if (r.step token).isSome then .ok (r, spot) else .error (r.misplaced b)
  if isBlank b then .ok (r, .between)
  else if b = quote then ifAllowed (.string []) (.string (.plain false))
  else match NumberPart.start.next? b, Token.ofLetter? b, (Token.ofMark? b).bind r.step with
    | some part, _, _ => ifAllowed (.number []) (.number part [b])
    | none, some (missing, token), _ => ifAllowed token (.word missing token)
    | none, none, some after =>
      if deepest < after.frames.length then .error .tooDeep else .ok (after, .between)
    | none, none, none => .error (r.misplaced b)

/-- The reader behind a number. -/
def afterNumber (r : Reader) (literal read : Octets) : Except Fault Reader :=
  match numberFault? literal read with
  | some fault => .error fault
  | none => .ok ((r.step (.number literal)).getD r)

/-- One byte of a text; `read` holds the bytes before it, last first, and `rest` those after it. -/
def take (r : Reader) (b : UInt8) (read rest : Octets) : Spot → Except Fault (Reader × Spot)
  | .between => (r.enter b).mapError (.behind · (b :: read))
  | .number part literal =>
    match part.next? b with
    | some part => .ok (r, .number part (b :: literal))
    | none =>
      if part.mayEnd (some b) then
        (r.afterNumber literal.reverse read).bind fun r =>
          (r.enter b).mapError (.behind · (b :: read))
      else .error (.behind .invalidNumber (b :: read))
  | .word missing token =>
    if missing.head? ≠ some b then .error (.behind .expectedWord (b :: read))
    else if missing.length = 1 then .ok ((r.step token).getD r, .between)
    else .ok (r, .word (missing.drop 1) token)
  | .string part =>
    match part with
    | .plain false =>
      if b = quote then .ok ((r.step (.string [])).getD r, .between)
      else (part.next b read rest).map fun part => (r, .string part)
    | _ => (part.next b read rest).map fun part => (r, .string part)

/-- The fault at the end of a text. -/
def finish? (r : Reader) (read : Octets) : Spot → Option Fault
  | .between => r.missing?.map (.behind · read)
  | .number part literal =>
    if part.mayEnd none then
      match r.afterNumber literal.reverse read with
      | .ok r => r.missing?.map (.behind · read)
      | .error fault => some fault
    else some (.behind .endInValue read)
  | .word .. => some (.behind .endInValue read)
  | .string _ => some (.behind .endInString read)

/-- The fault in the rest of a text; `read` holds the bytes before it, last first. -/
def faultIn? (r : Reader) (spot : Spot) (read : Octets) : Octets → Option Fault
  | [] => r.finish? read spot
  | b :: rest =>
    match r.take b read rest spot with
    | .ok (r, spot) => r.faultIn? spot (b :: read) rest
    | .error fault => some fault

end Reader

/-- Why a text is no value that can be kept, if it is none. -/
def fault? (text : Octets) : Option Fault := Reader.faultIn? ⟨[], .value⟩ .between [] text

end SealedDownload.Json
