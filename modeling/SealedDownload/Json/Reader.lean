import SealedDownload.Json.Token

/-! Building a value from its tokens. The reader keeps the containers that are still open, innermost
    first, so nesting is bounded by nothing but the text. -/

namespace SealedDownload.Json

/-- A container that is still open; what it holds so far is kept last first. -/
inductive Frame where
  | array (items : List Json)
  | object (members : List (Octets × Json))
  | member (members : List (Octets × Json)) (name : Octets)

/-- What may come next. -/
inductive Want where
  /-- a value -/
  | value
  /-- a value, or the end of the array just opened -/
  | firstItem
  /-- a name, or the end of the object just opened -/
  | firstName
  /-- a name -/
  | name
  /-- the colon after a name -/
  | colon
  /-- a comma, or the end of the innermost container -/
  | separator
  /-- nothing more: the value is complete -/
  | nothing (value : Json)

/-- The open containers and what may come next. -/
structure Reader where
  frames : List Frame
  want : Want

namespace Reader

/-- A complete value takes its place in the innermost container. -/
def place (value : Json) : List Frame → Option Reader
  | [] => some ⟨[], .nothing value⟩
  | .array items :: frames => some ⟨.array (value :: items) :: frames, .separator⟩
  | .member members name :: frames => some ⟨.object ((name, value) :: members) :: frames, .separator⟩
  | .object _ :: _ => none

/-- The innermost container ends. -/
def close (bracket : Bool) : List Frame → Option Reader
  | .array items :: frames => if bracket then place (.array items.reverse) frames else none
  | .object members :: frames => if bracket then none else place (.object members.reverse) frames
  | _ => none

/-- A token where a value may begin. -/
def begin (frames : List Frame) : Token → Option Reader
  | .openBrace => some ⟨.object [] :: frames, .firstName⟩
  | .openBracket => some ⟨.array [] :: frames, .firstItem⟩
  | .null => place .null frames
  | .bool value => place (.bool value) frames
  | .number literal => place (.number literal) frames
  | .string raw => place (.string raw) frames
  | _ => none

/-- A token where a name must stand. -/
def beginMember : List Frame → Token → Option Reader
  | .object members :: frames, .string name => some ⟨.member members name :: frames, .colon⟩
  | _, _ => none

/-- One token. -/
def step (r : Reader) (token : Token) : Option Reader :=
  match r.want, token with
  | .value, token => begin r.frames token
  | .firstItem, .closeBracket => close true r.frames
  | .firstItem, token => begin r.frames token
  | .firstName, .closeBrace => close false r.frames
  | .firstName, token => beginMember r.frames token
  | .name, token => beginMember r.frames token
  | .colon, .colon => some { r with want := .value }
  | .separator, .closeBracket => close true r.frames
  | .separator, .closeBrace => close false r.frames
  | .separator, .comma =>
    match r.frames with
    | .array _ :: _ => some { r with want := .value }
    | .object _ :: _ => some { r with want := .name }
    | _ => none
  | _, _ => none

/-- Reads the rest of the tokens. -/
def run (r : Reader) : List Token → Option Json
  | [] => match r.want with
    | .nothing value => some value
    | _ => none
  | token :: rest =>
    match r.step token with
    | some r => run r rest
    | none => none

end Reader

/-- The value that a text spells. -/
def read? (text : Octets) : Option Json :=
  (tokens? text).bind (Reader.run ⟨[], .value⟩)

end SealedDownload.Json
