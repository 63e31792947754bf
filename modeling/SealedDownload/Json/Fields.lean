import SealedDownload.Json.Text
import SealedDownload.Json.Number

/-! Records in JSON. A record is an object, whose unknown members are ignored and whose known names
    may come once, or the array of its fields in order, which may end early. -/

namespace SealedDownload.Json

/-- The fields of a record that are present, by name. -/
abbrev Fields := List (String × Json)

/-- The members of an object with their names resolved; every name must be a text. -/
def names? : List (Octets × Json) → Option Fields
  | [] => some []
  | (raw, value) :: members =>
    match textOf? raw, names? members with
    | some name, some rest => some ((name, value) :: rest)
    | _, _ => none

/-- Whether no name comes twice. -/
def distinct : List String → Bool
  | [] => true
  | name :: rest => !rest.contains name && distinct rest

/-- The fields of a record that has the given names, in their order of declaration. -/
def fields? (declared : List String) : Json → Option Fields
  | .object members =>
    (names? members).bind fun all =>
      let known := all.filter fun (name, _) => declared.contains name
      if distinct (known.map (·.1)) then some known else none
  | .array items =>
    if items.length ≤ declared.length then some (declared.zip items) else none
  | _ => none

namespace Fields

/-- The value of a field that is present. -/
def get? (fields : Fields) (name : String) : Option Json := fields.lookup name

/-- A field that must be present. -/
def required {α : Type} (fields : Fields) (name : String) (read : Json → Option α) : Option α :=
  (fields.get? name).bind read

/-- A field with a default for its absence; a value that is present must be readable. -/
def optional {α : Type} (fields : Fields) (name : String) (absent : α) (read : Json → Option α) :
    Option α :=
  match fields.get? name with
  | none => some absent
  | some value => read value

end Fields

/-- A choice among names: the name as a text, or an object whose only member has that name and holds
    a value without content. -/
def choice? (blank : Json → Bool) : Json → Option String
  | .string raw => textOf? raw
  | .object [(raw, value)] => if blank value then textOf? raw else none
  | _ => none

/-- The value `null`. -/
def isNull : Json → Bool
  | .null => true
  | _ => false

/-- A value without content: `null` or an object without members. -/
def isEmpty : Json → Bool
  | .null => true
  | .object [] => true
  | _ => false

mutual

/-- Whether a value can be kept for later: at most `depth` containers are nested, all names and
    strings are texts, and all numbers are doubles. -/
def isPlain : (depth : Nat) → Json → Bool
  | _, .null => true
  | _, .bool _ => true
  | _, .number literal => (number literal).float?.isSome
  | _, .string raw => (textOf? raw).isSome
  | 0, .array _ => false
  | 0, .object _ => false
  | depth + 1, .array items => arePlain depth items
  | depth + 1, .object members => arePlainMembers depth members

/-- Whether all items can be kept. -/
def arePlain : (depth : Nat) → List Json → Bool
  | _, [] => true
  | depth, item :: items => isPlain depth item && arePlain depth items

/-- Whether all members can be kept. -/
def arePlainMembers : (depth : Nat) → List (Octets × Json) → Bool
  | _, [] => true
  | depth, (name, value) :: members =>
    (textOf? name).isSome && isPlain depth value && arePlainMembers depth members

end

end SealedDownload.Json
