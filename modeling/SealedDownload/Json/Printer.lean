import SealedDownload.Json

/-! The compact text of a JSON value: no blanks, members in their order. -/

namespace SealedDownload.Json

mutual

/-- The text of a value. -/
def render : Json → Octets
  | .null => [110, 117, 108, 108]
  | .bool true => [116, 114, 117, 101]
  | .bool false => [102, 97, 108, 115, 101]
  | .number literal => literal
  | .string raw => quote :: raw ++ [quote]
  | .array items => openBracket :: renderItems items ++ [closeBracket]
  | .object members => openBrace :: renderMembers members ++ [closeBrace]

/-- The items of an array, with commas between them. -/
def renderItems : List Json → Octets
  | [] => []
  | [item] => render item
  | item :: items => render item ++ comma :: renderItems items

/-- The members of an object, with commas between them. -/
def renderMembers : List (Octets × Json) → Octets
  | [] => []
  | [(name, value)] => (quote :: name ++ [quote, colon]) ++ render value
  | (name, value) :: members =>
    (quote :: name ++ [quote, colon]) ++ render value ++ comma :: renderMembers members

end

end SealedDownload.Json
