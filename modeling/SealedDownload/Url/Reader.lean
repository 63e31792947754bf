import SealedDownload.Url.Host
import SealedDownload.Url.Path

/-! Reading locators, alone or relative to another one. A text without a scheme takes what it leaves
    out from the base. -/

namespace SealedDownload.Url

/-- A text cut at its query and its fragment. -/
structure Reference where
  main : List Char
  query : Option (List Char)
  fragment : Option (List Char)

namespace Reference

/-- The text without blanks and controls at its ends, and without tabs and line ends. -/
def clean (text : String) : List Char :=
  let trim (text : List Char) := text.dropWhile (·.toNat ≤ 32)
  (trim (trim text.toList).reverse).reverse.filter fun c => c ≠ '\t' && c ≠ '\n' && c ≠ '\r'

/-- A text cut at its first `#`, and before that at its first `?`. -/
def ofChars (text : List Char) : Reference :=
  let (front, fragment) := Text.breakAt (· = '#') text
  let (main, query) := Text.breakAt (· = '?') front
  let part (text : List Char) := if text.isEmpty then none else some (text.drop 1)
  ⟨main, part query, part fragment⟩

/-- Whether nothing but a fragment is given. -/
def isFragment (r : Reference) : Bool := r.main.isEmpty && r.query.isNone && r.fragment.isSome

/-- The query as it stands in a locator. -/
def queryText (r : Reference) (scheme : String) : Option String :=
  r.query.map fun text => Percent.encode (UrlPath.queryMarks (isSpecial scheme)) (String.ofList text)

/-- The fragment as it stands in a locator. -/
def fragmentText (r : Reference) : Option String :=
  r.fragment.map fun text => Percent.encode UrlPath.fragmentMarks (String.ofList text)

end Reference

/-- A letter, then letters, digits and `+ - .`, up to a colon: the scheme in lower case and the text
    after the colon. -/
def scheme? (text : List Char) : Option (String × List Char) :=
  let isPart (c : Char) := c.isAlphanum || c = '+' || c = '-' || c = '.'
  match text, text.dropWhile isPart with
  | first :: _, ':' :: rest =>
    if first.isAlpha then some (String.ofList ((text.takeWhile isPart).map Char.toLower), rest)
    else none
  | _, _ => none

/-! ### The part that names a server -/

/-- What stands between the two slashes and the path. -/
structure Authority where
  username : String
  password : String
  host : Host
  port : Option Nat

namespace Authority

/-- The text before the last `@`, if there is one, and the text after it. -/
def splitUser (text : List Char) : Option (List Char) × List Char :=
  if text.contains '@' then
    let back := text.reverse
    (some ((back.dropWhile (· ≠ '@')).drop 1).reverse, (back.takeWhile (· ≠ '@')).reverse)
  else (none, text)

/-- The text before the first colon outside brackets, and the text from there on. -/
def splitPort (inside : Bool) : List Char → List Char × List Char
  | [] => ([], [])
  | c :: rest =>
    if c = ':' && !inside then ([], c :: rest)
    else
      let (host, port) := splitPort (if c = '[' then true else if c = ']' then false else inside) rest
      (c :: host, port)

/-- The value of a row of decimal digits. -/
def decimal (digits : List Char) : Nat := digits.foldl (fun n c => 10 * n + (c.toNat - 48)) 0

/-- A port with its colon: digits of a number below `2 ^ 16`, or none; that of the scheme is left
    out. A backslash ends it, and is given back with the text after it. -/
def readPort (scheme : String) : List Char → Except Fault (Option Nat × List Char)
  | [] => .ok (none, [])
  | _ :: text =>
    let (digits, rest) := Text.breakAt (· = '\\') text
    if !digits.all Char.isDigit || 65535 < decimal digits then .error .invalidPort
    else if digits.isEmpty || defaultPort? scheme = some (decimal digits) then .ok (none, rest)
    else .ok (some (decimal digits), rest)

/-- A part of the user information as it stands in a locator. -/
def credential (text : List Char) : String :=
  Percent.encode UrlPath.credentialMarks (String.ofList text)

/-- The server that a text names, and the text after its port; `last` tells whether the locator ends
    with it. -/
def read (scheme : String) (last : Bool) (text : List Char) :
    Except Fault (Authority × List Char) := do
  let (user, server) := splitUser text
  if user = some [] && server.isEmpty && !last then throw .emptyHost
  let (name, rest) := splitPort false server
  if isSpecial scheme && name.isEmpty then throw .emptyHost
  let host ← if isSpecial scheme then Host.ofText name else Host.uninterpreted name
  if host = .empty && !rest.isEmpty then throw .emptyHost
  let (port, rest) ← readPort scheme rest
  let (username, password) := Text.breakAt (· = ':') (user.getD [])
  let username := credential username
  let password := credential (password.drop 1)
  if host = .empty && !(username.isEmpty && password.isEmpty) then throw .emptyHost
  return (⟨username, password, host, port⟩, rest)

end Authority

/-! ### Locators -/

/-- The segments after a server; the slash before the first one may be left out. -/
def absolutePath (scheme : String) : List Char → List String
  | [] => if isSpecial scheme then [""] else []
  | c :: rest =>
    UrlPath.followText scheme [] (if UrlPath.isSlash scheme c then rest else c :: rest)

/-- A locator from the text after its two slashes. -/
def ofAuthority (scheme : String) (text : List Char) (r : Reference) : Except Fault Url := do
  let (server, path) := Text.breakAt (UrlPath.isSlash scheme) text
  let (a, rest) ← Authority.read scheme (path.isEmpty && r.query.isNone && r.fragment.isNone) server
  return ⟨scheme, a.username, a.password, some a.host, a.port,
    .segments (absolutePath scheme (rest ++ path)), r.queryText scheme, r.fragmentText⟩

/-- The segments of a locator that has them. -/
def segments (url : Url) : List String :=
  match url.path with
  | .segments names => names
  | .verbatim _ => []

/-- The locator that keeps the server of another one, with the given path. -/
def withPath (base : Url) (names : List String) (r : Reference) : Url :=
  { base with path := .segments names, query := r.queryText base.scheme, fragment := r.fragmentText }

/-- The locator that differs from another one in query and fragment alone; without a query of its own
    it takes that of the base. -/
def withQuery (base : Url) (r : Reference) : Url :=
  { base with
    query := if r.query.isSome then r.queryText base.scheme else base.query
    fragment := r.fragmentText }

/-- The server of a file; none is as good as `localhost`. -/
def fileHost (name : List Char) : Except Fault Host :=
  if name.isEmpty then .ok .empty
  else (Host.ofText name).map fun host => if host = .name "localhost" then .empty else host

/-- A locator of a file without anything but its scheme. -/
def emptyFile : Url := ⟨"file", "", "", some .empty, none, .segments [], none, none⟩

/-- A locator of a file, from the text after its scheme. -/
def ofFile (base : Option Url) (r : Reference) : Except Fault Url :=
  let isSlash := UrlPath.isSlash "file"
  let base := base.getD emptyFile
  match r.main with
  | [] => .ok (base.withQuery r)
  | c :: rest =>
    if !isSlash c then
      .ok (base.withPath
        (UrlPath.followText "file" (UrlPath.shorten "file" base.segments) (c :: rest)) r)
    else if !(rest.head?.map isSlash).getD false then
      .ok (base.withPath (UrlPath.followText "file" [] rest) r)
    else
      let (name, path) := Text.breakAt isSlash (rest.drop 1)
      if UrlPath.isDrive name then
        .ok (emptyFile.withPath (UrlPath.followText "file" [] (rest.drop 1)) r)
      else (fileHost name).map fun host =>
        { emptyFile with host := some host }.withPath (absolutePath "file" path) r

/-- A slash of either kind. -/
def isAnySlash (c : Char) : Bool := c = '/' || c = '\\'

/-- A locator relative to one that has segments. -/
def relative (base : Url) (r : Reference) : Except Fault Url :=
  if base.scheme = "file" then ofFile (some base) r
  else match r.main with
    | [] => .ok (base.withQuery r)
    | '/' :: '/' :: rest => ofAuthority base.scheme rest r
    | c :: rest =>
      if isAnySlash c then
        if (rest.head?.map isAnySlash).getD false then
          ofAuthority base.scheme (rest.dropWhile isAnySlash) r
        else .ok (base.withPath (UrlPath.followText base.scheme [] rest) r)
      else
        .ok (base.withPath (UrlPath.followText base.scheme (UrlPath.shorten base.scheme base.segments)
          (c :: rest)) r)

/-- A locator with a scheme of its own. -/
def absolute (base : Option Url) (scheme : String) (r : Reference) : Except Fault Url :=
  if scheme = "file" then ofFile (base.filter (·.scheme = "file")) r
  else if isSpecial scheme then
    match base.filter (·.scheme = scheme) with
    | some base =>
      if (r.main.takeWhile isAnySlash).length < 2 then relative base r
      else ofAuthority scheme (r.main.dropWhile isAnySlash) r
    | none => ofAuthority scheme (r.main.dropWhile isAnySlash) r
  else match r.main with
    | '/' :: '/' :: rest => ofAuthority scheme rest r
    | '/' :: rest =>
      .ok ⟨scheme, "", "", none, none, .segments (UrlPath.followText scheme [] rest),
        r.queryText scheme, r.fragmentText⟩
    | text =>
      .ok ⟨scheme, "", "", none, none,
        .verbatim (Percent.encode Percent.isControl (String.ofList text)),
        r.queryText scheme, r.fragmentText⟩

/-- The locator that a text spells, relative to a base if there is one. -/
def read (base : Option Url) (text : String) : Except Fault Url :=
  let r := Reference.ofChars (Reference.clean text)
  match scheme? r.main with
  | some (scheme, rest) => absolute base scheme { r with main := rest }
  | none => match base with
    | none => .error .relativeWithoutBase
    | some base =>
      if r.isFragment then .ok { base with fragment := r.fragmentText }
      else if base.isBase then relative base r
      else .error .relativeToVerbatim

/-- The locator that a text spells on its own. -/
def ofText (text : String) : Except Fault Url := read none text

/-- The locator that a text spells, seen from another one. -/
def join (base : Url) (text : String) : Except Fault Url := read (some base) text

/-- The locator with a slash at the end of its path, so that others are relative to all of it. -/
def asFolder (url : Url) : Url :=
  match url.path with
  | .segments names =>
    if names.getLast? = some "" then url else { url with path := .segments (names ++ [""]) }
  | .verbatim text =>
    if text.toList.getLast? = some '/' then url else { url with path := .verbatim (text ++ "/") }

end SealedDownload.Url
