import SealedDownload.Octets

/-! Uniform resource locators: their parts, and the text of those parts. -/

namespace SealedDownload

/-- Where a server is. -/
inductive Host where
  /-- no name at all, as in `file:///` -/
  | empty
  /-- a registered name in its ASCII form -/
  | name (text : String)
  /-- four bytes, as a number below `2 ^ 32` -/
  | ipv4 (address : Nat)
  /-- eight groups of 16 bits -/
  | ipv6 (groups : List Nat)
deriving DecidableEq

/-- What follows the server. -/
inductive UrlPath where
  /-- segments, a slash before each -/
  | segments (names : List String)
  /-- a text that has no segments -/
  | verbatim (text : String)
deriving DecidableEq

/-- A locator in its parts. -/
structure Url where
  scheme : String
  username : String
  password : String
  /-- The server, if the locator names one. -/
  host : Option Host
  /-- The port, if it is not the scheme's own. -/
  port : Option Nat
  path : UrlPath
  query : Option String
  fragment : Option String
deriving DecidableEq

namespace Host

/-- The lower-case hexadecimal digits of a number. -/
def hexDigits (n : Nat) : String := String.ofList (Nat.toDigits 16 n)

/-- The four decimal numbers of an address. -/
def dotted (address : Nat) : String :=
  ".".intercalate ([24, 16, 8, 0].map fun shift => toString (address / Nat.pow 2 shift % 256))

/-- The start and length of the first longest row of zero groups; `index` is that of the next
    group, `row` the length of the row that ends before it. -/
def zeroRow (index row : Nat) (best : Nat × Nat) : List Nat → Nat × Nat
  | [] => best
  | group :: groups =>
    if group = 0 then
      let row := row + 1
      zeroRow (index + 1) row (if best.2 < row then (index + 1 - row, row) else best) groups
    else zeroRow (index + 1) 0 best groups

/-- Groups with colons between them. -/
def colons (groups : List Nat) : String := ":".intercalate (groups.map hexDigits)

/-- The groups of an address, where the first longest row of at least two zero groups is left out. -/
def grouped (groups : List Nat) : String :=
  let (start, length) := zeroRow 0 0 (0, 0) groups
  if length < 2 then colons groups
  else colons (groups.take start) ++ "::" ++ colons (groups.drop (start + length))

/-- The text of a host. -/
def render : Host → String
  | .empty => ""
  | .name text => text
  | .ipv4 address => dotted address
  | .ipv6 groups => "[" ++ grouped groups ++ "]"

end Host

namespace UrlPath

/-- The text of a path. -/
def render : UrlPath → String
  | .segments names => String.join (names.map ("/" ++ ·))
  | .verbatim text => text

end UrlPath

namespace Url

/-- The port of a scheme that has one. -/
def defaultPort? (scheme : String) : Option Nat :=
  if scheme = "http" || scheme = "ws" then some 80
  else if scheme = "https" || scheme = "wss" then some 443
  else if scheme = "ftp" then some 21
  else none

/-- Whether locators of a scheme name a server or a file and always have segments. -/
def isSpecial (scheme : String) : Bool := scheme = "file" || (defaultPort? scheme).isSome

/-- The user part of a locator, with the mark that ends it. -/
def credentials (url : Url) : String :=
  if url.username.isEmpty && url.password.isEmpty then ""
  else if url.password.isEmpty then url.username ++ "@"
  else url.username ++ ":" ++ url.password ++ "@"

/-- The part of a locator that names the server. A path that begins with two slashes and has no
    server before it is kept apart from one. -/
def authority (url : Url) : String :=
  match url.host, url.path with
  | some host, _ =>
    "//" ++ url.credentials ++ host.render ++ (url.port.map fun p => ":" ++ toString p).getD ""
  | none, .segments ("" :: _ :: _) => "/."
  | none, _ => ""

/-- The text of a locator. -/
def render (url : Url) : String :=
  url.scheme ++ ":" ++ url.authority ++ url.path.render ++
    (url.query.map ("?" ++ ·)).getD "" ++ (url.fragment.map ("#" ++ ·)).getD ""

/-- Whether other locators can be given relative to this one. -/
def isBase (url : Url) : Bool :=
  match url.path with
  | .segments _ => true
  | .verbatim _ => false

/-- Why a text is no locator. -/
inductive Fault where
  | relativeWithoutBase
  | relativeToVerbatim
  | emptyHost
  | invalidPort
  | invalidIpv4
  | invalidIpv6
  | invalidDomain
  | invalidHostCharacter
deriving DecidableEq

/-- The wording of a fault. -/
def Fault.message : Fault → String
  | .relativeWithoutBase => "relative URL without a base"
  | .relativeToVerbatim => "relative URL with a cannot-be-a-base base"
  | .emptyHost => "empty host"
  | .invalidPort => "invalid port number"
  | .invalidIpv4 => "invalid IPv4 address"
  | .invalidIpv6 => "invalid IPv6 address"
  | .invalidDomain => "invalid international domain name"
  | .invalidHostCharacter => "invalid domain character"

end Url
end SealedDownload
