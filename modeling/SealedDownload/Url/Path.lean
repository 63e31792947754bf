import SealedDownload.Url
import SealedDownload.Text.Cut
import SealedDownload.Text.Percent

/-! Paths of locators. A path is read segment by segment: `.` stays where it is, `..` goes up by one,
    and every other segment is appended with its blanks and marks escaped. A dot may be written as
    `%2e`. -/

namespace SealedDownload.UrlPath

/-! ### Escape sets of the parts of a locator -/

/-- The escape set of a fragment. -/
def fragmentMarks (b : UInt8) : Bool := Percent.isControl b || Percent.isOneOf " \"<>`" b

/-- The escape set of a segment. -/
def segmentMarks (b : UInt8) : Bool := fragmentMarks b || Percent.isOneOf "#?\x7b\x7d" b

/-- The escape set of a user name or password. -/
def credentialMarks (b : UInt8) : Bool := segmentMarks b || Percent.isOneOf "/:;=@[\\]^|" b

/-- The escape set of a query. -/
def queryMarks (special : Bool) (b : UInt8) : Bool :=
  Percent.isControl b || Percent.isOneOf " \"#<>" b || (special && b = 39)

/-! ### Segments -/

/-- Whether a segment is one of some texts, in either case. -/
def isOneOf (texts : List String) (segment : List Char) : Bool :=
  texts.contains (String.ofList (segment.map Char.toLower))

/-- A segment that stays. -/
def isDot (segment : List Char) : Bool := isOneOf [".", "%2e"] segment

/-- A segment that goes up. -/
def isDoubleDot (segment : List Char) : Bool := isOneOf ["..", ".%2e", "%2e.", "%2e%2e"] segment

/-- A letter and a colon or bar, as drives are named. -/
def isDrive : List Char → Bool
  | [letter, mark] => letter.isAlpha && (mark = ':' || mark = '|')
  | _ => false

/-- The segments without the last one; the drive of a file is kept. -/
def shorten (scheme : String) (names : List String) : List String :=
  match names with
  | [name] => if scheme = "file" && isDrive name.toList then names else []
  | names => names.dropLast

/-- A segment as it stands in a locator. -/
def segment (text : List Char) : String := Percent.encode segmentMarks (String.ofList text)

/-- The segments after those of a text, given in pieces, have been gone through. -/
def follow (scheme : String) (kept : List String) : List (List Char) → List String
  | [] => kept
  | [last] =>
    if isDoubleDot last then shorten scheme kept ++ [""]
    else if isDot last then kept ++ [""]
    else kept ++ [segment last]
  | piece :: rest =>
    if isDoubleDot piece then follow scheme (shorten scheme kept) rest
    else if isDot piece then follow scheme kept rest
    else follow scheme (kept ++ [segment piece]) rest

/-- The marks between segments. -/
def isSlash (scheme : String) (c : Char) : Bool := c = '/' || (c = '\\' && Url.isSpecial scheme)

/-- The segments that a text leads to from some others. -/
def followText (scheme : String) (kept : List String) (text : List Char) : List String :=
  follow scheme kept (Text.cut (isSlash scheme) text)

end SealedDownload.UrlPath
