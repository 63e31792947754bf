/-! Cutting a text at its marks. -/

namespace SealedDownload.Text

/-- The pieces between the marks, in order; there is one piece more than there are marks. -/
def cut (isMark : Char → Bool) : List Char → List (List Char)
  | [] => [[]]
  | c :: rest =>
    if isMark c then [] :: cut isMark rest
    else match cut isMark rest with
      | piece :: pieces => (c :: piece) :: pieces
      | [] => [[c]]

/-- The text before the first mark, and the text from that mark on. -/
def breakAt (isMark : Char → Bool) (text : List Char) : List Char × List Char :=
  (text.takeWhile (!isMark ·), text.dropWhile (!isMark ·))

end SealedDownload.Text
