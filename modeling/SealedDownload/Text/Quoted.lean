import SealedDownload.Text.Mark
import SealedDownload.Text.Unassigned

/-! A text in quotes, for messages. Quotes, backslashes and line marks are written with a backslash,
    and every character that would not show as itself by the number of its code point. -/

namespace SealedDownload.Text

/-- Characters that show nothing: controls, blanks, marks of direction and layout, fillers and private
    characters. -/
def blanks : Table := .ofText "
    0-1F 7F-A0 AD 600-605 61C 6DD 70F 890-891 8E2 115F-1160 1680 180E 2000-200F 2028-202F 205F-206F
    3000 3164 D800-F8FF FEFF FFA0 FFF9-FFFB 110BD 110CD 13430-1343F 1BCA0-1BCA3 1D173-1D17A
    E0001-E007F F0000-10FFFD"

/-- Marks with a place of their own that belong to the character before them all the same. -/
def attachedMarks : Table := .ofText "
    9BE 9D7 B3E B57 BBE BD7 CC0 CC2 CC7-CC8 CCA-CCB CD5-CD6 D3E D57 DCF DDF 1715 1734 1B35 1B3B
    1B3D 1B43-1B44 1BAA 1BF2-1BF3 302E-302F A953 A9C0 111C0 11235 1133E 1134D 11357 113B8 113C2
    113C5 113C7-113C9 113CF 114B0 114BD 115AF 116B6 11930 1193D 11F41 16FF0-16FF1 1D165-1D166
    1D16D-1D172"

/-- Whether a character shows as itself. -/
def isShown (c : Char) : Bool :=
  let n := c.toNat
  if n < 127 then 32 ≤ n
  else !blanks.holds n && !Mark.nonspacing.holds n && !attachedMarks.holds n && !unassigned.holds n

/-- A character inside quotes. -/
def quoteChar (c : Char) : List Char :=
  if c = '"' || c = '\\' then ['\\', c]
  else if c = '\n' then ['\\', 'n']
  else if c = '\r' then ['\\', 'r']
  else if c = '\t' then ['\\', 't']
  else if c.toNat = 0 then ['\\', '0']
  else if isShown c then [c]
  else "\\u\x7b".toList ++ Nat.toDigits 16 c.toNat ++ ['\x7d']

/-- A text in quotes. -/
def quote (text : String) : String :=
  String.ofList ('"' :: text.toList.flatMap quoteChar ++ ['"'])

end SealedDownload.Text
