import SealedDownload.Octets
import SealedDownload.Text.Cut

/-! Tables of characters. A table is written as a text of rows with blanks between them: a row names
    a code point, or the first and last one of a range, and after `=` its values, with points between
    them. A row that names no code point is about the next one after the row before. All numbers are
    hexadecimal, and the rows are in ascending order. The tables hold version 17 of the Unicode
    character database. -/

namespace SealedDownload.Text

/-- A range of code points and what a table says of them. -/
structure Row where
  first : Nat
  last : Nat
  values : List Nat

/-- Rows in ascending order. -/
abbrev Table := Array Row

namespace Table

/-! ### Reading -/

/-- The number that hexadecimal digits spell. -/
def number (digits : List Char) : Nat :=
  digits.foldl (fun n c => 16 * n + (Octets.hexValue? c).getD 0) 0

/-- The first and last code point of a row; `next` stands in for a code point that is not named. -/
def range (next : Nat) (text : List Char) : Nat × Nat :=
  match cut (· = '-') text with
  | [first, last] => (number first, number last)
  | [] | [[]] => (next, next)
  | first :: _ => (number first, number first)

/-- The row that a text gives. -/
def row (next : Nat) (text : List Char) : Row :=
  let (code, values) := breakAt (· = '=') text
  let (first, last) := range next code
  match values with
  | [] => ⟨first, last, []⟩
  | _ :: values => ⟨first, last, (cut (· = '.') values).map number⟩

/-- The rows that texts give, each after the one before. -/
def rows (next : Nat) : List (List Char) → List Row
  | [] => []
  | text :: texts =>
    let row := row next text
    row :: rows (row.last + 1) texts

/-- The table that a text gives. -/
def ofText (text : String) : Table :=
  let words := (cut (fun c => c = ' ' || c = '\n') text.toList).filter (!·.isEmpty)
  (rows 0 words).toArray

/-! ### Looking up -/

/-- The row of a code point among those from `low` on and below `high`; `fuel` bounds the halvings. -/
def rowBetween? (table : Table) (n : Nat) : (fuel low high : Nat) → Option Row
  | 0, _, _ => none
  | fuel + 1, low, high =>
    if low < high then
      let middle := (low + high) / 2
      match table[middle]? with
      | none => none
      | some row =>
        if n < row.first then rowBetween? table n fuel low middle
        else if row.last < n then rowBetween? table n fuel (middle + 1) high
        else some row
    else none

/-- The row of a code point. -/
def row? (table : Table) (n : Nat) : Option Row := rowBetween? table n (table.size + 1) 0 table.size

/-- Whether a code point has a row. -/
def holds (table : Table) (n : Nat) : Bool := (table.row? n).isSome

/-- What the table says of a code point. -/
def valuesOf (table : Table) (n : Nat) : List Nat := (table.row? n).elim [] (·.values)

end Table
end SealedDownload.Text
