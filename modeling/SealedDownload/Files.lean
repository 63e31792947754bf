import SealedDownload.Failure
import SealedDownload.Text.Cut

/-! Files by path. A path that has just been drawn names no file that was drawn before; removing a file
    that is not there succeeds. -/

namespace SealedDownload

/-- The path of a file or folder. -/
abbrev Path := String

/-- The files that exist, the folders that are known, and how many paths have been drawn. -/
structure Files where
  entries : List (Path × Octets)
  folders : List Path
  drawn : Nat
deriving Inhabited

namespace Files

/-- No files at all. -/
def empty : Files := ⟨[], [], 0⟩

/-- The content of a file. -/
def get? (files : Files) (path : Path) : Option Octets := files.entries.lookup path

/-- Whether a file exists. -/
def contains (files : Files) (path : Path) : Bool := (files.get? path).isSome

/-- The steps of a path, from slash to slash; a point alone is no step. -/
def steps (path : Path) : List (List Char) :=
  (Text.cut (· = '/') path.toList).filter fun step => step ≠ [] ∧ step ≠ ['.']

/-- The name at the end of a path, unless its last step goes up. -/
def name? (path : Path) : Option String :=
  ((steps path).getLast?.filter (· ≠ ['.', '.'])).map String.ofList

/-- What follows the last point of the name at the end of a path. -/
def extension (path : Path) : String :=
  String.ofList ((Text.cut (· = '.') ((name? path).getD "").toList).getLastD [])

/-- Whether a path is one step below a folder. -/
def isIn (folder path : Path) : Bool :=
  steps path ≠ [] && (steps path).dropLast = steps folder

/-- The files in a folder. -/
def within (files : Files) (folder : Path) : List (Path × Octets) :=
  files.entries.filter fun entry => isIn folder entry.1

/-- How many files are in a folder. -/
def count (files : Files) (folder : Path) : Nat := (files.within folder).length

/-- Writes a file, in place of one of the same path. -/
def write (files : Files) (path : Path) (bytes : Octets) : Files :=
  { files with entries := (path, bytes) :: files.entries.filter (·.1 ≠ path) }

/-- Appends to a file, or begins it. -/
def append (files : Files) (path : Path) (bytes : Octets) : Files :=
  files.write path ((files.get? path).getD [] ++ bytes)

theorem lookup_filter_of_ne {α β : Type} [DecidableEq α] {entries : List (α × β)} {name other : α}
    (h : other ≠ name) : (entries.filter (·.1 ≠ name)).lookup other = entries.lookup other := by
  induction entries with
  | nil => rfl
  | cons entry rest ih =>
    obtain ⟨first, value⟩ := entry
    by_cases hn : first = name
    · have ho : (other == first) = false := by
        rw [hn]
        exact beq_false_of_ne h
      rw [List.filter_cons_of_neg (by simpa using hn), ih, List.lookup_cons, ho]
    · rw [List.filter_cons_of_pos (by simpa using hn), List.lookup_cons, List.lookup_cons, ih]

theorem lookup_filter_self {α β : Type} [DecidableEq α] (entries : List (α × β)) (name : α) :
    (entries.filter (·.1 ≠ name)).lookup name = none := by
  have hn : ∀ entry ∈ entries.filter (·.1 ≠ name), entry.1 ≠ name := fun entry h => by
    simpa using (List.mem_filter.mp h).2
  exact List.lookup_eq_none_iff.mpr fun entry h => bne_iff_ne.mpr (hn entry h).symm

@[simp] theorem get?_write (files : Files) (path : Path) (bytes : Octets) :
    (files.write path bytes).get? path = some bytes := by
  exact List.lookup_cons_self

theorem get?_write_of_ne (files : Files) {path other : Path} (bytes : Octets) (h : other ≠ path) :
    (files.write path bytes).get? other = files.get? other := by
  have ho : (other == path) = false := beq_false_of_ne h
  have hw : (files.write path bytes).get? other =
      ((path, bytes) :: files.entries.filter (·.1 ≠ path)).lookup other := rfl
  rw [hw, List.lookup_cons, ho]
  exact lookup_filter_of_ne h

theorem get?_append {files : Files} {path : Path} {content : Octets} (bytes : Octets)
    (h : files.get? path = some content) : (files.append path bytes).get? path = some (content ++ bytes) := by
  unfold append
  rw [get?_write, h]
  rfl

/-- The files without one of them. -/
def erase (files : Files) (path : Path) : Files :=
  { files with entries := files.entries.filter (·.1 ≠ path) }

@[simp] theorem get?_erase (files : Files) (path : Path) : (files.erase path).get? path = none :=
  lookup_filter_self files.entries path

theorem get?_erase_of_ne (files : Files) {path other : Path} (h : other ≠ path) :
    (files.erase path).get? other = files.get? other :=
  lookup_filter_of_ne h

theorem get?_erase_eq_none {files : Files} {path : Path} (other : Path) (h : files.get? path = none) :
    (files.erase other).get? path = none := by
  by_cases hp : path = other
  · rw [hp]
    exact get?_erase files other
  · rw [get?_erase_of_ne files hp]
    exact h

/-- Removes a file, if there is one; a folder is none. -/
def remove (files : Files) (path : Path) : Except Failure Files :=
  if files.folders.contains path then .error (.io .isADirectory none) else .ok (files.erase path)

/-- Whether a file lies on the way to a path. -/
def blocks (files : Files) (path : Path) : Bool :=
  files.entries.any fun entry => (entry.1.toList ++ ['/']).isPrefixOf path.toList

/-- Makes a folder and those above it; a file on the way prevents it. -/
def makeFolder (files : Files) (path : Path) : Except Failure Files :=
  if files.blocks path then .error (.io .notADirectory none)
  else if files.folders.contains path then .ok files
  else .ok { files with folders := path :: files.folders }

theorem get?_of_makeFolder {files made : Files} {folder : Path} (h : files.makeFolder folder = .ok made) (path : Path) :
    made.get? path = files.get? path := by
  unfold makeFolder at h
  split at h
  · cases h
  · split at h <;> cases h <;> rfl

theorem drawn_of_makeFolder {files made : Files} {folder : Path} (h : files.makeFolder folder = .ok made) :
    made.drawn = files.drawn := by
  unfold makeFolder at h
  split at h
  · cases h
  · split at h <;> cases h <;> rfl

/-! ### Drawing paths -/

/-- How many digits the drawn part of a name has. -/
def stemLength : Nat := 32

/-- The drawn part of a name. -/
def stem (n : Nat) : String :=
  let digits := Nat.toDigits 16 n
  String.ofList (List.replicate (stemLength - digits.length) '0' ++ digits)

/-- The name of a drawn file. -/
def drawnName (n : Nat) (extension : String) : String := stem n ++ "." ++ extension

/-- The path of the next file drawn in a folder. -/
def nextPath (files : Files) (folder : Path) (extension : String) : Path :=
  folder ++ "/" ++ drawnName files.drawn extension

/-- The files after a path has been drawn. -/
def draw (files : Files) : Files := { files with drawn := files.drawn + 1 }

end Files
end SealedDownload
