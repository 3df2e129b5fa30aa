import CodeAtlas.Text.Blank
import CodeAtlas.Text.Lines
import CodeAtlas.Text.Tabs

/-!
# Cleaning docstrings

A docstring is shown without the indentation it has in the source: tabs are expanded, the first
line loses its leading blanks, the other lines lose the indentation they have in common, and
blank lines at either end are dropped.

Indentation is measured in bytes of UTF-8. A line whose first blanks cannot be cut at that many
bytes (it is shorter, or a wide blank straddles the cut) becomes empty.
-/

namespace CodeAtlas.Text

/-- The length of a text in bytes of UTF-8. -/
def byteLength (cs : List Char) : Nat := cs.foldl (fun n c => n + c.utf8Size) 0

/-- What is left of a text behind its first `n` bytes, if a character starts there. -/
def dropBytes : Nat → List Char → Option (List Char)
  | 0, cs => some cs
  | _ + 1, [] => none
  | n + 1, c :: rest => if c.utf8Size ≤ n + 1 then dropBytes (n + 1 - c.utf8Size) rest else none

namespace Docstring

/-- The bytes of a line's leading blanks. -/
def indentWidth (line : List Char) : Nat := byteLength (line.takeWhile isBlank)

/-- The indentation that all lines with text have in common; 0 if there are none. -/
def margin (ls : List (List Char)) : Nat :=
  match ((ls.filter (fun l => !isBlankLine l)).map indentWidth).min? with
  | none => 0
  | some width => width

/-- A line without the common indentation and without carriage returns at its end. -/
def dedentLine (width : Nat) (line : List Char) : List Char :=
  dropEndWhile (· = '\r') ((dropBytes width line).getD [])

/-- The first line without its indentation, the others without the common one. -/
def dedentLines : List (List Char) → List (List Char)
  | [] => []
  | first :: rest => trimStart first :: rest.map (dedentLine (margin rest))

/-- The lines without blank ones at either end. -/
def dropBlankEnds (ls : List (List Char)) : List (List Char) :=
  dropEndWhile isBlankLine (ls.dropWhile isBlankLine)

/-- The text of a docstring as it is shown. -/
def clean (raw : List Char) : List Char :=
  joinLines (dropBlankEnds (dedentLines (lines (expandTabs raw))))

end Docstring

/-- The text of a docstring as it is shown. -/
def cleanDocstring (raw : String) : String := String.ofList (Docstring.clean raw.toList)

/-- Tabs count to the next stop, and the lines below the first share one margin. -/
example : cleanDocstring "  Fetch.\n\n\tSlowly.\n    Again.\n  " = "Fetch.\n\n    Slowly.\nAgain." := by
  decide +kernel

end CodeAtlas.Text
