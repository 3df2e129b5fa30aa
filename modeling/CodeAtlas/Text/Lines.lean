/-!
# Lines of a text

One notion of line serves the whole library: a line ends at a line feed, which may follow a
carriage return; what stands behind the last line feed is a line of its own unless it is
empty. Files are measured by `lineCount`, which looks at bytes and does not need them to be
text, and cut by `selectLines`.
-/

namespace CodeAtlas.Text

/-- The line without the carriage return that stands before its line feed. -/
def dropReturn (line : List Char) : List Char :=
  if line.getLast? = some '\r' then line.dropLast else line

/-- The lines among the pieces of a text between its line feeds: all but the last piece were ended by
a line feed, and the last one is a line if it is not empty. -/
def linesOfPieces : List (List Char) → List (List Char)
  | [] => []
  | [last] => if last.isEmpty then [] else [last]
  | piece :: next :: rest => dropReturn piece :: linesOfPieces (next :: rest)

/-- The lines of a text, without their line endings. -/
def lines (text : List Char) : List (List Char) := linesOfPieces (text.splitOn '\n')

/-- Lines put together with line feeds between them. -/
def joinLines (ls : List (List Char)) : List Char := List.intercalate ['\n'] ls

/-- The lines `start` to `stop`, counted from 1 and both included, with line feeds between them.
Nothing is selected from line 0 or by a range that ends before it starts. -/
def selectLines (text : List Char) (start stop : Nat) : List Char :=
  if start = 0 ∨ stop < start then []
  else joinLines (((lines text).drop (start - 1)).take (stop - start + 1))

/-- The number of lines in the bytes of a file. -/
def lineCount (bytes : List UInt8) : Nat :=
  let feeds := bytes.countP (· == 10)
  match bytes.getLast? with
  | none => feeds
  | some last => if last == 10 then feeds else feeds + 1

end CodeAtlas.Text
