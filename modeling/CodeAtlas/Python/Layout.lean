import CodeAtlas.Python.Token

/-!
# Between tokens

Blanks, comments and line ends between two tokens. Indentation counts a space as one and a tab as
eight; carriage returns and form feeds start it anew. A backslash in front of a line end joins the
lines.

Main statement: `length_scanGap_le`, what is left is no longer than the text.
-/

namespace CodeAtlas.Python

/-- The place behind a character. -/
def Position.advance (p : Position) (c : Char) : Position :=
  if c = '\n' then ⟨p.line + 1, 0⟩ else ⟨p.line, p.column + c.utf8Size⟩

/-- The place behind some characters. -/
def Position.advanceAll (p : Position) (cs : List Char) : Position := cs.foldl Position.advance p

/-- What stands between two tokens, and what follows. -/
structure Gap where
  /-- Whether a line ends. -/
  broken : Bool := false
  /-- How far the line is indented as far as it was read. -/
  indent : Nat := 0
  /-- The comments on lines of their own. -/
  lineComments : List LineComment := []
  /-- All comments, those behind code included. -/
  comments : List Comment := []
  position : Position
  deriving Inhabited

/-- Whether a character is a blank without a width. -/
def isZeroWidth (c : Char) : Bool :=
  c = '\x0b' || c.toNat == 0xFEFF || c.toNat == 0x2060 || c.toNat == 0x200B

namespace Gap

/-- The gap with one more blank. -/
def blank (g : Gap) (c : Char) (indent : Nat) : Gap :=
  { g with indent, position := g.position.advance c }

/-- The gap with a comment of some characters. -/
def comment (g : Gap) (text : List Char) : Gap :=
  let extent : Extent := ⟨g.position, g.position.advanceAll text⟩
  let lineComment : List LineComment := if g.broken then [⟨g.indent, extent⟩] else []
  { g with
    position := extent.stop
    lineComments := g.lineComments ++ lineComment
    comments := g.comments ++ [⟨String.ofList text, extent⟩] }

/-- The gap after a line end. -/
def newLine (g : Gap) : Gap :=
  { g with broken := true, indent := 0, position := g.position.advance '\n' }

/-- The gap with two lines joined. -/
def join (g : Gap) : Gap := { g with position := g.position.advance '\n' }

end Gap

/-- Whether a character belongs to a comment that has begun. -/
def continuesComment (c : Char) : Bool := c != '\n' && c != '\x00'

/-- Reads up to the next token. The result is the gap and the text from that token on. -/
def scanGap (g : Gap) : List Char → Gap × List Char
  | [] => (g, [])
  | '\n' :: rest => scanGap g.newLine rest
  | '#' :: rest =>
    scanGap (g.comment ('#' :: rest.takeWhile continuesComment)) (rest.dropWhile continuesComment)
  | '\\' :: '\n' :: rest => scanGap g.join rest
  | '\\' :: '\r' :: '\n' :: rest => scanGap g.join rest
  | c :: rest =>
    if c = ' ' then scanGap (g.blank c (g.indent + 1)) rest
    else if c = '\t' then scanGap (g.blank c (g.indent + 8)) rest
    else if c = '\r' ∨ c = '\x0c' then scanGap (g.blank c 0) rest
    else if isZeroWidth c then scanGap (g.blank c g.indent) rest
    else (g, c :: rest)
termination_by cs => cs.length
decreasing_by
  all_goals simp only [List.length_cons]
  · omega
  · exact Nat.lt_succ_of_le (List.dropWhile_suffix _).length_le
  all_goals omega

theorem length_scanGap_le (g : Gap) (cs : List Char) : (scanGap g cs).2.length ≤ cs.length := by
  fun_induction scanGap g cs with
  | case1 => simp
  | case3 g rest ih =>
    have := (List.dropWhile_suffix (l := rest) continuesComment).length_le
    simp only [List.length_cons]
    omega
  | _ => simp_all <;> omega

end CodeAtlas.Python
