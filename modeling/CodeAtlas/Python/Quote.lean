import CodeAtlas.Python.Literal.Text

/-!
# Quotes

How strings open, and what their content is made of. A string is closed by the quotes that opened
it; back quotes are quotes, too. In a template a brace opens a field unless it is doubled, and a
closing brace has to be doubled. A string with a single quote does not go over the end of a line,
unless that stands behind a backslash, or at the start of a run of plain characters: directly behind
the opening quote, an escape, a doubled brace or a field.

Main statement: `Quote.length_pos_of_skip`, a piece of content is never empty.
-/

namespace CodeAtlas.Python

/-- How a string was opened. -/
structure Quote where
  mark : Char
  isTriple : Bool
  isRaw : Bool
  isTemplate : Bool
  deriving DecidableEq, Repr, Inhabited

namespace Quote

/-- Whether a character is a mark in front of a string. -/
def isMark (c : Char) : Bool := ['f', 'F', 'r', 'R', 'b', 'B', 'u', 'U'].contains c

/-- The quote that a text opens, and the number of characters that open it. -/
def opening? (cs : List Char) : Option (Quote × Nat) :=
  let marks := cs.takeWhile isMark
  let rest := cs.dropWhile isMark
  match rest with
  | [] => none
  | c :: _ =>
    if Literal.isQuote c ∨ c = '\x60' then
      let d := Literal.delimiter rest
      some (⟨c, d.length = 3, marks.any (fun m => m.toLower == 'r'),
        marks.any (fun m => m.toLower == 'f')⟩, marks.length + d.length)
    else none

/-- The quotes that close the string. -/
def closing (q : Quote) : List Char := if q.isTriple then [q.mark, q.mark, q.mark] else [q.mark]

/-- What comes next in a string. -/
inductive Piece where
  /-- A number of characters of content, and whether a run of plain characters starts behind
  them. -/
  | skip (length : Nat) (fresh : Bool)
  | close
  | openField
  | malformed
  deriving DecidableEq, Repr

/-- The length of a line feed with a carriage return before it, or without; zero if there is
none. -/
def lineFeedLength : List Char → Nat
  | '\r' :: '\n' :: _ => 2
  | '\n' :: _ => 1
  | _ => 0

/-- The length of an escape, with its backslash, from the text behind the backslash. -/
def escapeLength : List Char → Nat
  | 'N' :: '\x7b' :: rest =>
    let name := rest.takeWhile (· ≠ '\x7d')
    if name.isEmpty ∨ name.length = rest.length then 1 else name.length + 4
  | c :: rest =>
    if Literal.isQuote c ∨ c = '\\' then 2 else lineFeedLength (c :: rest) + 1
  | [] => 1

/-- The length of a backslash in a raw string with what it protects. -/
def rawEscapeLength (q : Quote) : List Char → Nat
  | c :: rest =>
    if c = q.mark ∨ c = '\\' then lineFeedLength rest + 2 else lineFeedLength (c :: rest) + 1
  | [] => 1

/-- What comes next, where a text starts with a brace in a template. -/
def bracePiece : List Char → Piece
  | '\x7b' :: '\x7b' :: _ => .skip 2 true
  | '\x7d' :: '\x7d' :: _ => .skip 2 true
  | '\x7b' :: _ => .openField
  | _ => .malformed

/-- What comes next in the content of a string, where a run of plain characters may start. -/
def next (q : Quote) (fresh : Bool) : List Char → Piece
  | [] => .malformed
  | c :: rest =>
    if q.isTemplate ∧ (c = '\x7b' ∨ c = '\x7d') then bracePiece (c :: rest)
    else if c = '\\' then
      if q.isRaw then .skip (q.rawEscapeLength rest) fresh else .skip (escapeLength rest) true
    else if q.closing.isPrefixOf (c :: rest) then .close
    else if c = '\x00' ∨ (c = '\n' ∧ !q.isTriple ∧ !fresh) then .malformed
    else .skip 1 false

/-- The length of the content and the closing quotes of a string that is no template. The first
argument bounds the number of pieces. -/
def contentLength (q : Quote) : Nat → Bool → List Char → Option Nat
  | 0, _, _ => none
  | fuel + 1, fresh, cs =>
    match q.next fresh cs with
    | .skip n fresh => (q.contentLength fuel fresh (cs.drop n)).map (· + n)
    | .close => some q.closing.length
    | .openField => none
    | .malformed => none

theorem escapeLength_pos (cs : List Char) : 0 < escapeLength cs := by
  unfold escapeLength
  split
  · dsimp only
    split <;> omega
  · split <;> omega
  · omega

theorem rawEscapeLength_pos (q : Quote) (cs : List Char) : 0 < q.rawEscapeLength cs := by
  unfold rawEscapeLength
  split
  · split <;> omega
  · omega

/-- A piece of content is never empty. -/
theorem length_pos_of_skip {q : Quote} {fresh behind : Bool} {cs : List Char} {n : Nat}
    (h : q.next fresh cs = .skip n behind) : 0 < n := by
  unfold next at h
  split at h
  · cases h
  · split at h
    · unfold bracePiece at h
      split at h <;> simp_all <;> omega
    · split at h
      · split at h
        · cases h
          exact rawEscapeLength_pos q _
        · cases h
          exact escapeLength_pos _
      · split at h
        · cases h
        · split at h
          · cases h
          · cases h
            omega

end Quote

end CodeAtlas.Python
