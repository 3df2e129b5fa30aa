import CodeAtlas.Python.Layout
import CodeAtlas.Python.Number
import CodeAtlas.Python.Quote
import CodeAtlas.Text.Category

/-!
# Cutting a text into tokens

The text is read from left to right with a stack of what is open: brackets, templates, fields of
templates and the formats of fields. Line ends count only where nothing is open. Each step takes at
least one character.
-/

namespace CodeAtlas.Python

/-- What may be open while a text is read. -/
inductive Opening where
  | bracket
  /-- A template, in which fields stand between characters, and whether a run of plain characters
  may start. -/
  | template (quote : Quote) (fresh : Bool)
  /-- A field of a template, up to its format. -/
  | field
  /-- The format of a field. -/
  | format
  deriving DecidableEq, Repr, Inhabited

/-- What was read so far. -/
structure Reading where
  position : Position := ⟨0, 0⟩
  /-- What is open, the innermost first. -/
  opened : List Opening := []
  /-- The tokens, the last one first. -/
  tokens : List Token := []
  /-- The comments, the last one first. -/
  comments : List Comment := []
  deriving Inhabited

namespace Reading

/-- Takes some characters as a token. -/
def emit (r : Reading) (kind : TokenKind) (text : List Char) : Reading :=
  let stop := r.position.advanceAll text
  { r with
    position := stop
    tokens := ⟨kind, String.ofList text, ⟨r.position, stop⟩⟩ :: r.tokens }

/-- Passes over some characters. -/
def skip (r : Reading) (text : List Char) : Reading :=
  { r with position := r.position.advanceAll text }

/-- Opens something. -/
def enter (r : Reading) (o : Opening) : Reading := { r with opened := o :: r.opened }

/-- Closes what was opened last. -/
def leave (r : Reading) : Reading := { r with opened := r.opened.tail }

/-- Ends the line if something stands on it and nothing is open. -/
def endLine (r : Reading) (indent : Nat) (comments : List LineComment) : Reading :=
  match r.tokens with
  | [] => r
  | t :: _ =>
    if t.isLineEnd ∨ r.opened ≠ [] then r
    else
      { r with
        tokens := ⟨.lineEnd indent comments, "", ⟨t.extent.stop, t.extent.stop⟩⟩ :: r.tokens }

/-- Goes on behind a gap. -/
def afterGap (r : Reading) (g : Gap) : Reading :=
  let r := { r with position := g.position, comments := g.comments.reverse ++ r.comments }
  if g.broken then r.endLine g.indent g.lineComments else r

/-- Takes a word. -/
def word (r : Reading) (cs : List Char) : Reading × List Char :=
  let text := cs.takeWhile Text.isIdentifierChar
  (r.emit .word text, cs.drop text.length)

/-- Takes a string, or the quotes that open a template. -/
def string (r : Reading) (q : Quote) (n : Nat) (cs : List Char) : Option (Reading × List Char) :=
  if q.isTemplate then
    some ((r.emit .templateStart (cs.take n)).enter (.template q true), cs.drop n)
  else do
    let length ← q.contentLength cs.length true (cs.drop n)
    return (r.emit .string (cs.take (n + length)), cs.drop (n + length))

/-- Takes a symbol in a field that does not stand in brackets of its own. -/
def fieldSymbol (r : Reading) : List Char → Option (Reading × List Char)
  | '\x7d' :: rest => some ((r.emit .fieldStop ['\x7d']).leave, rest)
  | ':' :: '=' :: rest => some (r.emit .symbol [':', '='], rest)
  | ':' :: rest => some ((r.emit .formatStart [':']).leave.enter .format, rest)
  | '!' :: c :: rest =>
    if 'a' ≤ c ∧ c ≤ 'z' then some (r.emit .conversion ['!', c], rest) else none
  | _ => none

/-- Takes a symbol, and opens or closes a bracket. -/
def symbol (r : Reading) (cs : List Char) : Option (Reading × List Char) := do
  let text ← (symbols.map String.toList).find? (fun s => s.isPrefixOf cs)
  let r := r.emit .symbol text
  let r :=
    if [['('], ['['], ['\x7b']].contains text then r.enter .bracket
    else if [[')'], [']'], ['\x7d']].contains text ∧ r.opened.head? = some .bracket then r.leave
    else r
  return (r, cs.drop text.length)

/-- Takes the next token of code, which starts the text. -/
def code (r : Reading) (cs : List Char) : Option (Reading × List Char) :=
  match cs with
  | [] => none
  | c :: _ =>
    match Quote.opening? cs with
    | some (q, n) => r.string q n cs
    | none =>
      match numeral? cs with
      | some (.integer, n) => some (r.emit .integer (cs.take n), cs.drop n)
      | some (.float, n) => some (r.emit .float (cs.take n), cs.drop n)
      | none =>
        if Text.isIdentifierStart c then some (r.word cs)
        else if r.opened.head? = some .field then (r.fieldSymbol cs).or (r.symbol cs)
        else r.symbol cs

/-- Takes a piece of a template. -/
def template (r : Reading) (q : Quote) (fresh : Bool) (cs : List Char) :
    Option (Reading × List Char) :=
  match q.next fresh cs with
  | .skip n fresh => some ((r.skip (cs.take n)).leave.enter (.template q fresh), cs.drop n)
  | .close => some ((r.emit .templateStop q.closing).leave, cs.drop q.closing.length)
  | .openField =>
    let r := (r.emit .fieldStart (cs.take 1)).leave.enter (.template q true)
    some (r.enter .field, cs.drop 1)
  | .malformed => none

/-- Takes a piece of the format of a field. -/
def format (r : Reading) : List Char → Option (Reading × List Char)
  | [] => none
  | c :: rest =>
    if c = '\x7b' then some ((r.emit .fieldStart [c]).enter .field, rest)
    else if c = '\x7d' then some ((r.emit .fieldStop [c]).leave, rest)
    else if c = '\x00' then none
    else some (r.skip [c], rest)

/-- The reading of a whole text, if everything is closed. -/
def finish (r : Reading) (g : Gap) : Option Reading :=
  if r.opened = [] then some ((r.afterGap g).endLine 0 g.lineComments) else none

/-- Reads the rest of a text. The first argument bounds the number of steps. -/
def run : Nat → Reading → List Char → Option Reading
  | 0, _, _ => none
  | fuel + 1, r, cs =>
    match r.opened.head? with
    | some (.template q fresh) => (r.template q fresh cs).bind (fun s => run fuel s.1 s.2)
    | some .format => (r.format cs).bind (fun s => run fuel s.1 s.2)
    | _ =>
      let (g, rest) := scanGap { position := r.position } cs
      match rest with
      | [] => r.finish { g with broken := false }
      | _ :: _ => ((r.afterGap g).code rest).bind (fun s => run fuel s.1 s.2)

end Reading

/-- A text in tokens. -/
structure TokenText where
  tokens : List Token
  /-- The comments in order. -/
  comments : List Comment
  /-- The end of the text. -/
  stop : Position
  deriving Inhabited

/-- The tokens of a text, unless something in it is no token or is not closed. -/
def TokenText.ofText? (text : List Char) : Option TokenText :=
  (Reading.run (text.length + 1) {} text).map (fun r =>
    ⟨r.tokens.reverse, r.comments.reverse, r.position⟩)

end CodeAtlas.Python
