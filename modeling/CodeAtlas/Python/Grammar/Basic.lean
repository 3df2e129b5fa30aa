import CodeAtlas.Parser
import CodeAtlas.Python.Token

/-!
# Reading constructs from tokens

The readers of the grammar are parsers of tokens, put together from the few in this module.

A line end counts only where a statement may end. Wherever something else has to follow it is a
blank, as it is everywhere in the head of a compound statement; but not if the next line is indented
less than the block.

Main statement: `Place.joined_of_code`, only line ends are passed over.
-/

namespace CodeAtlas.Python

/-- Where something is read. -/
structure Place where
  /-- How far the lines of the block are indented. -/
  indent : Nat
  /-- Whether line ends are blanks, even where nothing has to follow. -/
  joinsLines : Bool
  deriving DecidableEq, Repr, Inhabited

/-- The tokens behind a line end that does not count. -/
def Place.joined (place : Place) : List Token → List Token
  | [] => []
  | t :: rest => if t.endsLineWithin place.indent then rest else t :: rest

theorem Place.joined_of_code (place : Place) {t : Token} (rest : List Token)
    (h : t.isLineEnd = false) : place.joined (t :: rest) = t :: rest := by
  have hends : t.endsLineWithin place.indent = false := by
    unfold Token.endsLineWithin
    unfold Token.isLineEnd at h
    split <;> simp_all
  simp [joined, hends]

/-- The tokens that may come next. -/
def Place.view (place : Place) (ts : List Token) : List Token :=
  if place.joinsLines then place.joined ts else ts

/-- Takes something from the front of a list of tokens at a place, or fails. -/
abbrev Reader := ReaderT Place (Parser Token)

namespace Grammar

open CodeAtlas.Parser (many)

/-! ## Tokens -/

/-- The next token, which is not taken. -/
def peek? : Reader (Option Token) := fun place ts => some ((place.view ts).head?, ts)

/-- Whether the next token satisfies a condition. -/
def nextIs (p : Token → Bool) : Reader Bool := fun place ts => some ((place.view ts).head?.any p, ts)

/-- Whether the token behind the next one satisfies a condition. -/
def secondIs (p : Token → Bool) : Reader Bool := fun place ts =>
  some ((place.view (place.view ts).tail).head?.any p, ts)

/-- Whether the next token is a symbol. -/
def atSymbol (text : String) : Reader Bool := nextIs (fun t => t.isSymbol text)

/-- Whether the next token is a word. -/
def atWord (text : String) : Reader Bool := nextIs (fun t => t.isWord text)

/-- Takes a token that satisfies a condition. -/
def token (p : Token → Bool) : Reader Token := fun place ts => Parser.satisfy p (place.joined ts)

/-- Takes a token that satisfies a condition, if there is one. -/
def token? (p : Token → Bool) : Reader (Option Token) := fun place ts =>
  match place.view ts with
  | [] => some (none, ts)
  | t :: rest => if p t then some (some t, rest) else some (none, ts)

/-- Takes the end of a line. -/
def lineEnd : Reader Token := fun _ ts => Parser.satisfy Token.isLineEnd ts

/-- Passes over a line end that does not count. -/
def joinLine : Reader Unit := fun place ts => some ((), place.joined ts)

/-- Takes a token of a kind. -/
def ofKind (kind : TokenKind) : Reader Token := token (fun t => t.kind == kind)

/-- Takes a symbol. -/
def symbol (text : String) : Reader Token := token (fun t => t.isSymbol text)

/-- Takes a word. -/
def word (text : String) : Reader Token := token (fun t => t.isWord text)

/-- Takes a symbol, if it is there. -/
def symbol? (text : String) : Reader (Option Token) := token? (fun t => t.isSymbol text)

/-- Takes a word, if it is there. -/
def word? (text : String) : Reader (Option Token) := token? (fun t => t.isWord text)

/-! ## Choices and places -/

/-- Reads one thing, or else another one from the same place. -/
def orElse {α : Type} (first second : Reader α) : Reader α := fun place =>
  Parser.orElse (first place) (second place)

/-- Fails unless a condition holds. -/
def require (condition : Bool) : Reader Unit := fun _ => Parser.require condition

/-- Reads something in which line ends are blanks. -/
def joiningLines {α : Type} (p : Reader α) : Reader α := fun place =>
  p { place with joinsLines := true }

/-- Reads statements of a block with some indentation. -/
def inBlock {α : Type} (indent : Nat) (p : Reader α) : Reader α := fun _ => p ⟨indent, false⟩

/-! ## Items with commas between them -/

/-- One more item behind a comma, if there is a comma. -/
def itemBehindComma {α : Type} (item : Reader α) : Reader (Option α) := do
  match ← symbol? "," with
  | some _ => return some (← item)
  | none => return none

/-- Items with commas between them and none behind the last one. -/
def enumerated {α : Type} (rounds : Nat) (item : Reader α) : Reader (List α) := do
  let first ← item
  return first :: (← many rounds (itemBehindComma item))

/-- One more item behind a comma, if the token behind the comma starts an item. -/
def itemAfterComma {α : Type} (starts : Token → Bool) (item : Reader α) : Reader (Option α) := do
  let comma ← atSymbol ","
  let started ← secondIs starts
  if comma && started then
    let _ ← symbol ","
    return some (← item)
  else return none

/-- Items with commas between them, of which there is one at least. -/
def separated {α : Type} (rounds : Nat) (starts : Token → Bool) (item : Reader α) :
    Reader (List α) := do
  let first ← item
  return first :: (← many rounds (itemAfterComma starts item))

/-- Whether a token may start an item in brackets, which is any token but a closing bracket or a
comma. -/
def startsItem (t : Token) : Bool :=
  !([")", "]", "\x7d", ","].any t.isSymbol)

/-- The items in brackets, up to the closing one; a comma may be the last thing. -/
def bracketed {α : Type} (rounds : Nat) (item : Reader α) : Reader (List α) := do
  if ← nextIs startsItem then
    let items ← separated rounds startsItem item
    let _ ← symbol? ","
    return items
  else return []

/-! ## Nodes -/

/-- The extent from the start of one part to the end of another one. -/
def across (first last : Extent) : Extent := ⟨first.start, last.stop⟩

/-- A node with children. -/
def node (construct : Construct) (extent : Extent) (children : List Concrete) : Concrete :=
  ⟨construct, none, extent, "", children⟩

/-- A node without children, for a token. -/
def leaf (construct : Construct) (t : Token) : Concrete := ⟨construct, none, t.extent, t.text, []⟩

/-- The extent of some nodes in a row. -/
def extentOf (first : Concrete) (rest : List Concrete) : Extent :=
  across first.extent (rest.getLast?.getD first).extent

/-- Takes a closing bracket and gives the node from the opening bracket up to it. -/
def closeNode (construct : Construct) (start : Token) (close : String) (children : List Concrete) :
    Reader Concrete := do
  let stop ← symbol close
  return node construct (across start.extent stop.extent) children

/-- Takes a name. -/
def name : Reader Concrete := do return leaf .identifier (← token Token.isName)

/-! ## Rules -/

/-- The levels of expressions, the loosest first. An expression of a level is made by operators of
that level or of a tighter one; signs, arithmetic and comparisons belong to every level. -/
inductive Level where
  /-- A value under a condition, with an alternative. -/
  | conditional
  /-- A value that gets another name. -/
  | renaming
  | disjunction
  | conjunction
  | negation
  deriving DecidableEq, Repr, Inhabited

/-- Where a level stands among the others. -/
def Level.rank : Level → Nat
  | .conditional => 0
  | .renaming => 1
  | .disjunction => 2
  | .conjunction => 3
  | .negation => 4

/-- The readers of expressions, on which the readers of all larger and smaller constructs are
built. -/
structure Rules where
  /-- A bound on the rounds of a repetition. -/
  limit : Nat
  /-- Reads a name, a literal or something in brackets with its attributes, calls and subscripts. -/
  primary : Reader Concrete
  /-- Reads an expression of a level. -/
  expressionOf : Level → Reader Concrete
  /-- Reads what a comprehension goes over. -/
  source : Reader Concrete

/-- Reads any expression. -/
def Rules.expression (r : Rules) : Reader Concrete := r.expressionOf .conditional

/-- Whether a token may start an expression. -/
def startsExpression (t : Token) : Bool :=
  match t.kind with
  | .word | .integer | .float | .string | .templateStart => true
  | .symbol => ["(", "[", "\x7b", "+", "-", "~", "*", "..."].contains t.text
  | _ => false

/-- Whether a token may start an expression and is none of some words, which have a meaning of their
own at the end of what is read. -/
def startsExpressionBut (words : List String) (t : Token) : Bool :=
  startsExpression t && !words.any t.isWord

end Grammar

end CodeAtlas.Python
