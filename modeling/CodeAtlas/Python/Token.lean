import CodeAtlas.Python.Concrete

/-!
# Tokens

The words, literals and symbols of a source text in order. Outside brackets the ends of lines are
tokens, too. They say how far the next line with code is indented and which comments stand on lines
of their own before it, because blocks are told from these two.

A template, a string with fields to fill in, is taken apart: its opening quotes, the fields with
their own tokens inside, and its closing quotes.
-/

namespace CodeAtlas.Python

/-- A comment with its text and its place. -/
structure Comment where
  text : String
  extent : Extent
  deriving DecidableEq, Repr, Inhabited

/-- A comment on a line of its own. -/
structure LineComment where
  /-- How far the comment is indented. -/
  indent : Nat
  extent : Extent
  deriving DecidableEq, Repr, Inhabited

/-- What a token is. -/
inductive TokenKind where
  /-- A name or a keyword. -/
  | word
  | integer
  | float
  /-- A string that is not a template. -/
  | string
  /-- An operator or a delimiter. -/
  | symbol
  | templateStart
  | templateStop
  | fieldStart
  | fieldStop
  /-- An exclamation mark with a letter, in a field. -/
  | conversion
  /-- The colon in front of a field's format. -/
  | formatStart
  /-- The end of a line outside brackets: the indentation of the next line with code, which is zero
  at the end of the text, and the comments before it. -/
  | lineEnd (indent : Nat) (comments : List LineComment)
  deriving DecidableEq, Repr, Inhabited

/-- A token with its text and its place. -/
structure Token where
  kind : TokenKind
  text : String
  extent : Extent
  deriving DecidableEq, Repr, Inhabited

namespace Token

/-- Whether the token is a symbol. -/
def isSymbol (t : Token) (text : String) : Bool := t.kind == .symbol && t.text == text

/-- Whether the token is a word. -/
def isWord (t : Token) (text : String) : Bool := t.kind == .word && t.text == text

/-- Whether the token ends a line. -/
def isLineEnd (t : Token) : Bool :=
  match t.kind with
  | .lineEnd _ _ => true
  | _ => false

end Token

/-- Whether the token can be a name. No word is reserved everywhere: where only a name may stand,
every word is one. -/
def Token.isName (t : Token) : Bool := t.kind == .word

/-- The words that are no names where an expression starts. -/
def expressionWords : List String := ["False", "None", "True", "lambda", "not"]

/-- Whether the token is a name where an expression starts. -/
def Token.isFreeName (t : Token) : Bool := t.isName && !expressionWords.contains t.text

/-- Whether the token ends a line, and neither the next line with code nor a comment before it is
indented less than a block. -/
def Token.endsLineWithin (indent : Nat) (t : Token) : Bool :=
  match t.kind with
  | .lineEnd next comments => indent ≤ next && comments.all (fun c => indent ≤ c.indent)
  | _ => false

/-- The operators and delimiters; of those that a text starts with the first one counts. -/
def symbols : List String := [
  "**=", "//=", ">>=", "<<=", "...", "!=", "%=", "&=", "**", "*=", "+=", "-=", "->", "//", "/=",
  ":=", "<<", "<=", "<>", "==", ">=", ">>", "@=", "^=", "|=", "(", ")", "[", "]", "\x7b", "\x7d",
  ",", ":", ";", ".", "=", "+", "-", "*", "/", "%", "&", "|", "^", "~", "<", ">", "@"]

end CodeAtlas.Python
