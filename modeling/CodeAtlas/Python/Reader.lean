import CodeAtlas.Python.Grammar.CompoundStatement
import CodeAtlas.Python.Grammar.Expression
import CodeAtlas.Python.Lexer
import CodeAtlas.Python.Outline
import CodeAtlas.Syntax.Tree

/-!
# Reading a source text

From a text to its concrete syntax tree and to its outline. A text that does not follow the grammar
has neither.

Main statement: `source_of_readTree`, the outline of a text goes with that text.
-/

namespace CodeAtlas.Python

/-! ## Comments -/

/-- The node of a comment. -/
def commentNode (k : Comment) : Concrete := ⟨.comment, none, k.extent, k.text, []⟩

mutual

/-- The node with comments, all of which are inside of it. -/
def Concrete.withComments (comments : List Comment) : Concrete → Concrete
  | ⟨construct, role, extent, text, children⟩ =>
    ⟨construct, role, extent, text, withCommentsAmong comments children⟩

/-- The nodes with comments before, between, inside and behind them. -/
def withCommentsAmong (comments : List Comment) : List Concrete → List Concrete
  | [] => comments.map commentNode
  | c :: rest =>
    let before := comments.takeWhile (fun k => k.extent.start.isBefore c.extent.start)
    let others := comments.dropWhile (fun k => k.extent.start.isBefore c.extent.start)
    let inside := others.takeWhile (fun k => !c.extent.stop.isBefore k.extent.stop)
    let behind := others.dropWhile (fun k => !c.extent.stop.isBefore k.extent.stop)
    before.map commentNode ++ c.withComments inside :: withCommentsAmong behind rest

end

/-! ## Whole texts -/

/-- The statements of a text, up to its end. The number bounds the lines. -/
def Grammar.allStatements (r : Grammar.Rules) : Nat → Reader (List Concrete)
  | 0 => failure
  | lines + 1 => do
    if (← Grammar.peek?).isNone then return []
    else
      let first ← Grammar.statementsAt r r.limit
      let _ ← Grammar.lineEnd
      return first ++ (← allStatements r lines)

/-- The place that a tree starts at: that of the first token or comment, or the end of the text. -/
def TokenText.start (t : TokenText) : Position :=
  match t.tokens.head?, t.comments.head? with
  | some token, some comment =>
    if comment.extent.start.isBefore token.extent.start then comment.extent.start
    else token.extent.start
  | some token, none => token.extent.start
  | none, some comment => comment.extent.start
  | none, none => t.stop

/-- The concrete syntax tree of a text in tokens. -/
def TokenText.concrete? (t : TokenText) : Option Concrete := do
  let limit := t.tokens.length + 1
  let r := Grammar.rulesOf limit limit
  let (statements, _) ← Grammar.allStatements r limit ⟨0, false⟩ t.tokens
  let tree : Concrete := ⟨.moduleText, none, ⟨t.start, t.stop⟩, "", statements⟩
  return tree.withComments t.comments

/-- The concrete syntax tree of a text. -/
def readConcrete (text : String) : Option Concrete :=
  (TokenText.ofText? text.toList).bind TokenText.concrete?

/-- The outline of a source text with the text. -/
def readTree (text : String) : Option Syntax.Tree :=
  (readConcrete text).map (fun c => ⟨c.root, text⟩)

theorem source_of_readTree {text : String} {t : Syntax.Tree} (h : readTree text = some t) :
    t.source = text := by
  simp only [readTree, Option.map_eq_some_iff] at h
  obtain ⟨c, -, rfl⟩ := h
  rfl

end CodeAtlas.Python
