import CodeAtlas.Syntax.Node
import CodeAtlas.Text.Lines

/-!
# An outline with its text

A tree is the outline of a source file together with the text it was read from, so that the lines
of a node can be cut out of the text.
-/

namespace CodeAtlas.Syntax

/-- The outline of a source file and the file's text. -/
structure Tree where
  root : Node
  source : String
  deriving Inhabited

namespace Tree

/-- Every node in pre-order, the root first. -/
def walk (t : Tree) : List Node := t.root.walk

/-- Every class and function at any depth, in pre-order. -/
def definitionNodes (t : Tree) : List Node := t.walk.filter Node.isDefinition

theorem definitionNodes_eq (t : Tree) :
    t.definitionNodes = t.root.preorder.filter Node.isDefinition := by
  rw [definitionNodes, walk, Node.walk_eq_preorder]

/-- The text of the lines `start` to `stop`, counted from 1 and both included, with line feeds
between them. -/
def textForLines (t : Tree) (start stop : Nat) : String :=
  String.ofList (Text.selectLines t.source.toList start stop)

end Tree

end CodeAtlas.Syntax
