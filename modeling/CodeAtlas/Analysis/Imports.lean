import CodeAtlas.Syntax.Tree
import CodeAtlas.Table

/-!
# Imported names

Which name a file binds to which target. Imports count wherever they stand, and the last binding
of a name wins. An import from no named module and a wildcard import bind nothing.
-/

namespace CodeAtlas.Analysis

open CodeAtlas.Syntax

/-- The targets that a file's imports bind to names. -/
structure Imports where
  bindings : Table String String := ∅

namespace Imports

/-- The names that a node binds, with their targets, in order. -/
def ofKind : NodeKind → List (String × String)
  | .imports names => names.map (fun a => (a.boundName, a.name))
  | .importFrom ⟨some m, names⟩ => names.map (fun a => (a.boundName, m ++ "." ++ a.name))
  | _ => []

/-- The bindings of all import statements of a tree. -/
def ofTree (t : Tree) : Imports := ⟨Table.ofList (t.walk.flatMap (fun n => ofKind n.kind))⟩

/-- The target that a name is bound to. -/
def resolve (i : Imports) (name : String) : Option String := i.bindings.get? name

/-- Whether a name is bound. -/
def contains (i : Imports) (name : String) : Bool := i.bindings.contains name

/-- The number of bound names. -/
def size (i : Imports) : Nat := i.bindings.size

end Imports

end CodeAtlas.Analysis
