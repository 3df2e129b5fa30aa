import CodeAtlas.Graph.Basic
import CodeAtlas.Graph.Digraph

/-!
# Numbered nodes

The nodes of a call graph get numbers when each caller is read with its callees: a name that was
not met before gets the next number, and every callee gives an edge between numbers. The names, the
numbers under which they are found again and the graph on the numbers grow together.

Main statements:

* `Numbering.names_nodeIndex`: a name that was not met before goes behind all others;
* `Numbering.getElem?_names_nodeIndex`: what is given back for a name is its place among the names.
-/

namespace CodeAtlas.Graph

/-- The names met so far, in the order of their numbers, and the graph on the numbers. -/
structure Numbering where
  names : Array String := #[]
  numbers : Table String Nat := ∅
  digraph : Digraph := .empty
  size_eq : digraph.size = names.size := by rfl
  places : numbers.Places names := by exact Table.places_empty

namespace Numbering

/-- The numbering with one more name, which gets the next number. -/
def addName (n : Numbering) (name : String) (h : n.numbers.get? name = none) : Numbering where
  names := n.names.push name
  numbers := n.numbers.insert name n.names.size
  digraph := n.digraph.addNode
  size_eq := by rw [Digraph.size_addNode, Array.size_push, n.size_eq]
  places := n.places.push (n.places.get?_eq_none_iff.1 h)

/-- The number of a name, which is the next one if the name was not met before. -/
def nodeIndex (n : Numbering) (name : String) : Numbering × Nat :=
  match h : n.numbers.get? name with
  | some v => (n, v)
  | none => (n.addName name h, n.names.size)

/-- The numbering with one more edge between numbers. -/
def addEdge (n : Numbering) (v w : Nat) : Numbering :=
  { n with
    digraph := n.digraph.addEdge v w
    size_eq := by rw [Digraph.size_addEdge, n.size_eq] }

/-- The numbering after a callee of the node with a number was read. -/
def readCallee (source : Nat) (n : Numbering) (callee : String) : Numbering :=
  let target := n.nodeIndex callee
  target.1.addEdge source target.2

/-- The numbering after a caller was read with all its callees. -/
def readCaller (g : CallGraph) (n : Numbering) (caller : String) : Numbering :=
  let source := n.nodeIndex caller
  (g.calleesOf caller).foldl (readCallee source.2) source.1

/-- The numbering of all nodes of a graph. -/
def ofGraph (g : CallGraph) : Numbering := g.callers.foldl (readCaller g) {}

/-- A name that was not met before goes behind all others, and no other one moves. -/
theorem names_nodeIndex (n : Numbering) (name : String) :
    (n.nodeIndex name).1.names = if name ∈ n.names then n.names else n.names.push name := by
  unfold nodeIndex
  split
  · next v hv => rw [if_pos (Array.mem_of_getElem? ((n.places name v).1 hv))]
  · next hnone =>
    rw [if_neg (n.places.get?_eq_none_iff.1 hnone)]
    rfl

/-- What is given back for a name is its place among the names. -/
theorem getElem?_names_nodeIndex (n : Numbering) (name : String) :
    (n.nodeIndex name).1.names[(n.nodeIndex name).2]? = some name := by
  unfold nodeIndex
  split
  · next v hv => exact (n.places name v).1 hv
  · simp [addName]

/-- Asking for a number gives no node successors that it did not have. -/
theorem successorsOf_nodeIndex (n : Numbering) (name : String) (v : Nat) :
    (n.nodeIndex name).1.digraph.successorsOf v = n.digraph.successorsOf v := by
  unfold nodeIndex
  split
  · rfl
  · exact Digraph.successorsOf_addNode n.digraph v

end Numbering

end CodeAtlas.Graph
