import CodeAtlas.Graph.Numbering

/-!
# Cyclic components

The sets of nodes that reach each other. A node on its own counts only if it calls itself. Nodes
are numbered in the order in which they are first met when each caller is read with its callees.
The components of the numbered graph may be found in any order: members of a component and the
components themselves are sorted by number before they are given back as names.
-/

namespace CodeAtlas.Graph.Components

/-- Sorts the members of the components, and the components by their first members. -/
def arrange (components : List (List Nat)) : List (List Nat) :=
  (components.map (fun members => members.mergeSort)).mergeSort
    (fun c d => decide (c.headD 0 ≤ d.headD 0))

/-- The cyclic components of a graph, each one as the list of its members, where `search` finds
the strongly connected components. -/
def cyclicComponents (search : Digraph → List (List Nat)) (g : CallGraph) : List (List String) :=
  let n := Numbering.ofGraph g
  (arrange ((search n.digraph).filter n.digraph.isCyclic)).map
    (fun members => members.map (fun v => n.names.getD v ""))

/-- The cyclic components of a graph. -/
def findCycles (g : CallGraph) : List (List String) := cyclicComponents Digraph.components g

end CodeAtlas.Graph.Components
