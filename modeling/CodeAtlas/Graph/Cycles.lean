import CodeAtlas.Graph.Components
import CodeAtlas.Graph.PathSearch

/-!
# Finding cycles

The two ways of reporting the cycles of a call graph behind one function.
-/

namespace CodeAtlas.Graph

/-- The two ways of reporting cycles. -/
inductive CycleDetector where
  /-- Closed walks along call paths. -/
  | pathSearch
  /-- Sets of nodes that reach each other. -/
  | components
  deriving DecidableEq, Repr, Inhabited

namespace CycleDetector

/-- The name of a detector. -/
def label : CycleDetector → String
  | pathSearch => "path_dfs"
  | components => "tarjan"

/-- The cycles that a detector reports. -/
def findCycles : CycleDetector → CallGraph → List (List String)
  | pathSearch => PathSearch.findCycles
  | components => Components.findCycles

end CycleDetector

end CodeAtlas.Graph
