import CodeAtlas.Graph.Basic

/-!
# Cycles along call paths

A depth-first search that reports a cycle whenever it meets a callee that is on the current path:
the path from that callee on, closed by the callee. The search starts from every caller that was
not visited before, and all searches share the visited nodes. So not every cycle is reported, but
a graph with a cycle gets at least one report.

The search keeps the current path, the place of each node on it, and one frame for each of its
nodes. A frame holds the callees of its node and how many of them were read, so that paths of any
length need no deep recursion.

Main statements:

* `weight_step_lt`: every step lowers a weight of the state, so that a search ends.
-/

namespace CodeAtlas.Graph

/-- The callees of a node on the current path and how many of them were read. -/
structure Frame where
  callees : Array String
  next : Nat := 0
  deriving DecidableEq, Repr, Inhabited

namespace Frame

/-- The callees that were not read yet. -/
def unread (f : Frame) : List String := f.callees.toList.drop f.next

/-- The frame after one more callee was read. -/
def advance (f : Frame) : Frame := { f with next := f.next + 1 }

/-- A frame with a callee to read has that callee before what it has after reading it. -/
theorem unread_of_getElem? {f : Frame} {callee : String} (h : f.callees[f.next]? = some callee) :
    f.unread = callee :: f.advance.unread := by
  have h : f.callees.toList[f.next]? = some callee := by simpa using h
  obtain ⟨hlt, heq⟩ := List.getElem?_eq_some_iff.1 h
  rw [unread, List.drop_eq_getElem_cons hlt, heq]
  rfl

/-- A frame without a callee to read has read all of them. -/
theorem unread_of_getElem?_none {f : Frame} (h : f.callees[f.next]? = none) : f.unread = [] := by
  simpa [unread] using h

end Frame

/-- A search between two steps. -/
structure PathSearch where
  /-- The current path, from its root on. -/
  path : Array String := #[]
  /-- The place of each node of the current path. -/
  onPath : Table String Nat := ∅
  /-- The frames of the nodes on the path, innermost first. -/
  frames : List Frame := []
  /-- The nodes met so far. -/
  visited : List String := []
  /-- The cycles met so far, the last one first. -/
  cycles : List (List String) := []
  deriving DecidableEq, Inhabited

namespace PathSearch

/-- The search with a node at the end of its path, of which no callee was read yet. -/
def enter (g : CallGraph) (node : String) (s : PathSearch) : PathSearch :=
  { s with
    path := s.path.push node
    onPath := s.onPath.insert node s.path.size
    frames := ⟨(g.calleesOf node).toArray, 0⟩ :: s.frames }

/-- The search without the last node of its path. -/
def leave (s : PathSearch) : PathSearch :=
  { s with
    path := s.path.pop
    onPath := match s.path.back? with
      | none => s.onPath
      | some done => s.onPath.erase done
    frames := s.frames.tail }

/-- The search with one more visited node. -/
def mark (node : String) (s : PathSearch) : PathSearch := { s with visited := node :: s.visited }

/-- The search with the cycle that a callee closes which is at place `first` of the path. -/
def record (first : Nat) (callee : String) (s : PathSearch) : PathSearch :=
  { s with cycles := (s.path.toList.drop first ++ [callee]) :: s.cycles }

/-- What is done with a callee that was just read: it closes a cycle, was visited before, or is
entered. -/
def meet (g : CallGraph) (callee : String) (s : PathSearch) : PathSearch :=
  match s.onPath.get? callee with
  | some first => s.record first callee
  | none => if s.visited.contains callee then s else (s.mark callee).enter g callee

/-- One step: leaves the innermost node, or reads its next callee. A search without frames has
ended. -/
def step (g : CallGraph) (s : PathSearch) : Option PathSearch :=
  match s.frames with
  | [] => none
  | f :: outer =>
    match f.callees[f.next]? with
    | none => some s.leave
    | some callee => some (meet g callee { s with frames := f.advance :: outer })

/-- What entering the nodes that were not visited yet can still add. -/
def unvisitedWeight : List (String × Table String Nat) → List String → Nat
  | [], _ => 0
  | (node, ts) :: rest, visited =>
    (if node ∈ visited then 0 else 2 * ts.keys.length) + unvisitedWeight rest visited

/-- What the open frames still hold. -/
def framesWeight : List Frame → Nat
  | [] => 0
  | f :: outer => 2 * f.unread.length + 1 + framesWeight outer

/-- A bound on the steps that a search can still make. -/
def weight (g : CallGraph) (s : PathSearch) : Nat :=
  unvisitedWeight g.forward.edges.entries s.visited + framesWeight s.frames

/-- The more nodes were visited, the less can be added. -/
theorem unvisitedWeight_le_of_subset (entries : List (String × Table String Nat))
    {visited more : List String} (h : visited ⊆ more) :
    unvisitedWeight entries more ≤ unvisitedWeight entries visited := by
  induction entries with
  | nil => exact Nat.le_refl 0
  | cons e rest ih =>
    simp only [unvisitedWeight]
    by_cases hv : e.1 ∈ visited
    · rw [if_pos hv, if_pos (h hv)]
      omega
    · rw [if_neg hv]
      split <;> omega

theorem unvisitedWeight_cons_le (entries : List (String × Table String Nat))
    (visited : List String) (node : String) :
    unvisitedWeight entries (node :: visited) ≤ unvisitedWeight entries visited :=
  unvisitedWeight_le_of_subset entries (List.subset_cons_self node visited)

/-- A node that is entered takes its own share out of the weight. -/
theorem unvisitedWeight_cons {entries : List (String × Table String Nat)} {visited : List String}
    {node : String} {ts : Table String Nat} (h : node ∉ visited)
    (hf : Entries.find node entries = some ts) :
    unvisitedWeight entries (node :: visited) + 2 * ts.keys.length ≤
      unvisitedWeight entries visited := by
  induction entries with
  | nil => simp [Entries.find] at hf
  | cons e rest ih =>
    obtain ⟨k, v⟩ := e
    have hle := unvisitedWeight_cons_le rest visited node
    simp only [unvisitedWeight, List.mem_cons]
    by_cases hk : k = node
    · simp only [Entries.find, if_pos hk, Option.some.injEq] at hf
      subst hf hk
      simp only [true_or, if_true, if_neg h]
      omega
    · simp only [Entries.find, if_neg hk] at hf
      have ih := ih hf
      simp only [hk, false_or]
      omega

/-- What a node calls is no more than the share that it takes out of the weight. -/
theorem unvisitedWeight_cons_calleesOf (g : CallGraph) {visited : List String} {node : String}
    (h : node ∉ visited) :
    unvisitedWeight g.forward.edges.entries (node :: visited) + 2 * (g.calleesOf node).length ≤
      unvisitedWeight g.forward.edges.entries visited := by
  cases hf : Entries.find node g.forward.edges.entries with
  | none =>
    have hc : g.calleesOf node = [] := by
      simp [CallGraph.calleesOf, Links.targets, Table.get?, hf]
    simpa [hc] using unvisitedWeight_cons_le g.forward.edges.entries visited node
  | some ts =>
    have hc : g.calleesOf node = ts.keys := by
      simp [CallGraph.calleesOf, Links.targets, Table.get?, hf]
    simpa [hc] using unvisitedWeight_cons h hf

/-- What is done with a callee adds less than reading it takes away. -/
theorem weight_meet_le (g : CallGraph) (callee : String) (s : PathSearch) :
    (meet g callee s).weight g ≤ s.weight g + 1 := by
  unfold meet
  split
  · simp [weight, record]
  · split
    · simp
    · next hv =>
      have hv : callee ∉ s.visited := by simpa using hv
      have hle := unvisitedWeight_cons_calleesOf g hv
      simp only [weight, enter, mark, framesWeight, Frame.unread, List.drop_zero]
      omega

/-- Every step lowers the weight. -/
theorem weight_step_lt {g : CallGraph} {s t : PathSearch} (h : s.step g = some t) :
    t.weight g < s.weight g := by
  unfold step at h
  split at h
  · contradiction
  · next f outer hframes =>
    split at h
    · obtain rfl := Option.some.inj h
      simp [weight, leave, framesWeight, hframes]
    · next callee hread =>
      obtain rfl := Option.some.inj h
      have hmeet := weight_meet_le g callee { s with frames := f.advance :: outer }
      have hlength : f.unread.length = f.advance.unread.length + 1 := by
        rw [Frame.unread_of_getElem? hread, List.length_cons]
      simp only [weight, framesWeight, hframes] at hmeet ⊢
      omega

/-- Goes on until the search has ended. -/
def run (g : CallGraph) (s : PathSearch) : PathSearch :=
  match _h : s.step g with
  | none => s
  | some t => run g t
termination_by s.weight g
decreasing_by exact weight_step_lt _h

/-- The state of a search that starts at a root which was not visited before; only the visited
nodes and the cycles are taken over from the searches before it. -/
def start (g : CallGraph) (root : String) (s : PathSearch) : PathSearch :=
  enter g root { visited := root :: s.visited, cycles := s.cycles }

/-- The search from a root, unless the root was visited before. -/
def searchFrom (g : CallGraph) (s : PathSearch) (root : String) : PathSearch :=
  if s.visited.contains root then s else run g (start g root s)

/-- The searches from all callers. -/
def searchAll (g : CallGraph) : PathSearch := g.callers.foldl (searchFrom g) {}

/-- The cycles that the searches meet, in order, each one as a closed walk. -/
def findCycles (g : CallGraph) : List (List String) := (searchAll g).cycles.reverse

end PathSearch

end CodeAtlas.Graph
