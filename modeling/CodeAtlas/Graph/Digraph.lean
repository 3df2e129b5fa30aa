/-!
# Numbered directed graphs

A directed graph whose nodes are the numbers below its size, and its strongly connected components:
a component is what its first node reaches and what reaches its first node, each found by one
exploration.

Main statements:

* `size_addNode`, `mem_successorsOf_addEdge`: what a new node and a new edge change;
* `count_set_lt`: an exploration marks a new node at each turn or drops one from its list, so it
  ends;
* `mem_predecessors_iff`: the predecessors are the successors turned round.
-/

namespace CodeAtlas.Graph

/-- A directed graph on the numbers below its size. -/
structure Digraph where
  /-- The successors of each node. -/
  successors : Array (List Nat)
  /-- Successors are nodes. -/
  lt_size : ∀ ws ∈ successors, ∀ w ∈ ws, w < successors.size

namespace Digraph

/-- The number of nodes. -/
def size (d : Digraph) : Nat := d.successors.size

/-- The successors of a node. -/
def successorsOf (d : Digraph) (v : Nat) : List Nat := d.successors.getD v []

theorem lt_size_of_mem_successorsOf {d : Digraph} {v w : Nat} (h : w ∈ d.successorsOf v) :
    v < d.size ∧ w < d.size := by
  unfold successorsOf at h
  by_cases hv : v < d.successors.size
  · rw [Array.getD_eq_getD_getElem?, Array.getElem?_eq_getElem hv] at h
    exact ⟨hv, d.lt_size _ (Array.getElem_mem hv) w h⟩
  · simp [Array.getD_eq_getD_getElem?, hv] at h

/-! ## Building a graph -/

/-- The graph without nodes. -/
def empty : Digraph := ⟨#[], by simp⟩

/-- The graph with one more node. -/
def addNode (d : Digraph) : Digraph where
  successors := d.successors.push []
  lt_size := by
    intro ws hws w hw
    rw [Array.size_push]
    rcases Array.mem_push.1 hws with hws | rfl
    · exact Nat.lt_succ_of_lt (d.lt_size ws hws w hw)
    · contradiction

/-- The graph with one more edge, if it has the nodes. -/
def addEdge (d : Digraph) (v w : Nat) : Digraph :=
  if h : w < d.size then
    { successors := d.successors.modify v (· ++ [w])
      lt_size := by
        intro ws hws x hx
        rw [Array.size_modify]
        obtain ⟨i, hi, rfl⟩ := Array.mem_iff_getElem.1 hws
        rw [Array.getElem_modify] at hx
        split at hx
        · rcases List.mem_append.1 hx with hx | hx
          · exact d.lt_size _ (Array.getElem_mem _) x hx
          · rw [List.mem_singleton.1 hx]
            exact h
        · exact d.lt_size _ (Array.getElem_mem _) x hx }
  else d

theorem size_addNode (d : Digraph) : d.addNode.size = d.size + 1 :=
  Array.size_push []

theorem size_addEdge (d : Digraph) (v w : Nat) : (d.addEdge v w).size = d.size := by
  unfold addEdge
  split
  · exact Array.size_modify
  · rfl

/-- A new node has no successors. -/
theorem successorsOf_addNode (d : Digraph) (v : Nat) :
    d.addNode.successorsOf v = d.successorsOf v := by
  simp only [successorsOf, addNode, Array.getD_eq_getD_getElem?, Array.getElem?_push]
  split
  · next hv => simp [hv]
  · rfl

/-- A new edge is the only one that is new. -/
theorem mem_successorsOf_addEdge {d : Digraph} {v w x y : Nat} (hv : v < d.size)
    (hw : w < d.size) :
    y ∈ (d.addEdge v w).successorsOf x ↔ y ∈ d.successorsOf x ∨ x = v ∧ y = w := by
  simp only [successorsOf, addEdge, dif_pos hw, Array.getD_eq_getD_getElem?,
    Array.getElem?_modify]
  by_cases hx : v = x
  · subst hx
    have hlt : v < d.successors.size := hv
    simp [hlt]
  · have hne : ¬ x = v := fun heq => hx heq.symm
    simp [hx, hne]

/-! ## Turning a graph round -/

/-- The edges, each one as a pair of its source and its target. -/
def edges (d : Digraph) : List (Nat × Nat) :=
  (List.range d.size).flatMap (fun v => (d.successorsOf v).map (fun w => (v, w)))

theorem mem_edges_iff {d : Digraph} {v w : Nat} : (v, w) ∈ d.edges ↔ w ∈ d.successorsOf v := by
  constructor
  · intro h
    obtain ⟨u, -, hu⟩ := List.mem_flatMap.1 h
    obtain ⟨x, hx, heq⟩ := List.mem_map.1 hu
    obtain ⟨rfl, rfl⟩ := Prod.mk.inj heq
    exact hx
  · intro h
    have hv := (lt_size_of_mem_successorsOf h).1
    exact List.mem_flatMap.2 ⟨v, List.mem_range.2 hv, List.mem_map.2 ⟨w, h, rfl⟩⟩

/-- Some lists of predecessors with the sources of some edges added to those of their targets. -/
def addSources (lists : Array (List Nat)) (edges : List (Nat × Nat)) : Array (List Nat) :=
  edges.foldl (fun lists e => lists.modify e.2 (e.1 :: ·)) lists

theorem size_addSources (lists : Array (List Nat)) (edges : List (Nat × Nat)) :
    (addSources lists edges).size = lists.size := by
  induction edges generalizing lists with
  | nil => rfl
  | cons e edges ih =>
    rw [addSources, List.foldl_cons]
    exact (ih _).trans Array.size_modify

theorem mem_getD_addSources_iff {lists : Array (List Nat)} {edges : List (Nat × Nat)} {v w : Nat} :
    v ∈ (addSources lists edges).getD w [] ↔
      v ∈ lists.getD w [] ∨ (v, w) ∈ edges ∧ w < lists.size := by
  induction edges generalizing lists with
  | nil => simp [addSources]
  | cons e edges ih =>
    obtain ⟨a, b⟩ := e
    have ih := @ih (lists.modify b (a :: ·))
    rw [Array.size_modify] at ih
    rw [addSources, List.foldl_cons, ← addSources, ih]
    simp only [Array.getD_eq_getD_getElem?, Array.getElem?_modify, List.mem_cons, Prod.mk.injEq]
    by_cases hb : b = w
    · subst hb
      by_cases hlt : b < lists.size
      · simp [hlt, or_assoc, or_left_comm]
      · simp [hlt]
    · have hw : ¬ w = b := fun h => hb h.symm
      simp [hb, hw]

/-- The predecessors of each node. -/
def predecessors (d : Digraph) : Array (List Nat) := addSources (Array.replicate d.size []) d.edges

theorem size_predecessors (d : Digraph) : d.predecessors.size = d.size := by
  simp [predecessors, size_addSources]

/-- The predecessors are the successors turned round. -/
theorem mem_predecessors_iff {d : Digraph} {v w : Nat} :
    v ∈ d.predecessors.getD w [] ↔ w ∈ d.successorsOf v := by
  rw [predecessors, mem_getD_addSources_iff, mem_edges_iff]
  constructor
  · rintro (h | h)
    · simp [Array.getD_eq_getD_getElem?, Array.getElem?_replicate] at h
      split at h <;> simp at h
    · exact h.1
  · intro h
    exact Or.inr ⟨h, by simpa using (lt_size_of_mem_successorsOf h).2⟩

/-- The graph with all edges turned round. -/
def reverse (d : Digraph) : Digraph where
  successors := d.predecessors
  lt_size := by
    intro vs hvs v hv
    obtain ⟨w, hw, rfl⟩ := Array.mem_iff_getElem.1 hvs
    have hmem : v ∈ d.predecessors.getD w [] := by
      rwa [Array.getD_eq_getD_getElem?, Array.getElem?_eq_getElem hw]
    rw [size_predecessors]
    exact (lt_size_of_mem_successorsOf (mem_predecessors_iff.1 hmem)).1

@[simp]
theorem size_reverse (d : Digraph) : d.reverse.size = d.size :=
  d.size_predecessors

theorem mem_successorsOf_reverse {d : Digraph} {v w : Nat} :
    v ∈ d.reverse.successorsOf w ↔ w ∈ d.successorsOf v :=
  mem_predecessors_iff

/-! ## Explorations -/

theorem count_set_lt {seen : Array Bool} {v : Nat} (h : v < seen.size) (hv : seen[v] = false) :
    (seen.set v true).count false < seen.count false := by
  have hpos : 0 < seen.count false := Array.count_pos_iff.2 (hv ▸ Array.getElem_mem h)
  have hcount : (seen.set v true).count false = seen.count false - 1 := by
    rw [Array.count_set]
    simp [hv]
  omega

/-- Marks everything that can be reached from the pending nodes through nodes without a mark. -/
def explore (d : Digraph) : List Nat → Array Bool → Array Bool
  | [], seen => seen
  | v :: pending, seen =>
    if h : v < seen.size then
      if hv : seen[v] = false then explore d (d.successorsOf v ++ pending) (seen.set v true)
      else explore d pending seen
    else explore d pending seen
termination_by pending seen => (seen.count false, pending.length)
decreasing_by
  · exact Prod.Lex.left _ _ (count_set_lt h hv)
  · exact Prod.Lex.right _ (by simp)
  · exact Prod.Lex.right _ (by simp)

/-- The marks of everything that a node reaches, itself included. -/
def reachable (d : Digraph) (v : Nat) : Array Bool :=
  explore d [v] (Array.replicate d.size false)

/-! ## Components -/

/-- The nodes that `v` reaches and that reach `v`, where `r` is the graph turned round. -/
def componentOf (d r : Digraph) (v : Nat) : List Nat :=
  let down := reachable d v
  let up := reachable r v
  (List.range d.size).filter (fun w => down.getD w false && up.getD w false)

/-- The components of the nodes that are in none of the components found so far, last one first. -/
def collect (d r : Digraph) : List Nat → Array Bool → List (List Nat) → List (List Nat)
  | [], _, found => found.reverse
  | v :: rest, taken, found =>
    if taken.getD v false then collect d r rest taken found
    else
      let members := componentOf d r v
      let taken := members.foldl (fun t w => t.setIfInBounds w true) taken
      collect d r rest taken (members :: found)

/-- The strongly connected components of a graph. -/
def components (d : Digraph) : List (List Nat) :=
  collect d d.reverse (List.range d.size) (Array.replicate d.size false) []

/-- Whether a component has a cycle: a node on its own has one only if it is its own successor. -/
def isCyclic (d : Digraph) : List Nat → Bool
  | [v] => (d.successorsOf v).contains v
  | _ => true

end Digraph

end CodeAtlas.Graph
