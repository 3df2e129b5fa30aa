import CodeAtlas.Proofs.Graph.PathSearch.Iterations
import CodeAtlas.Proofs.Graph.PathSearch.Recursion
import Mathlib.Data.List.Flatten
import Mathlib.Data.List.Nodup
import Mathlib.Data.Prod.Basic

/-!
# What a path search reads

Each step that reads a callee follows one edge, from the end of the path to the callee. The edges
that a search reads are those which its open frames have still to read and those of the nodes that
it enters later. The nodes that a search from a root enters are those which are reached from the
root past the nodes that were visited before.

Main results:

- Theorem `Shape.exists_explored`: what a search enters and reads until it ends.
- Theorem `exists_reached`: what the search from a root enters, visits and reads.
- Theorem `search_tidy_readsOnce`: path, places, frames and visited nodes belong together in every
  iteration, and the whole search reads every edge of the nodes that it reaches once.
-/

namespace CodeAtlas.Graph.PathSearch

variable {g : CallGraph} {s t : PathSearch} {root : String}

/-! ## Edges to read -/

/-- The edges of a node, in the order in which they are read. -/
def edgesFrom (g : CallGraph) (u : String) : List (String × String) :=
  (g.calleesOf u).map (fun v => (u, v))

/-- The edges that open frames have still to read. -/
def toRead (trail : List (String × Frame)) : List (String × String) :=
  trail.flatMap (fun e => e.2.unread.map (fun v => (e.1, v)))

/-- The edge that the next step reads, if it reads one. -/
def nextRead? (s : PathSearch) : Option (String × String) :=
  s.trail.head?.bind (fun e => e.2.callees[e.2.next]?.map (fun callee => (e.1, callee)))

/-- The edges that a search reads until it ends, in order. -/
def reads (g : CallGraph) (s : PathSearch) : List (String × String) :=
  match _h : s.step g with
  | none => []
  | some t => s.nextRead?.toList ++ reads g t
termination_by s.weight g
decreasing_by exact weight_step_lt _h

theorem mem_edgesFrom_iff {u v w : String} : (u, v) ∈ edgesFrom g w ↔ u = w ∧ g.Edge u v := by
  rw [edgesFrom, List.mem_map, CallGraph.edge_iff_mem_calleesOf]
  constructor
  · rintro ⟨x, hx, heq⟩
    obtain ⟨rfl, rfl⟩ := Prod.mk.inj heq
    exact ⟨rfl, hx⟩
  · rintro ⟨rfl, hv⟩
    exact ⟨v, hv, rfl⟩

/-- Different nodes have different edges, and no node has one twice. -/
theorem nodup_flatMap_edgesFrom {nodes : List String} (h : nodes.Nodup) :
    (nodes.flatMap (edgesFrom g)).Nodup := by
  rw [List.nodup_flatMap]
  constructor
  · intro u _
    exact (g.forward.nodup_targets u).map (Prod.mk_right_injective u)
  · refine h.imp ?_
    intro u w hne e hu hw
    exact hne ((mem_edgesFrom_iff.1 hu).1.symm.trans (mem_edgesFrom_iff.1 hw).1)

theorem toRead_cons (n : String) (f : Frame) (rest : List (String × Frame)) :
    toRead ((n, f) :: rest) = f.unread.map (fun v => (n, v)) ++ toRead rest := by
  rw [toRead, List.flatMap_cons, toRead]

/-- A frame with a callee to read has this edge before what it has after reading it. -/
theorem toRead_of_getElem? {n callee : String} {f : Frame} (rest : List (String × Frame))
    (hread : f.callees[f.next]? = some callee) :
    toRead ((n, f) :: rest) = (n, callee) :: toRead ((n, f.advance) :: rest) := by
  rw [toRead_cons, toRead_cons, Frame.unread_of_getElem? hread, List.map_cons, List.cons_append]

theorem toRead_of_getElem?_none {n : String} {f : Frame} (rest : List (String × Frame))
    (hread : f.callees[f.next]? = none) : toRead ((n, f) :: rest) = toRead rest := by
  rw [toRead_cons, Frame.unread_of_getElem?_none hread, List.map_nil, List.nil_append]

/-- A node that was just entered has all its edges to read. -/
theorem toRead_entered (g : CallGraph) (n : String) (rest : List (String × Frame)) :
    toRead ((n, ⟨(g.calleesOf n).toArray, 0⟩) :: rest) = edgesFrom g n ++ toRead rest := by
  rw [toRead_cons, edgesFrom, Frame.unread, List.drop_zero]

/-- The next step reads the next callee of the innermost node. -/
theorem nextRead?_of_trail {n : String} {f : Frame} {rest : List (String × Frame)}
    (htrail : s.trail = (n, f) :: rest) :
    s.nextRead? = f.callees[f.next]?.map (fun callee => (n, callee)) := by
  rw [nextRead?, htrail, List.head?_cons, Option.bind_some]

theorem trail_eq_nil_of_step_eq_none (hstep : s.step g = none) : s.trail = [] := by
  unfold PathSearch.step at hstep
  split at hstep
  · next hframes => rw [trail, hframes, List.zip_nil_right]
  · split at hstep <;> contradiction

/-- A step reads at most one edge, and the search goes on behind it. -/
theorem reads_of_step (hstep : s.step g = some t) :
    reads g s = s.nextRead?.toList ++ reads g t := by
  rw [reads]
  split
  · next hnone => rw [hstep] at hnone; cases hnone
  · next u hu => rw [Option.some.inj (hstep.symm.trans hu)]

theorem reads_of_step_eq_none (hstep : s.step g = none) : reads g s = [] := by
  rw [reads]
  split
  · rfl
  · next u hu => rw [hstep] at hu; cases hu

/-! ## A whole search -/

/-- What a search enters and reads until it ends. -/
structure Explored (g : CallGraph) (s : PathSearch) (entered : List String) : Prop where
  visited_eq : (run g s).visited = entered ++ s.visited
  nodup : entered.Nodup
  new : ∀ v ∈ entered, v ∉ s.visited
  reads_perm : (reads g s).Perm (toRead s.trail ++ entered.flatMap (edgesFrom g))
  target : ∀ e ∈ reads g s, e.2 ∈ (run g s).visited

/-- Leaving a node reads nothing. -/
theorem Explored.of_leave {entered : List String} (h : Explored g t entered)
    (hrun : run g s = run g t) (hreads : reads g s = reads g t)
    (hvisited : t.visited = s.visited) (htoRead : toRead s.trail = toRead t.trail) :
    Explored g s entered := by
  constructor
  · rw [hrun, h.visited_eq, hvisited]
  · exact h.nodup
  · rw [← hvisited]
    exact h.new
  · rw [hreads, htoRead]
    exact h.reads_perm
  · rw [hreads, hrun]
    exact h.target

/-- A callee that is known already adds the edge to it. -/
theorem Explored.of_read {entered : List String} {e : String × String} (h : Explored g t entered)
    (hrun : run g s = run g t) (hreads : reads g s = e :: reads g t)
    (hvisited : t.visited = s.visited) (hknown : e.2 ∈ s.visited)
    (htoRead : toRead s.trail = e :: toRead t.trail) : Explored g s entered := by
  constructor
  · rw [hrun, h.visited_eq, hvisited]
  · exact h.nodup
  · rw [← hvisited]
    exact h.new
  · rw [hreads, htoRead]
    exact h.reads_perm.cons e
  · rw [hreads, hrun]
    refine List.forall_mem_cons.2 ⟨?_, h.target⟩
    rw [h.visited_eq, hvisited]
    exact List.mem_append_right entered hknown

/-- A callee that is entered adds the edge to it and all its own edges. -/
theorem Explored.of_enter {entered : List String} {e : String × String}
    {rest : List (String × String)} (h : Explored g t entered) (hrun : run g s = run g t)
    (hreads : reads g s = e :: reads g t) (hvisited : t.visited = e.2 :: s.visited)
    (hnew : e.2 ∉ s.visited) (htoRead : toRead s.trail = e :: rest)
    (htoRead' : toRead t.trail = edgesFrom g e.2 ++ rest) :
    Explored g s (entered ++ [e.2]) := by
  have hfresh : ∀ v ∈ entered, v ≠ e.2 ∧ v ∉ s.visited := by
    intro v hv
    have hv := h.new v hv
    rw [hvisited] at hv
    exact not_or.1 (mt List.mem_cons.2 hv)
  constructor
  · rw [hrun, h.visited_eq, hvisited, List.append_assoc, List.singleton_append]
  · rw [List.nodup_append]
    refine ⟨h.nodup, List.nodup_singleton e.2, ?_⟩
    intro v hv w hw
    rw [List.mem_singleton.1 hw]
    exact (hfresh v hv).1
  · intro v hv
    rcases List.mem_append.1 hv with hv | hv
    · exact (hfresh v hv).2
    · rw [List.mem_singleton.1 hv]
      exact hnew
  · have hperm := h.reads_perm
    rw [htoRead', List.append_assoc] at hperm
    rw [hreads, htoRead, List.flatMap_append, List.flatMap_singleton, List.cons_append,
      ← List.append_assoc]
    exact (hperm.trans List.perm_append_comm).cons e
  · rw [hreads, hrun]
    refine List.forall_mem_cons.2 ⟨?_, h.target⟩
    rw [h.visited_eq, hvisited]
    exact List.mem_append_right entered List.mem_cons_self

/-- A search enters some nodes that were not visited before. It reads what its open frames have
still to read, and all edges of the nodes that it enters. -/
theorem Shape.exists_explored (h : Shape g s) : ∃ entered, Explored g s entered := by
  fun_induction reads g s with
  | case1 s hstep =>
    have hrun : run g s = s := run_of_step_eq_none hstep
    have hreads : reads g s = [] := reads_of_step_eq_none hstep
    refine ⟨[], ?_, List.nodup_nil, by simp, ?_, by simp [hreads]⟩
    · rw [hrun, List.nil_append]
    · rw [hreads, trail_eq_nil_of_step_eq_none hstep]
      exact List.Perm.nil
  | case2 s t hstep ih =>
    obtain ⟨ht, hmove⟩ := h.step hstep
    obtain ⟨entered, hentered⟩ := ih ht
    have hrun : run g s = run g t := run_of_step hstep
    have hreads : reads g s = s.nextRead?.toList ++ reads g t := reads_of_step hstep
    cases hmove with
    | leave n f htrail hread hpath hvisited =>
      rw [nextRead?_of_trail htrail, hread] at hreads
      refine ⟨entered, hentered.of_leave hrun hreads hvisited ?_⟩
      rw [htrail, toRead_of_getElem?_none _ hread]
    | read n f rest callee htrail hread hknown htrail' hpath hvisited =>
      rw [nextRead?_of_trail htrail, hread] at hreads
      refine ⟨entered, hentered.of_read hrun hreads hvisited hknown ?_⟩
      rw [htrail, htrail', toRead_of_getElem? rest hread]
    | enter n f rest callee htrail hread hnew htrail' hpath hvisited =>
      rw [nextRead?_of_trail htrail, hread] at hreads
      have htoRead := toRead_of_getElem? (n := n) rest hread
      have htoRead' := toRead_entered g callee ((n, f.advance) :: rest)
      rw [← htrail] at htoRead
      rw [← htrail'] at htoRead'
      exact ⟨entered ++ [callee], hentered.of_enter hrun hreads hvisited hnew htoRead htoRead'⟩

/-! ## What a search reaches -/

/-- A node is reached from another along edges to nodes that were not visited before. -/
def ReachesPast (g : CallGraph) (visited : List String) : String → String → Prop :=
  Relation.ReflTransGen (fun u v => g.Edge u v ∧ v ∉ visited)

/-- What a search from a root has on its path is reached from the root, and whatever it visits was
visited before or is reached. -/
structure Spreads (g : CallGraph) (visited : List String) (root : String) (s : PathSearch) :
    Prop where
  keeps : visited ⊆ s.visited
  path : ∀ v ∈ s.path, ReachesPast g visited root v
  visited : ∀ v ∈ s.visited, v ∈ visited ∨ ReachesPast g visited root v

/-- A move reaches no further than along one edge. -/
theorem Spreads.move {visited : List String} (h : Spreads g visited root s) (hshape : Shape g s)
    (hmove : Moves g s t) : Spreads g visited root t := by
  cases hmove with
  | leave n f htrail hread hpath hvisited =>
    refine ⟨hvisited ▸ h.keeps, ?_, hvisited ▸ h.visited⟩
    intro v hv
    apply h.path
    rw [hpath]
    exact Array.mem_push_of_mem n hv
  | read n f rest callee htrail hread hknown htrail' hpath hvisited =>
    exact ⟨hvisited ▸ h.keeps, hpath ▸ h.path, hvisited ▸ h.visited⟩
  | enter n f rest callee htrail hread hnew htrail' hpath hvisited =>
    have hmem : (n, f) ∈ s.trail := by
      rw [htrail]
      exact List.mem_cons_self
    have hn : n ∈ s.path :=
      Array.mem_toList_iff.1 (List.mem_reverse.1 (List.of_mem_zip hmem).1)
    have hedge : g.Edge n callee := by
      apply (hshape.unread hmem).2
      rw [Frame.unread_of_getElem? hread]
      exact List.mem_cons_self
    have hreached : ReachesPast g visited root callee :=
      (h.path n hn).tail ⟨hedge, fun hmem => hnew (h.keeps hmem)⟩
    refine ⟨?_, ?_, ?_⟩
    · rw [hvisited]
      exact fun v hv => List.mem_cons_of_mem callee (h.keeps hv)
    · intro v hv
      rw [hpath] at hv
      rcases Array.mem_push.1 hv with hv | rfl
      · exact h.path v hv
      · exact hreached
    · rw [hvisited]
      exact List.forall_mem_cons.2 ⟨Or.inr hreached, h.visited⟩

/-- What holds in every iteration of a search from a root. -/
structure Iteration (g : CallGraph) (visited : List String) (root : String) (s : PathSearch) :
    Prop where
  shape : Shape g s
  cursors : Cursors s.trail
  spreads : Spreads g visited root s

/-- It holds when the search starts, if the root was not visited before. -/
theorem iteration_start (g : CallGraph) (s : PathSearch) (hroot : root ∉ s.visited) :
    Iteration g s.visited root (start g root s) where
  shape := shape_start g s hroot
  cursors := by
    constructor <;> simp [trail, start, PathSearch.enter]
  spreads := by
    refine ⟨List.subset_cons_self root s.visited, ?_, ?_⟩
    · simp [start, PathSearch.enter, ReachesPast, Relation.ReflTransGen.refl]
    · intro v hv
      rcases List.mem_cons.1 hv with rfl | hv
      · exact Or.inr Relation.ReflTransGen.refl
      · exact Or.inl hv

/-- A step keeps it. -/
theorem Iteration.step {visited : List String} (h : Iteration g visited root s)
    (hstep : s.step g = some t) : Iteration g visited root t := by
  obtain ⟨hshape, hmove⟩ := h.shape.step hstep
  exact ⟨hshape, h.cursors.move hmove, h.spreads.move h.shape hmove⟩

/-- So do any number of steps. -/
theorem Iteration.steps {visited : List String} (h : Iteration g visited root s)
    (hsteps : Relation.ReflTransGen (Steps g) s t) : Iteration g visited root t := by
  induction hsteps with
  | refl => exact h
  | tail _ hstep ih => exact ih.step hstep

/-- The nodes that a search from a root enters, each of which it enters once. -/
theorem exists_reached (g : CallGraph) (s : PathSearch) (hroot : root ∉ s.visited) :
    ∃ reached : List String, reached.Nodup ∧
      (∀ v, v ∈ reached ↔ ReachesPast g s.visited root v) ∧
      (∀ v, v ∈ (run g (start g root s)).visited ↔ v ∈ s.visited ∨ v ∈ reached) ∧
      (reads g (start g root s)).Perm (reached.flatMap (edgesFrom g)) := by
  have hstart := iteration_start g s hroot
  obtain ⟨entered, hentered⟩ := hstart.shape.exists_explored
  have htrail : (start g root s).trail = [(root, ⟨(g.calleesOf root).toArray, 0⟩)] := by
    simp [trail, start, PathSearch.enter]
  have hreads : (reads g (start g root s)).Perm ((root :: entered).flatMap (edgesFrom g)) := by
    have hperm := hentered.reads_perm
    rw [htrail, toRead_entered, toRead, List.flatMap_nil, List.append_nil] at hperm
    rw [List.flatMap_cons]
    exact hperm
  have hnew : ∀ v ∈ root :: entered, v ∉ s.visited := by
    refine List.forall_mem_cons.2 ⟨hroot, ?_⟩
    intro v hv hmem
    exact hentered.new v hv (List.mem_cons_of_mem root hmem)
  have hvisited : ∀ v, v ∈ (run g (start g root s)).visited ↔
      v ∈ s.visited ∨ v ∈ root :: entered := by
    intro v
    have hstartVisited : (start g root s).visited = root :: s.visited := rfl
    rw [hentered.visited_eq, hstartVisited, List.mem_append, List.mem_cons, List.mem_cons]
    tauto
  have hspreads := (hstart.steps (exists_steps_run g _).1).spreads
  refine ⟨root :: entered, ?_, ?_, hvisited, hreads⟩
  · refine List.nodup_cons.2 ⟨?_, hentered.nodup⟩
    exact fun hmem => hentered.new root hmem List.mem_cons_self
  · intro v
    constructor
    · intro hv
      exact (hspreads.visited v ((hvisited v).2 (Or.inr hv))).resolve_left (hnew v hv)
    · intro hv
      induction hv with
      | refl => exact List.mem_cons_self
      | @tail u w _ hedge ih =>
        -- the edge was read, so what it leads to was visited
        have hread : (u, w) ∈ reads g (start g root s) :=
          hreads.mem_iff.2 (List.mem_flatMap.2 ⟨u, ih, mem_edgesFrom_iff.2 ⟨rfl, hedge.1⟩⟩)
        exact ((hvisited w).1 (hentered.target _ hread)).resolve_left hedge.2

/-- Path, places, frames and visited nodes belong together in every iteration of a search from a
root, whatever was visited before: the part of the path that a cycle is taken from is inside of the
path, nodes and frames come and go together, and a frame that is left takes its own node with it.
The whole search reads every edge of the nodes that it reaches once, and no other edge. -/
theorem search_tidy_readsOnce (g : CallGraph) (s : PathSearch) (root : String)
    (hroot : root ∉ s.visited) :
    (∀ t, Relation.ReflTransGen (Steps g) (start g root s) t →
      Tidy g t ∧
        (∀ callee first, t.onPath.get? callee = some first →
          first < t.path.size ∧ (t.path.toList.drop first).head? = some callee) ∧
        (∀ u, t.step g = some u → Moves g t u) ∧ PopsOwnNode g t) ∧
      (reads g (start g root s)).Nodup ∧
      (∀ u v, (u, v) ∈ reads g (start g root s) ↔
        ReachesPast g s.visited root u ∧ g.Edge u v) ∧
      ∀ v, v ∈ (run g (start g root s)).visited ↔
        v ∈ s.visited ∨ ReachesPast g s.visited root v := by
  obtain ⟨reached, hnodup, hreached, hvisited, hreads⟩ := exists_reached g s hroot
  refine ⟨?_, ?_, ?_, ?_⟩
  · intro t hsteps
    have ht := (iteration_start g s hroot).steps hsteps
    have htidy := tidy ht.shape ht.cursors
    exact ⟨htidy, fun _ _ => htidy.slice, fun _ hstep => (ht.shape.step hstep).2,
      ht.shape.popsOwnNode⟩
  · exact hreads.nodup_iff.2 (nodup_flatMap_edgesFrom hnodup)
  · intro u v
    rw [hreads.mem_iff, List.mem_flatMap, ← hreached u]
    constructor
    · rintro ⟨w, hw, he⟩
      obtain ⟨rfl, hedge⟩ := mem_edgesFrom_iff.1 he
      exact ⟨hw, hedge⟩
    · rintro ⟨hu, hedge⟩
      exact ⟨u, hu, mem_edgesFrom_iff.2 ⟨rfl, hedge⟩⟩
  · intro v
    rw [hvisited v, hreached v]

/-- Two nodes that call each other, and a third one that was visited before. -/
def knownCallee : CallGraph := .ofEdges [("a", "b"), ("b", "a"), ("b", "d"), ("d", "b")]

/-- The edge to the node that was visited before is read, the edge from there is not. -/
theorem search_tidy_readsOnce_knownCallee :
    "a" ∉ ({ visited := ["d"] } : PathSearch).visited ∧
      Tidy knownCallee (start knownCallee "a" { visited := ["d"] }) ∧
      ("b", "d") ∈ reads knownCallee (start knownCallee "a" { visited := ["d"] }) ∧
      ("d", "b") ∉ reads knownCallee (start knownCallee "a" { visited := ["d"] }) := by
  have hroot : "a" ∉ ({ visited := ["d"] } : PathSearch).visited := by decide
  obtain ⟨hiterations, -, hreads, -⟩ :=
    search_tidy_readsOnce knownCallee { visited := ["d"] } "a" hroot
  refine ⟨hroot, (hiterations _ Relation.ReflTransGen.refl).1, ?_, ?_⟩
  · have hreached : ReachesPast knownCallee ["d"] "a" "b" :=
      Relation.ReflTransGen.single ⟨by unfold CallGraph.Edge; decide +kernel, by decide⟩
    exact (hreads "b" "d").2 ⟨hreached, by unfold CallGraph.Edge; decide +kernel⟩
  · intro hread
    have hreached := ((hreads "d" "b").1 hread).1
    rcases Relation.ReflTransGen.cases_tail hreached with heq | ⟨u, -, -, hnew⟩
    · exact absurd heq (by decide)
    · exact hnew List.mem_cons_self

end CodeAtlas.Graph.PathSearch
