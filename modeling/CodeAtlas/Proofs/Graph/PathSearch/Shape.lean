import CodeAtlas.Graph.PathSearch
import CodeAtlas.Proofs.Graph.Walk

/-!
# The shape of a path search

A search keeps the current path three times: as a list of nodes, as the place of each of them, and
as one frame for each of them. The invariant `Shape` says that the three agree, that the path goes
along edges and meets no node twice, and that what is on it was visited.

Main results:

- Theorem `Shape.exists_push`: a search with a frame has the node of that frame at the end of its
  path.
- Theorems `Shape.leave`, `Shape.advance` and `Shape.enter`: leaving a node, reading a callee and
  entering a node keep the shape.
-/

namespace CodeAtlas.Graph.PathSearch

variable {g : CallGraph} {s : PathSearch}

/-- The nodes of the current path with their frames, innermost first. -/
def trail (s : PathSearch) : List (String × Frame) := s.path.toList.reverse.zip s.frames

/-- Path, places, frames and visited nodes belong together. -/
structure Shape (g : CallGraph) (s : PathSearch) : Prop where
  size_eq : s.path.size = s.frames.length
  callees_eq : ∀ e ∈ s.trail, e.2.callees.toList = g.calleesOf e.1
  chain : s.path.toList.IsChain g.Edge
  nodup : s.path.toList.Nodup
  places : s.onPath.Places s.path
  visited : ∀ v ∈ s.path, v ∈ s.visited

/-- Entering a node puts it at the innermost place of the trail, with all its callees. -/
theorem trail_enter (g : CallGraph) (v : String) (s : PathSearch) :
    (s.enter g v).trail = (v, ⟨(g.calleesOf v).toArray, 0⟩) :: s.trail := by
  simp [trail, PathSearch.enter]

/-- Leaving takes the last node from the path and the innermost one from the trail. -/
theorem path_trail_leave {p : Array String} {n : String} {f : Frame} {outer : List Frame}
    (hpath : s.path = p.push n) (hframes : s.frames = f :: outer) :
    s.leave.path = p ∧ s.leave.trail = p.toList.reverse.zip outer := by
  have hpop : s.leave.path = p := by simp [PathSearch.leave, hpath]
  have htail : s.leave.frames = outer := by simp [PathSearch.leave, hframes]
  exact ⟨hpop, by rw [trail, hpop, htail]⟩

/-- The trail holds the frames as they are, the innermost one with the end of the path. -/
theorem trail_of_push {p : Array String} {n : String} (hpath : s.path = p.push n) (f : Frame)
    (outer : List Frame) :
    trail { s with frames := f :: outer } = (n, f) :: p.toList.reverse.zip outer := by
  simp [trail, hpath]

/-- A search that has not entered a node yet has the shape. -/
theorem shape_of_idle (visited : List String) (cycles : List (List String)) :
    Shape g { visited, cycles } := by
  constructor <;> simp [trail, Table.places_empty]

/-- The end of the path is at no other place of it. -/
theorem Shape.not_mem_of_push (h : Shape g s) {p : Array String} {n : String}
    (hpath : s.path = p.push n) : n ∉ p := by
  have hnodup := h.nodup
  rw [hpath, Array.toList_push] at hnodup
  intro hmem
  exact (List.nodup_append.1 hnodup).2.2 n (Array.mem_toList_iff.2 hmem) n (by simp) rfl

/-- A search with a frame has the node of that frame at the end of its path. -/
theorem Shape.exists_push (h : Shape g s) {f : Frame} {outer : List Frame}
    (hframes : s.frames = f :: outer) :
    ∃ (p : Array String) (n : String), s.path = p.push n ∧ p.size = outer.length ∧
      s.trail = (n, f) :: p.toList.reverse.zip outer := by
  have hsize : s.path.size = outer.length + 1 := by
    rw [h.size_eq, hframes, List.length_cons]
  have hne : s.path.size ≠ 0 := by omega
  obtain ⟨p, n, hpath⟩ := Array.eq_push_of_size_ne_zero hne
  refine ⟨p, n, hpath, ?_, ?_⟩
  · rw [hpath, Array.size_push] at hsize
    omega
  · simp [trail, hpath, hframes]

/-- Leaving the innermost node keeps the shape. -/
theorem Shape.leave (h : Shape g s) {f : Frame} {outer : List Frame}
    (hframes : s.frames = f :: outer) : Shape g s.leave := by
  obtain ⟨p, n, hpath, hsize, htrail⟩ := h.exists_push hframes
  obtain ⟨hpop, htrail'⟩ := path_trail_leave hpath hframes
  have hn := h.not_mem_of_push hpath
  refine ⟨?_, ?_, ?_, ?_, ?_, ?_⟩
  · simp [PathSearch.leave, hpath, hframes, hsize]
  · intro e he
    rw [htrail'] at he
    exact h.callees_eq e (by rw [htrail]; exact List.mem_cons_of_mem _ he)
  · have hchain := h.chain
    rw [hpath, Array.toList_push] at hchain
    rw [hpop]
    exact hchain.left_of_append
  · have hnodup := h.nodup
    rw [hpath, Array.toList_push] at hnodup
    rw [hpop]
    exact (List.nodup_append.1 hnodup).1
  · have hplaces := h.places
    rw [hpath] at hplaces
    have honPath : s.leave.onPath = s.onPath.erase n := by simp [PathSearch.leave, hpath]
    rw [hpop, honPath]
    exact hplaces.pop hn
  · intro v hv
    rw [hpop] at hv
    exact h.visited v (by rw [hpath]; exact Array.mem_push_of_mem n hv)

/-- Reading a callee keeps the shape. -/
theorem Shape.advance (h : Shape g s) {f : Frame} {outer : List Frame}
    (hframes : s.frames = f :: outer) : Shape g { s with frames := f.advance :: outer } := by
  obtain ⟨p, n, hpath, -, htrail⟩ := h.exists_push hframes
  refine ⟨?_, ?_, h.chain, h.nodup, h.places, h.visited⟩
  · have hsize := h.size_eq
    rw [hframes] at hsize
    simpa using hsize
  · intro e he
    rw [trail_of_push hpath] at he
    rcases List.mem_cons.1 he with rfl | he
    · exact h.callees_eq (n, f) (by rw [htrail]; exact List.mem_cons_self)
    · exact h.callees_eq e (by rw [htrail]; exact List.mem_cons_of_mem _ he)

/-- What a frame has still to read are different callees of its node. -/
theorem Shape.unread (h : Shape g s) {e : String × Frame} (he : e ∈ s.trail) :
    e.2.unread.Nodup ∧ ∀ v ∈ e.2.unread, g.Edge e.1 v := by
  have hcallees := h.callees_eq e he
  have hsub : e.2.unread.Sublist (g.calleesOf e.1) := by
    rw [← hcallees]
    exact List.drop_sublist e.2.next e.2.callees.toList
  refine ⟨(g.forward.nodup_targets e.1).sublist hsub, ?_⟩
  intro v hv
  exact CallGraph.edge_iff_mem_calleesOf.2 (hsub.subset hv)

/-- The end of the path calls what its frame has still to read. -/
theorem Shape.edge_of_unread (h : Shape g s) {f : Frame} {outer : List Frame}
    {callee : String} {rest : List String} (hframes : s.frames = f :: outer)
    (hunread : f.unread = callee :: rest) : ∀ n ∈ s.path.toList.getLast?, g.Edge n callee := by
  obtain ⟨p, n, hpath, -, htrail⟩ := h.exists_push hframes
  intro m hm
  rw [hpath, Array.toList_push, List.getLast?_concat, Option.mem_some_iff] at hm
  have hmem : (n, f) ∈ s.trail := by
    rw [htrail]
    exact List.mem_cons_self
  rw [← hm]
  exact (h.unread hmem).2 callee (by rw [hunread]; exact List.mem_cons_self)

/-- The path from a callee on is a cycle if the last node calls that callee, and the call closes
the cycle. -/
theorem Shape.cycle (h : Shape g s) {p : Array String} {n callee : String} {first : Nat}
    (hpath : s.path = p.push n) (hfirst : s.path[first]? = some callee) (hedge : g.Edge n callee) :
    SimpleCycle g.Edge (s.path.toList.drop first ++ [callee]) ∧
      closingEdge (s.path.toList.drop first ++ [callee]) = some (n, callee) := by
  have hlist : s.path.toList = p.toList ++ [n] := by rw [hpath, Array.toList_push]
  obtain ⟨hlt, heq⟩ := List.getElem?_eq_some_iff.1 (by simpa using hfirst :
    s.path.toList[first]? = some callee)
  have hle : first ≤ p.toList.length := by
    rw [hlist, List.length_append, List.length_singleton] at hlt
    omega
  have hlast : s.path.toList.drop first = p.toList.drop first ++ [n] := by
    rw [hlist, List.drop_append_of_le_length hle]
  constructor
  · refine ⟨callee, s.path.toList.drop (first + 1), ?_, ?_, ?_⟩
    · rw [List.drop_eq_getElem_cons hlt, heq]
    · rw [← heq, ← List.drop_eq_getElem_cons hlt]
      exact h.nodup.sublist (List.drop_sublist first s.path.toList)
    · refine (h.chain.drop first).append (List.isChain_singleton callee) ?_
      intro m hm v hv
      rw [hlast, List.getLast?_concat, Option.mem_some_iff] at hm
      rw [List.head?_cons, Option.mem_some_iff] at hv
      rwa [← hm, ← hv]
  · rw [hlast, List.append_assoc]
    exact closingEdge_append_pair (p.toList.drop first) n callee

/-- A cycle that is recorded does not touch the shape. -/
theorem Shape.record (h : Shape g s) (first : Nat) (callee : String) :
    Shape g (s.record first callee) :=
  ⟨h.size_eq, h.callees_eq, h.chain, h.nodup, h.places, h.visited⟩

/-- Entering a node that the end of the path calls keeps the shape. -/
theorem Shape.enter (h : Shape g s) {v : String} (hv : v ∉ s.visited)
    (hedge : ∀ n ∈ s.path.toList.getLast?, g.Edge n v) : Shape g ((s.mark v).enter g v) := by
  have hnew : v ∉ s.path := fun hmem => hv (h.visited v hmem)
  have hpath : ((s.mark v).enter g v).path = s.path.push v := rfl
  refine ⟨?_, ?_, ?_, ?_, ?_, ?_⟩
  · simp [PathSearch.enter, mark, h.size_eq]
  · intro e he
    rw [trail_enter] at he
    rcases List.mem_cons.1 he with rfl | he
    · rfl
    · exact h.callees_eq e he
  · rw [hpath, Array.toList_push]
    refine h.chain.append (List.isChain_singleton v) ?_
    intro n hn w hw
    rw [List.head?_cons, Option.mem_some_iff] at hw
    rw [← hw]
    exact hedge n hn
  · rw [hpath, Array.toList_push]
    refine List.nodup_append.2 ⟨h.nodup, List.pairwise_singleton _ v, ?_⟩
    intro a ha b hb
    rw [List.mem_singleton.1 hb]
    rintro rfl
    exact hnew (Array.mem_toList_iff.1 ha)
  · rw [hpath]
    exact h.places.push hnew
  · intro w hw
    rw [hpath] at hw
    rcases Array.mem_push.1 hw with hw | rfl
    · exact List.mem_cons_of_mem v (h.visited w hw)
    · exact List.mem_cons_self

/-- A search from a root that was not visited before starts with the shape. -/
theorem shape_start (g : CallGraph) (s : PathSearch) {root : String} (hroot : root ∉ s.visited) :
    Shape g (start g root s) :=
  (shape_of_idle s.visited s.cycles).enter hroot (by simp)

end CodeAtlas.Graph.PathSearch
