import CodeAtlas.Proofs.Graph.PathSearch.Shape

/-!
# The iterations of a path search

A step of a search leaves the innermost node, reads a callee that is known already, or enters the
callee that it reads. `Moves` says what each of them does to the nodes with their frames, to the
path and to the visited nodes. A frame never reads past its callees, and below the end of the path
each frame has last read the node that comes next.

Main results:

- Theorem `Shape.step`: a step keeps the shape and is one of the moves.
- Theorem `Cursors.move`: a move keeps what holds of the cursors.
- Theorem `tidy`: shape and cursors together, place by place.
- Theorem `Shape.popsOwnNode`: a frame that is left takes its own node with it and nothing else.
-/

namespace CodeAtlas.Graph

namespace Frame

/-- The callee that was read last. -/
def lastRead? (f : Frame) : Option String :=
  match f.next with
  | 0 => none
  | k + 1 => f.callees[k]?

/-- A frame that was just advanced has last read what it was to read next. -/
theorem lastRead?_advance (f : Frame) : f.advance.lastRead? = f.callees[f.next]? :=
  rfl

end Frame

namespace PathSearch

variable {g : CallGraph} {s t : PathSearch}

/-! ## What a step does -/

/-- What a step does. A node and its frame come together, only the cursor of the frame changes while
they stay, and they go together. -/
inductive Moves (g : CallGraph) (s t : PathSearch) : Prop where
  /-- All callees of the innermost node were read. -/
  | leave (n : String) (f : Frame) (htrail : s.trail = (n, f) :: t.trail)
      (hread : f.callees[f.next]? = none) (hpath : s.path = t.path.push n)
      (hvisited : t.visited = s.visited)
  /-- The callee was visited before. It may be on the path, and then closes a cycle. -/
  | read (n : String) (f : Frame) (rest : List (String × Frame)) (callee : String)
      (htrail : s.trail = (n, f) :: rest) (hread : f.callees[f.next]? = some callee)
      (hknown : callee ∈ s.visited) (htrail' : t.trail = (n, f.advance) :: rest)
      (hpath : t.path = s.path) (hvisited : t.visited = s.visited)
  /-- The callee is new. -/
  | enter (n : String) (f : Frame) (rest : List (String × Frame)) (callee : String)
      (htrail : s.trail = (n, f) :: rest) (hread : f.callees[f.next]? = some callee)
      (hnew : callee ∉ s.visited)
      (htrail' : t.trail = (callee, ⟨(g.calleesOf callee).toArray, 0⟩) :: (n, f.advance) :: rest)
      (hpath : t.path = s.path.push callee) (hvisited : t.visited = callee :: s.visited)

/-- A step keeps the shape and is one of the moves. -/
theorem Shape.step (h : Shape g s) (hstep : s.step g = some t) : Shape g t ∧ Moves g s t := by
  unfold PathSearch.step at hstep
  split at hstep
  · contradiction
  · next f outer hframes =>
    obtain ⟨p, n, hpath, -, htrail⟩ := h.exists_push hframes
    split at hstep
    · next hread =>
      obtain rfl := Option.some.inj hstep
      obtain ⟨hleavePath, hleaveTrail⟩ := path_trail_leave hpath hframes
      refine ⟨h.leave hframes, Moves.leave n f ?_ hread ?_ rfl⟩
      · rw [hleaveTrail, htrail]
      · rw [hleavePath, hpath]
    · next callee hread =>
      obtain rfl := Option.some.inj hstep
      have hadvance : Shape g { s with frames := f.advance :: outer } := h.advance hframes
      have htrail' := trail_of_push hpath f.advance outer
      unfold PathSearch.meet
      split
      · next first hplace =>
        have hmem : callee ∈ s.path :=
          Array.mem_of_getElem? ((h.places callee first).1 hplace)
        exact ⟨hadvance.record first callee,
          Moves.read n f _ callee htrail hread (h.visited callee hmem) htrail' rfl rfl⟩
      · split
        · next hvisited =>
          have hknown : callee ∈ s.visited := List.contains_iff_mem.1 hvisited
          exact ⟨hadvance, Moves.read n f _ callee htrail hread hknown htrail' rfl rfl⟩
        · next hvisited =>
          have hnew : callee ∉ s.visited := mt List.contains_iff_mem.2 hvisited
          have hunread := Frame.unread_of_getElem? hread
          refine ⟨hadvance.enter hnew (h.edge_of_unread hframes hunread),
            Moves.enter n f _ callee htrail hread hnew ?_ rfl rfl⟩
          rw [trail_enter]
          exact congrArg _ htrail'

/-! ## Cursors -/

/-- No frame of a trail has read past its callees, and each frame has last read the node on the
inside of its own. -/
structure Cursors (trail : List (String × Frame)) : Prop where
  next_le : ∀ e ∈ trail, e.2.next ≤ e.2.callees.size
  lastRead : trail.IsChain (fun inner outer => outer.2.lastRead? = some inner.1)

variable {n callee : String} {f : Frame} {rest : List (String × Frame)}

/-- Leaving a node changes no other cursor. -/
theorem Cursors.tail (h : Cursors ((n, f) :: rest)) : Cursors rest :=
  ⟨(List.forall_mem_cons.1 h.next_le).2, (List.isChain_cons.1 h.lastRead).2⟩

/-- Reading a callee moves the innermost cursor, and nothing else depends on it. -/
theorem Cursors.advance (h : Cursors ((n, f) :: rest))
    (hread : f.callees[f.next]? = some callee) : Cursors ((n, f.advance) :: rest) := by
  have hlt : f.next < f.callees.size := (Array.getElem?_eq_some_iff.1 hread).1
  exact ⟨List.forall_mem_cons.2 ⟨hlt, h.tail.next_le⟩,
    List.isChain_cons.2 (List.isChain_cons.1 h.lastRead)⟩

/-- The callee that was read last can be entered. -/
theorem Cursors.enter (h : Cursors ((n, f) :: rest)) (hlast : f.lastRead? = some callee)
    (callees : Array String) : Cursors ((callee, ⟨callees, 0⟩) :: (n, f) :: rest) :=
  ⟨List.forall_mem_cons.2 ⟨Nat.zero_le _, h.next_le⟩,
    List.isChain_cons_cons.2 ⟨hlast, h.lastRead⟩⟩

/-- A move keeps what holds of the cursors. -/
theorem Cursors.move (h : Cursors s.trail) (hmove : Moves g s t) : Cursors t.trail := by
  cases hmove with
  | leave n f htrail hread hpath hvisited =>
    rw [htrail] at h
    exact h.tail
  | read n f rest callee htrail hread hknown htrail' hpath hvisited =>
    rw [htrail] at h
    rw [htrail']
    exact h.advance hread
  | enter n f rest callee htrail hread hnew htrail' hpath hvisited =>
    rw [htrail] at h
    rw [htrail']
    exact (h.advance hread).enter ((Frame.lastRead?_advance f).trans hread) _

/-! ## Place by place -/

/-- The frame of the node at a place of the path. -/
def frameAt? (s : PathSearch) (i : Nat) : Option Frame := s.frames.reverse[i]?

/-- What holds of a search whenever it turns to its innermost frame: path, places, frames and
visited nodes belong together, place by place. -/
structure Tidy (g : CallGraph) (s : PathSearch) : Prop where
  size_eq : s.path.size = s.frames.length
  nodup : s.path.toList.Nodup
  /-- The places are those of the nodes on the path, and nothing else has a place. -/
  places : ∀ v i, s.onPath.get? v = some i ↔ s.path[i]? = some v
  visited : ∀ v ∈ s.path, v ∈ s.visited
  /-- A frame has the callees of the node at its place, and its cursor is not behind them. -/
  frame : ∀ i v f, s.path[i]? = some v → s.frameAt? i = some f →
    f.callees.toList = g.calleesOf v ∧ f.next ≤ f.callees.size
  /-- The path goes along an edge to the node that the frame below has just read. -/
  justRead : ∀ i u v f, s.path[i]? = some u → s.path[i + 1]? = some v → s.frameAt? i = some f →
    g.Edge u v ∧ f.lastRead? = some v

/-- The trail from its outer end: the nodes by their places, each with its frame. -/
theorem Shape.getElem?_reverse_trail (h : Shape g s) {i : Nat} {v : String} {f : Frame}
    (hv : s.path[i]? = some v) (hf : s.frameAt? i = some f) :
    s.trail.reverse[i]? = some (v, f) := by
  have hlength : s.path.toList.reverse.length = s.frames.length := by
    rw [List.length_reverse, Array.length_toList, h.size_eq]
  have hreverse : s.trail.reverse = s.path.toList.zip s.frames.reverse := by
    rw [trail, List.zip_eq_zipWith, List.reverse_zipWith hlength, List.reverse_reverse,
      List.zip_eq_zipWith]
  rw [hreverse, List.getElem?_zip_eq_some]
  exact ⟨by rwa [Array.getElem?_toList], hf⟩

/-- Shape and cursors together. -/
theorem tidy (h : Shape g s) (hcursors : Cursors s.trail) : Tidy g s where
  size_eq := h.size_eq
  nodup := h.nodup
  places := h.places
  visited := h.visited
  frame := by
    intro i v f hv hf
    have hmem : (v, f) ∈ s.trail :=
      List.mem_reverse.1 (List.mem_of_getElem? (h.getElem?_reverse_trail hv hf))
    exact ⟨h.callees_eq (v, f) hmem, hcursors.next_le (v, f) hmem⟩
  justRead := by
    intro i u v f hu hv hf
    -- the node above has a frame too, and the two stand next to each other in the trail
    have hlt : i + 1 < s.frames.reverse.length := by
      rw [List.length_reverse, ← h.size_eq]
      exact (Array.getElem?_eq_some_iff.1 hv).1
    have houter := h.getElem?_reverse_trail hu hf
    have hinner := h.getElem?_reverse_trail hv (List.getElem?_eq_getElem hlt)
    obtain ⟨hi, hu'⟩ := List.getElem?_eq_some_iff.1 houter
    obtain ⟨hi', hv'⟩ := List.getElem?_eq_some_iff.1 hinner
    have hlast := List.isChain_iff_getElem.1 (List.isChain_reverse.2 hcursors.lastRead) i hi'
    rw [hu', hv'] at hlast
    refine ⟨?_, hlast⟩
    obtain ⟨hj, hu⟩ := Array.getElem?_eq_some_iff.1 hu
    obtain ⟨hj', hv⟩ := Array.getElem?_eq_some_iff.1 hv
    have hedge := List.isChain_iff_getElem.1 h.chain i hj'
    rw [Array.getElem_toList, Array.getElem_toList, hu, hv] at hedge
    exact hedge

/-- The part of the path that a cycle is taken from is inside of the path and starts with the callee
that closes the cycle. -/
theorem Tidy.slice (h : Tidy g s) {callee : String} {first : Nat}
    (hplace : s.onPath.get? callee = some first) :
    first < s.path.size ∧ (s.path.toList.drop first).head? = some callee := by
  have hat := (h.places callee first).1 hplace
  refine ⟨(Array.getElem?_eq_some_iff.1 hat).1, ?_⟩
  rw [List.head?_drop, Array.getElem?_toList]
  exact hat

/-- When the innermost frame has nothing left to read, the step takes away this frame, its own node
at the end of the path and the place of this node, and nothing else. -/
def PopsOwnNode (g : CallGraph) (s : PathSearch) : Prop :=
  ∀ f outer, s.frames = f :: outer → f.callees[f.next]? = none →
    ∃ t n, s.step g = some t ∧ t.frames = outer ∧ s.trail = (n, f) :: t.trail ∧
      s.path = t.path.push n ∧ s.onPath.get? n = some t.path.size ∧ t.onPath.get? n = none ∧
      ∀ v, v ≠ n → t.onPath.get? v = s.onPath.get? v

/-- A frame that is left takes its own node with it and nothing else. -/
theorem Shape.popsOwnNode (h : Shape g s) : PopsOwnNode g s := by
  intro f outer hframes hread
  obtain ⟨p, n, hpath, -, htrail⟩ := h.exists_push hframes
  obtain ⟨hleavePath, hleaveTrail⟩ := path_trail_leave hpath hframes
  have honPath : s.leave.onPath = s.onPath.erase n := by simp [PathSearch.leave, hpath]
  refine ⟨s.leave, n, ?_, ?_, ?_, ?_, ?_, ?_, ?_⟩
  · simp only [PathSearch.step, hframes, hread]
  · rw [PathSearch.leave, hframes, List.tail_cons]
  · rw [hleaveTrail, htrail]
  · rw [hleavePath, hpath]
  · rw [hleavePath]
    apply (h.places n p.size).2
    rw [hpath, Array.getElem?_push_size]
  · rw [honPath, Table.get?_erase_self]
  · intro v hv
    rw [honPath, Table.get?_erase_of_ne _ hv]

end PathSearch

end CodeAtlas.Graph
