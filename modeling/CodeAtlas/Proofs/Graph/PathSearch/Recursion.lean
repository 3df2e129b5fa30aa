import CodeAtlas.Proofs.Graph.PathSearch.Shape

/-!
# The recursive search

The path search keeps its own stack of frames, so that paths of any length need no deep recursion.
Without that concern it is a recursion: to visit the last node of a path is to read its callees in
order, where a callee on the path closes a cycle and one that was not visited before is visited at
the end of the longer path. Both give the same cycles in the same order.

Main results:

- Theorem `visit_eq`: the recursion that visiting a node is.
- Theorem `run_eq_leave`: the search goes on as if the recursion had read what is left of the
  innermost frame and the node had been left.
- Theorem `exists_steps_run`: a search comes to an end after some steps.
- Theorem `findCycles_eq_recursive`: the two searches report the same cycles.
-/

namespace CodeAtlas.Graph

/-- What a search has found: the nodes that it has visited and the cycles that it has met, in
order. -/
structure Findings where
  visited : List String := []
  cycles : List (List String) := []
  deriving DecidableEq, Repr, Inhabited

namespace Findings

/-- One more visited node. -/
def mark (node : String) (t : Findings) : Findings := { t with visited := node :: t.visited }

/-- One more cycle. -/
def record (cycle : List String) (t : Findings) : Findings :=
  { t with cycles := t.cycles ++ [cycle] }

end Findings

namespace RecursiveSearch

open PathSearch

/-- Reads some callees of the last node of a path, one after the other. Nothing that was visited is
forgotten, which makes the recursion end. -/
def readCallees (g : CallGraph) (path : List String) :
    List String → (t : Findings) → { t' : Findings // t.visited ⊆ t'.visited }
  | [], t => ⟨t, List.Subset.refl t.visited⟩
  | callee :: rest, t =>
    if callee ∈ path then
      let ⟨after, hafter⟩ :=
        readCallees g path rest (t.record (path.drop (path.idxOf callee) ++ [callee]))
      ⟨after, hafter⟩
    else if callee ∈ t.visited then readCallees g path rest t
    else
      let ⟨inner, hinner⟩ :=
        readCallees g (path ++ [callee]) (g.calleesOf callee) (t.mark callee)
      let ⟨after, hafter⟩ := readCallees g path rest inner
      ⟨after, fun _ hv => hafter (hinner (List.mem_cons_of_mem callee hv))⟩
termination_by callees t =>
  unvisitedWeight g.forward.edges.entries t.visited + callees.length
decreasing_by
  · simp [Findings.record]
  · simp
  · have hweight := unvisitedWeight_cons_calleesOf g ‹callee ∉ t.visited›
    simp only [Findings.mark, List.length_cons]
    omega
  · have hmark := unvisitedWeight_le_of_subset g.forward.edges.entries hinner
    have hcons := unvisitedWeight_cons_le g.forward.edges.entries t.visited callee
    simp only [Findings.mark, List.length_cons] at hmark ⊢
    omega

/-- Visits a node, the last one of a path. -/
def visit (g : CallGraph) (path : List String) (node : String) (t : Findings) : Findings :=
  (readCallees g path (g.calleesOf node) t).1

/-- What is done with a callee of the last node of a path: it closes a cycle, was visited before, or
is visited now. -/
def readCallee (g : CallGraph) (path : List String) (t : Findings) (callee : String) : Findings :=
  if callee ∈ path then t.record (path.drop (path.idxOf callee) ++ [callee])
  else if callee ∈ t.visited then t
  else visit g (path ++ [callee]) callee (t.mark callee)

/-- Visits a root with everything that is reached from it, unless it was visited before. -/
def visitRoot (g : CallGraph) (t : Findings) (root : String) : Findings :=
  if root ∈ t.visited then t else visit g [root] root (t.mark root)

/-- The cycles that are met when every caller is visited, in order. -/
def findCycles (g : CallGraph) : List (List String) := (g.callers.foldl (visitRoot g) {}).cycles

theorem readCallees_nil (g : CallGraph) (path : List String) (t : Findings) :
    (readCallees g path [] t).1 = t := by
  rw [readCallees]

/-- Callees are read one after the other. -/
theorem readCallees_cons (g : CallGraph) (path : List String) (callee : String)
    (rest : List String) (t : Findings) :
    (readCallees g path (callee :: rest) t).1 =
      (readCallees g path rest (readCallee g path t callee)).1 := by
  rw [readCallees, readCallee]
  by_cases hpath : callee ∈ path
  · rw [if_pos hpath, if_pos hpath]
  · rw [if_neg hpath, if_neg hpath]
    by_cases hvisited : callee ∈ t.visited
    · rw [if_pos hvisited, if_pos hvisited]
    · rw [if_neg hvisited, if_neg hvisited]
      rfl

theorem readCallees_eq_foldl (g : CallGraph) (path callees : List String) (t : Findings) :
    (readCallees g path callees t).1 = callees.foldl (readCallee g path) t := by
  induction callees generalizing t with
  | nil => exact readCallees_nil g path t
  | cons callee rest ih => rw [readCallees_cons, ih, List.foldl_cons]

/-- To visit the last node of a path is to read its callees in order: one on the path closes a cycle,
and one that was not visited before is visited at the end of the longer path. -/
theorem visit_eq (g : CallGraph) (path : List String) (node : String) (t : Findings) :
    visit g path node t = (g.calleesOf node).foldl (fun t callee =>
      if callee ∈ path then t.record (path.drop (path.idxOf callee) ++ [callee])
      else if callee ∈ t.visited then t
      else visit g (path ++ [callee]) callee (t.mark callee)) t :=
  readCallees_eq_foldl g path (g.calleesOf node) t

end RecursiveSearch

namespace PathSearch

variable {g : CallGraph} {s : PathSearch} {t : Findings}

/-! ## Searches and their findings -/

/-- What a search has found so far. -/
def found (s : PathSearch) : Findings := ⟨s.visited, s.cycles.reverse⟩

/-- The search with other findings in place of its own. -/
def withFound (s : PathSearch) (t : Findings) : PathSearch :=
  { s with visited := t.visited, cycles := t.cycles.reverse }

@[simp]
theorem withFound_found (s : PathSearch) : s.withFound s.found = s := by
  simp [withFound, found]

@[simp]
theorem found_withFound (s : PathSearch) (t : Findings) : (s.withFound t).found = t := by
  simp [withFound, found]

theorem found_record (s : PathSearch) (first : Nat) (callee : String) :
    (s.record first callee).found = s.found.record (s.path.toList.drop first ++ [callee]) := by
  simp [found, PathSearch.record, Findings.record]

theorem found_leave (s : PathSearch) : s.leave.found = s.found :=
  rfl

/-- Findings that forget nothing keep the shape. -/
theorem Shape.withFound (h : Shape g s) (hsub : s.visited ⊆ t.visited) :
    Shape g (s.withFound t) :=
  ⟨h.size_eq, h.callees_eq, h.chain, h.nodup, h.places, fun v hv => hsub (h.visited v hv)⟩

/-- Leaving a node that was just entered leads back, whatever was found in between. -/
theorem leave_enter (t : Findings) {callee : String} (h : s.onPath.get? callee = none) :
    (((s.mark callee).enter g callee).withFound t).leave = s.withFound t := by
  have herase := s.onPath.erase_insert_of_new s.path.size h
  simp [leave, PathSearch.withFound, PathSearch.enter, mark, herase]

/-! ## Steps -/

theorem run_of_step {u : PathSearch} (h : s.step g = some u) : run g s = run g u := by
  rw [run]
  split
  · next hnone => rw [h] at hnone; cases hnone
  · next v hv => rw [Option.some.inj (h.symm.trans hv)]

theorem run_of_step_eq_none (h : s.step g = none) : run g s = s := by
  rw [run]
  split
  · rfl
  · next u hu => rw [h] at hu; cases hu

/-- One step leads from a search to another. -/
def Steps (g : CallGraph) (s u : PathSearch) : Prop := s.step g = some u

/-- A search comes to an end after some steps. -/
theorem exists_steps_run (g : CallGraph) (s : PathSearch) :
    Relation.ReflTransGen (Steps g) s (run g s) ∧ (run g s).step g = none := by
  fun_induction run g s with
  | case1 s hstep => exact ⟨Relation.ReflTransGen.refl, hstep⟩
  | case2 s u hstep ih => exact ⟨Relation.ReflTransGen.head hstep ih.1, ih.2⟩

/-! ## Reading a callee -/

/-- The search after its innermost frame has read one more callee. -/
def advance (s : PathSearch) : PathSearch :=
  { s with frames := s.frames.modifyHead Frame.advance }

variable {f : Frame} {outer : List Frame} {callee : String} {rest : List String}

theorem advance_eq (hframes : s.frames = f :: outer) :
    s.advance = { s with frames := f.advance :: outer } := by
  rw [advance, hframes, List.modifyHead_cons]

/-- Reading a callee keeps the shape. -/
theorem Shape.advanced (h : Shape g s) (hframes : s.frames = f :: outer) :
    Shape g s.advance ∧ s.advance.frames = f.advance :: outer := by
  rw [advance_eq hframes]
  exact ⟨h.advance hframes, rfl⟩

/-- Leaving a node forgets what its frame has read. -/
theorem leave_withFound_advance (s : PathSearch) (t : Findings) :
    (s.advance.withFound t).leave = (s.withFound t).leave := by
  cases hframes : s.frames <;> simp [leave, PathSearch.withFound, advance, hframes]

/-- A node of which all callees were read is left. -/
theorem run_of_unread_nil (g : CallGraph) (hframes : s.frames = f :: outer)
    (hunread : f.unread = []) : run g s = run g s.leave := by
  refine run_of_step ?_
  cases hread : f.callees[f.next]? with
  | none => simp only [PathSearch.step, hframes, hread]
  | some callee =>
    rw [Frame.unread_of_getElem? hread] at hunread
    cases hunread

/-- Otherwise its next callee is read. -/
theorem run_of_unread_cons (g : CallGraph) (hframes : s.frames = f :: outer)
    (hunread : f.unread = callee :: rest) :
    f.advance.unread = rest ∧ run g s = run g (PathSearch.meet g callee s.advance) := by
  cases hread : f.callees[f.next]? with
  | none =>
    rw [Frame.unread_of_getElem?_none hread] at hunread
    cases hunread
  | some next =>
    rw [Frame.unread_of_getElem? hread, List.cons.injEq] at hunread
    obtain ⟨rfl, hrest⟩ := hunread
    rw [advance_eq hframes]
    exact ⟨hrest, run_of_step (by simp only [PathSearch.step, hframes, hread])⟩

/-- A node that is not on the path has no place there. -/
theorem Shape.get?_onPath_eq_none (h : Shape g s) (hnew : callee ∉ s.path.toList) :
    s.onPath.get? callee = none :=
  h.places.get?_eq_none_iff.2 (fun hmem => hnew (Array.mem_toList_iff.2 hmem))

/-- A callee on the path closes a cycle from the place where it is first met there. -/
theorem Shape.meet_of_mem (h : Shape g s) (hmem : callee ∈ s.path.toList) :
    PathSearch.meet g callee s = s.record (s.path.toList.idxOf callee) callee := by
  have hplace : s.onPath.get? callee = some (s.path.toList.idxOf callee) := by
    rw [h.places callee, ← Array.getElem?_toList, List.getElem?_idxOf hmem]
  simp only [PathSearch.meet, hplace]

/-- A callee that was visited before and left is passed over. -/
theorem Shape.meet_of_visited (h : Shape g s) (hnew : callee ∉ s.path.toList)
    (hvisited : callee ∈ s.visited) : PathSearch.meet g callee s = s := by
  have hcontains : s.visited.contains callee = true := List.contains_iff_mem.2 hvisited
  simp only [PathSearch.meet, h.get?_onPath_eq_none hnew, hcontains, if_true]

/-- A callee that was not visited before is entered. -/
theorem Shape.meet_of_new (h : Shape g s) (hnew : callee ∉ s.visited) :
    PathSearch.meet g callee s = (s.mark callee).enter g callee := by
  have hpath : callee ∉ s.path.toList :=
    fun hmem => hnew (h.visited callee (Array.mem_toList_iff.1 hmem))
  have hcontains : ¬s.visited.contains callee = true := mt List.contains_iff_mem.1 hnew
  simp only [PathSearch.meet, h.get?_onPath_eq_none hpath, if_neg hcontains]

/-! ## The search goes on as the recursion does -/

/-- The search goes on as if the recursion had read what is left of the innermost frame and the node
had been left. -/
theorem run_eq_leave {path callees : List String} (h : Shape g s)
    (hframes : s.frames = f :: outer) (hcallees : f.unread = callees)
    (hpath : s.path.toList = path) (hfound : s.found = t) :
    run g s = run g (s.withFound (RecursiveSearch.readCallees g path callees t).1).leave := by
  induction path, callees, t using RecursiveSearch.readCallees.induct g generalizing s f outer with
  | case1 path t =>
    rw [RecursiveSearch.readCallees_nil, ← hfound, withFound_found]
    exact run_of_unread_nil g hframes hcallees
  | case2 path callee rest t hmem after hafter heq ih =>
    subst hpath hfound
    obtain ⟨hrest, hrun⟩ := run_of_unread_cons g hframes hcallees
    obtain ⟨hshape, hadvanced⟩ := h.advanced hframes
    have hmeet : PathSearch.meet g callee s.advance =
        s.advance.record (s.path.toList.idxOf callee) callee := hshape.meet_of_mem hmem
    rw [RecursiveSearch.readCallees_cons, RecursiveSearch.readCallee, if_pos hmem, hrun, hmeet,
      ih (hshape.record _ callee) hadvanced hrest rfl (found_record s.advance _ callee)]
    exact congrArg (run g) (leave_withFound_advance s _)
  | case3 path callee rest t hmem hvisited ih =>
    subst hpath hfound
    obtain ⟨hrest, hrun⟩ := run_of_unread_cons g hframes hcallees
    obtain ⟨hshape, hadvanced⟩ := h.advanced hframes
    rw [RecursiveSearch.readCallees_cons, RecursiveSearch.readCallee, if_neg hmem,
      if_pos hvisited, hrun, hshape.meet_of_visited hmem hvisited, ih hshape hadvanced hrest rfl rfl]
    exact congrArg (run g) (leave_withFound_advance s _)
  | case4 path callee rest t hmem hvisited inner hinner heq after hafter heq' ih ih' =>
    subst hpath hfound
    obtain ⟨hrest, hrun⟩ := run_of_unread_cons g hframes hcallees
    obtain ⟨hshape, hadvanced⟩ := h.advanced hframes
    -- the search comes back from the callee with what the recursion has found below it
    have hback : run g ((s.advance.mark callee).enter g callee) =
        run g (s.advance.withFound inner) := by
      rw [ih (hshape.enter hvisited (h.edge_of_unread hframes hcallees)) rfl rfl
        (Array.toList_push ..) rfl, heq,
        leave_enter (s := s.advance) inner (h.get?_onPath_eq_none hmem)]
    have hkept : s.visited ⊆ inner.visited :=
      fun v hv => hinner (List.mem_cons_of_mem callee hv)
    have hvisit : RecursiveSearch.visit g (s.path.toList ++ [callee]) callee
        (s.found.mark callee) = inner := congrArg Subtype.val heq
    rw [RecursiveSearch.readCallees_cons, RecursiveSearch.readCallee, if_neg hmem,
      if_neg hvisited, hvisit, hrun, hshape.meet_of_new hvisited, hback,
      ih' (hshape.withFound hkept) hadvanced hrest rfl (found_withFound s.advance inner)]
    exact congrArg (run g) (leave_withFound_advance s _)

/-! ## Both searches -/

/-- A search without frames has ended. -/
theorem run_of_frames_eq_nil (hframes : s.frames = []) : run g s = s :=
  run_of_step_eq_none (by simp only [PathSearch.step, hframes])

/-- The search from a root finds what the recursion finds from it. -/
theorem found_searchFrom (g : CallGraph) (s : PathSearch) (root : String) :
    (searchFrom g s root).found = RecursiveSearch.visitRoot g s.found root := by
  unfold searchFrom RecursiveSearch.visitRoot
  by_cases hroot : root ∈ s.found.visited
  · have hcontains : s.visited.contains root = true := List.contains_iff_mem.2 hroot
    rw [if_pos hcontains, if_pos hroot]
  · have hcontains : ¬s.visited.contains root = true := mt List.contains_iff_mem.1 hroot
    have hshape : Shape g (start g root s) := shape_start g s hroot
    have hrun : run g (start g root s) = run g ((start g root s).withFound
        (RecursiveSearch.visit g [root] root (s.found.mark root))).leave :=
      run_eq_leave hshape rfl rfl rfl rfl
    rw [if_neg hcontains, if_neg hroot, hrun, run_of_frames_eq_nil rfl, found_leave,
      found_withFound]

/-- The search with its own stack reports the same cycles as the recursion, in the same order. The
recursion visits the last node of a path by reading its callees in order, and every search comes to
an end after some steps. -/
theorem findCycles_eq_recursive (g : CallGraph) :
    findCycles g = RecursiveSearch.findCycles g ∧
      (∀ path node t, RecursiveSearch.visit g path node t =
        (g.calleesOf node).foldl (fun t callee =>
          if callee ∈ path then t.record (path.drop (path.idxOf callee) ++ [callee])
          else if callee ∈ t.visited then t
          else RecursiveSearch.visit g (path ++ [callee]) callee (t.mark callee)) t) ∧
      ∀ s, Relation.ReflTransGen (Steps g) s (run g s) ∧ (run g s).step g = none := by
  have hall : ∀ (roots : List String) (s : PathSearch),
      (roots.foldl (searchFrom g) s).found =
        roots.foldl (RecursiveSearch.visitRoot g) s.found := by
    intro roots
    induction roots with
    | nil => exact fun s => rfl
    | cons root roots ih =>
      intro s
      rw [List.foldl_cons, ih, found_searchFrom, List.foldl_cons]
  exact ⟨congrArg Findings.cycles (hall g.callers {}), RecursiveSearch.visit_eq g,
    exists_steps_run g⟩

end PathSearch

end CodeAtlas.Graph
