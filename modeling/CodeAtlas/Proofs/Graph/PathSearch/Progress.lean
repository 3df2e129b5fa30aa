import CodeAtlas.Proofs.Graph.PathSearch.Shape

/-!
# The progress of a path search

The visited nodes of a search are those on its path and those that it has left. The nodes that were
left are listed in the order in which they were left, the last one first: whatever such a node
calls was left before it, unless the call is the closing edge of a recorded cycle. So without the
closing edges every call of a left node goes down this list, and no cycle remains.

Main results:

- Theorem `Progress.step`: a step keeps the invariant, and may lengthen the list.
- Theorem `Progress.run`: so does a whole search, after which no node is on the path.
- Theorem `searchAll_progress`: after the searches from all callers the list holds every caller.
-/

namespace CodeAtlas.Graph.PathSearch

variable {g : CallGraph} {s : PathSearch} {done : List String}

/-- A call is the closing edge of a recorded cycle. -/
def Closes (s : PathSearch) (u v : String) : Prop := some (u, v) ∈ s.cycles.map closingEdge

/-- Whatever a listed node calls comes after it in the list, or the call closes a cycle. -/
def Settled (g : CallGraph) (closes : String → String → Prop) : List String → Prop
  | [] => True
  | u :: done => (∀ v, g.Edge u v → v ∈ done ∨ closes u v) ∧ Settled g closes done

/-- Whatever a node of the trail calls was not read yet, is settled or further inside, or the call
closes a cycle. -/
def Read (g : CallGraph) (closes : String → String → Prop) :
    List String → List (String × Frame) → Prop
  | _, [] => True
  | settled, (u, f) :: outer =>
    (∀ v, g.Edge u v → v ∈ f.unread ∨ v ∈ settled ∨ closes u v) ∧
      Read g closes (u :: settled) outer

theorem Settled.imp {c c' : String → String → Prop} (hc : ∀ u v, c u v → c' u v)
    (h : Settled g c done) : Settled g c' done := by
  induction done with
  | nil => trivial
  | cons u done ih => exact ⟨fun v hv => (h.1 v hv).imp id (hc u v), ih h.2⟩

theorem Read.imp {c c' : String → String → Prop} (hc : ∀ u v, c u v → c' u v)
    {settled settled' : List String} (hsub : settled ⊆ settled') {trail : List (String × Frame)}
    (h : Read g c settled trail) : Read g c' settled' trail := by
  induction trail generalizing settled settled' with
  | nil => trivial
  | cons e outer ih =>
    obtain ⟨u, f⟩ := e
    refine ⟨?_, ih (List.cons_subset_cons u hsub) h.2⟩
    intro v hv
    rcases h.1 v hv with hv | hv | hv
    · exact Or.inl hv
    · exact Or.inr (Or.inl (hsub hv))
    · exact Or.inr (Or.inr (hc u v hv))

/-- A node whose frame reads one more callee still has read what it should, if that callee is
settled or the call closes a cycle. -/
theorem Read.advance {c c' : String → String → Prop} (hc : ∀ u v, c u v → c' u v)
    {settled settled' : List String} (hsub : settled ⊆ settled') {n callee : String} {f : Frame}
    {outer : List (String × Frame)} (h : Read g c settled ((n, f) :: outer))
    (hunread : f.unread = callee :: f.advance.unread) (hcallee : callee ∈ settled' ∨ c' n callee) :
    Read g c' settled' ((n, f.advance) :: outer) := by
  refine ⟨?_, h.2.imp hc (List.cons_subset_cons n hsub)⟩
  intro v hv
  rcases h.1 v hv with hv | hv | hv
  · rw [hunread] at hv
    rcases List.mem_cons.1 hv with rfl | hv
    · exact Or.inr hcallee
    · exact Or.inl hv
  · exact Or.inr (Or.inl (hsub hv))
  · exact Or.inr (Or.inr (hc n v hv))

/-- What holds of the visited nodes and of the recorded cycles, whatever was read. -/
structure Ledger (g : CallGraph) (done : List String) (s : PathSearch) : Prop where
  visited_iff : ∀ v, v ∈ s.visited ↔ v ∈ done ∨ v ∈ s.path
  disjoint : ∀ v ∈ s.path, v ∉ done
  nodup_done : done.Nodup
  settled : Settled g s.Closes done
  unread : ∀ e ∈ s.trail, ∀ v ∈ e.2.unread, ¬ s.Closes e.1 v
  source : ∀ u v, s.Closes u v → u ∈ s.visited
  nodup_closing : (s.cycles.map closingEdge).Nodup
  cycles : ∀ walk ∈ s.cycles, SimpleCycle g.Edge walk

/-- The invariant of a search between two steps. -/
structure Progress (g : CallGraph) (done : List String) (s : PathSearch) : Prop where
  shape : Shape g s
  ledger : Ledger g done s
  read : Read g s.Closes done s.trail

/-! ## Entering and leaving -/

/-- A visited node that is not on the path was left. -/
theorem Ledger.mem_done (h : Ledger g done s) {v : String} (hv : v ∈ s.visited)
    (hpath : v ∉ s.path) : v ∈ done :=
  ((h.visited_iff v).1 hv).resolve_right hpath

/-- Entering a new node keeps the ledger. -/
theorem Ledger.enter (h : Ledger g done s) {v : String} (hv : v ∉ s.visited) :
    Ledger g done ((s.mark v).enter g v) := by
  have hnot : v ∉ done ∧ v ∉ s.path := not_or.1 (mt (h.visited_iff v).2 hv)
  have hpath : ((s.mark v).enter g v).path = s.path.push v := rfl
  have hvisited : ((s.mark v).enter g v).visited = v :: s.visited := rfl
  refine ⟨?_, ?_, h.nodup_done, h.settled, ?_, ?_, h.nodup_closing, h.cycles⟩
  · intro w
    rw [hvisited, hpath, List.mem_cons, Array.mem_push, h.visited_iff w]
    constructor
    · rintro (hw | hw | hw)
      · exact Or.inr (Or.inr hw)
      · exact Or.inl hw
      · exact Or.inr (Or.inl hw)
    · rintro (hw | hw | hw)
      · exact Or.inr (Or.inl hw)
      · exact Or.inr (Or.inr hw)
      · exact Or.inl hw
  · intro w hw
    rw [hpath] at hw
    rcases Array.mem_push.1 hw with hw | rfl
    · exact h.disjoint w hw
    · exact hnot.1
  · intro e he w hw hcloses
    rw [trail_enter] at he
    rcases List.mem_cons.1 he with rfl | he
    · exact hv (h.source v w hcloses)
    · exact h.unread e he w hw hcloses
  · intro u w hcloses
    exact List.mem_cons_of_mem v (h.source u w hcloses)

/-- Entering a new node that the end of the path calls keeps the invariant, if only that call was
still to be settled. -/
theorem Progress.enter (hshape : Shape g s) (hledger : Ledger g done s) {v : String}
    (hread : Read g s.Closes (v :: done) s.trail) (hv : v ∉ s.visited)
    (hedge : ∀ n ∈ s.path.toList.getLast?, g.Edge n v) :
    Progress g done ((s.mark v).enter g v) := by
  refine ⟨hshape.enter hv hedge, hledger.enter hv, ?_⟩
  rw [trail_enter]
  refine ⟨fun w hw => Or.inl ?_, hread⟩
  simpa [Frame.unread] using CallGraph.edge_iff_mem_calleesOf.1 hw

/-- Leaving a node of which all callees were read keeps the invariant: the node joins the list. -/
theorem Progress.leave (h : Progress g done s) {f : Frame} {outer : List Frame}
    (hframes : s.frames = f :: outer) (hf : f.unread = []) :
    ∃ n, Progress g (n :: done) s.leave := by
  obtain ⟨p, n, hpath, -, htrail⟩ := h.shape.exists_push hframes
  obtain ⟨hleavePath, hleaveTrail⟩ := path_trail_leave hpath hframes
  have hread := h.read
  rw [htrail] at hread
  refine ⟨n, h.shape.leave hframes, ⟨?_, ?_, ?_, ?_, ?_, h.ledger.source, h.ledger.nodup_closing,
    h.ledger.cycles⟩, ?_⟩
  · intro v
    have hvisited : v ∈ s.leave.visited ↔ v ∈ done ∨ v ∈ s.path := h.ledger.visited_iff v
    rw [hvisited, hleavePath, hpath, Array.mem_push, List.mem_cons]
    constructor
    · rintro (hv | hv | hv)
      · exact Or.inl (Or.inr hv)
      · exact Or.inr hv
      · exact Or.inl (Or.inl hv)
    · rintro ((hv | hv) | hv)
      · exact Or.inr (Or.inr hv)
      · exact Or.inl hv
      · exact Or.inr (Or.inl hv)
  · intro v hv
    rw [hleavePath] at hv
    have hne : v ≠ n := by
      rintro rfl
      exact h.shape.not_mem_of_push hpath hv
    have hdone : v ∉ done := by
      apply h.ledger.disjoint
      rw [hpath]
      exact Array.mem_push_of_mem n hv
    exact fun hmem => (List.mem_cons.1 hmem).elim hne hdone
  · refine List.nodup_cons.2 ⟨?_, h.ledger.nodup_done⟩
    exact h.ledger.disjoint n (by rw [hpath]; exact Array.mem_push_self)
  · refine ⟨?_, h.ledger.settled⟩
    intro v hv
    have hcase := hread.1 v hv
    rw [hf] at hcase
    exact hcase.resolve_left List.not_mem_nil
  · intro e he
    rw [hleaveTrail] at he
    exact h.ledger.unread e (by rw [htrail]; exact List.mem_cons_of_mem _ he)
  · rw [hleaveTrail]
    exact hread.2

/-! ## Reading a callee -/

/-- Reading a callee keeps the ledger. -/
theorem Ledger.advance (h : Ledger g done s) {n callee : String} {f : Frame}
    {rest : List (String × Frame)} (htrail : s.trail = (n, f) :: rest) {frames : List Frame}
    (htrail' : trail { s with frames } = (n, f.advance) :: rest)
    (hunread : f.unread = callee :: f.advance.unread) : Ledger g done { s with frames } := by
  refine ⟨h.visited_iff, h.disjoint, h.nodup_done, h.settled, ?_, h.source, h.nodup_closing,
    h.cycles⟩
  intro e he v hv
  rw [htrail'] at he
  rcases List.mem_cons.1 he with rfl | he
  · apply h.unread (n, f) (by rw [htrail]; exact List.mem_cons_self)
    rw [hunread]
    exact List.mem_cons_of_mem callee hv
  · exact h.unread e (by rw [htrail]; exact List.mem_cons_of_mem _ he) v hv

/-- A recorded cycle adds its closing edge and nothing else. -/
theorem closes_record_iff {first : Nat} {n callee : String}
    (hclosing : closingEdge (s.path.toList.drop first ++ [callee]) = some (n, callee))
    (u v : String) :
    (s.record first callee).Closes u v ↔ (u = n ∧ v = callee) ∨ s.Closes u v := by
  simp only [Closes, PathSearch.record, List.map_cons, List.mem_cons, hclosing, Option.some.injEq,
    Prod.mk.injEq]

/-- Recording a cycle keeps the ledger, if no node has its closing edge still to read and no cycle
with that closing edge was recorded before. -/
theorem Ledger.record (h : Ledger g done s) {first : Nat} {n callee : String}
    (hcycle : SimpleCycle g.Edge (s.path.toList.drop first ++ [callee]))
    (hclosing : closingEdge (s.path.toList.drop first ++ [callee]) = some (n, callee))
    (hn : n ∈ s.visited) (hread : ∀ e ∈ s.trail, e.1 = n → callee ∉ e.2.unread)
    (hnew : ¬ s.Closes n callee) : Ledger g done (s.record first callee) := by
  have hcloses := closes_record_iff hclosing
  refine ⟨h.visited_iff, h.disjoint, h.nodup_done, ?_, ?_, ?_, ?_, ?_⟩
  · exact h.settled.imp (fun u v huv => (hcloses u v).2 (Or.inr huv))
  · intro e he v hv hc
    rcases (hcloses e.1 v).1 hc with ⟨hn, rfl⟩ | hc
    · exact hread e he hn hv
    · exact h.unread e he v hv hc
  · intro u v hc
    rcases (hcloses u v).1 hc with ⟨rfl, -⟩ | hc
    · exact hn
    · exact h.source u v hc
  · simp only [PathSearch.record, List.map_cons, hclosing]
    exact List.nodup_cons.2 ⟨hnew, h.nodup_closing⟩
  · intro walk hwalk
    rcases List.mem_cons.1 hwalk with rfl | hwalk
    · exact hcycle
    · exact h.cycles walk hwalk

/-- A callee on the path closes a cycle, which keeps the invariant. -/
theorem Progress.record (h : Progress g done s) {f : Frame} {outer : List Frame} {callee : String}
    {first : Nat} (hframes : s.frames = f :: outer) (hread : f.callees[f.next]? = some callee)
    (hfirst : s.path[first]? = some callee) :
    Progress g done (PathSearch.record first callee { s with frames := f.advance :: outer }) := by
  obtain ⟨p, n, hpath, -, htrail⟩ := h.shape.exists_push hframes
  have htrail' := trail_of_push hpath f.advance outer
  have hunread := Frame.unread_of_getElem? hread
  have hmem : (n, f) ∈ s.trail := by
    rw [htrail]
    exact List.mem_cons_self
  obtain ⟨hnodup, hedges⟩ := h.shape.unread hmem
  rw [hunread] at hnodup hedges
  obtain ⟨hcycle, hclosing⟩ := h.shape.cycle hpath hfirst (hedges callee List.mem_cons_self)
  have hvisited : n ∈ s.visited := by
    apply h.shape.visited
    rw [hpath]
    exact Array.mem_push_self
  have hnew : ¬ s.Closes n callee := by
    apply h.ledger.unread (n, f) hmem
    rw [hunread]
    exact List.mem_cons_self
  -- the node is in the trail once, and its frame has read the callee now
  have honce : ∀ e ∈ trail { s with frames := f.advance :: outer }, e.1 = n →
      callee ∉ e.2.unread := by
    intro e he hn
    rw [htrail'] at he
    rcases List.mem_cons.1 he with rfl | he
    · exact (List.nodup_cons.1 hnodup).1
    · have hfst : e.1 ∈ p.toList := List.mem_reverse.1 (List.of_mem_zip he).1
      rw [hn] at hfst
      exact absurd (Array.mem_toList_iff.1 hfst) (h.shape.not_mem_of_push hpath)
  have hledger := h.ledger.advance htrail htrail' hunread
  refine ⟨(h.shape.advance hframes).record first callee,
    hledger.record hcycle hclosing hvisited honce hnew, ?_⟩
  have hcloses := closes_record_iff hclosing
  have hold := h.read
  rw [htrail] at hold
  have hgoal : Read g (s.record first callee).Closes done
      ((n, f.advance) :: p.toList.reverse.zip outer) :=
    hold.advance (fun u v huv => (hcloses u v).2 (Or.inr huv)) (List.Subset.refl done) hunread
      (Or.inr ((hcloses n callee).2 (Or.inl ⟨rfl, rfl⟩)))
  rw [← htrail'] at hgoal
  exact hgoal

/-- Whatever is done with a callee that is read keeps the invariant. -/
theorem Progress.meet (h : Progress g done s) {f : Frame} {outer : List Frame} {callee : String}
    (hframes : s.frames = f :: outer) (hread : f.callees[f.next]? = some callee) :
    Progress g done (PathSearch.meet g callee { s with frames := f.advance :: outer }) := by
  obtain ⟨p, n, hpath, -, htrail⟩ := h.shape.exists_push hframes
  have htrail' := trail_of_push hpath f.advance outer
  have hunread := Frame.unread_of_getElem? hread
  have hshape := h.shape.advance hframes
  have hledger := h.ledger.advance htrail htrail' hunread
  -- with the callee among the settled nodes, all that was read is accounted for
  have hsettled : Read g s.Closes (callee :: done)
      (trail { s with frames := f.advance :: outer }) := by
    have hold := h.read
    rw [htrail] at hold
    rw [htrail']
    exact hold.advance (fun _ _ => id) (List.subset_cons_self callee done) hunread
      (Or.inl List.mem_cons_self)
  unfold PathSearch.meet
  split
  · next first hplace => exact h.record hframes hread ((h.shape.places callee first).1 hplace)
  · next hplace =>
    have hnotPath : callee ∉ s.path := h.shape.places.get?_eq_none_iff.1 hplace
    split
    · next hvisited =>
      have hdone : callee ∈ done := h.ledger.mem_done (by simpa using hvisited) hnotPath
      exact ⟨hshape, hledger,
        hsettled.imp (fun _ _ => id) (List.cons_subset.2 ⟨hdone, List.Subset.refl done⟩)⟩
    · next hvisited =>
      exact Progress.enter hshape hledger hsettled (by simpa using hvisited)
        (h.shape.edge_of_unread hframes hunread)

/-! ## Steps, searches and all searches -/

/-- A step keeps the invariant; the list may get longer. -/
theorem Progress.step (h : Progress g done s) {t : PathSearch} (hstep : s.step g = some t) :
    ∃ done', Progress g done' t ∧ s.visited ⊆ t.visited := by
  unfold PathSearch.step at hstep
  split at hstep
  · contradiction
  · next f outer hframes =>
    split at hstep
    · next hread =>
      obtain rfl := Option.some.inj hstep
      obtain ⟨n, hleave⟩ := h.leave hframes (Frame.unread_of_getElem?_none hread)
      exact ⟨n :: done, hleave, List.Subset.refl s.visited⟩
    · next callee hread =>
      obtain rfl := Option.some.inj hstep
      refine ⟨done, h.meet hframes hread, ?_⟩
      unfold PathSearch.meet
      split
      · exact List.Subset.refl s.visited
      · split
        · exact List.Subset.refl s.visited
        · exact List.subset_cons_self callee s.visited

/-- A search goes on until no node is on its path, and keeps the invariant. -/
theorem Progress.run (h : Progress g done s) :
    ∃ done', Progress g done' (PathSearch.run g s) ∧ (PathSearch.run g s).frames = [] ∧
      s.visited ⊆ (PathSearch.run g s).visited := by
  fun_induction PathSearch.run g s generalizing done with
  | case1 s hstep =>
    refine ⟨done, h, ?_, List.Subset.refl s.visited⟩
    unfold PathSearch.step at hstep
    split at hstep
    · assumption
    · split at hstep <;> contradiction
  | case2 s t hstep ih =>
    obtain ⟨done', ht, hsub⟩ := h.step hstep
    obtain ⟨done'', hrun, hframes, hsub'⟩ := ih ht
    exact ⟨done'', hrun, hframes, List.Subset.trans hsub hsub'⟩

/-- The invariant between two searches: nothing is on the path. -/
structure Idle (g : CallGraph) (done : List String) (s : PathSearch) : Prop where
  progress : Progress g done s
  frames_eq : s.frames = []

/-- Between two searches the visited nodes are the listed ones. -/
theorem Idle.mem_done_iff (h : Idle g done s) {v : String} : v ∈ done ↔ v ∈ s.visited := by
  have hsize := h.progress.shape.size_eq
  rw [h.frames_eq, List.length_nil, Array.size_eq_zero_iff] at hsize
  rw [h.progress.ledger.visited_iff v, hsize]
  simp

/-- A search from a root that was not visited yet can start. -/
theorem Idle.start (h : Idle g done s) {root : String} (hroot : root ∉ s.visited) :
    Progress g done (PathSearch.start g root s) := by
  have hledger := h.progress.ledger
  have hidle : Ledger g done { visited := s.visited, cycles := s.cycles } := by
    refine ⟨?_, by simp, hledger.nodup_done, hledger.settled, by simp [trail], hledger.source,
      hledger.nodup_closing, hledger.cycles⟩
    intro v
    simpa using h.mem_done_iff.symm
  exact Progress.enter (shape_of_idle s.visited s.cycles) hidle trivial hroot (by simp)

/-- The search from a root keeps the invariant between searches and visits the root. -/
theorem Idle.searchFrom (h : Idle g done s) (root : String) :
    ∃ done', Idle g done' (PathSearch.searchFrom g s root) ∧
      root ∈ (PathSearch.searchFrom g s root).visited ∧
      s.visited ⊆ (PathSearch.searchFrom g s root).visited := by
  unfold PathSearch.searchFrom
  split
  · next hroot => exact ⟨done, h, by simpa using hroot, List.Subset.refl s.visited⟩
  · next hroot =>
    obtain ⟨done', hrun, hframes, hsub⟩ := (h.start (by simpa using hroot)).run
    refine ⟨done', ⟨hrun, hframes⟩, hsub List.mem_cons_self, ?_⟩
    exact List.Subset.trans (List.subset_cons_self root s.visited) hsub

/-- The searches from some roots keep the invariant between searches and visit all of them. -/
theorem Idle.foldl_searchFrom (h : Idle g done s) (roots : List String) :
    ∃ done', Idle g done' (roots.foldl (PathSearch.searchFrom g) s) ∧
      (∀ root ∈ roots, root ∈ (roots.foldl (PathSearch.searchFrom g) s).visited) ∧
      s.visited ⊆ (roots.foldl (PathSearch.searchFrom g) s).visited := by
  induction roots generalizing done s with
  | nil => exact ⟨done, h, by simp, List.Subset.refl s.visited⟩
  | cons root roots ih =>
    obtain ⟨done', hidle, hroot, hsub⟩ := h.searchFrom root
    obtain ⟨done'', hidle', hroots, hsub'⟩ := ih hidle
    refine ⟨done'', hidle', ?_, List.Subset.trans hsub hsub'⟩
    intro v hv
    rcases List.mem_cons.1 hv with rfl | hv
    · exact hsub' hroot
    · exact hroots v hv

/-- Before the first search nothing was visited. -/
theorem idle_nil : Idle g [] {} := by
  refine ⟨⟨shape_of_idle [] [], ?_, trivial⟩, rfl⟩
  constructor <;> simp [Settled, trail, Closes]

/-- After the searches from all callers every node that calls something is listed. -/
theorem searchAll_progress (g : CallGraph) :
    ∃ done, Idle g done (searchAll g) ∧ ∀ u v, g.Edge u v → u ∈ done := by
  obtain ⟨done, hidle, hroots, -⟩ := idle_nil.foldl_searchFrom (g := g) g.callers
  refine ⟨done, hidle, ?_⟩
  intro u v huv
  exact hidle.mem_done_iff.2 (hroots u (CallGraph.mem_callers_of_edge huv))

end CodeAtlas.Graph.PathSearch
