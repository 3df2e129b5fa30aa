import CodeAtlas.Proofs.Graph.PathSearch.Progress
import Mathlib.Data.List.Nodup

/-!
# What a path search reports

A path search does not report every cycle, since its searches share the visited nodes. But the
closing edges of its reports break all cycles: each directed cycle passes one of them.

Main results:

- Theorem `simpleCycle_of_mem_findCycles`: every report is a cycle that meets no node twice.
- Theorem `nodup_closingEdge_findCycles`: no two reports have the same closing edge.
- Theorem `exists_closingEdge_of_closedWalk`: every closed walk passes the closing edge of a report.
- Theorem `findCycles_eq_nil_iff`: nothing is reported exactly if there is no cycle.
- Theorem `findCycles_feedbackArcs`: the four together.
-/

namespace CodeAtlas.Graph.PathSearch

variable {g : CallGraph} {closes : String → String → Prop} {done : List String}

/-- An edge that closes no recorded cycle. -/
def OpenEdge (g : CallGraph) (closes : String → String → Prop) (u v : String) : Prop :=
  g.Edge u v ∧ ¬ closes u v

/-- Whatever a settled node calls comes after it, or the call closes a cycle. -/
theorem Settled.of_append {pre post : List String} {u : String}
    (h : Settled g closes (pre ++ u :: post)) {v : String} (huv : g.Edge u v) :
    v ∈ post ∨ closes u v := by
  induction pre with
  | nil => exact h.1 v huv
  | cons w pre ih => exact ih h.2

/-- Along edges that close no cycle a settled node leads to nodes after it only. -/
theorem Settled.mem_of_transGen {u v : String} (hreach : Relation.TransGen (OpenEdge g closes) u v)
    {pre post : List String} (h : Settled g closes (pre ++ u :: post)) : v ∈ post := by
  induction hreach using Relation.TransGen.head_induction_on generalizing pre post with
  | single hedge => exact (h.of_append hedge.1).resolve_right hedge.2
  | @head u w hedge _ ih =>
    have hw : w ∈ post := (h.of_append hedge.1).resolve_right hedge.2
    obtain ⟨between, after, rfl⟩ := List.append_of_mem hw
    have hsplit : pre ++ u :: (between ++ w :: after) = (pre ++ u :: between) ++ w :: after := by
      simp
    rw [hsplit] at h
    exact List.mem_append_right between (List.mem_cons_of_mem w (ih h))

/-- If all nodes with edges are settled then the edges that close no cycle have no cycle. -/
theorem Settled.not_transGen (h : Settled g closes done) (hnodup : done.Nodup)
    (hall : ∀ u v, g.Edge u v → u ∈ done) (v : String) :
    ¬ Relation.TransGen (OpenEdge g closes) v v := by
  intro hcycle
  obtain ⟨w, hedge, -⟩ := Relation.TransGen.head'_iff.1 hcycle
  obtain ⟨pre, post, rfl⟩ := List.append_of_mem (hall v w hedge.1)
  have hpost : v ∈ post := h.mem_of_transGen hcycle
  exact (List.nodup_cons.1 (List.nodup_append.1 hnodup).2.1).1 hpost

/-! ## The reports -/

/-- Every report is a cycle that meets no node twice. -/
theorem simpleCycle_of_mem_findCycles {report : List String} (h : report ∈ findCycles g) :
    SimpleCycle g.Edge report := by
  obtain ⟨done, hidle, -⟩ := searchAll_progress g
  exact hidle.progress.ledger.cycles report (List.mem_reverse.1 h)

/-- No two reports have the same closing edge. -/
theorem nodup_closingEdge_findCycles (g : CallGraph) :
    ((findCycles g).map closingEdge).Nodup := by
  obtain ⟨done, hidle, -⟩ := searchAll_progress g
  rw [findCycles, List.map_reverse, List.nodup_reverse]
  exact hidle.progress.ledger.nodup_closing

/-- Every closed walk passes the closing edge of a report. -/
theorem exists_closingEdge_of_closedWalk {walk : List String} (h : ClosedWalk g.Edge walk) :
    ∃ report ∈ findCycles g, ∃ e ∈ closingEdge report, e ∈ passes walk := by
  obtain ⟨done, hidle, hall⟩ := searchAll_progress g
  have hledger := hidle.progress.ledger
  by_contra hnone
  -- a walk without closing edges would be a cycle of edges that close nothing
  have hopen : walk.IsChain (OpenEdge g (searchAll g).Closes) := by
    obtain ⟨v, vs, -, hchain⟩ := h
    rw [isChain_iff_passes] at hchain ⊢
    intro e he
    refine ⟨hchain e he, ?_⟩
    intro hcloses
    obtain ⟨report, hreport, hclosing⟩ := List.mem_map.1 hcloses
    exact hnone ⟨report, List.mem_reverse.2 hreport, e, hclosing, he⟩
  have hclosed : ClosedWalk (OpenEdge g (searchAll g).Closes) walk := by
    obtain ⟨v, vs, heq, -⟩ := h
    exact ⟨v, vs, heq, hopen⟩
  obtain ⟨v, hv⟩ := h.exists_mem
  exact hledger.settled.not_transGen hledger.nodup_done hall v (hclosed.transGen hv hv)

/-- Nothing is reported exactly if there is no cycle. -/
theorem findCycles_eq_nil_iff (g : CallGraph) : findCycles g = [] ↔ ∀ v, ¬ g.OnCycle v := by
  constructor
  · intro hnil v hv
    obtain ⟨walk, hwalk, -⟩ := exists_closedWalk_of_transGen hv
    obtain ⟨report, hreport, -⟩ := exists_closingEdge_of_closedWalk hwalk
    rw [hnil] at hreport
    contradiction
  · intro hacyclic
    rw [List.eq_nil_iff_forall_not_mem]
    intro report hreport
    have hclosed := (simpleCycle_of_mem_findCycles hreport).closedWalk
    obtain ⟨v, hv⟩ := hclosed.exists_mem
    exact hacyclic v (hclosed.transGen hv hv)

/-- Whatever the history of a graph: its reports are cycles without repeated nodes, their closing
edges are different and break every directed cycle, and there is no report exactly if there is no
cycle. -/
theorem findCycles_feedbackArcs (g : CallGraph) :
    (∀ report ∈ findCycles g, SimpleCycle g.Edge report) ∧
      ((findCycles g).map closingEdge).Nodup ∧
      (∀ walk, ClosedWalk g.Edge walk →
        ∃ report ∈ findCycles g, ∃ e ∈ closingEdge report, e ∈ passes walk) ∧
      (findCycles g = [] ↔ ∀ v, ¬ g.OnCycle v) :=
  ⟨fun _ => simpleCycle_of_mem_findCycles, nodup_closingEdge_findCycles g,
    fun _ => exists_closingEdge_of_closedWalk, findCycles_eq_nil_iff g⟩

/-- The cycle through `a` and `c` alone is not reported, but it passes the closing edge of the
cycle that is. -/
example : findCycles (.ofEdges [("a", "b"), ("b", "c"), ("c", "a"), ("a", "c")]) =
    [["a", "b", "c", "a"]] := by
  decide +kernel

end CodeAtlas.Graph.PathSearch
