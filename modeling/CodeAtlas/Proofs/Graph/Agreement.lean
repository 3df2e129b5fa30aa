import CodeAtlas.Proofs.Graph.Components
import CodeAtlas.Proofs.Graph.PathSearch.FeedbackArcs
import Mathlib.Data.List.FinRange
import Mathlib.Data.List.Perm.Subperm

/-!
# The two ways of finding cycles agree

A path search reports closed walks and hides some of them; the cyclic components are exact. Every
report lies in exactly one component. Every component holds a report, since it has a cycle, the
cycle passes the closing edge of a report, and a report does not leave the component that it meets.

Main results:

- Theorem `existsUnique_component_of_report`: a report lies in exactly one component.
- Theorem `exists_report_in_component`: a component holds a report.
- Theorem `length_cyclicComponents_le`: there are no fewer reports than components.
- Theorem `reports_agree_with_components`: these together.
-/

namespace CodeAtlas.Graph

open Components (cyclicComponents)

variable {g : CallGraph} {search : Digraph → List (List Nat)}

/-- A closed walk does not leave a component that it meets. -/
theorem ClosedWalk.subset_component (hsearch : Digraph.FindsComponents search) {walk : List String}
    (h : ClosedWalk g.Edge walk) {region : List String}
    (hregion : region ∈ cyclicComponents search g) {v : String} (hwalk : v ∈ walk)
    (hv : v ∈ region) : walk ⊆ region := by
  intro w hw
  have hvw := (h.transGen hwalk hw).to_reflTransGen
  have hwv := (h.transGen hw hwalk).to_reflTransGen
  exact Components.mem_of_reaches hsearch hregion hv hvw hwv

/-- A node is at one place among the components only. -/
theorem component_unique (hsearch : Digraph.FindsComponents search) {v : String}
    {i j : Fin (cyclicComponents search g).length} (hi : v ∈ (cyclicComponents search g).get i)
    (hj : v ∈ (cyclicComponents search g).get j) : i = j := by
  have hnodup := Components.nodup_flatten_cyclicComponents hsearch g
  have hdisjoint := List.pairwise_iff_getElem.1 (List.nodup_flatten.1 hnodup).2
  rcases Nat.lt_trichotomy i j with hlt | heq | hlt
  · exact absurd hj (hdisjoint i j i.isLt j.isLt hlt hi)
  · exact Fin.ext heq
  · exact absurd hi (hdisjoint j i j.isLt i.isLt hlt hj)

/-- A report lies in exactly one component. -/
theorem existsUnique_component_of_report (hsearch : Digraph.FindsComponents search)
    {report : List String} (h : report ∈ PathSearch.findCycles g) :
    ∃! i : Fin (cyclicComponents search g).length, report ⊆ (cyclicComponents search g).get i := by
  have hclosed := (PathSearch.simpleCycle_of_mem_findCycles h).closedWalk
  obtain ⟨v, hv⟩ := hclosed.exists_mem
  obtain ⟨region, hregion, hvregion⟩ :=
    (Components.exists_mem_iff_onCycle hsearch v).2 (hclosed.transGen hv hv)
  obtain ⟨i, hi, rfl⟩ := List.getElem_of_mem hregion
  refine ⟨⟨i, hi⟩, hclosed.subset_component hsearch hregion hv hvregion, ?_⟩
  intro j hj
  exact component_unique hsearch (hj hv) hvregion

/-- A component holds a report. -/
theorem exists_report_in_component (hsearch : Digraph.FindsComponents search)
    {region : List String} (h : region ∈ cyclicComponents search g) :
    ∃ report ∈ PathSearch.findCycles g, report ⊆ region := by
  have hne : region ≠ [] := by
    rintro rfl
    exact Components.nil_not_mem_cyclicComponents hsearch g h
  obtain ⟨a, ha⟩ := List.exists_mem_of_ne_nil region hne
  obtain ⟨walk, hwalk, hawalk⟩ := exists_closedWalk_of_transGen
    ((Components.exists_mem_iff_onCycle hsearch a).1 ⟨region, h, ha⟩)
  -- the cycle through `a` passes the closing edge of a report, which therefore meets the component
  obtain ⟨report, hreport, e, hclosing, hpasses⟩ :=
    PathSearch.exists_closingEdge_of_closedWalk hwalk
  have hwalkRegion := hwalk.subset_component hsearch h hawalk ha
  have hmeets : e.1 ∈ region := hwalkRegion (mem_of_mem_passes hpasses).1
  have hsource : e.1 ∈ report := (mem_of_mem_passes (List.mem_of_getLast? hclosing)).1
  have hclosed := (PathSearch.simpleCycle_of_mem_findCycles hreport).closedWalk
  exact ⟨report, hreport, hclosed.subset_component hsearch h hsource hmeets⟩

/-- There are no fewer reports than components. -/
theorem length_cyclicComponents_le (hsearch : Digraph.FindsComponents search) (g : CallGraph) :
    (cyclicComponents search g).length ≤ (PathSearch.findCycles g).length := by
  have hchoice : ∀ i : Fin (cyclicComponents search g).length,
      ∃ report ∈ PathSearch.findCycles g, report ⊆ (cyclicComponents search g).get i :=
    fun i => exists_report_in_component hsearch (List.getElem_mem i.isLt)
  choose report hreport hsub using hchoice
  -- different components hold different reports, since a report lies in one component only
  have hinjective : Function.Injective report := by
    intro i j heq
    obtain ⟨k, -, hunique⟩ := existsUnique_component_of_report hsearch (hreport i)
    rw [hunique i (hsub i)]
    exact (hunique j (heq ▸ hsub j)).symm
  have hnodup : (List.ofFn report).Nodup := List.nodup_ofFn.2 hinjective
  have hsubset : List.ofFn report ⊆ PathSearch.findCycles g := by
    intro walk hwalk
    obtain ⟨i, rfl⟩ := List.mem_ofFn.1 hwalk
    exact hreport i
  calc
    (cyclicComponents search g).length = (List.ofFn report).length := List.length_ofFn.symm
    _ ≤ (PathSearch.findCycles g).length := (hnodup.subperm hsubset).length_le

/-- Every report lies in exactly one component and every component holds a report. So either both
lists are empty or neither is, and there are no fewer reports than components. -/
theorem reports_agree_with_components (hsearch : Digraph.FindsComponents search) (g : CallGraph) :
    (∀ report ∈ PathSearch.findCycles g, ∃! i : Fin (cyclicComponents search g).length,
        report ⊆ (cyclicComponents search g).get i) ∧
      (∀ region ∈ cyclicComponents search g,
        ∃ report ∈ PathSearch.findCycles g, report ⊆ region) ∧
      (PathSearch.findCycles g = [] ↔ cyclicComponents search g = []) ∧
      (cyclicComponents search g).length ≤ (PathSearch.findCycles g).length := by
  refine ⟨fun _ => existsUnique_component_of_report hsearch,
    fun _ => exists_report_in_component hsearch, ?_, length_cyclicComponents_le hsearch g⟩
  constructor
  · intro hnil
    have hle := length_cyclicComponents_le hsearch g
    rw [hnil] at hle
    exact List.length_eq_zero_iff.1 (Nat.le_zero.1 hle)
  · intro hnil
    rw [List.eq_nil_iff_forall_not_mem]
    intro report hreport
    obtain ⟨i, -, -⟩ := existsUnique_component_of_report hsearch hreport
    have hlength : (cyclicComponents search g).length = 0 := by rw [hnil, List.length_nil]
    exact Nat.not_lt_zero i (hlength ▸ i.isLt)

/-- Two reports of cycles that share an edge lie in one component. -/
theorem reports_agree_with_one_component :
    Digraph.FindsComponents Digraph.components ∧
      (∀ report ∈ [["a", "b", "a"], ["a", "b", "c", "a"]],
        ∃! i : Fin [["a", "b", "c"]].length, report ⊆ [["a", "b", "c"]].get i) ∧
      (∀ region ∈ [["a", "b", "c"]],
        ∃ report ∈ [["a", "b", "a"], ["a", "b", "c", "a"]], report ⊆ region) ∧
      ([["a", "b", "a"], ["a", "b", "c", "a"]] = [] ↔ [["a", "b", "c"]] = []) ∧
      [["a", "b", "c"]].length ≤ [["a", "b", "a"], ["a", "b", "c", "a"]].length := by
  have hreports : PathSearch.findCycles
      (.ofEdges [("a", "b"), ("b", "a"), ("b", "c"), ("c", "a")]) =
      [["a", "b", "a"], ["a", "b", "c", "a"]] := by
    decide +kernel
  have hregions : cyclicComponents Digraph.components
      (.ofEdges [("a", "b"), ("b", "a"), ("b", "c"), ("c", "a")]) = [["a", "b", "c"]] := by
    cbv
  have hagree := reports_agree_with_components Digraph.findsComponents_components
    (.ofEdges [("a", "b"), ("b", "a"), ("b", "c"), ("c", "a")])
  rw [hreports, hregions] at hagree
  exact ⟨Digraph.findsComponents_components, hagree⟩

end CodeAtlas.Graph
