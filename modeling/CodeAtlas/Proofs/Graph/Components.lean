import CodeAtlas.Graph.Components
import CodeAtlas.Proofs.Graph.Numbering
import Mathlib.Data.List.Permutation
import Mathlib.Data.List.Sort

/-!
# What the cyclic components are

The components of the numbered graph are found in some order, those with a cycle are kept and sorted
twice, and the numbers become names again. Whatever the order in which they are found, the result is
the same list of the regions of the call graph that lie on cycles.

Main results:

- Theorem `pairwise_arrange`: sorted components are in the order of their first members.
- Theorem `exists_mem_iff_onCycle`: the nodes of cyclic components are the nodes on cycles.
- Theorem `exists_common_iff_reaches`: two nodes share a cyclic component exactly if each reaches
  the other.
- Theorem `cyclicRegions_cyclicComponents`: these and the orders together.
-/

namespace CodeAtlas.Graph.Components

open Relation (TransGen)
open CodeAtlas.Graph.Numbering

variable {g : CallGraph} {search : Digraph → List (List Nat)}

/-! ## Sorting -/

theorem mem_arrange_iff {cs : List (List Nat)} {c : List Nat} :
    c ∈ arrange cs ↔ ∃ c' ∈ cs, c'.mergeSort = c := by
  simp [arrange]

/-- Sorting keeps the members. -/
theorem flatten_arrange_perm (cs : List (List Nat)) : (arrange cs).flatten.Perm cs.flatten := by
  refine (List.mergeSort_perm _ _).flatten.trans ?_
  induction cs with
  | nil => exact List.Perm.refl _
  | cons c cs ih =>
    rw [List.map_cons, List.flatten_cons, List.flatten_cons]
    exact (List.mergeSort_perm c _).append ih

/-- Sorting does not empty a component. -/
theorem nil_not_mem_arrange {cs : List (List Nat)} (h : [] ∉ cs) : [] ∉ arrange cs := by
  intro hnil
  obtain ⟨c, hc, hsort⟩ := mem_arrange_iff.1 hnil
  have hlength := (List.mergeSort_perm c (fun a b => decide (a ≤ b))).length_eq
  rw [hsort] at hlength
  rw [List.length_eq_zero_iff.1 hlength.symm] at hc
  exact h hc

/-- The members of sorted components are in order. -/
theorem pairwise_of_mem_arrange {cs : List (List Nat)} (h : cs.flatten.Nodup) {c : List Nat}
    (hc : c ∈ arrange cs) : c.Pairwise (· < ·) := by
  obtain ⟨c', hc', rfl⟩ := mem_arrange_iff.1 hc
  have hnodup : c'.mergeSort.Nodup :=
    (List.mergeSort_perm c' _).nodup_iff.2 ((List.nodup_flatten.1 h).1 c' hc')
  have hle : c'.mergeSort.Pairwise (· ≤ ·) := List.pairwise_mergeSort' (· ≤ ·) c'
  exact (hle.and hnodup).imp (fun hpair => Nat.lt_of_le_of_ne hpair.1 hpair.2)

/-- Sorted components are in the order of their first members. -/
theorem pairwise_arrange {cs : List (List Nat)} (h : cs.flatten.Nodup) (hnil : [] ∉ cs) :
    (arrange cs).Pairwise (fun c d => ∃ v ∈ c, ∀ w ∈ d, v < w) := by
  have hdisjoint : (arrange cs).Pairwise List.Disjoint :=
    (List.nodup_flatten.1 ((flatten_arrange_perm cs).nodup_iff.2 h)).2
  have hheads : (arrange cs).Pairwise (fun c d => c.headD 0 ≤ d.headD 0) := by
    have htrans : ∀ a b c : List Nat, decide (a.headD 0 ≤ b.headD 0) = true →
        decide (b.headD 0 ≤ c.headD 0) = true → decide (a.headD 0 ≤ c.headD 0) = true := by
      intro a b c hab hbc
      exact decide_eq_true ((of_decide_eq_true hab).trans (of_decide_eq_true hbc))
    have htotal : ∀ a b : List Nat,
        (decide (a.headD 0 ≤ b.headD 0) || decide (b.headD 0 ≤ a.headD 0)) = true := by
      intro a b
      simpa using Nat.le_total (a.headD 0) (b.headD 0)
    exact (List.pairwise_mergeSort htrans htotal _).imp of_decide_eq_true
  refine (hheads.and hdisjoint).imp_of_mem ?_
  intro c d hc hd hpair
  have hsorted := pairwise_of_mem_arrange h hd
  match c, d with
  | [], _ => exact absurd hc (nil_not_mem_arrange hnil)
  | v :: rest, [] => exact ⟨v, List.mem_cons_self, by simp⟩
  | v :: rest, x :: rest' =>
    refine ⟨v, List.mem_cons_self, ?_⟩
    intro w hw
    have hvx : v ≤ x := hpair.1
    have hxw : x ≤ w := by
      rcases List.mem_cons.1 hw with rfl | hw
      · exact Nat.le_refl w
      · exact Nat.le_of_lt ((List.pairwise_cons.1 hsorted).1 w hw)
    refine Nat.lt_of_le_of_ne (hvx.trans hxw) ?_
    rintro rfl
    exact hpair.2 List.mem_cons_self hw

/-! ## The regions -/

/-- A cyclic component is a component with a cycle, sorted and named. -/
theorem mem_cyclicComponents_iff {region : List String} :
    region ∈ cyclicComponents search g ↔
      ∃ c ∈ search (ofGraph g).digraph, (ofGraph g).digraph.isCyclic c = true ∧
        c.mergeSort.map (name g) = region := by
  unfold cyclicComponents
  rw [List.mem_map]
  constructor
  · rintro ⟨sorted, hsorted, rfl⟩
    obtain ⟨c, hc, rfl⟩ := mem_arrange_iff.1 hsorted
    obtain ⟨hmem, hcyclic⟩ := List.mem_filter.1 hc
    exact ⟨c, hmem, hcyclic, rfl⟩
  · rintro ⟨c, hmem, hcyclic, rfl⟩
    exact ⟨c.mergeSort, mem_arrange_iff.2 ⟨c, List.mem_filter.2 ⟨hmem, hcyclic⟩, rfl⟩, rfl⟩

/-- The members of a cyclic component are the names of the members of the component. -/
theorem mem_map_name_iff {c : List Nat} {a : String} :
    a ∈ c.mergeSort.map (name g) ↔ ∃ v ∈ c, name g v = a := by
  simp

/-- The members of a component are numbers. -/
theorem lt_count_of_mem (hsearch : Digraph.FindsComponents search) {c : List Nat}
    (hc : c ∈ search (ofGraph g).digraph) {v : Nat} (hv : v ∈ c) : v < count g := by
  rw [← size_digraph, ← List.mem_range]
  exact (hsearch.partition (ofGraph g).digraph).mem_iff.1 (List.mem_flatten.2 ⟨c, hc, hv⟩)

/-- What is numbered is in some component. -/
theorem exists_component (hsearch : Digraph.FindsComponents search) {a : String}
    (ha : a ∈ reading g) : ∃ c ∈ search (ofGraph g).digraph, number g a ∈ c := by
  have hrange : number g a ∈ List.range (ofGraph g).digraph.size := by
    rw [size_digraph, List.mem_range]
    exact number_lt ha
  exact List.mem_flatten.1 ((hsearch.partition (ofGraph g).digraph).mem_iff.2 hrange)

/-- The nodes of cyclic components are the nodes on cycles. -/
theorem exists_mem_iff_onCycle (hsearch : Digraph.FindsComponents search) (a : String) :
    (∃ region ∈ cyclicComponents search g, a ∈ region) ↔ g.OnCycle a := by
  constructor
  · rintro ⟨region, hregion, ha⟩
    obtain ⟨c, hc, hcyclic, rfl⟩ := mem_cyclicComponents_iff.1 hregion
    obtain ⟨v, hv, rfl⟩ := mem_map_name_iff.1 ha
    have hcycle := (hsearch.isCyclic_iff hc hv).1 hcyclic
    exact hcycle.lift (name g) (fun _ _ => edge_name)
  · intro hcycle
    obtain ⟨b, hedge, -⟩ := TransGen.head'_iff.1 hcycle
    have hmet := (mem_reading_of_edge hedge).1
    obtain ⟨c, hc, hnumber⟩ := exists_component hsearch hmet
    have hcyclic := (hsearch.isCyclic_iff hc hnumber).2
      (hcycle.lift (number g) (fun _ _ => edge_number))
    exact ⟨c.mergeSort.map (name g), mem_cyclicComponents_iff.2 ⟨c, hc, hcyclic, rfl⟩,
      mem_map_name_iff.2 ⟨number g a, hnumber, name_number hmet⟩⟩

/-- Nodes of one cyclic component reach each other. -/
theorem reaches_of_mem (hsearch : Digraph.FindsComponents search) {region : List String}
    (hregion : region ∈ cyclicComponents search g) {a b : String} (ha : a ∈ region)
    (hb : b ∈ region) : g.Reaches a b ∧ g.Reaches b a := by
  obtain ⟨c, hc, -, rfl⟩ := mem_cyclicComponents_iff.1 hregion
  obtain ⟨v, hv, rfl⟩ := mem_map_name_iff.1 ha
  obtain ⟨w, hw, rfl⟩ := mem_map_name_iff.1 hb
  exact reaches_name ((hsearch.mem_iff (ofGraph g).digraph c hc v hv w).1 hw)

/-- What a member of a cyclic component reaches and is reached by is a member, too. -/
theorem mem_of_reaches (hsearch : Digraph.FindsComponents search) {region : List String}
    (hregion : region ∈ cyclicComponents search g) {a b : String} (ha : a ∈ region)
    (hab : g.Reaches a b) (hba : g.Reaches b a) : b ∈ region := by
  by_cases heq : a = b
  · rwa [← heq]
  obtain ⟨c, hc, -, rfl⟩ := mem_cyclicComponents_iff.1 hregion
  obtain ⟨v, hv, rfl⟩ := mem_map_name_iff.1 ha
  obtain ⟨x, hedge, -⟩ := TransGen.head'_iff.1 (hba.transGen (Ne.symm heq))
  have hmet := (mem_reading_of_edge hedge).1
  have hconn := connected_number hab hba
  rw [number_name (lt_count_of_mem hsearch hc hv)] at hconn
  exact mem_map_name_iff.2
    ⟨number g b, (hsearch.mem_iff (ofGraph g).digraph c hc v hv _).2 hconn, name_number hmet⟩

/-- Two nodes share a cyclic component exactly if each reaches the other. -/
theorem exists_common_iff_reaches (hsearch : Digraph.FindsComponents search) {a b : String}
    (hne : a ≠ b) :
    (∃ region ∈ cyclicComponents search g, a ∈ region ∧ b ∈ region) ↔
      g.Reaches a b ∧ g.Reaches b a := by
  constructor
  · rintro ⟨region, hregion, ha, hb⟩
    exact reaches_of_mem hsearch hregion ha hb
  · rintro ⟨hab, hba⟩
    have hcycle : g.OnCycle a := (hab.transGen hne).trans_left hba
    obtain ⟨region, hregion, ha⟩ := (exists_mem_iff_onCycle hsearch a).2 hcycle
    exact ⟨region, hregion, ha, mem_of_reaches hsearch hregion ha hab hba⟩

/-- The numbers of all components with a cycle are different. -/
theorem nodup_flatten_filter (hsearch : Digraph.FindsComponents search) (d : Digraph) :
    ((search d).filter d.isCyclic).flatten.Nodup := by
  have hnodup : (search d).flatten.Nodup := (hsearch.partition d).nodup_iff.2 List.nodup_range
  obtain ⟨heach, hdisjoint⟩ := List.nodup_flatten.1 hnodup
  refine List.nodup_flatten.2 ⟨?_, hdisjoint.sublist List.filter_sublist⟩
  intro c hc
  exact heach c (List.mem_filter.1 hc).1

/-- No component with a cycle is empty. -/
theorem nil_not_mem_filter (hsearch : Digraph.FindsComponents search) (d : Digraph) :
    [] ∉ (search d).filter d.isCyclic := by
  intro hnil
  exact hsearch.ne_nil d [] (List.mem_filter.1 hnil).1 rfl

/-- The members of sorted components are numbers. -/
theorem lt_count_of_mem_arrange (hsearch : Digraph.FindsComponents search) {sorted : List Nat}
    (hsorted : sorted ∈ arrange
      ((search (ofGraph g).digraph).filter (ofGraph g).digraph.isCyclic)) {v : Nat}
    (hv : v ∈ sorted) : v < count g := by
  obtain ⟨c, hc, rfl⟩ := mem_arrange_iff.1 hsorted
  exact lt_count_of_mem hsearch (List.mem_filter.1 hc).1 (List.mem_mergeSort.1 hv)

/-- No node is in two cyclic components, and none is repeated inside one. -/
theorem nodup_flatten_cyclicComponents (hsearch : Digraph.FindsComponents search)
    (g : CallGraph) : (cyclicComponents search g).flatten.Nodup := by
  have hnumbers := (flatten_arrange_perm _).nodup_iff.2
    (nodup_flatten_filter hsearch (ofGraph g).digraph)
  have hflatten : (cyclicComponents search g).flatten =
      (arrange ((search (ofGraph g).digraph).filter
        (ofGraph g).digraph.isCyclic)).flatten.map (name g) := by
    rw [List.map_flatten]
    rfl
  rw [hflatten]
  refine hnumbers.map_on ?_
  intro v hv w hw heq
  obtain ⟨c, hc, hvc⟩ := List.mem_flatten.1 hv
  obtain ⟨d, hd, hwd⟩ := List.mem_flatten.1 hw
  rw [← number_name (lt_count_of_mem_arrange hsearch hc hvc), heq,
    number_name (lt_count_of_mem_arrange hsearch hd hwd)]

/-- No cyclic component is empty. -/
theorem nil_not_mem_cyclicComponents (hsearch : Digraph.FindsComponents search) (g : CallGraph) :
    [] ∉ cyclicComponents search g := by
  intro hnil
  obtain ⟨sorted, hsorted, hmap⟩ := List.mem_map.1 hnil
  rw [List.map_eq_nil_iff.1 hmap] at hsorted
  exact nil_not_mem_arrange (nil_not_mem_filter hsearch (ofGraph g).digraph) hsorted

/-- The members of a cyclic component are in the order in which they are first met. -/
theorem pairwise_of_mem_cyclicComponents (hsearch : Digraph.FindsComponents search)
    {region : List String} (hregion : region ∈ cyclicComponents search g) :
    region.Pairwise (fun a b => (reading g).idxOf a < (reading g).idxOf b) := by
  obtain ⟨sorted, hsorted, rfl⟩ := List.mem_map.1 hregion
  have hpairs := pairwise_of_mem_arrange (nodup_flatten_filter hsearch (ofGraph g).digraph) hsorted
  refine List.pairwise_map.2 (hpairs.imp_of_mem ?_)
  intro v w _ hw hvw
  exact idxOf_name_lt hvw (lt_count_of_mem_arrange hsearch hsorted hw)

/-- The cyclic components are in the order in which their first members are first met. -/
theorem pairwise_cyclicComponents (hsearch : Digraph.FindsComponents search) (g : CallGraph) :
    (cyclicComponents search g).Pairwise
      (fun c d => ∃ a ∈ c, ∀ b ∈ d, (reading g).idxOf a < (reading g).idxOf b) := by
  have hpairs := pairwise_arrange (nodup_flatten_filter hsearch (ofGraph g).digraph)
    (nil_not_mem_filter hsearch (ofGraph g).digraph)
  refine List.pairwise_map.2 (hpairs.imp_of_mem ?_)
  intro c d _ hd hfirst
  obtain ⟨v, hv, hlt⟩ := hfirst
  refine ⟨name g v, List.mem_map_of_mem hv, ?_⟩
  intro b hb
  obtain ⟨w, hw, rfl⟩ := List.mem_map.1 hb
  exact idxOf_name_lt (hlt w hw) (lt_count_of_mem_arrange hsearch hd hw)

/-- Some lists of names are the regions of a graph that lie on cycles, in canonical order. -/
structure CyclicRegions (g : CallGraph) (regions : List (List String)) : Prop where
  /-- Two nodes are together exactly if each reaches the other. -/
  common_iff : ∀ a b, a ≠ b →
    ((∃ c ∈ regions, a ∈ c ∧ b ∈ c) ↔ g.Reaches a b ∧ g.Reaches b a)
  /-- The nodes in regions are the nodes on cycles. -/
  mem_iff : ∀ a, (∃ c ∈ regions, a ∈ c) ↔ g.OnCycle a
  /-- No node is in two regions, and none is repeated inside one. -/
  nodup : regions.flatten.Nodup
  /-- No region is empty. -/
  nil_not_mem : [] ∉ regions
  /-- Members are in the order in which they are first met. -/
  members : ∀ c ∈ regions, c.Pairwise (fun a b => (reading g).idxOf a < (reading g).idxOf b)
  /-- Regions are in the order of their earliest members. -/
  regions : regions.Pairwise
    (fun c d => ∃ a ∈ c, ∀ b ∈ d, (reading g).idxOf a < (reading g).idxOf b)

/-- Whatever the order in which the components are found, the result is the regions on cycles in
canonical order. -/
theorem cyclicRegions_cyclicComponents (hsearch : Digraph.FindsComponents search)
    (g : CallGraph) : CyclicRegions g (cyclicComponents search g) where
  common_iff _ _ hne := exists_common_iff_reaches hsearch hne
  mem_iff := exists_mem_iff_onCycle hsearch
  nodup := nodup_flatten_cyclicComponents hsearch g
  nil_not_mem := nil_not_mem_cyclicComponents hsearch g
  members _ hc := pairwise_of_mem_cyclicComponents hsearch hc
  regions := pairwise_cyclicComponents hsearch g

/-- Two regions on cycles, and a caller outside of both. -/
theorem cyclicRegions_two_components :
    Digraph.FindsComponents Digraph.components ∧
      CyclicRegions
        (.ofEdges [("x", "y"), ("y", "x"), ("a", "b"), ("b", "a"), ("main", "x")])
        [["x", "y"], ["a", "b"]] := by
  have hcycles : cyclicComponents Digraph.components
      (.ofEdges [("x", "y"), ("y", "x"), ("a", "b"), ("b", "a"), ("main", "x")]) =
      [["x", "y"], ["a", "b"]] := by
    cbv
  refine ⟨Digraph.findsComponents_components, ?_⟩
  rw [← hcycles]
  exact cyclicRegions_cyclicComponents Digraph.findsComponents_components _

end CodeAtlas.Graph.Components
