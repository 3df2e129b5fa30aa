import CodeAtlas.Graph.Digraph
import Mathlib.Data.List.Nodup
import Mathlib.Logic.Relation

/-!
# Strongly connected components

What a search for strongly connected components has to find, and that the one at hand finds it: an
exploration marks exactly what is reached, so the component of a node is what reaches it and is
reached by it, and the components of the nodes in turn fill all nodes without overlap.

Main results:

- Theorem `marked_reachable_iff`: an exploration from a node marks exactly what the node reaches.
- Theorem `mem_componentOf_iff`: a component is what is connected with its first node.
- Theorem `findsComponents_components`: the components partition the nodes, and two nodes are in
  the same component exactly if they are connected.
-/

namespace CodeAtlas.Graph.Digraph

open Relation (ReflTransGen TransGen)

variable {d : Digraph}

/-- There is an edge from one node to another. -/
def Edge (d : Digraph) (v w : Nat) : Prop := w ∈ d.successorsOf v

/-- Two nodes reach each other. -/
def Connected (d : Digraph) (v w : Nat) : Prop := ReflTransGen d.Edge v w ∧ ReflTransGen d.Edge w v

/-- The search finds the strongly connected components, in any order and each in any order. -/
structure FindsComponents (search : Digraph → List (List Nat)) : Prop where
  partition : ∀ d, (search d).flatten.Perm (List.range d.size)
  ne_nil : ∀ d, ∀ c ∈ search d, c ≠ []
  mem_iff : ∀ d, ∀ c ∈ search d, ∀ v ∈ c, ∀ w, w ∈ c ↔ d.Connected v w

theorem Connected.symm {v w : Nat} (h : d.Connected v w) : d.Connected w v := ⟨h.2, h.1⟩

theorem Connected.trans {u v w : Nat} (h : d.Connected u v) (h' : d.Connected v w) :
    d.Connected u w :=
  ⟨h.1.trans h'.1, h'.2.trans h.2⟩

theorem connected_self (d : Digraph) (v : Nat) : d.Connected v v :=
  ⟨ReflTransGen.refl, ReflTransGen.refl⟩

/-- What a node reaches is a node. -/
theorem lt_size_of_reflTransGen {v w : Nat} (h : ReflTransGen d.Edge v w) (hv : v < d.size) :
    w < d.size := by
  induction h with
  | refl => exact hv
  | tail _ hedge _ => exact (lt_size_of_mem_successorsOf hedge).2

/-- Turning the edges round turns reaching round. -/
theorem reflTransGen_reverse_iff {v w : Nat} :
    ReflTransGen d.reverse.Edge v w ↔ ReflTransGen d.Edge w v := by
  have hedge : d.reverse.Edge = Function.swap d.Edge := by
    funext a b
    exact propext mem_successorsOf_reverse
  rw [hedge]
  exact Relation.reflTransGen_swap

/-! ## What a search for components finds -/

/-- No component repeats a node. -/
theorem FindsComponents.nodup {search : Digraph → List (List Nat)} (h : FindsComponents search)
    {c : List Nat} (hc : c ∈ search d) : c.Nodup := by
  have hflatten : (search d).flatten.Nodup := (h.partition d).nodup_iff.2 List.nodup_range
  exact (List.nodup_flatten.1 hflatten).1 c hc

/-- A component has a cycle exactly if its nodes lie on cycles. -/
theorem FindsComponents.isCyclic_iff {search : Digraph → List (List Nat)}
    (h : FindsComponents search) {c : List Nat} (hc : c ∈ search d) {v : Nat} (hv : v ∈ c) :
    d.isCyclic c = true ↔ TransGen d.Edge v v := by
  have hnodup := h.nodup hc
  have hmem := h.mem_iff d c hc v hv
  -- a second node of the component is reached from the first one and leads back to it
  have hother : ∀ w ∈ c, w ≠ v → TransGen d.Edge v v := by
    intro w hw hne
    have hconn := (hmem w).1 hw
    rcases Relation.reflTransGen_iff_eq_or_transGen.1 hconn.1 with heq | htrans
    · exact absurd heq hne
    · exact htrans.trans_left hconn.2
  match c with
  | [] => contradiction
  | [u] =>
    obtain rfl := List.mem_singleton.1 hv
    rw [isCyclic, List.contains_iff_mem]
    constructor
    · intro hedge
      exact TransGen.single hedge
    · intro hcycle
      obtain ⟨w, hedge, hback⟩ := TransGen.head'_iff.1 hcycle
      have hw : w ∈ [v] := (hmem w).2 ⟨ReflTransGen.single hedge, hback⟩
      rwa [List.mem_singleton.1 hw] at hedge
  | u :: x :: rest =>
    refine iff_of_true rfl ?_
    by_cases hvu : v = u
    · refine hother x (by simp) ?_
      intro hxv
      exact (List.nodup_cons.1 hnodup).1 (by rw [← hvu, ← hxv]; exact List.mem_cons_self)
    · exact hother u List.mem_cons_self (fun huv => hvu huv.symm)

/-! ## Explorations -/

/-- A node has a mark. -/
def Marked (seen : Array Bool) (v : Nat) : Prop := seen.getD v false = true

theorem marked_set {seen : Array Bool} {v w : Nat} (h : v < seen.size) :
    Marked (seen.set v true) w ↔ w = v ∨ Marked seen w := by
  unfold Marked
  rw [Array.getD_eq_getD_getElem?, Array.getD_eq_getD_getElem?, Array.getElem?_set]
  by_cases hw : v = w
  · subst hw
    simp
  · have hne : w ≠ v := fun heq => hw heq.symm
    simp [hw, hne]

theorem not_marked_replicate (n v : Nat) : ¬ Marked (Array.replicate n false) v := by
  unfold Marked
  rw [Array.getD_eq_getD_getElem?, Array.getElem?_replicate]
  split <;> simp

theorem marked_of_getElem {seen : Array Bool} {v : Nat} (h : v < seen.size)
    (hv : ¬ seen[v] = false) : Marked seen v := by
  unfold Marked
  rw [Array.getD_eq_getD_getElem?, Array.getElem?_eq_getElem h]
  simpa using hv

/-- An exploration keeps all marks. -/
theorem Marked.explore {pending : List Nat} {seen : Array Bool} {w : Nat} (h : Marked seen w) :
    Marked (explore d pending seen) w := by
  fun_induction Digraph.explore d pending seen with
  | case1 seen => exact h
  | case2 v pending seen hlt hv ih => exact ih ((marked_set hlt).2 (Or.inr h))
  | case3 v pending seen hlt hv ih => exact ih h
  | case4 v pending seen hlt ih => exact ih h

/-- What an exploration marks is reached from a pending node. -/
theorem reaches_of_marked_explore {pending : List Nat} {seen : Array Bool} {w : Nat}
    (h : Marked (explore d pending seen) w) :
    Marked seen w ∨ ∃ v ∈ pending, ReflTransGen d.Edge v w := by
  fun_induction Digraph.explore d pending seen with
  | case1 seen => exact Or.inl h
  | case2 v pending seen hlt hv ih =>
    rcases ih h with hw | ⟨u, hu, hreach⟩
    · rcases (marked_set hlt).1 hw with rfl | hw
      · exact Or.inr ⟨w, List.mem_cons_self, ReflTransGen.refl⟩
      · exact Or.inl hw
    · rcases List.mem_append.1 hu with hu | hu
      · exact Or.inr ⟨v, List.mem_cons_self, ReflTransGen.head hu hreach⟩
      · exact Or.inr ⟨u, List.mem_cons_of_mem v hu, hreach⟩
  | case3 v pending seen hlt hv ih =>
    rcases ih h with hw | ⟨u, hu, hreach⟩
    · exact Or.inl hw
    · exact Or.inr ⟨u, List.mem_cons_of_mem v hu, hreach⟩
  | case4 v pending seen hlt ih =>
    rcases ih h with hw | ⟨u, hu, hreach⟩
    · exact Or.inl hw
    · exact Or.inr ⟨u, List.mem_cons_of_mem v hu, hreach⟩

/-- An exploration marks all pending nodes. -/
theorem marked_explore_of_mem {pending : List Nat} {seen : Array Bool} {w : Nat}
    (h : w ∈ pending) (hw : w < seen.size) : Marked (explore d pending seen) w := by
  fun_induction Digraph.explore d pending seen with
  | case1 seen => contradiction
  | case2 v pending seen hlt hv ih =>
    rcases List.mem_cons.1 h with rfl | h
    · exact Marked.explore ((marked_set hlt).2 (Or.inl rfl))
    · exact ih (List.mem_append_right _ h) (by simpa using hw)
  | case3 v pending seen hlt hv ih =>
    rcases List.mem_cons.1 h with rfl | h
    · exact Marked.explore (marked_of_getElem hlt hv)
    · exact ih h hw
  | case4 v pending seen hlt ih =>
    rcases List.mem_cons.1 h with rfl | h
    · exact absurd hw hlt
    · exact ih h hw

/-- If the successors of marked nodes are marked or pending before an exploration then they are
marked after it. -/
theorem marked_explore_closed {pending : List Nat} {seen : Array Bool}
    (hsize : seen.size = d.size)
    (hclosed : ∀ v, Marked seen v → ∀ w, d.Edge v w → Marked seen w ∨ w ∈ pending) {v w : Nat}
    (hv : Marked (explore d pending seen) v) (hedge : d.Edge v w) :
    Marked (explore d pending seen) w := by
  fun_induction Digraph.explore d pending seen with
  | case1 seen =>
    exact (hclosed v hv w hedge).resolve_right List.not_mem_nil
  | case2 u pending seen hlt hu ih =>
    refine ih (by simpa using hsize) ?_ hv
    intro x hx y hxy
    rcases (marked_set hlt).1 hx with rfl | hx
    · exact Or.inr (List.mem_append_left pending hxy)
    · rcases hclosed x hx y hxy with hy | hy
      · exact Or.inl ((marked_set hlt).2 (Or.inr hy))
      · rcases List.mem_cons.1 hy with rfl | hy
        · exact Or.inl ((marked_set hlt).2 (Or.inl rfl))
        · exact Or.inr (List.mem_append_right _ hy)
  | case3 u pending seen hlt hu ih =>
    refine ih hsize ?_ hv
    intro x hx y hxy
    rcases hclosed x hx y hxy with hy | hy
    · exact Or.inl hy
    · rcases List.mem_cons.1 hy with rfl | hy
      · exact Or.inl (marked_of_getElem hlt hu)
      · exact Or.inr hy
  | case4 u pending seen hlt ih =>
    refine ih hsize ?_ hv
    intro x hx y hxy
    rcases hclosed x hx y hxy with hy | hy
    · exact Or.inl hy
    · rcases List.mem_cons.1 hy with rfl | hy
      · exact absurd (hsize ▸ (lt_size_of_mem_successorsOf hxy).2) hlt
      · exact Or.inr hy

/-- An exploration from a node marks exactly what the node reaches. -/
theorem marked_reachable_iff {v w : Nat} (hv : v < d.size) :
    Marked (d.reachable v) w ↔ ReflTransGen d.Edge v w := by
  constructor
  · intro h
    rcases reaches_of_marked_explore h with hw | ⟨u, hu, hreach⟩
    · exact absurd hw (not_marked_replicate d.size w)
    · rwa [← List.mem_singleton.1 hu]
  · intro h
    induction h with
    | refl => exact marked_explore_of_mem (List.mem_singleton.2 rfl) (by simpa using hv)
    | tail _ hedge ih =>
      refine marked_explore_closed (by simp) ?_ ih hedge
      intro x hx
      exact absurd hx (not_marked_replicate d.size x)

/-! ## Components -/

/-- A component is what is connected with its first node. -/
theorem mem_componentOf_iff {v w : Nat} (hv : v < d.size) :
    w ∈ componentOf d d.reverse v ↔ d.Connected v w := by
  have hdown := marked_reachable_iff (w := w) hv
  have hup : Marked (d.reverse.reachable v) w ↔ ReflTransGen d.Edge w v := by
    rw [marked_reachable_iff (by simpa using hv), reflTransGen_reverse_iff]
  simp only [componentOf, List.mem_filter, List.mem_range, Bool.and_eq_true]
  constructor
  · rintro ⟨-, hw⟩
    exact ⟨hdown.1 hw.1, hup.1 hw.2⟩
  · intro h
    exact ⟨lt_size_of_reflTransGen h.1 hv, hdown.2 h.1, hup.2 h.2⟩

/-- A list of nodes is the class of the nodes that are connected with one of them. -/
def IsClass (d : Digraph) (c : List Nat) : Prop :=
  ∃ v < d.size, ∀ w, w ∈ c ↔ d.Connected v w

theorem IsClass.mem_iff {c : List Nat} (h : d.IsClass c) {v : Nat} (hv : v ∈ c) (w : Nat) :
    w ∈ c ↔ d.Connected v w := by
  obtain ⟨u, -, hmem⟩ := h
  have huv := (hmem v).1 hv
  rw [hmem w]
  exact ⟨fun huw => huv.symm.trans huw, fun hvw => huv.trans hvw⟩

theorem IsClass.lt_size {c : List Nat} (h : d.IsClass c) {v : Nat} (hv : v ∈ c) : v < d.size := by
  obtain ⟨u, hu, hmem⟩ := h
  exact lt_size_of_reflTransGen ((hmem v).1 hv).1 hu

/-- The classes found so far overlap nowhere, and the nodes in them are taken. -/
structure Collected (d : Digraph) (taken : Array Bool) (found : List (List Nat)) : Prop where
  size_eq : taken.size = d.size
  marked_iff : ∀ v, Marked taken v ↔ v ∈ found.flatten
  nodup : found.flatten.Nodup
  classes : ∀ c ∈ found, d.IsClass c

/-- Marking some nodes marks those and leaves the other marks. -/
theorem marked_foldl_setIfInBounds {members : List Nat} {taken : Array Bool}
    (h : ∀ w ∈ members, w < taken.size) (v : Nat) :
    (members.foldl (fun t w => t.setIfInBounds w true) taken).size = taken.size ∧
      (Marked (members.foldl (fun t w => t.setIfInBounds w true) taken) v ↔
        v ∈ members ∨ Marked taken v) := by
  induction members generalizing taken with
  | nil => simp
  | cons w members ih =>
    have hw : w < taken.size := h w List.mem_cons_self
    have hset : taken.setIfInBounds w true = taken.set w true := by
      simp [Array.setIfInBounds, hw]
    have ih := @ih (taken.set w true)
      (fun x hx => by simpa using h x (List.mem_cons_of_mem w hx))
    rw [List.foldl_cons, hset]
    refine ⟨by simpa using ih.1, ?_⟩
    rw [ih.2, marked_set hw, List.mem_cons]
    constructor
    · rintro (hv | hv | hv)
      · exact Or.inl (Or.inr hv)
      · exact Or.inl (Or.inl hv)
      · exact Or.inr hv
    · rintro ((hv | hv) | hv)
      · exact Or.inr (Or.inl hv)
      · exact Or.inl hv
      · exact Or.inr (Or.inr hv)

/-- The component of a node that is in no class yet can be added to the classes. -/
theorem Collected.cons {taken : Array Bool} {found : List (List Nat)} (h : Collected d taken found)
    {v : Nat} (hv : v < d.size) (htaken : ¬ Marked taken v) :
    Collected d ((componentOf d d.reverse v).foldl (fun t w => t.setIfInBounds w true) taken)
      (componentOf d d.reverse v :: found) := by
  have hclass : d.IsClass (componentOf d d.reverse v) := ⟨v, hv, fun _ => mem_componentOf_iff hv⟩
  have hbound : ∀ w ∈ componentOf d d.reverse v, w < taken.size := by
    intro w hw
    rw [h.size_eq]
    exact hclass.lt_size hw
  have hmarks := marked_foldl_setIfInBounds hbound
  refine ⟨(hmarks v).1.trans h.size_eq, ?_, ?_, ?_⟩
  · intro w
    rw [(hmarks w).2, h.marked_iff, List.flatten_cons, List.mem_append]
  · rw [List.flatten_cons]
    refine List.nodup_append.2 ⟨List.nodup_range.filter _, h.nodup, ?_⟩
    intro w hw x hx
    rintro rfl
    -- a common node would put `v` itself into a class that was found before
    obtain ⟨c, hc, hwc⟩ := List.mem_flatten.1 hx
    have hvc : v ∈ c := ((h.classes c hc).mem_iff hwc v).2 ((mem_componentOf_iff hv).1 hw).symm
    exact htaken ((h.marked_iff v).2 (List.mem_flatten.2 ⟨c, hc, hvc⟩))
  · intro c hc
    rcases List.mem_cons.1 hc with rfl | hc
    · exact hclass
    · exact h.classes c hc

/-- Collecting goes on until all nodes are in classes. -/
theorem Collected.collect {todo : List Nat} {taken : Array Bool} {found : List (List Nat)}
    (h : Collected d taken found) (htodo : ∀ v ∈ todo, v < d.size) :
    (Digraph.collect d d.reverse todo taken found).flatten.Nodup ∧
      (∀ c ∈ Digraph.collect d d.reverse todo taken found, d.IsClass c) ∧
      ∀ v, v ∈ todo ∨ v ∈ found.flatten →
        v ∈ (Digraph.collect d d.reverse todo taken found).flatten := by
  induction todo generalizing taken found with
  | nil =>
    have hperm : found.reverse.flatten.Perm found.flatten := (List.reverse_perm found).flatten
    refine ⟨hperm.nodup_iff.2 h.nodup, ?_, ?_⟩
    · intro c hc
      exact h.classes c (List.mem_reverse.1 hc)
    · intro v hv
      exact hperm.mem_iff.2 (hv.resolve_left List.not_mem_nil)
  | cons v todo ih =>
    have htodo' : ∀ w ∈ todo, w < d.size := fun w hw => htodo w (List.mem_cons_of_mem v hw)
    have hv : v < d.size := htodo v List.mem_cons_self
    unfold Digraph.collect
    split
    · next htaken =>
      obtain ⟨hnodup, hclasses, hmem⟩ := ih h htodo'
      refine ⟨hnodup, hclasses, ?_⟩
      rintro w (hw | hw)
      · rcases List.mem_cons.1 hw with rfl | hw
        · exact hmem w (Or.inr ((h.marked_iff w).1 htaken))
        · exact hmem w (Or.inl hw)
      · exact hmem w (Or.inr hw)
    · next htaken =>
      obtain ⟨hnodup, hclasses, hmem⟩ := ih (h.cons hv htaken) htodo'
      refine ⟨hnodup, hclasses, ?_⟩
      rintro w (hw | hw)
      · rcases List.mem_cons.1 hw with rfl | hw
        · apply hmem w
          rw [List.flatten_cons, List.mem_append]
          exact Or.inr (Or.inl ((mem_componentOf_iff hv).2 (connected_self d w)))
        · exact hmem w (Or.inl hw)
      · apply hmem w
        rw [List.flatten_cons, List.mem_append]
        exact Or.inr (Or.inr hw)

/-- Before anything is collected no node is taken. -/
theorem collected_nil (d : Digraph) : Collected d (Array.replicate d.size false) [] := by
  refine ⟨by simp, ?_, by simp, by simp⟩
  intro v
  simpa using not_marked_replicate d.size v

/-- The components partition the nodes, and two nodes are in the same component exactly if they
are connected. -/
theorem findsComponents_components : FindsComponents components := by
  have hcollect := fun d : Digraph =>
    (collected_nil d).collect (fun v (hv : v ∈ List.range d.size) => List.mem_range.1 hv)
  refine ⟨?_, ?_, ?_⟩
  · intro d
    obtain ⟨hnodup, hclasses, hmem⟩ := hcollect d
    refine (List.perm_ext_iff_of_nodup hnodup List.nodup_range).2 ?_
    intro v
    constructor
    · intro hv
      obtain ⟨c, hc, hvc⟩ := List.mem_flatten.1 hv
      exact List.mem_range.2 ((hclasses c hc).lt_size hvc)
    · intro hv
      exact hmem v (Or.inl hv)
  · intro d c hc
    obtain ⟨v, -, hv⟩ := (hcollect d).2.1 c hc
    exact List.ne_nil_of_mem ((hv v).2 (connected_self d v))
  · intro d c hc v hv w
    exact ((hcollect d).2.1 c hc).mem_iff hv w

end CodeAtlas.Graph.Digraph
