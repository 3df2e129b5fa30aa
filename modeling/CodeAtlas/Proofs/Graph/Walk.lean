import CodeAtlas.Graph.Basic
import Mathlib.Data.List.Chain
import Mathlib.Logic.Relation

/-!
# Edges, walks and cycles

What the reports of the two ways of finding cycles are compared with: the edges of a call graph,
what is reached along them, walks as lists of nodes, and the closed ones among them.

Main results:

- Theorem `edge_iff_mem_calleesOf`: the edges are what the callees of each name say.
- Theorem `ClosedWalk.transGen`: the nodes of a closed walk reach each other.
- Theorem `exists_closedWalk_of_transGen`: what reaches itself is on a closed walk.
- Theorem `isChain_iff_passes`: a walk goes along edges if all that it passes are edges.
-/

namespace CodeAtlas

namespace CallGraph

/-- There is an edge from one name to another. -/
def Edge (g : CallGraph) (a b : String) : Prop := g.containsEdge a b = true

/-- One name is reached from another along edges, of which there may be none. -/
def Reaches (g : CallGraph) : String → String → Prop := Relation.ReflTransGen g.Edge

/-- A name lies on a directed cycle; an edge from the name to itself is one. -/
def OnCycle (g : CallGraph) (a : String) : Prop := Relation.TransGen g.Edge a a

/-- The edges are what the callees of each name say. -/
theorem edge_iff_mem_calleesOf {g : CallGraph} {a b : String} :
    g.Edge a b ↔ b ∈ g.calleesOf a := by
  unfold Edge containsEdge calleesOf
  rw [Graph.Links.mem_targets_iff, Option.isSome_iff_exists]

/-- What has an edge is a caller. -/
theorem mem_callers_of_edge {g : CallGraph} {a b : String} (h : g.Edge a b) : a ∈ g.callers :=
  g.forward.mem_sources_of_mem_targets (edge_iff_mem_calleesOf.1 h)

/-- Reaching another name takes an edge. -/
theorem Reaches.transGen {g : CallGraph} {a b : String} (h : g.Reaches a b) (hne : a ≠ b) :
    Relation.TransGen g.Edge a b := by
  rcases Relation.reflTransGen_iff_eq_or_transGen.1 h with heq | htrans
  · exact absurd heq.symm hne
  · exact htrans

end CallGraph

namespace Graph

/-! ## What a walk passes -/

/-- The pairs of nodes that follow each other in a walk. -/
def passes (walk : List String) : List (String × String) := walk.zip walk.tail

/-- The last pair of nodes of a walk. -/
def closingEdge (walk : List String) : Option (String × String) := (passes walk).getLast?

@[simp]
theorem passes_cons_cons (u v : String) (rest : List String) :
    passes (u :: v :: rest) = (u, v) :: passes (v :: rest) :=
  rfl

/-- A walk goes along a relation if all that it passes is in the relation. -/
theorem isChain_iff_passes {r : String → String → Prop} {walk : List String} :
    walk.IsChain r ↔ ∀ e ∈ passes walk, r e.1 e.2 := by
  induction walk with
  | nil => simp [passes]
  | cons u walk ih =>
    cases walk with
    | nil => simp [passes]
    | cons v rest => simp [ih]

/-- What a walk passes are nodes of the walk. -/
theorem mem_of_mem_passes {walk : List String} {e : String × String} (h : e ∈ passes walk) :
    e.1 ∈ walk ∧ e.2 ∈ walk := by
  have hzip := List.of_mem_zip h
  exact ⟨hzip.1, List.mem_of_mem_tail hzip.2⟩

/-- The closing edge of a walk is the pair of its last two nodes. -/
theorem closingEdge_append_pair (walk : List String) (u v : String) :
    closingEdge (walk ++ [u, v]) = some (u, v) := by
  induction walk with
  | nil => rfl
  | cons w walk ih =>
    cases walk with
    | nil => rfl
    | cons x rest =>
      simp only [closingEdge, List.cons_append, passes_cons_cons, List.getLast?_cons] at ih ⊢
      rw [ih]
      rfl

/-! ## Closed walks -/

/-- A walk along a relation that ends where it started. -/
def ClosedWalk (r : String → String → Prop) (walk : List String) : Prop :=
  ∃ v vs, walk = v :: vs ++ [v] ∧ walk.IsChain r

/-- A closed walk that meets no node twice before it is closed. -/
def SimpleCycle (r : String → String → Prop) (walk : List String) : Prop :=
  ∃ v vs, walk = v :: vs ++ [v] ∧ (v :: vs).Nodup ∧ walk.IsChain r

theorem SimpleCycle.closedWalk {r : String → String → Prop} {walk : List String}
    (h : SimpleCycle r walk) : ClosedWalk r walk := by
  obtain ⟨v, vs, heq, -, hchain⟩ := h
  exact ⟨v, vs, heq, hchain⟩

/-- A closed walk has a node. -/
theorem ClosedWalk.exists_mem {r : String → String → Prop} {walk : List String}
    (h : ClosedWalk r walk) : ∃ v, v ∈ walk := by
  obtain ⟨v, vs, rfl, -⟩ := h
  exact ⟨v, by simp⟩

/-- The nodes of a closed walk reach each other. -/
theorem ClosedWalk.transGen {r : String → String → Prop} {walk : List String}
    (h : ClosedWalk r walk) {a b : String} (ha : a ∈ walk) (hb : b ∈ walk) :
    Relation.TransGen r a b := by
  obtain ⟨v, vs, rfl, hchain⟩ := h
  have hpairs : (v :: vs ++ [v]).Pairwise (Relation.TransGen r) :=
    (hchain.imp (fun _ _ hr => Relation.TransGen.single hr)).pairwise
  -- the first node is also the last one, so everything leads to it and it leads to everything
  have hto : Relation.TransGen r a v := by
    rcases List.mem_append.1 ha with ha | ha
    · exact (List.pairwise_append.1 hpairs).2.2 a ha v (by simp)
    · rw [List.mem_singleton.1 ha]
      exact (List.pairwise_append.1 hpairs).2.2 v (by simp) v (by simp)
  have hfrom : Relation.TransGen r v b := by
    rw [List.cons_append, List.pairwise_cons] at hpairs
    rcases List.mem_cons.1 hb with rfl | hb
    · exact hpairs.1 b (by simp)
    · exact hpairs.1 b hb
  exact hto.trans hfrom

/-- What reaches itself is on a closed walk. -/
theorem exists_closedWalk_of_transGen {r : String → String → Prop} {v : String}
    (h : Relation.TransGen r v v) : ∃ walk, ClosedWalk r walk ∧ v ∈ walk := by
  obtain ⟨w, hvw, hwv⟩ := Relation.TransGen.head'_iff.1 h
  obtain ⟨vs, hchain, hlast⟩ := List.exists_isChain_cons_of_relationReflTransGen hwv
  have hsplit : (w :: vs).dropLast ++ [v] = w :: vs := by
    rw [← hlast]
    exact List.dropLast_append_getLast (List.cons_ne_nil w vs)
  refine ⟨v :: (w :: vs).dropLast ++ [v], ⟨v, (w :: vs).dropLast, rfl, ?_⟩, by simp⟩
  rw [List.cons_append, hsplit]
  exact List.isChain_cons_cons.2 ⟨hvw, hchain⟩

end Graph

end CodeAtlas
