import CodeAtlas.Proofs.Syntax.Address

/-!
# Pre-order

In pre-order a node comes before everything below it, and everything below one child comes before
the next child. On addresses this is the lexicographic order: of two addresses the one comes first
that is above the other, or that turns to an earlier child where the two part.

Main results:

- Theorem `pairwise_addresses`: the addresses of an outline are listed in this order.
- Theorem `yields_iff`: a walk gives the nodes of the trees on its stack and then ends.
- Theorem `walk_visitsOnce`: a walk visits every node of a tree once, in pre-order.
-/

namespace CodeAtlas.Syntax

namespace Address

/-- One address comes before another in pre-order. -/
inductive Before : Address → Address → Prop where
  /-- A node comes before everything below it. -/
  | above {p q : Address} (h : p.IsAbove q) : Before p q
  /-- What is at or below a child comes before the later children of the same node. -/
  | earlier (r : Address) {i j : Nat} (p q : Address) (h : i < j) :
      Before (r ++ i :: p) (r ++ j :: q)

theorem Before.cons (i : Nat) {p q : Address} (h : p.Before q) : Before (i :: p) (i :: q) := by
  cases h with
  | above h => exact Before.above ((cons_isAbove_cons_iff i i p q).2 ⟨rfl, h⟩)
  | earlier r p q h => exact Before.earlier (i :: r) p q h

/-- Pre-order is the lexicographic order of addresses. -/
theorem Before.lt {p q : Address} (h : p.Before q) : p < q := by
  cases h with
  | above h =>
    induction p generalizing q with
    | nil =>
      cases q with
      | nil => exact absurd h (not_isAbove_nil [])
      | cons j q => exact List.nil_lt_cons j q
    | cons i p ih =>
      cases q with
      | nil => exact absurd h (not_isAbove_nil (i :: p))
      | cons j q =>
        obtain ⟨hij, habove⟩ := (cons_isAbove_cons_iff i j p q).1 h
        exact List.cons_lt_cons_iff.2 (Or.inr ⟨hij, ih habove⟩)
  | earlier r p q h =>
    induction r with
    | nil => exact List.cons_lt_cons_iff.2 (Or.inl h)
    | cons k r ih => exact List.cons_lt_cons_iff.2 (Or.inr ⟨rfl, ih⟩)

/-- Of two addresses at most one comes before the other. -/
theorem Before.asymm {p q : Address} (h : p.Before q) : ¬q.Before p :=
  fun h' => List.lt_asymm h.lt h'.lt

/-- The branches of a tree are listed one after the other. -/
theorem pairwise_graftFrom (k : Nat) {branches : List (List Address)}
    (h : ∀ b ∈ branches, b.Pairwise Before) : (graftFrom k branches).Pairwise Before := by
  induction branches generalizing k with
  | nil => exact List.Pairwise.nil
  | cons b rest ih =>
    rw [graftFrom, List.pairwise_append]
    refine ⟨?_, ih (k + 1) (fun c hc => h c (List.mem_cons_of_mem b hc)), ?_⟩
    · rw [List.pairwise_map]
      exact (h b List.mem_cons_self).imp (Before.cons k)
    · intro p hp q hq
      obtain ⟨p, -, rfl⟩ := List.mem_map.1 hp
      obtain ⟨i, q, c, rfl, -, -⟩ := mem_graftFrom_iff.1 hq
      exact Before.earlier [] p q (by omega)

end Address

namespace Node

/-- The addresses of an outline are listed in pre-order. -/
theorem pairwise_addresses (n : Node) : n.addresses.Pairwise Address.Before := by
  induction n using childrenInduction with
  | step n ih =>
    rw [addresses_eq, List.pairwise_cons]
    constructor
    · intro p hp
      refine Address.Before.above ((Address.nil_isAbove_iff p).2 ?_)
      rintro rfl
      exact Address.nil_not_mem_graft _ hp
    · refine Address.pairwise_graftFrom 0 (fun b hb => ?_)
      obtain ⟨c, hc, rfl⟩ := List.mem_map.1 hb
      exact ih c hc

/-- Which of two addresses is listed first is which of them comes before the other. -/
theorem lt_iff_before {n : Node} {i j : Nat} {p q : Address} (hp : n.addresses[i]? = some p)
    (hq : n.addresses[j]? = some q) : i < j ↔ p.Before q := by
  obtain ⟨hi, rfl⟩ := List.getElem?_eq_some_iff.1 hp
  obtain ⟨hj, rfl⟩ := List.getElem?_eq_some_iff.1 hq
  have hpairwise := List.pairwise_iff_getElem.1 n.pairwise_addresses
  constructor
  · exact hpairwise i j hi hj
  · intro hbefore
    by_contra hle
    rcases Nat.lt_or_eq_of_le (Nat.le_of_not_lt hle) with hlt | rfl
    · exact hbefore.asymm (hpairwise j i hj hi hlt)
    · exact hbefore.asymm hbefore

end Node

/-! ## Walks -/

namespace Walk

/-- A walk gives some nodes, one at each step, and then ends. -/
inductive Yields : Walk → List Node → Prop where
  | done {w : Walk} (h : w.next? = none) : Yields w []
  | next {w rest : Walk} {n : Node} {ns : List Node} (h : w.next? = some (n, rest))
      (hrest : Yields rest ns) : Yields w (n :: ns)

/-- A walk gives the nodes of the trees on its stack, the last tree first, and then ends. -/
theorem yields_iff {w : Walk} {ns : List Node} :
    w.Yields ns ↔ ns = Node.preorderAll w.stack.toList.reverse := by
  rw [← toList_eq_preorderAll]
  constructor
  · intro h
    induction h with
    | done h => rw [toList_of_next?_eq_none h]
    | next h _ ih => rw [toList_of_next?_eq_some h, ih]
  · rintro rfl
    fun_induction toList w with
    | case1 w h => exact Yields.done h
    | case2 w n rest h ih => exact Yields.next h ih

end Walk

namespace Node

/-- Some nodes are those of a tree, each of them once and in pre-order, told apart by their
addresses. -/
structure VisitsOnce (n : Node) (visited : List Node) (addresses : List Address) : Prop where
  /-- The visited nodes are those that the addresses lead to. -/
  nodes : List.Forall₂ (fun p m => n.at? p = some m) addresses visited
  /-- No node is visited twice. -/
  nodup : addresses.Nodup
  /-- Every node is visited. -/
  all : ∀ p m, n.at? p = some m → p ∈ addresses
  /-- Parents come before what is below them, and children in order with everything below them. -/
  order : ∀ (i j : Nat) (p q : Address), addresses[i]? = some p → addresses[j]? = some q →
    (i < j ↔ p.Before q)

/-- A walk through a tree ends. It gives the node, then for each child in order what a walk through
the child gives, and so visits every node of the tree once; the descendants are the same nodes
without the first one. -/
theorem walk_visitsOnce (n : Node) :
    (∀ ns, (Walk.ofNode n).Yields ns ↔ ns = n.preorder) ∧ n.walk = n.preorder ∧
      n.preorder = n :: n.children.flatMap preorder ∧ n.descendants = n.preorder.tail ∧
      VisitsOnce n n.walk n.addresses := by
  refine ⟨?_, n.walk_eq_preorder, ?_, ?_, ?_⟩
  · intro ns
    rw [Walk.yields_iff]
    simp [Walk.ofNode, preorderAll]
  · rw [preorder_eq, preorderAll_eq]
  · rw [descendants, walk_eq_preorder]
  · rw [walk_eq_preorder]
    exact ⟨n.forall₂_addresses, n.nodup_addresses, fun p m hm => mem_addresses_iff.2 ⟨m, hm⟩,
      fun i j p q => lt_iff_before⟩

/-- A child with everything below it comes before the next child. -/
example :
    let node (label : String) (line : Nat) (children : List Node) : Node :=
      ⟨.other label, ⟨line, line, 0⟩, children⟩
    (node "a" 1 [node "b" 2 [node "c" 3 []], node "d" 4 []]).walk.map (fun n => n.kind.label) =
      ["a", "b", "c", "d"] := by
  decide +kernel

end Node

end CodeAtlas.Syntax
