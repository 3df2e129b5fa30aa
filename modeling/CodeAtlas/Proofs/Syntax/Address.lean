import CodeAtlas.Proofs.Attempt
import CodeAtlas.Syntax.Node
import Mathlib.Data.List.Infix
import Mathlib.Data.List.Nodup

/-!
# Addresses

An address leads from the root of an outline down to a node: it says which child to take at each
step. Two nodes of an outline may look alike, but no two have the same address.

Main results:

- Theorems `mem_addresses_iff` and `nodup_addresses`: the addresses of an outline lead to its nodes,
  and none is listed twice.
- Theorem `forall₂_addresses`: they are listed in the order in which the nodes are visited.
- Theorem `filter_isAbove_addresses`: the addresses below an address are those of the nodes below
  the node that it leads to.
-/

namespace CodeAtlas.Syntax

/-- Which child to take at each step on the way down. -/
abbrev Address := List Nat

namespace Address

/-- One address is on the way to another, which goes on further down. -/
def IsAbove (p q : Address) : Prop := p <+: q ∧ p ≠ q

instance (p q : Address) : Decidable (p.IsAbove q) :=
  inferInstanceAs (Decidable (p <+: q ∧ p ≠ q))

/-- The addresses on the way to an address, from the root on. -/
def above : Address → List Address
  | [] => []
  | i :: p => [] :: (above p).map (i :: ·)

/-- Addresses in some trees, put together as addresses in one tree that has these as its children
from a number on. -/
def graftFrom (k : Nat) : List (List Address) → List Address
  | [] => []
  | branch :: rest => branch.map (k :: ·) ++ graftFrom (k + 1) rest

/-- Addresses in the children of a tree, put together as addresses in the tree. -/
def graft (branches : List (List Address)) : List Address := graftFrom 0 branches

@[simp]
theorem not_isAbove_nil (p : Address) : ¬p.IsAbove [] := by
  rintro ⟨hleads, hne⟩
  exact hne (List.prefix_nil.1 hleads)

@[simp]
theorem nil_isAbove_iff (q : Address) : IsAbove [] q ↔ q ≠ [] := by
  simp [IsAbove, eq_comm]

@[simp]
theorem cons_isAbove_cons_iff (i j : Nat) (p q : Address) :
    IsAbove (i :: p) (j :: q) ↔ i = j ∧ p.IsAbove q := by
  simp only [IsAbove, List.cons_prefix_cons, ne_eq, List.cons.injEq, not_and]
  constructor
  · rintro ⟨⟨hij, hleads⟩, hne⟩
    exact ⟨hij, hleads, hne hij⟩
  · rintro ⟨hij, hleads, hne⟩
    exact ⟨⟨hij, hleads⟩, fun _ => hne⟩

/-- The addresses on the way are those that are above. -/
theorem mem_above_iff {p q : Address} : p ∈ above q ↔ p.IsAbove q := by
  induction q generalizing p with
  | nil => simp [above]
  | cons j q ih =>
    cases p with
    | nil => simp [above]
    | cons i p => simp [above, ih, eq_comm (a := j), and_comm]

/-- No address is twice on the way. -/
theorem nodup_above (q : Address) : (above q).Nodup := by
  induction q with
  | nil => exact List.nodup_nil
  | cons j q ih =>
    rw [above, List.nodup_cons]
    exact ⟨by simp, ih.map List.cons_injective⟩

/-! ## Trees put together -/

/-- An address in the whole leads into one of the branches. -/
theorem mem_graftFrom_iff {k : Nat} {branches : List (List Address)} {p : Address} :
    p ∈ graftFrom k branches ↔ ∃ i q b, p = (k + i) :: q ∧ branches[i]? = some b ∧ q ∈ b := by
  induction branches generalizing k with
  | nil => simp [graftFrom]
  | cons d rest ih =>
    rw [graftFrom, List.mem_append, List.mem_map, ih]
    constructor
    · rintro (⟨q, hq, rfl⟩ | ⟨i, q, b, rfl, hb, hq⟩)
      · exact ⟨0, q, d, rfl, rfl, hq⟩
      · exact ⟨i + 1, q, b, by rw [Nat.add_right_comm, Nat.add_assoc], hb, hq⟩
    · rintro ⟨_ | i, q, b, rfl, hb, hq⟩
      · exact Or.inl ⟨q, Option.some.inj hb ▸ hq, rfl⟩
      · exact Or.inr ⟨i, q, b, by rw [Nat.add_right_comm, Nat.add_assoc], hb, hq⟩

theorem mem_graft_iff {branches : List (List Address)} {p : Address} :
    p ∈ graft branches ↔ ∃ i q b, p = i :: q ∧ branches[i]? = some b ∧ q ∈ b := by
  simp [graft, mem_graftFrom_iff]

/-- The root is in none of the branches. -/
theorem nil_not_mem_graft (branches : List (List Address)) : [] ∉ graft branches := by
  intro h
  obtain ⟨i, q, b, heq, -, -⟩ := mem_graft_iff.1 h
  exact List.cons_ne_nil i q heq.symm

theorem graftFrom_append (k : Nat) (first second : List (List Address)) :
    graftFrom k (first ++ second) =
      graftFrom k first ++ graftFrom (k + first.length) second := by
  induction first generalizing k with
  | nil => rfl
  | cons b rest ih =>
    rw [List.cons_append, graftFrom, graftFrom, ih, List.append_assoc, List.length_cons,
      Nat.add_right_comm, Nat.add_assoc]

/-- Without repetitions in the branches there is none in the whole. -/
theorem nodup_graftFrom (k : Nat) {branches : List (List Address)}
    (h : ∀ b ∈ branches, b.Nodup) : (graftFrom k branches).Nodup := by
  induction branches generalizing k with
  | nil => exact List.nodup_nil
  | cons b rest ih =>
    rw [graftFrom, List.nodup_append]
    refine ⟨(h b List.mem_cons_self).map List.cons_injective,
      ih (k + 1) (fun c hc => h c (List.mem_cons_of_mem _ hc)), ?_⟩
    -- the later branches hang at later children
    rintro _ hp _ hq rfl
    obtain ⟨q, -, rfl⟩ := List.mem_map.1 hp
    obtain ⟨i, q', c, heq, -, -⟩ := mem_graftFrom_iff.1 hq
    have hnumber := (List.cons.inj heq).1
    omega

theorem nodup_graft {branches : List (List Address)} (h : ∀ b ∈ branches, b.Nodup) :
    (graft branches).Nodup :=
  nodup_graftFrom 0 h

variable {α β : Type}

/-- What stands side by side with the branches stands side by side with the whole. -/
theorem forall₂_graftFrom (k : Nat) {r : Address → β → Prop} {f : α → List Address}
    {g : α → List β} {children : List α}
    (h : ∀ i c, children[i]? = some c →
      List.Forall₂ (fun q x => r ((k + i) :: q) x) (f c) (g c)) :
    List.Forall₂ r (graftFrom k (children.map f)) (children.flatMap g) := by
  induction children generalizing k with
  | nil => exact List.Forall₂.nil
  | cons c rest ih =>
    rw [List.map_cons, graftFrom, List.flatMap_cons]
    refine List.rel_append ?_ (ih (k + 1) (fun i d hd => ?_))
    · exact List.forall₂_map_left_iff.2 (h 0 c rfl)
    · rw [Nat.add_right_comm]
      exact h (i + 1) d hd

theorem forall₂_graft {r : Address → β → Prop} {f : α → List Address} {g : α → List β}
    {children : List α}
    (h : ∀ i c, children[i]? = some c → List.Forall₂ (fun q x => r (i :: q) x) (f c) (g c)) :
    List.Forall₂ r (graft (children.map f)) (children.flatMap g) :=
  forall₂_graftFrom 0 (by simpa only [Nat.zero_add] using h)

/-- The addresses in a branch stand together, behind those in the branches before it. -/
theorem graft_split {branches : List (List Address)} {i : Nat} {b : List Address}
    (hb : branches[i]? = some b) :
    graft branches = graftFrom 0 (branches.take i) ++
      (b.map (i :: ·) ++ graftFrom (i + 1) (branches.drop (i + 1))) := by
  obtain ⟨hi, rfl⟩ := List.getElem?_eq_some_iff.1 hb
  have hsplit : branches = branches.take i ++ branches[i] :: branches.drop (i + 1) := by
    rw [← List.drop_eq_getElem_cons hi, List.take_append_drop]
  have hlength : (branches.take i).length = i := List.length_take_of_le (Nat.le_of_lt hi)
  conv_lhs => rw [graft, hsplit, graftFrom_append, hlength, Nat.zero_add, graftFrom]

/-- The branches before one hang at earlier children. -/
theorem not_isAbove_of_mem_earlier {branches : List (List Address)} {i : Nat} {p q : Address}
    (hq : q ∈ graftFrom 0 (branches.take i)) : ¬IsAbove (i :: p) q := by
  obtain ⟨j, q, c, rfl, hc, -⟩ := mem_graftFrom_iff.1 hq
  intro habove
  have hj := (List.getElem?_eq_some_iff.1 hc).1
  have hij := ((cons_isAbove_cons_iff _ _ _ _).1 habove).1
  rw [List.length_take] at hj
  omega

/-- The branches behind one hang at later children. -/
theorem not_isAbove_of_mem_later {branches : List (List Address)} {i : Nat} {p q : Address}
    (hq : q ∈ graftFrom (i + 1) branches) : ¬IsAbove (i :: p) q := by
  obtain ⟨j, q, c, rfl, -, -⟩ := mem_graftFrom_iff.1 hq
  intro habove
  have hij := ((cons_isAbove_cons_iff _ _ _ _).1 habove).1
  omega

/-- What is below an address in the whole is what is below the rest of it in its branch. -/
theorem filter_isAbove_graft {branches : List (List Address)} {i : Nat} {b : List Address}
    (hb : branches[i]? = some b) (p : Address) :
    (graft branches).filter (IsAbove (i :: p)) = (b.filter (IsAbove p)).map (i :: ·) := by
  have hbefore : (graftFrom 0 (branches.take i)).filter (IsAbove (i :: p)) = [] :=
    List.filter_eq_nil_iff.2 (fun q hq habove =>
      not_isAbove_of_mem_earlier hq (of_decide_eq_true habove))
  have hbehind : (graftFrom (i + 1) (branches.drop (i + 1))).filter (IsAbove (i :: p)) = [] :=
    List.filter_eq_nil_iff.2 (fun q hq habove =>
      not_isAbove_of_mem_later hq (of_decide_eq_true habove))
  have hbranch : (b.map (i :: ·)).filter (IsAbove (i :: p)) =
      (b.filter (IsAbove p)).map (i :: ·) := by
    rw [List.filter_map]
    simp [Function.comp_def]
  rw [graft_split hb, List.filter_append, List.filter_append, hbefore, hbehind, hbranch,
    List.nil_append, List.append_nil]

end Address

namespace Node

/-! ## The nodes of an outline by their addresses -/

/-- The node that an address leads to. -/
def at? (n : Node) : Address → Option Node
  | [] => some n
  | i :: p => n.children[i]?.bind (fun c => c.at? p)

mutual

/-- The addresses of the nodes of a tree in the order in which they are visited. -/
def addresses : Node → List Address
  | ⟨_, _, children⟩ => [] :: Address.graft (addressesAll children)

/-- The addresses of the nodes of each of some trees. -/
def addressesAll : List Node → List (List Address)
  | [] => []
  | n :: rest => addresses n :: addressesAll rest

end

theorem addressesAll_eq (ns : List Node) : addressesAll ns = ns.map addresses := by
  induction ns with
  | nil => rfl
  | cons n rest ih => rw [addressesAll, ih, List.map_cons]

theorem addresses_eq (n : Node) :
    n.addresses = [] :: Address.graft (n.children.map addresses) := by
  cases n
  rw [addresses, addressesAll_eq]

theorem preorderAll_eq (ns : List Node) : preorderAll ns = ns.flatMap preorder := by
  induction ns with
  | nil => simp [preorderAll]
  | cons n rest ih => rw [preorderAll, ih, List.flatMap_cons]

@[simp]
theorem at?_nil (n : Node) : n.at? [] = some n :=
  rfl

theorem at?_cons_eq_some_iff {n m : Node} {i : Nat} {p : Address} :
    n.at? (i :: p) = some m ↔ ∃ c, n.children[i]? = some c ∧ c.at? p = some m := by
  rw [at?, Option.bind_eq_some_iff]

theorem at?_append (n : Node) (p q : Address) :
    n.at? (p ++ q) = (n.at? p).bind (fun m => m.at? q) := by
  induction p generalizing n with
  | nil => rfl
  | cons i p ih =>
    rw [List.cons_append, at?, at?]
    cases n.children[i]? with
    | none => rfl
    | some c => exact ih c

mutual

/-- What a tree has whenever its children have it, every tree has. -/
theorem childrenInduction {motive : Node → Prop}
    (step : ∀ n : Node, (∀ c ∈ n.children, motive c) → motive n) : ∀ n : Node, motive n
  | ⟨kind, span, children⟩ => step ⟨kind, span, children⟩ (forall_of_children step children)

/-- The same for each of some trees. -/
theorem forall_of_children {motive : Node → Prop}
    (step : ∀ n : Node, (∀ c ∈ n.children, motive c) → motive n) :
    ∀ ns : List Node, ∀ n ∈ ns, motive n
  | [], _, h => absurd h List.not_mem_nil
  | n :: rest, m, h =>
    match List.mem_cons.1 h with
    | .inl heq => heq ▸ childrenInduction step n
    | .inr hrest => forall_of_children step rest m hrest

end

/-- The addresses of a tree are those that lead somewhere. -/
theorem mem_addresses_iff {n : Node} {p : Address} :
    p ∈ n.addresses ↔ ∃ m, n.at? p = some m := by
  induction n using childrenInduction generalizing p with
  | step n ih =>
    rw [addresses_eq, List.mem_cons, Address.mem_graft_iff]
    cases p with
    | nil => simp
    | cons i p =>
      simp only [reduceCtorEq, false_or, at?_cons_eq_some_iff, List.cons.injEq,
        List.getElem?_map, Option.map_eq_some_iff]
      constructor
      · rintro ⟨_, _, _, ⟨rfl, rfl⟩, ⟨c, hc, rfl⟩, hp⟩
        obtain ⟨m, hm⟩ := (ih c (List.mem_of_getElem? hc)).1 hp
        exact ⟨m, c, hc, hm⟩
      · rintro ⟨m, c, hc, hm⟩
        exact ⟨i, p, _, ⟨rfl, rfl⟩, ⟨c, hc, rfl⟩, (ih c (List.mem_of_getElem? hc)).2 ⟨m, hm⟩⟩

/-- No address is listed twice. -/
theorem nodup_addresses (n : Node) : n.addresses.Nodup := by
  induction n using childrenInduction with
  | step n ih =>
    rw [addresses_eq, List.nodup_cons]
    refine ⟨Address.nil_not_mem_graft _, Address.nodup_graft (fun b hb => ?_)⟩
    obtain ⟨c, hc, rfl⟩ := List.mem_map.1 hb
    exact ih c hc

/-- The addresses are listed in the order in which the nodes are visited. -/
theorem forall₂_addresses (n : Node) :
    List.Forall₂ (fun p m => n.at? p = some m) n.addresses n.preorder := by
  induction n using childrenInduction with
  | step n ih =>
    rw [addresses_eq, preorder_eq, preorderAll_eq]
    refine List.Forall₂.cons (at?_nil n) (Address.forall₂_graft (fun i c hc => ?_))
    refine (ih c (List.mem_of_getElem? hc)).imp (fun p m hm => ?_)
    exact at?_cons_eq_some_iff.2 ⟨c, hc, hm⟩

/-- The addresses below an address are those of the node that it leads to, but for its own. -/
theorem filter_isAbove_addresses {n m : Node} {p : Address} (h : n.at? p = some m) :
    n.addresses.filter (Address.IsAbove p) = m.addresses.tail.map (p ++ ·) := by
  induction p generalizing n with
  | nil =>
    obtain rfl : n = m := Option.some.inj h
    rw [addresses_eq, List.filter_cons_of_neg (by simp), List.tail_cons]
    refine (List.filter_eq_self.2 (fun q hq => ?_)).trans (List.map_id _).symm
    rw [decide_eq_true_iff, Address.nil_isAbove_iff]
    rintro rfl
    exact Address.nil_not_mem_graft _ hq
  | cons i p ih =>
    obtain ⟨c, hc, hm⟩ := at?_cons_eq_some_iff.1 h
    have hbranch : (n.children.map addresses)[i]? = some c.addresses := by
      rw [List.getElem?_map, hc, Option.map_some]
    rw [addresses_eq, List.filter_cons_of_neg (by simp), Address.filter_isAbove_graft hbranch,
      ih hm, List.map_map]
    rfl

/-- The nodes below a node have the addresses below its own. -/
theorem forall₂_isAbove {n m : Node} {p : Address} (h : n.at? p = some m) :
    List.Forall₂ (fun q k => n.at? q = some k) (n.addresses.filter (Address.IsAbove p))
      m.descendants := by
  rw [filter_isAbove_addresses h, descendants_eq, List.forall₂_map_left_iff]
  have hall := forall₂_addresses m
  rw [addresses_eq, preorder_eq, List.forall₂_cons] at hall
  rw [addresses_eq, List.tail_cons]
  refine hall.2.imp (fun q k hk => ?_)
  rw [at?_append, h, Option.bind_some, hk]

end Node

end CodeAtlas.Syntax
