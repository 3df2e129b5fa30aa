import CodeAtlas.Proofs.Graph.Links
import CodeAtlas.Proofs.Table

/-!
# The order of links

Links keep the order of their sources apart from the targets. One call more puts a new source behind
the others, and a new target behind the other targets of its source. One call less takes a source or
a target out, or neither, and leaves the others in order.

Main results:

- Theorems `sources_add` and `targets_add`: what is new goes to the end.
- Theorems `sources_remove_sublist` and `targets_remove_sublist`: what is left stays in order.
- Theorem `Tight.remove_of_weight_eq_zero`: without a call there is nothing to forget.
- Theorem `Tight.remove_add`: a call that is recorded and forgotten leaves no trace.
- Theorem `Tight.remove_comm`: calls can be forgotten in either order.
- Theorems `CallGraph.Tight.removeEdge_addEdge` and `CallGraph.Tight.removeEdge_comm`: the same for
  both directions together.
-/

namespace CodeAtlas.Graph.Links

variable {l l' : Links} {a b c d : String}

/-- Links are their order and their edges. -/
theorem ext_of (horder : l.order = l'.order) (hedges : l.edges = l'.edges) : l = l' := by
  cases l
  cases l'
  cases horder
  cases hedges
  rfl

/-- Links without sources have no edges either. -/
theorem eq_empty_of_sources (h : l.sources = []) : l = {} := by
  refine ext_of h (Table.ext (List.eq_nil_iff_forall_not_mem.2 ?_))
  rintro ⟨a, ts⟩ he
  have ha : a ∈ l.sources := l.mem_sources_iff.2 ⟨ts, l.edges.mem_entries_iff.1 he⟩
  rw [h] at ha
  exact absurd ha List.not_mem_nil

/-! ## One call more -/

/-- A new source goes behind all others. -/
theorem sources_add (l : Links) (a b : String) :
    (l.add a b).sources = if a ∈ l.sources then l.sources else l.sources ++ [a] := by
  unfold sources add modify openSource
  split <;> rfl

/-- One call more changes what is kept for its source. -/
theorem edges_add (l : Links) (a b : String) :
    (l.add a b).edges =
      l.edges.alter a (fun ts => some ((ts.getD ∅).alter b increment)) := by
  unfold add modify openSource
  split
  · next ha =>
    obtain ⟨ts, hts⟩ := l.mem_sources_iff.1 ha
    exact Table.alter_congr (by rw [hts]; rfl)
  · next ha =>
    have hnone := l.not_mem_order_iff.1 ha
    calc (l.edges.insert a ∅).alter a (Option.map (fun ts => ts.alter b increment))
        = l.edges.alter a (fun _ => some ((∅ : Table String Nat).alter b increment)) :=
          Table.alter_alter_self rfl
      _ = l.edges.alter a (fun ts => some ((ts.getD ∅).alter b increment)) :=
          Table.alter_congr (by rw [hnone]; rfl)

/-- The targets of a source are the keys of what is kept for it. -/
theorem targets_eq (l : Links) (a : String) : l.targets a = ((l.edges.get? a).getD ∅).keys := by
  unfold targets
  cases l.edges.get? a <;> rfl

/-- A new target goes behind the other targets of its source. -/
theorem targets_add (l : Links) (a b c : String) :
    (l.add a b).targets c =
      if c = a ∧ b ∉ l.targets a then l.targets c ++ [b] else l.targets c := by
  rw [targets_eq, get?_edges_add]
  by_cases hc : c = a
  · subst hc
    rw [if_pos rfl, Option.getD_some, targets_eq l c]
    cases hget : ((l.edges.get? c).getD ∅).get? b with
    | none =>
      have hb := (Table.get?_eq_none_iff _ _).1 hget
      rw [Table.keys_alter_of_new _ hget rfl, if_pos ⟨rfl, hb⟩]
    | some n =>
      have hb := (Table.mem_keys_iff _).2 ⟨n, hget⟩
      rw [Table.keys_alter_of_isSome _ hget rfl, if_neg (fun h => h.2 hb)]
  · rw [if_neg hc, if_neg (fun h => hc h.1), targets_eq]

/-! ## One call less -/

/-- Some targets, unless there are none. -/
def occupied (ts : Table String Nat) : Option (Table String Nat) :=
  if ts.isEmpty then none else some ts

/-- One call less changes what is kept for its source. -/
theorem Tight.edges_remove (h : l.Tight) (a b : String) :
    (l.remove a b).edges =
      l.edges.alter a (fun ts => ts.bind (fun ts => occupied (ts.alter b decrement))) := by
  rcases l.remove_cases a b with ⟨hnone, hremove⟩ | ⟨ts, hts, ⟨hleft, hremove⟩ | ⟨hleft, hremove⟩⟩
  · rw [hremove]
    refine (Table.alter_eq_self ?_).symm
    cases hget : l.edges.get? a with
    | none => rfl
    | some ts =>
      have hb : ts.get? b = none := by simpa [weight?, hget] using hnone
      obtain ⟨⟨d, n, hd⟩, -⟩ := tight_iff.1 h a ts hget
      have hne := List.ne_nil_of_mem (ts.mem_entries_iff.2 hd)
      rw [Option.bind_some, Table.alter_eq_self (by rw [hb]; rfl), occupied, Table.isEmpty,
        List.isEmpty_eq_false_iff.2 hne]
      rfl
  · rw [hremove]
    exact Table.alter_congr (by rw [hts, Option.bind_some, occupied, if_pos hleft])
  · rw [hremove]
    refine Table.alter_congr ?_
    rw [hts, Option.bind_some, occupied, hleft]
    rfl

/-- The sources that are left stay in order. -/
theorem sources_remove_sublist (l : Links) (a b : String) :
    (l.remove a b).sources.Sublist l.sources := by
  rcases l.remove_cases a b with ⟨-, hremove⟩ | ⟨ts, -, ⟨-, hremove⟩ | ⟨-, hremove⟩⟩
  · rw [hremove]
  · rw [hremove]
    exact List.filter_sublist
  · rw [hremove]
    exact List.Sublist.refl _

/-- The targets that are left stay in order. -/
theorem targets_remove_sublist (l : Links) (a b c : String) :
    ((l.remove a b).targets c).Sublist (l.targets c) := by
  rw [targets_eq, targets_eq]
  rcases l.remove_cases a b with ⟨-, hremove⟩ | ⟨ts, hts, ⟨-, hremove⟩ | ⟨-, hremove⟩⟩
  · rw [hremove]
  · rw [hremove]
    by_cases hc : c = a
    · subst hc
      rw [dropSource, Table.get?_erase_self]
      exact List.nil_sublist _
    · rw [dropSource, Table.get?_erase_of_ne _ hc]
  · rw [hremove]
    by_cases hc : c = a
    · subst hc
      rw [modify, Table.get?_alter_self, hts]
      exact Table.keys_alter_sublist rfl
    · rw [modify, Table.get?_alter_of_ne _ _ hc]

/-- Without a call there is nothing to forget. -/
theorem Tight.remove_of_weight_eq_zero (h : l.Tight) (hzero : l.weight a b = 0) :
    l.remove a b = l := by
  rcases l.remove_cases a b with ⟨-, hremove⟩ | ⟨ts, hts, hchanged⟩
  · exact hremove
  · have hb : ts.get? b = none := by
      have hnone : ¬∃ n, l.weight? a b = some n := by
        rw [h.exists_weight?_iff, hzero]
        exact Nat.lt_irrefl 0
      simpa [weight?, hts, Option.eq_none_iff_forall_ne_some] using hnone
    simp [Links.remove, hts, Table.contains, hb]

/-! ## Calls one after the other -/

/-- A call that is recorded and forgotten leaves what is kept for its source. -/
theorem Tight.edges_remove_add (h : l.Tight) (a b : String) :
    ((l.add a b).remove a b).edges = l.edges := by
  rw [(h.add a b).edges_remove, edges_add, Table.alter_alter_self rfl]
  refine Table.alter_eq_self ?_
  have hback : ∀ ts : Table String Nat, (∀ d n, ts.get? d = some n → 0 < n) →
      (ts.alter b increment).alter b decrement = ts := by
    intro ts hpos
    rw [Table.alter_alter_self rfl]
    refine Table.alter_eq_self ?_
    cases hget : ts.get? b with
    | none => rfl
    | some n =>
      have hn := hpos b n hget
      simp only [increment, decrement, Nat.add_sub_cancel]
      rw [if_neg (by omega)]
  cases hget : l.edges.get? a with
  | none =>
    rw [Option.bind_some, Option.getD_none, hback ∅ (by simp)]
    rfl
  | some ts =>
    obtain ⟨⟨d, n, hd⟩, hpos⟩ := tight_iff.1 h a ts hget
    have hne := List.ne_nil_of_mem (ts.mem_entries_iff.2 hd)
    rw [Option.bind_some, Option.getD_some, hback ts hpos, occupied, Table.isEmpty,
      List.isEmpty_eq_false_iff.2 hne]
    rfl

/-- Links with the same edges are the same if their sources are in the order of one list. -/
theorem eq_of_edges {sources : List String} (hnodup : sources.Nodup)
    (hl : l.sources.Sublist sources) (hl' : l'.sources.Sublist sources)
    (hedges : l.edges = l'.edges) : l = l' := by
  refine ext_of ((hnodup.perm_iff_eq_of_sublist hl hl').1 ?_) hedges
  rw [List.perm_ext_iff_of_nodup l.nodup_sources l'.nodup_sources]
  intro c
  rw [l.mem_sources_iff, l'.mem_sources_iff, hedges]

/-- A call that is recorded and forgotten leaves no trace. -/
theorem Tight.remove_add (h : l.Tight) (a b : String) : (l.add a b).remove a b = l := by
  refine eq_of_edges (l.add a b).nodup_sources (sources_remove_sublist _ a b) ?_
    (h.edges_remove_add a b)
  rw [sources_add]
  split
  · exact List.Sublist.refl _
  · exact List.sublist_append_left _ _

/-- Of what is left of some targets it does not matter that there had to be some. -/
theorem bind_occupied (ts : Table String Nat) (b : String) :
    (occupied ts).bind (fun ts => occupied (ts.alter b decrement)) =
      occupied (ts.alter b decrement) := by
  unfold occupied
  split
  · next hempty =>
    have hentries : ts = ∅ := Table.ext (List.isEmpty_iff.1 hempty)
    subst hentries
    rfl
  · rfl

/-- Calls can be taken away from the targets of a source in either order. -/
theorem alter_decrement_comm (ts : Table String Nat) (b d : String) :
    (ts.alter b decrement).alter d decrement = (ts.alter d decrement).alter b decrement := by
  by_cases hb : b = d
  · rw [hb]
  · exact Table.alter_comm hb rfl rfl

/-- What is kept for the sources does not depend on the order in which calls are forgotten. -/
theorem Tight.edges_remove_comm (h : l.Tight) (a b c d : String) :
    ((l.remove a b).remove c d).edges = ((l.remove c d).remove a b).edges := by
  rw [(h.remove a b).edges_remove, h.edges_remove, (h.remove c d).edges_remove, h.edges_remove]
  by_cases ha : a = c
  · subst ha
    rw [Table.alter_alter_self rfl, Table.alter_alter_self rfl]
    refine Table.alter_congr ?_
    cases l.edges.get? a with
    | none => rfl
    | some ts =>
      simp only [Option.bind_some, bind_occupied, alter_decrement_comm ts b d]
  · exact Table.alter_comm ha rfl rfl

/-- Calls can be forgotten in either order. -/
theorem Tight.remove_comm (h : l.Tight) (a b c d : String) :
    (l.remove a b).remove c d = (l.remove c d).remove a b :=
  eq_of_edges l.nodup_sources
    ((sources_remove_sublist _ c d).trans (sources_remove_sublist l a b))
    ((sources_remove_sublist _ a b).trans (sources_remove_sublist l c d))
    (h.edges_remove_comm a b c d)

end CodeAtlas.Graph.Links

/-! ## Both directions -/

namespace CodeAtlas.CallGraph

open CodeAtlas.Graph

variable {g : CallGraph}

/-- In neither direction a source is left without targets or an edge without calls. -/
structure Tight (g : CallGraph) : Prop where
  forward : g.forward.Tight
  backward : g.backward.Tight

/-- Forgetting a call leaves the graph tight. -/
theorem Tight.removeEdge (h : g.Tight) (a b : String) : (g.removeEdge a b).Tight :=
  ⟨h.forward.remove a b, h.backward.remove b a⟩

/-- A call that is recorded and forgotten leaves no trace in the graph. -/
theorem Tight.removeEdge_addEdge (h : g.Tight) (a b : String) :
    (g.addEdge a b).removeEdge a b = g := by
  unfold addEdge CallGraph.removeEdge
  rw [h.forward.remove_add a b, h.backward.remove_add b a]

/-- A graph without callers and callees is empty. -/
theorem eq_empty (hcallers : g.callers = []) (hcallees : g.callees = []) : g = .empty := by
  have hforward := Links.eq_empty_of_sources hcallers
  have hbackward := Links.eq_empty_of_sources hcallees
  cases g
  exact congrArg₂ CallGraph.mk hforward hbackward

/-- Calls of the graph can be forgotten in either order. -/
theorem Tight.removeEdge_comm (h : g.Tight) (a b c d : String) :
    (g.removeEdge a b).removeEdge c d = (g.removeEdge c d).removeEdge a b := by
  unfold CallGraph.removeEdge
  rw [h.forward.remove_comm a b c d, h.backward.remove_comm b a d c]

end CodeAtlas.CallGraph
