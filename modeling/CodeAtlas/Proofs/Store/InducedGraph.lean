import CodeAtlas.Proofs.Graph.Links
import CodeAtlas.Proofs.Store.CallHistory

/-!
# The call graph of a store

A store of calls keeps a call graph next to the calls: two directions, each with its own order of
sources and its own numbers of calls. Whatever is saved, deleted and cleared, in whatever order,
the graph is the one that the stored calls induce.

Main results:

- Theorem `Consistent.apply`: every operation keeps both directions in step with the calls.
- Theorem `inducedBy_of_counts`: such a graph answers everything as the calls say.
- Theorem `inducedBy_run`: so the graph is induced by the stored calls after every history.
-/

namespace CodeAtlas.Store

open CodeAtlas.Analysis
open CodeAtlas.Graph (Links)

/-- The names that a call connects, caller first. -/
def callPair (c : Call) : String × String := (c.caller, c.callee)

/-- The graph is exactly the one that some calls induce. -/
structure InducedBy (calls : List Call) (g : CallGraph) : Prop where
  /-- The weight of an edge is the number of its calls. -/
  edgeWeight_eq : ∀ a b,
    g.edgeWeight a b = calls.countP (fun c => decide (c.caller = a ∧ c.callee = b))
  /-- The callees of a name are what its calls call. -/
  mem_calleesOf_iff : ∀ a b, b ∈ g.calleesOf a ↔ ∃ c ∈ calls, c.caller = a ∧ c.callee = b
  nodup_calleesOf : ∀ a, (g.calleesOf a).Nodup
  /-- The callers of a name are what calls it. -/
  mem_callersOf_iff : ∀ a b, a ∈ g.callersOf b ↔ ∃ c ∈ calls, c.caller = a ∧ c.callee = b
  nodup_callersOf : ∀ b, (g.callersOf b).Nodup
  /-- The snapshots of the two directions are transposes of each other. -/
  snapshot_iff : ∀ a b, (∃ bs, (a, bs) ∈ g.forward.snapshot ∧ b ∈ bs) ↔
    ∃ as, (b, as) ∈ g.backward.snapshot ∧ a ∈ as
  /-- The callers are the callers of calls. -/
  mem_callers_iff : ∀ a, a ∈ g.callers ↔ ∃ c ∈ calls, c.caller = a
  nodup_callers : g.callers.Nodup
  /-- The callees are the callees of calls. -/
  mem_callees_iff : ∀ b, b ∈ g.callees ↔ ∃ c ∈ calls, c.callee = b
  nodup_callees : g.callees.Nodup
  /-- The number of edges is the number of different pairs of names. -/
  edgeCount_eq : g.edgeCount = (calls.map callPair).toFinset.card
  /-- No name is left without targets and no edge without calls, in neither direction. -/
  tight : g.forward.Tight ∧ g.backward.Tight

/-- The pairs of some calls are the pairs of their callers and callees. -/
theorem mem_map_callPair_iff {calls : List Call} {a b : String} :
    (a, b) ∈ calls.map callPair ↔ ∃ c ∈ calls, c.caller = a ∧ c.callee = b := by
  simp [callPair]

/-- Turned round, the pairs of some calls are the pairs of their callees and callers. -/
theorem mem_map_swap_callPair_iff {calls : List Call} {a b : String} :
    (b, a) ∈ calls.map (Prod.swap ∘ callPair) ↔ ∃ c ∈ calls, c.caller = a ∧ c.callee = b := by
  simp [callPair, and_comm]

/-- The number of the calls from one name to another is the number of their pairs. -/
theorem count_map_callPair (calls : List Call) (a b : String) :
    (calls.map callPair).count (a, b) =
      calls.countP (fun c => decide (c.caller = a ∧ c.callee = b)) := by
  rw [List.count, List.countP_map]
  apply List.countP_congr
  intro c _
  simp [callPair]

/-- What the snapshots of tight links list are the edges. -/
theorem exists_snapshot_iff {l : Links} {pairs : List (String × String)} (h : l.Counts pairs)
    {a b : String} : (∃ bs, (a, bs) ∈ l.snapshot ∧ b ∈ bs) ↔ (a, b) ∈ pairs := by
  constructor
  · rintro ⟨bs, hbs, hb⟩
    rw [← (Links.mem_snapshot_iff.1 hbs).2] at hb
    exact h.mem_targets_iff.1 hb
  · intro hab
    exact ⟨l.targets a, Links.mem_snapshot_iff.2 ⟨h.mem_sources_iff.2 ⟨b, hab⟩, rfl⟩,
      h.mem_targets_iff.2 hab⟩

/-- A graph whose two directions stand for the pairs of some calls is induced by them. -/
theorem inducedBy_of_counts {calls : List Call} {g : CallGraph}
    (hforward : g.forward.Counts (calls.map callPair))
    (hbackward : g.backward.Counts (calls.map (Prod.swap ∘ callPair))) : InducedBy calls g where
  edgeWeight_eq a b := (hforward.weight_eq a b).trans (count_map_callPair calls a b)
  mem_calleesOf_iff _ _ := hforward.mem_targets_iff.trans mem_map_callPair_iff
  nodup_calleesOf := g.forward.nodup_targets
  mem_callersOf_iff _ _ := hbackward.mem_targets_iff.trans mem_map_swap_callPair_iff
  nodup_callersOf := g.backward.nodup_targets
  snapshot_iff a b := by
    rw [exists_snapshot_iff hforward, exists_snapshot_iff hbackward, mem_map_callPair_iff,
      mem_map_swap_callPair_iff]
  mem_callers_iff a := by
    rw [CallGraph.callers, hforward.mem_sources_iff]
    simp [callPair]
  nodup_callers := g.forward.nodup_sources
  mem_callees_iff b := by
    rw [CallGraph.callees, hbackward.mem_sources_iff]
    simp [callPair]
  nodup_callees := g.backward.nodup_sources
  edgeCount_eq := hforward.edgeCount_eq
  tight := ⟨hforward.tight, hbackward.tight⟩

namespace CallStore

/-- Both directions of the graph are in step with the stored calls. -/
structure Consistent (s : CallStore) : Prop where
  shelved : Shelved s.calls s.nextNumber
  forward : s.graph.forward.Counts (s.getAll.map callPair)
  backward : s.graph.backward.Counts (s.getAll.map (Prod.swap ∘ callPair))

/-- Without calls and without links both directions are in step. -/
theorem consistent_of_no_calls {s : CallStore} (hcalls : s.calls = ∅) (hgraph : s.graph = {}) :
    s.Consistent := by
  have hall : s.getAll = [] := by
    rw [getAll, hcalls]
    rfl
  refine ⟨hcalls ▸ shelved_empty _, ?_, ?_⟩
  · rw [hall, hgraph]
    exact Links.counts_nil
  · rw [hall, hgraph]
    exact Links.counts_nil

/-- Saving a call keeps both directions in step. -/
theorem Consistent.save {s : CallStore} (h : s.Consistent) (c : Call) :
    (s.save c).1.Consistent := by
  have hperm : (c :: s.getAll).Perm (s.save c).1.getAll := by
    rw [getAll_save h.shelved]
    exact (List.perm_append_singleton c s.getAll).symm
  exact ⟨h.shelved.insert_next c, (h.forward.add c.caller c.callee).perm (hperm.map callPair),
    (h.backward.add c.callee c.caller).perm (hperm.map (Prod.swap ∘ callPair))⟩

/-- Deleting a call keeps both directions in step. -/
theorem Consistent.delete {s : CallStore} (h : s.Consistent) {i : CallHandle}
    {deleted : CallStore × Call} (hdelete : s.delete i = .ok deleted) : deleted.1.Consistent := by
  have hperm := getAll_delete hdelete
  have hforward := h.forward.perm (hperm.map callPair)
  have hbackward := h.backward.perm (hperm.map (Prod.swap ∘ callPair))
  obtain ⟨c, -, rfl⟩ := delete_eq_ok_iff.1 hdelete
  exact ⟨h.shelved.erase i, hforward.remove, hbackward.remove⟩

/-- Every operation keeps both directions of the graph in step with the calls. -/
theorem Consistent.apply {s : CallStore} (h : s.Consistent) (op : Operation) :
    (s.apply op).Consistent := by
  cases op with
  | save c => exact h.save c
  | delete i =>
    simp only [CallStore.apply]
    split
    · next deleted hdelete => exact h.delete hdelete
    · exact h
  | clear => exact consistent_of_no_calls rfl rfl
  | setDetector detector => exact ⟨h.shelved, h.forward, h.backward⟩

/-- After every history both directions of the graph are in step with the calls. -/
theorem consistent_run (ops : List Operation) : (run ops).Consistent :=
  run_induction (consistent_of_no_calls rfl rfl) (fun _ op h => h.apply op) ops

/-- After every history the graph is the one that the stored calls induce. -/
theorem inducedBy_run (ops : List Operation) : InducedBy (run ops).getAll (run ops).graph :=
  inducedBy_of_counts (consistent_run ops).forward (consistent_run ops).backward

end CallStore

end CodeAtlas.Store
