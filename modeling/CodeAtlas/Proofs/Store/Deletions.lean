import CodeAtlas.Proofs.Store.Undo

/-!
# Deletions in any order

Some calls are deleted, one after the other. Which of them goes first decides when an edge of the
graph loses its last call, when a source loses its last target and when a bucket loses its last
handle; but not what is left in the end. Two deletions can change places, so all orders lead to the
same store, and there everything that is left stands in the order in which it stood before.

Main results:

- Theorem `dropped_comm`: two deletions can change places.
- Theorem `deleteAll_perm`: deletions in another order lead to the same store.
- Theorem `Sound.thinned`: what is left is what was there without the deleted calls.
- Theorem `deletions_commute`: so it is after every history.
-/

namespace CodeAtlas.Store.CallStore

open CodeAtlas.Analysis

variable {s t u : CallStore} {i j : CallHandle} {gone : List CallHandle}

/-! ## One deletion -/

/-- Two calls can be dropped in either order. -/
theorem dropped_comm (h : s.graph.Tight) (i j : CallHandle) (c d : Call) :
    (s.dropped i c).dropped j d = (s.dropped j d).dropped i c := by
  simp only [dropped, s.calls.erase_comm i j, s.byCaller.remove_comm c.caller d.caller i j,
    s.byCallee.remove_comm c.callee d.callee i j, s.byKind.remove_comm c.kind d.kind i j,
    s.byFile.remove_comm c.filePath d.filePath i j,
    h.removeEdge_comm c.caller c.callee d.caller d.callee]

/-- Indices and graph are in step with the calls, and nothing empty is left behind in them. -/
structure Sound (s : CallStore) : Prop where
  inStep : s.shelf.InStep
  consistent : s.Consistent

/-- After every history the store is sound. -/
theorem sound_run (ops : List Operation) : (run ops).Sound := ⟨inStep_run ops, consistent_run ops⟩

/-- Dropping a stored call leaves the store sound. -/
theorem Sound.dropped (h : s.Sound) {c : Call} (hc : s.calls.get? i = some c) :
    (s.dropped i c).Sound where
  inStep := by
    rw [shelf_dropped]
    exact h.inStep.drop hc
  consistent := h.consistent.delete (delete_eq_ok_iff.2 ⟨c, hc, rfl⟩)

/-! ## One after the other -/

/-- The store without the calls of some handles, which are deleted one after the other. -/
def deleteAll (s : CallStore) (gone : List CallHandle) : Except StoreError CallStore :=
  gone.foldlM (fun s i => (s.delete i).map Prod.fst) s

/-- The first deletion has to succeed, and the others after it. -/
theorem deleteAll_cons_eq_ok_iff :
    s.deleteAll (i :: gone) = .ok t ↔
      ∃ c, s.calls.get? i = some c ∧ (s.dropped i c).deleteAll gone = .ok t := by
  unfold deleteAll
  rw [List.foldlM_cons]
  cases hdelete : s.delete i with
  | error e =>
    have hnone := (delete_eq_error_iff.1 hdelete).1
    simp [hnone, Except.map, bind, Except.bind]
  | ok deleted =>
    obtain ⟨c, hc, rfl⟩ := delete_eq_ok_iff.1 hdelete
    simp [hc, Except.map, bind, Except.bind]

/-- The calls of different handles can be deleted one after the other. -/
theorem exists_deleteAll (hnodup : gone.Nodup) (hstored : ∀ i ∈ gone, i ∈ s.calls.keys) :
    ∃ t, s.deleteAll gone = .ok t := by
  induction gone generalizing s with
  | nil => exact ⟨s, rfl⟩
  | cons i gone ih =>
    obtain ⟨hi, hnodup⟩ := List.nodup_cons.1 hnodup
    obtain ⟨c, hc⟩ := (Table.mem_keys_iff _).1 (hstored i List.mem_cons_self)
    have hleft : ∀ j ∈ gone, j ∈ (s.dropped i c).calls.keys := by
      intro j hj
      obtain ⟨d, hd⟩ := (Table.mem_keys_iff _).1 (hstored j (List.mem_cons_of_mem i hj))
      have hne : j ≠ i := fun heq => hi (heq ▸ hj)
      exact (Table.mem_keys_iff _).2 ⟨d, (s.calls.get?_erase_of_ne hne).trans hd⟩
    obtain ⟨t, ht⟩ := ih hnodup hleft
    exact ⟨t, deleteAll_cons_eq_ok_iff.2 ⟨c, hc, ht⟩⟩

/-- Deletions in another order lead to the same store. -/
theorem deleteAll_perm (h : s.graph.Tight) {other : List CallHandle} (hperm : gone.Perm other)
    (hok : s.deleteAll gone = .ok t) : s.deleteAll other = .ok t := by
  induction hperm generalizing s with
  | nil => exact hok
  | cons i _ ih =>
    obtain ⟨c, hc, hrest⟩ := deleteAll_cons_eq_ok_iff.1 hok
    exact deleteAll_cons_eq_ok_iff.2 ⟨c, hc, ih (h.removeEdge c.caller c.callee) hrest⟩
  | swap i j rest =>
    obtain ⟨c, hc, hok⟩ := deleteAll_cons_eq_ok_iff.1 hok
    obtain ⟨d, hd, hrest⟩ := deleteAll_cons_eq_ok_iff.1 hok
    have hne : i ≠ j := by
      rintro rfl
      rw [CallStore.dropped, Table.get?_erase_self] at hd
      cases hd
    have hfirst : s.calls.get? i = some d := (s.calls.get?_erase_of_ne hne).symm.trans hd
    have hsecond : (s.dropped i d).calls.get? j = some c :=
      (s.calls.get?_erase_of_ne hne.symm).trans hc
    rw [dropped_comm h j i c d] at hrest
    exact deleteAll_cons_eq_ok_iff.2 ⟨d, hfirst, deleteAll_cons_eq_ok_iff.2 ⟨c, hsecond, hrest⟩⟩
  | trans _ _ ihleft ihright => exact ihright h (ihleft h hok)

/-! ## What is left -/

/-- One store keeps the orders of another: of the buckets of each index, and of the names in each
direction of the graph. -/
structure KeepsOrder (s t : CallStore) : Prop where
  byCaller : t.byCaller.buckets.keys.Sublist s.byCaller.buckets.keys
  byCallee : t.byCallee.buckets.keys.Sublist s.byCallee.buckets.keys
  byKind : t.byKind.buckets.keys.Sublist s.byKind.buckets.keys
  byFile : t.byFile.buckets.keys.Sublist s.byFile.buckets.keys
  callers : t.graph.callers.Sublist s.graph.callers
  calleesOf : ∀ a, (t.graph.calleesOf a).Sublist (s.graph.calleesOf a)
  callees : t.graph.callees.Sublist s.graph.callees
  callersOf : ∀ b, (t.graph.callersOf b).Sublist (s.graph.callersOf b)

theorem KeepsOrder.refl (s : CallStore) : s.KeepsOrder s where
  byCaller := List.Sublist.refl _
  byCallee := List.Sublist.refl _
  byKind := List.Sublist.refl _
  byFile := List.Sublist.refl _
  callers := List.Sublist.refl _
  calleesOf _ := List.Sublist.refl _
  callees := List.Sublist.refl _
  callersOf _ := List.Sublist.refl _

theorem KeepsOrder.trans (h : s.KeepsOrder t) (h' : t.KeepsOrder u) : s.KeepsOrder u where
  byCaller := h'.byCaller.trans h.byCaller
  byCallee := h'.byCallee.trans h.byCallee
  byKind := h'.byKind.trans h.byKind
  byFile := h'.byFile.trans h.byFile
  callers := h'.callers.trans h.callers
  calleesOf a := (h'.calleesOf a).trans (h.calleesOf a)
  callees := h'.callees.trans h.callees
  callersOf b := (h'.callersOf b).trans (h.callersOf b)

/-- Dropping a call keeps all orders. -/
theorem keepsOrder_dropped (s : CallStore) (i : CallHandle) (c : Call) :
    s.KeepsOrder (s.dropped i c) where
  byCaller := s.byCaller.keys_remove_sublist c.caller i
  byCallee := s.byCallee.keys_remove_sublist c.callee i
  byKind := s.byKind.keys_remove_sublist c.kind i
  byFile := s.byFile.keys_remove_sublist c.filePath i
  callers := s.graph.forward.sources_remove_sublist c.caller c.callee
  calleesOf := s.graph.forward.targets_remove_sublist c.caller c.callee
  callees := s.graph.backward.sources_remove_sublist c.callee c.caller
  callersOf := s.graph.backward.targets_remove_sublist c.callee c.caller

/-- No bucket of the store is empty. -/
structure Compact (s : CallStore) : Prop where
  byCaller : s.byCaller.Tight
  byCallee : s.byCallee.Tight
  byKind : s.byKind.Tight
  byFile : s.byFile.Tight

/-- One store is another one without the calls of some handles. -/
structure Thinned (s t : CallStore) (gone : List CallHandle) : Prop where
  /-- The other calls are left, in the same order and under the same handles. -/
  entries_eq : t.calls.entries = s.calls.entries.filter (fun e => e.1 ∉ gone)
  /-- Each bucket has the other handles, in the same order. -/
  findCaller_eq : ∀ key, t.byCaller.find key = (s.byCaller.find key).filter (· ∉ gone)
  findCallee_eq : ∀ key, t.byCallee.find key = (s.byCallee.find key).filter (· ∉ gone)
  findKind_eq : ∀ key, t.byKind.find key = (s.byKind.find key).filter (· ∉ gone)
  findFile_eq : ∀ key, t.byFile.find key = (s.byFile.find key).filter (· ∉ gone)
  /-- No bucket is left empty. -/
  compact : t.Compact
  /-- The buckets, the callers and the callees that are left stand in the same order. -/
  keepsOrder : s.KeepsOrder t
  /-- The graph is the one of the calls that are left. -/
  inducedBy : InducedBy t.getAll t.graph
  detector_eq : t.detector = s.detector
  nextNumber_eq : t.nextNumber = s.nextNumber

/-- Deletions leave the store sound and its orders as they are, and take nothing else away. -/
theorem Sound.deleteAll (h : s.Sound) (hok : s.deleteAll gone = .ok t) :
    t.Sound ∧ s.KeepsOrder t ∧ t.calls.entries = s.calls.entries.filter (fun e => e.1 ∉ gone) ∧
      t.detector = s.detector ∧ t.nextNumber = s.nextNumber := by
  induction gone generalizing s with
  | nil =>
    obtain rfl : s = t := Except.ok.inj hok
    exact ⟨h, KeepsOrder.refl s, by simp, rfl, rfl⟩
  | cons i gone ih =>
    obtain ⟨c, hc, hrest⟩ := deleteAll_cons_eq_ok_iff.1 hok
    obtain ⟨hsound, horder, hentries, hdetector, hnext⟩ := ih (h.dropped hc) hrest
    refine ⟨hsound, (s.keepsOrder_dropped i c).trans horder, ?_, hdetector, hnext⟩
    rw [hentries, CallStore.dropped, Table.entries_erase, List.filter_filter]
    refine List.filter_congr (fun e _ => ?_)
    simp [Bool.and_comm]

/-- What is left of a sound store is what was there without the deleted calls. -/
theorem Sound.thinned (h : s.Sound) (hok : s.deleteAll gone = .ok t) : s.Thinned t gone := by
  obtain ⟨hsound, horder, hentries, hdetector, hnext⟩ := h.deleteAll hok
  have hfind := h.inStep.find_filter (p := (· ∉ gone)) hsound.inStep hentries
  have htight := hsound.inStep.tight
  exact {
    entries_eq := hentries
    findCaller_eq := hfind .caller
    findCallee_eq := hfind .callee
    findKind_eq := hfind .kind
    findFile_eq := hfind .file
    compact := ⟨htight .caller, htight .callee, htight .kind, htight .file⟩
    keepsOrder := horder
    inducedBy := inducedBy_of_counts hsound.consistent.forward hsound.consistent.backward
    detector_eq := hdetector
    nextNumber_eq := hnext }

/-- A sound store without calls is as if it were cleared. -/
theorem Sound.eq_clear (h : s.Sound) (hcalls : s.calls.entries = []) : s = s.clear := by
  have hall : s.getAll = [] := congrArg (List.map Prod.snd) hcalls
  have hgraph := inducedBy_of_counts h.consistent.forward h.consistent.backward
  rw [hall] at hgraph
  have hcallers : s.graph.callers = [] :=
    List.eq_nil_iff_forall_not_mem.2 (fun a ha => by simpa using (hgraph.mem_callers_iff a).1 ha)
  have hcallees : s.graph.callees = [] :=
    List.eq_nil_iff_forall_not_mem.2 (fun b hb => by simpa using (hgraph.mem_callees_iff b).1 hb)
  have hshelf : s.shelf = s.clear.shelf := by
    rw [shelf_clear]
    exact h.inStep.eq_clear hcalls
  exact eq_of_shelf_eq hshelf (CallGraph.eq_empty hcallers hcallees) rfl

/-- After every history, deleting the calls of some handles in any order succeeds and leads to one
and the same store. It is the old one without these calls, and if all calls are deleted then its
graph is empty, and nothing else is left either. -/
theorem deletions_commute (ops : List Operation) (hnodup : gone.Nodup)
    (hstored : ∀ i ∈ gone, i ∈ (run ops).calls.keys) :
    ∃ t, (∀ order, order.Perm gone → (run ops).deleteAll order = .ok t) ∧
      (run ops).Thinned t gone ∧
      ((∀ i ∈ (run ops).calls.keys, i ∈ gone) → t.graph = .empty ∧ t = (run ops).clear) := by
  obtain ⟨t, ht⟩ := exists_deleteAll hnodup hstored
  obtain ⟨hsound, -, hentries, hdetector, hnext⟩ := (sound_run ops).deleteAll ht
  refine ⟨t, fun order horder => ?_, (sound_run ops).thinned ht, fun hall => ?_⟩
  · exact deleteAll_perm (consistent_run ops).tight horder.symm ht
  · have hnone : t.calls.entries = [] := by
      rw [hentries, List.filter_eq_nil_iff]
      intro e he
      simpa using hall e.1 (List.mem_map_of_mem he)
    have hclear : t = (run ops).clear := by
      rw [hsound.eq_clear hnone, clear, hdetector, hnext, clear]
    exact ⟨by rw [hclear]; rfl, hclear⟩

/-- Two calls that share an edge, and another one of the same caller between them. -/
def sharedEdge : List Operation :=
  let helper : Call :=
    { caller := "main", callee := "helper", kind := .functionCall, filePath := "app.py", line := 2,
      column := 4 }
  [.save helper, .save { helper with callee := "report", line := 3 },
    .save { helper with line := 5 }]

/-- Whichever of the two goes first, the edge goes with the other one. -/
theorem deletions_commute_sharedEdge :
    ([⟨0⟩, ⟨2⟩] : List CallHandle).Nodup ∧
      (∀ i ∈ ([⟨0⟩, ⟨2⟩] : List CallHandle), i ∈ (run sharedEdge).calls.keys) ∧
      ∃ t, (∀ order, order.Perm [⟨0⟩, ⟨2⟩] → (run sharedEdge).deleteAll order = .ok t) ∧
        (run sharedEdge).Thinned t [⟨0⟩, ⟨2⟩] := by
  have hnodup : ([⟨0⟩, ⟨2⟩] : List CallHandle).Nodup := by decide
  have hstored : ∀ i ∈ ([⟨0⟩, ⟨2⟩] : List CallHandle), i ∈ (run sharedEdge).calls.keys := by
    decide +kernel
  obtain ⟨t, horders, hthinned, -⟩ := deletions_commute sharedEdge hnodup hstored
  exact ⟨hnodup, hstored, t, horders, hthinned⟩

end CodeAtlas.Store.CallStore
