import CodeAtlas.Proofs.Graph.LinkOrder
import CodeAtlas.Proofs.Store.ChunkHistory
import CodeAtlas.Proofs.Store.InducedGraph
import CodeAtlas.Proofs.Store.SymbolHistory

/-!
# What was just saved goes again

Deleting what was just saved gives it back and leaves the store as it was, but for the number that
was issued: the table, every bucket of every index and both directions of the call graph are the
same, with their orders. This takes that the handle is new to all of them, and that neither a bucket
nor a source was there without anything in it, as the deletion would take that away.

Main results:

- Theorems `CallStore.undoes` and `ChunkStore.undoes`: with indices in step, a deletion undoes a save.
- Theorem `CallStore.Consistent.tight`: no source is left without targets.
- Theorem `SymbolStore.compact_run`: after every history of a store of symbols no bucket is empty.
- Theorem `delete_undoes_save`: after every history of each of the stores, a deletion undoes a save.
-/

namespace CodeAtlas.Store

open CodeAtlas.Analysis
open CodeAtlas.Chunking

/-! ## Calls -/

namespace CallStore

variable {s : CallStore}

/-- In a graph in step with the calls no source is left without targets. -/
theorem Consistent.tight (h : s.Consistent) : s.graph.Tight :=
  ⟨h.forward.tight, h.backward.tight⟩

/-- Deleting a call that was just saved gives it back, and of the store it changes the next number
only. -/
def Undoes (s : CallStore) (c : Call) : Prop :=
  (s.save c).1.delete (s.save c).2 = .ok ({ s with nextNumber := s.nextNumber + 1 }, c)

/-- With indices and graph in step, and nothing left behind in them, a deletion undoes a save. -/
theorem undoes (h : s.shelf.InStep) (htight : s.graph.Tight) (c : Call) : s.Undoes c := by
  have hshelf : ((s.save c).1.dropped (s.save c).2 c).shelf =
      { s.shelf with next := s.nextNumber + 1 } := by
    rw [shelf_dropped, shelf_save]
    exact h.drop_save c
  have hstore : (s.save c).1.dropped (s.save c).2 c = { s with nextNumber := s.nextNumber + 1 } :=
    eq_of_shelf_eq hshelf (htight.removeEdge_addEdge c.caller c.callee) rfl
  exact delete_eq_ok_iff.2 ⟨c, Table.get?_insert_self _ _ _, by rw [hstore]⟩

end CallStore

/-! ## Chunks -/

namespace ChunkStore

variable {s : ChunkStore}

/-- Deleting a chunk that was just saved gives it back, and of the store it changes the next number
only. -/
def Undoes (s : ChunkStore) (c : Chunk) : Prop :=
  (s.save c).1.delete (s.save c).2 = .ok ({ s with nextNumber := s.nextNumber + 1 }, c)

/-- With indices in step, a deletion undoes a save. -/
theorem undoes (h : s.shelf.InStep) (c : Chunk) : s.Undoes c := by
  have hshelf : ((s.save c).1.dropped (s.save c).2 c).shelf =
      { s.shelf with next := s.nextNumber + 1 } := by
    rw [shelf_dropped, shelf_save]
    exact h.drop_save c
  have hstore : (s.save c).1.dropped (s.save c).2 c = { s with nextNumber := s.nextNumber + 1 } :=
    eq_of_shelf_eq hshelf
  exact delete_eq_ok_iff.2 ⟨c, Table.get?_insert_self _ _ _, by rw [hstore]⟩

end ChunkStore

/-! ## Symbols -/

namespace SymbolStore

variable {s : SymbolStore} {rows : List (SymbolHandle × Symbol)}

/-- No bucket of the store is empty. -/
structure Compact (s : SymbolStore) : Prop where
  byName : s.byName.Tight
  byKind : s.byKind.Tight
  byModule : s.byModule.Tight
  byFile : s.byFile.Tight

/-- A cleared store has no bucket. -/
theorem compact_clear (s : SymbolStore) : s.clear.Compact :=
  ⟨Index.tight_nil, Index.tight_nil, Index.tight_nil, Index.tight_nil⟩

/-- Taking a symbol out of the indices leaves no bucket empty. -/
theorem Compact.unindex (h : s.Compact) (i : SymbolHandle) (x : Symbol) : (s.unindex i x).Compact :=
  ⟨h.byName.remove _ i, h.byKind.remove _ i, h.byModule.remove _ i, h.byFile.remove _ i⟩

/-- Making room for a symbol leaves no bucket empty. -/
theorem Compact.prepare (h : s.Compact) (key : String) : (s.prepare key).1.Compact := by
  unfold SymbolStore.prepare
  split
  · next i hkey =>
    split
    · next old hold => exact h.unindex i old
    · exact h
  · exact ⟨h.byName, h.byKind, h.byModule, h.byFile⟩

/-- Saving a symbol leaves no bucket empty. -/
theorem Compact.save (h : s.Compact) (x : Symbol) : (s.save x).1.Compact := by
  have hroom := h.prepare x.key
  exact ⟨hroom.byName.add _ _, hroom.byKind.add _ _, hroom.byModule.add _ _, hroom.byFile.add _ _⟩

/-- A deletion leaves no bucket empty. -/
theorem Compact.delete (h : s.Compact) {key : String} {deleted : SymbolStore × Symbol}
    (hdelete : s.delete key = .ok deleted) : deleted.1.Compact := by
  obtain ⟨i, x, -, -, rfl⟩ := delete_eq_ok_iff.1 hdelete
  exact ⟨h.byName.remove _ i, h.byKind.remove _ i, h.byModule.remove _ i, h.byFile.remove _ i⟩

/-- No operation leaves a bucket empty. -/
theorem Compact.apply (h : s.Compact) (op : Operation) : (s.apply op).Compact := by
  cases op with
  | save x => exact h.save x
  | delete key =>
    simp only [SymbolStore.apply]
    split
    · next deleted hdelete => exact h.delete hdelete
    · exact h
  | clear => exact s.compact_clear
  | addReference key user => exact ⟨h.byName, h.byKind, h.byModule, h.byFile⟩

/-- After every history no bucket is empty. -/
theorem compact_run (ops : List Operation) : (run ops).Compact :=
  List.foldlRecOn ops SymbolStore.apply empty.compact_clear (fun _ h op _ => h.apply op)

/-- Deleting a symbol that was just saved gives it back, and of the store it changes the next number
only; in between its key led to the handle that the save gave out. -/
def Undoes (s : SymbolStore) (x : Symbol) : Prop :=
  (s.save x).1.handles.get? x.key = some (s.save x).2 ∧
    (s.save x).1.delete x.key = .ok ({ s with nextNumber := s.nextNumber + 1 }, x)

/-- With everything in step and no empty bucket, a deletion undoes a save under a new key. -/
theorem Rows.undoes (h : s.Rows rows) (hcompact : s.Compact) {x : Symbol}
    (hkey : s.handles.get? x.key = none) : s.Undoes x := by
  have hnew : s.symbols.get? ⟨s.nextNumber⟩ = none := h.shelved.get?_eq_none (Nat.le_refl _)
  have hrows : ⟨s.nextNumber⟩ ∉ rows.map Prod.fst := by
    intro hmem
    obtain ⟨⟨i, y⟩, hrow, rfl⟩ := List.mem_map.1 hmem
    rw [h.mem_iff, hnew] at hrow
    cases hrow
  have hhandle : (s.save x).1.handles.get? x.key = some ⟨s.nextNumber⟩ := by
    rw [save_of_new hkey, Table.get?_insert_self]
  refine ⟨by rw [hhandle, handle_save, hkey, Option.getD_none], delete_eq_ok_iff.2
    ⟨⟨s.nextNumber⟩, x, hhandle, by rw [save_of_new hkey, Table.get?_insert_self], ?_⟩⟩
  simp only [save_of_new hkey, Table.erase_insert_of_new _ x hnew,
    Table.erase_insert_of_new _ _ hkey,
    hcompact.byName.remove_add (h.byName.not_mem_find hrows _),
    hcompact.byKind.remove_add (h.byKind.not_mem_find hrows _),
    hcompact.byModule.remove_add (h.byModule.not_mem_find hrows _),
    hcompact.byFile.remove_add (h.byFile.not_mem_find hrows _)]

/-- A key that no symbol has leads nowhere. -/
theorem Rows.get?_handles_eq_none (h : s.Rows rows) {key : String}
    (hkey : ∀ y ∈ s.getAll, y.key ≠ key) : s.handles.get? key = none := by
  rw [Table.get?_eq_none_iff, ← h.map_key, List.mem_map]
  rintro ⟨y, hy, heq⟩
  exact hkey y hy heq

end SymbolStore

/-! ## All stores -/

/-- After every history of each of the stores, a deletion undoes a save; for symbols, a save under a
key that is not stored. -/
theorem delete_undoes_save :
    (∀ ops c, (CallStore.run ops).Undoes c) ∧
      (∀ ops c, (ChunkStore.run ops).Undoes c) ∧
      ∀ ops x, (∀ y ∈ (SymbolStore.run ops).getAll, y.key ≠ x.key) →
        (SymbolStore.run ops).Undoes x := by
  refine ⟨fun ops c => ?_, fun ops c => ?_, fun ops x hkey => ?_⟩
  · exact CallStore.undoes (CallStore.inStep_run ops) (CallStore.consistent_run ops).tight c
  · exact ChunkStore.undoes (ChunkStore.inStep_run ops) c
  · obtain ⟨rows, h⟩ := SymbolStore.follows_run ops
    exact h.kept.undoes (SymbolStore.compact_run ops) (h.kept.get?_handles_eq_none hkey)

/-- A function that is saved after another one of the same name goes again. -/
theorem delete_undoes_save_method :
    let free : Symbol :=
      { name := "add", kind := .function, filePath := "app.py", modulePath := "app", startLine := 1,
        endLine := 2 }
    let method : Symbol :=
      { name := "add", kind := .function, filePath := "app.py", modulePath := "app", startLine := 4,
        endLine := 5, parentClass := some "Sum" }
    (∀ y ∈ (SymbolStore.run [.save free]).getAll, y.key ≠ method.key) ∧
      (SymbolStore.run [.save free]).Undoes method := by
  intro free method
  have hkey : ∀ y ∈ (SymbolStore.run [.save free]).getAll, y.key ≠ method.key := by
    decide +kernel
  exact ⟨hkey, delete_undoes_save.2.2 [.save free] method hkey⟩

end CodeAtlas.Store
