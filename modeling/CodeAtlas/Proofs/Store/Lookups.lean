import CodeAtlas.Proofs.Store.CallHistory
import CodeAtlas.Proofs.Store.ChunkHistory

/-!
# Look-ups are scans

The stores of calls and of chunks answer look-ups from indices, which every operation keeps in step.
Whatever is saved, deleted and cleared, a look-up gives what a scan of everything in store gives, in
the order in which it was saved, and a handle that leads nowhere leads nowhere for good.

Main results:

- Theorems `CallStore.scans_of_inStep` and `ChunkStore.scans_of_inStep`: with indices in step,
  look-ups are scans.
- Theorem `ChunkStore.mergeSort_handlesInRange`: buckets visited by complexity are merged into the
  order of saving.
- Theorem `scans_and_fresh_handles`: look-ups are scans and handles are never used again.
-/

namespace CodeAtlas.Store

open CodeAtlas.Analysis
open CodeAtlas.Chunking

/-! ## Calls -/

namespace CallStore

/-- The handle that an operation gives out, with the call that is kept under it. -/
def handed (s : CallStore) (op : Operation) : Option (CallHandle × Call) :=
  op.effect.handed (fun c => (s.save c).2)

/-- An operation takes away what is kept under a handle, if there is anything. -/
def Operation.Drops (op : Operation) : CallHandle → Prop := op.effect.Drops

/-- Every look-up gives what a scan of all calls gives. -/
structure Scans (s : CallStore) : Prop where
  findByCaller_eq : ∀ caller, s.findByCaller caller = s.getAll.filter (fun c => c.caller = caller)
  findByCallee_eq : ∀ callee, s.findByCallee callee = s.getAll.filter (fun c => c.callee = callee)
  findByKind_eq : ∀ kind, s.findByKind kind = s.getAll.filter (fun c => c.kind = kind)
  findByFile_eq : ∀ path, s.findByFile path = s.getAll.filter (fun c => c.filePath = path)

/-- With indices in step, look-ups are scans. -/
theorem scans_of_inStep {s : CallStore} (h : s.shelf.InStep) : s.Scans where
  findByCaller_eq caller := (h.lists .caller).resolve_some caller
  findByCallee_eq callee := (h.lists .callee).resolve_some callee
  findByKind_eq kind := (h.lists .kind).resolve_some kind
  findByFile_eq path := (h.lists .file).resolve_some path

end CallStore

/-! ## Chunks -/

namespace ChunkStore

/-- The handle that an operation gives out, with the chunk that is kept under it. -/
def handed (s : ChunkStore) (op : Operation) : Option (ChunkHandle × Chunk) :=
  op.effect.handed (fun c => (s.save c).2)

/-- An operation takes away what is kept under a handle, if there is anything. -/
def Operation.Drops (op : Operation) : ChunkHandle → Prop := op.effect.Drops

/-- Sorting by number puts the handles of a range into the order of the table. -/
theorem mergeSort_handlesInRange {s : ChunkStore} (h : s.shelf.InStep) (low high : Nat) :
    (s.handlesInRange low high).mergeSort (fun a b => decide (a.number ≤ b.number)) =
      (s.chunks.entries.filter (fun e => e.2.complexity.any (fun n => low ≤ n && n ≤ high))).map
        Prod.fst := by
  have hperm := (List.mergeSort_perm (s.handlesInRange low high)
      (fun a b => decide (a.number ≤ b.number))).trans
    ((h.lists .complexity).perm_flatMap s.chunks.nodup_keys (fun n => low ≤ n && n ≤ high))
  have hsorted : ((s.handlesInRange low high).mergeSort
      (fun a b => decide (a.number ≤ b.number))).Pairwise
        (fun a b => decide (a.number ≤ b.number) = true) := by
    refine List.pairwise_mergeSort (fun a b c hab hbc => ?_) (fun a b => ?_) _
    · exact decide_eq_true (Nat.le_trans (of_decide_eq_true hab) (of_decide_eq_true hbc))
    · simpa using Nat.le_total a.number b.number
  have htable : ((s.chunks.entries.filter (fun e => e.2.complexity.any
      (fun n => low ≤ n && n ≤ high))).map Prod.fst).Pairwise
        (fun a b => decide (a.number ≤ b.number) = true) :=
    (h.shelved.ascending.sublist (List.filter_sublist.map Prod.fst)).imp
      (fun hlt => decide_eq_true (Nat.le_of_lt hlt))
  -- both are in ascending order, and different handles have different numbers
  refine hperm.eq_of_pairwise (fun a b _ _ hab hba => ?_) hsorted htable
  have heq := Nat.le_antisymm (of_decide_eq_true hab) (of_decide_eq_true hba)
  cases a
  cases b
  exact congrArg Handle.mk heq

/-- Every look-up gives what a scan of all chunks gives, and what has no symbol or no complexity is
in no bucket. -/
structure Scans (s : ChunkStore) : Prop where
  findByKind_eq : ∀ kind, s.findByKind kind = s.getAll.filter (fun c => c.kind = kind)
  findByFile_eq : ∀ path, s.findByFile path = s.getAll.filter (fun c => c.filePath = path)
  findByModule_eq : ∀ path, s.findByModule path = s.getAll.filter (fun c => c.modulePath = path)
  findBySymbol_eq : ∀ name,
    s.findBySymbol name = s.getAll.filter (fun c => c.symbolName = some name)
  findByComplexityRange_eq : ∀ low high, s.findByComplexityRange low high =
    s.getAll.filter (fun c => c.complexity.any (fun n => low ≤ n && n ≤ high))
  exists_symbol : ∀ bucket ∈ s.bySymbol.buckets.entries, ∀ i ∈ bucket.2,
    ∃ c, s.get? i = some c ∧ c.symbolName = some bucket.1
  exists_complexity : ∀ bucket ∈ s.byComplexity.buckets.entries, ∀ i ∈ bucket.2,
    ∃ c, s.get? i = some c ∧ c.complexity = some bucket.1

/-- With indices in step, look-ups are scans. -/
theorem scans_of_inStep {s : ChunkStore} (h : s.shelf.InStep) : s.Scans where
  findByKind_eq kind := (h.lists .kind).resolve_some kind
  findByFile_eq path := (h.lists .file).resolve_some path
  findByModule_eq path := (h.lists .module).resolve_some path
  findBySymbol_eq name := (h.lists .symbol).resolve name
  findByComplexityRange_eq low high := by
    rw [findByComplexityRange, mergeSort_handlesInRange h]
    exact Index.filterMap_of_rows (fun _ hrow => s.chunks.mem_entries_iff.1 hrow)
      (fun c => c.complexity.any (fun n => low ≤ n && n ≤ high))
  exists_symbol _ hbucket _ hi := (h.lists .symbol).exists_of_mem_bucket hbucket hi
  exists_complexity _ hbucket _ hi := (h.lists .complexity).exists_of_mem_bucket hbucket hi

end ChunkStore

/-! ## Both stores -/

/-- After every history of either store, look-ups are scans of what is stored, which stands in the
order of saving, and no handle is used again after it is dropped. -/
theorem scans_and_fresh_handles :
    (∀ ops, (CallStore.run ops).Scans ∧
      Fresh CallStore.calls CallStore.apply CallStore.handed CallStore.Operation.Drops
        CallStore.empty ops) ∧
    ∀ ops, (ChunkStore.run ops).Scans ∧
      Fresh ChunkStore.chunks ChunkStore.apply ChunkStore.handed ChunkStore.Operation.Drops
        ChunkStore.empty ops := by
  constructor
  · exact fun ops => ⟨CallStore.scans_of_inStep (CallStore.inStep_run ops),
      CallStore.view.fresh rfl ops⟩
  · exact fun ops => ⟨ChunkStore.scans_of_inStep (ChunkStore.inStep_run ops),
      ChunkStore.view.fresh rfl ops⟩

end CodeAtlas.Store
