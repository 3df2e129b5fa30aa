import CodeAtlas.Proofs.Store.CallHistory
import CodeAtlas.Proofs.Store.ChunkHistory
import CodeAtlas.Store.Symbols

/-!
# Stores whose handles start later

A store that was cleared goes on counting where it stopped. Whatever is saved from then on, it stays
a copy of a store that was new, with all handles shifted, and no question about what it holds tells
the two apart.

Main results:

- Theorems `SymbolStore.shifts_clear`, `CallStore.shifts_clear` and `ChunkStore.shifts_clear`: a
  cleared store is a new one with shifted handles.
- Theorems `SymbolStore.Shifts.save`, `CallStore.Shifts.save` and `ChunkStore.Shifts.save`: saving
  goes along with shifting.
- Theorems `SymbolStore.Shifts.answersAlike`, `CallStore.Shifts.answersAlike` and
  `ChunkStore.Shifts.answersAlike`: every question has the same answer in both stores, where handles
  are shifted.
-/

namespace CodeAtlas.Store

open CodeAtlas.Analysis
open CodeAtlas.Chunking

/-! ## Symbols -/

namespace SymbolStore

/-- One store has what the other has, under shifted handles. -/
structure Shifts (n : Nat) (s t : SymbolStore) : Prop where
  symbols : s.symbols.Renames (Handle.shift n) id t.symbols
  handles : s.handles.Renames id (Handle.shift n) t.handles
  byName : s.byName.Shifts n t.byName
  byKind : s.byKind.Shifts n t.byKind
  byModule : s.byModule.Shifts n t.byModule
  byFile : s.byFile.Shifts n t.byFile
  references : t.references = s.references
  nextNumber : t.nextNumber = n + s.nextNumber

/-- A cleared store is a new one with shifted handles. -/
theorem shifts_clear (s : SymbolStore) : empty.Shifts s.nextNumber s.clear :=
  ⟨rfl, rfl, rfl, rfl, rfl, rfl, rfl, rfl⟩

variable {n : Nat} {s t : SymbolStore}

theorem Shifts.index (h : s.Shifts n t) (i : SymbolHandle) (x : Symbol) :
    (s.index i x).Shifts n (t.index (i.shift n) x) :=
  { h with
    byName := h.byName.add x.name i
    byKind := h.byKind.add x.kind i
    byModule := h.byModule.add x.modulePath i
    byFile := h.byFile.add x.filePath i }

theorem Shifts.unindex (h : s.Shifts n t) (i : SymbolHandle) (x : Symbol) :
    (s.unindex i x).Shifts n (t.unindex (i.shift n) x) :=
  { h with
    byName := h.byName.remove x.name i
    byKind := h.byKind.remove x.kind i
    byModule := h.byModule.remove x.modulePath i
    byFile := h.byFile.remove x.filePath i }

theorem Shifts.get? (h : s.Shifts n t) (i : SymbolHandle) : t.get? (i.shift n) = s.get? i :=
  get?_shift h.symbols i

/-- A key leads to the shifted handle. -/
theorem Shifts.handle (h : s.Shifts n t) (key : String) :
    t.handles.get? key = (s.handles.get? key).map (Handle.shift n) :=
  h.handles.get? Function.injective_id key

/-- Making room for a key goes along with shifting. -/
theorem Shifts.prepare (h : s.Shifts n t) (key : String) :
    (s.prepare key).1.Shifts n (t.prepare key).1 ∧
      (t.prepare key).2 = (s.prepare key).2.shift n := by
  have hkey := h.handle key
  unfold SymbolStore.prepare
  cases hs : s.handles.get? key with
  | none =>
    rw [hs, Option.map_none] at hkey
    have hnext : (⟨t.nextNumber⟩ : SymbolHandle) = Handle.shift n ⟨s.nextNumber⟩ :=
      congrArg Handle.mk h.nextNumber
    rw [hkey]
    refine ⟨{ h with handles := ?_, nextNumber := ?_ }, hnext⟩
    · dsimp only
      rw [hnext]
      exact h.handles.insert Function.injective_id key _
    · exact congrArg (· + 1) h.nextNumber
  | some i =>
    rw [hs, Option.map_some] at hkey
    have hget : t.symbols.get? (i.shift n) = s.symbols.get? i := h.get? i
    rw [hkey]
    dsimp only
    rw [hget]
    cases s.symbols.get? i with
    | none => exact ⟨h, rfl⟩
    | some old => exact ⟨h.unindex i old, rfl⟩

/-- Saving goes along with shifting. -/
theorem Shifts.save (h : s.Shifts n t) (x : Symbol) :
    (s.save x).1.Shifts n (t.save x).1 ∧ (t.save x).2 = (s.save x).2.shift n := by
  obtain ⟨hready, hhandle⟩ := h.prepare x.key
  have hindexed := hready.index (s.prepare x.key).2 x
  rw [← hhandle] at hindexed
  refine ⟨{ hindexed with symbols := ?_ }, hhandle⟩
  have hsymbols := hindexed.symbols.insert (Handle.shift_injective n) (s.prepare x.key).2 x
  rwa [← hhandle] at hsymbols

/-- Noting who refers to a key goes along with shifting. -/
theorem Shifts.addReference (h : s.Shifts n t) (key user : String) :
    (s.addReference key user).Shifts n (t.addReference key user) :=
  { h with references := by rw [SymbolStore.addReference, SymbolStore.addReference, h.references] }

/-- The earlier of shifted handles is shifted. -/
theorem earlier_shift (n : Nat) (best : Option SymbolHandle) (i : SymbolHandle) :
    earlier (best.map (Handle.shift n)) (i.shift n) = (earlier best i).map (Handle.shift n) := by
  cases best with
  | none => rfl
  | some b =>
    simp only [earlier, Option.map_some, Handle.shift, Nat.add_lt_add_iff_left]
    split <;> rfl

/-- The earliest of shifted handles is shifted. -/
theorem foldl_earlier_shift (n : Nat) (ids : List SymbolHandle) (best : Option SymbolHandle) :
    (ids.map (Handle.shift n)).foldl earlier (best.map (Handle.shift n)) =
      (ids.foldl earlier best).map (Handle.shift n) := by
  induction ids generalizing best with
  | nil => rfl
  | cons i rest ih =>
    rw [List.map_cons, List.foldl_cons, List.foldl_cons, earlier_shift, ih]

/-- A shifted handle leads to what the handle leads to. -/
theorem Shifts.bind_get? (h : s.Shifts n t) (i : Option SymbolHandle) :
    (i.map (Handle.shift n)).bind t.get? = i.bind s.get? := by
  cases i with
  | none => rfl
  | some i => exact h.get? i

/-- Looking a name up gives the same symbol. -/
theorem Shifts.findByName (h : s.Shifts n t) (name : String) :
    t.findByName name = s.findByName name := by
  have hcandidates : ((t.byName.find (lastSegment name)).filter
        (fun i => (t.get? i).any (answersTo name))).foldl earlier none =
      (((s.byName.find (lastSegment name)).filter
        (fun i => (s.get? i).any (answersTo name))).foldl earlier none).map (Handle.shift n) := by
    rw [h.byName.find, List.filter_map, ← foldl_earlier_shift, Option.map_none]
    simp only [Function.comp_def, h.get?]
  unfold SymbolStore.findByName
  rw [h.handle name, h.bind_get?]
  cases (s.handles.get? name).bind s.get? with
  | some x => rfl
  | none => exact (congrArg (·.bind t.get?) hcandidates).trans (h.bind_get? _)

theorem Shifts.getAll (h : s.Shifts n t) : t.getAll = s.getAll :=
  values_shift h.symbols

theorem Shifts.findUnused (h : s.Shifts n t) : t.findUnused = s.findUnused := by
  rw [SymbolStore.findUnused, h.getAll, h.references, SymbolStore.findUnused]

/-- Every question has the same answer in both stores, where handles are shifted. -/
structure AnswersAlike (n : Nat) (s t : SymbolStore) : Prop where
  get? : ∀ i : SymbolHandle, t.get? (i.shift n) = s.get? i
  /-- Nothing is kept under an earlier handle. -/
  get?_of_lt : ∀ i : SymbolHandle, i.number < n → t.get? i = none
  findByName : ∀ name, t.findByName name = s.findByName name
  findByKind : ∀ kind, t.findByKind kind = s.findByKind kind
  findByModule : ∀ modulePath, t.findByModule modulePath = s.findByModule modulePath
  findByFile : ∀ filePath, t.findByFile filePath = s.findByFile filePath
  getAll : t.getAll = s.getAll
  referencesTo : ∀ key, t.referencesTo key = s.referencesTo key
  findUnused : t.findUnused = s.findUnused
  size : t.size = s.size
  isEmpty : t.isEmpty = s.isEmpty
  statistics : t.statistics = s.statistics
  /-- What is saved next gets the shifted handle. -/
  save : ∀ x, (t.save x).2 = (s.save x).2.shift n

/-- No question tells a store with shifted handles from the other. -/
theorem Shifts.answersAlike (h : s.Shifts n t) : s.AnswersAlike n t where
  get? := h.get?
  get?_of_lt _ hi := get?_eq_none_of_lt h.symbols hi
  findByName := h.findByName
  findByKind := h.byKind.filterMap_find h.get?
  findByModule := h.byModule.filterMap_find h.get?
  findByFile := h.byFile.filterMap_find h.get?
  getAll := h.getAll
  referencesTo key := by rw [SymbolStore.referencesTo, h.references, SymbolStore.referencesTo]
  findUnused := h.findUnused
  size := h.symbols.size
  isEmpty := h.symbols.isEmpty
  statistics := by
    rw [SymbolStore.statistics, SymbolStore.size, h.symbols.size, h.byKind.sizes, h.byModule.sizes,
      h.byFile.sizes, h.findUnused, SymbolStore.statistics, SymbolStore.size]
  save x := (h.save x).2

end SymbolStore

/-! ## Calls -/

namespace CallStore

/-- One store has what the other has, under shifted handles. -/
structure Shifts (n : Nat) (s t : CallStore) : Prop where
  shelf : s.shelf.Shifts n t.shelf
  graph : t.graph = s.graph
  detector : t.detector = s.detector

/-- A cleared store is a new one with the same detector and shifted handles. -/
theorem shifts_clear (s : CallStore) :
    (empty.setDetector s.detector).Shifts s.nextNumber s.clear where
  shelf := by
    have hempty : (empty.setDetector s.detector).shelf = .empty := shelf_empty
    rw [hempty, shelf_clear]
    exact s.shelf.shifts_clear
  graph := rfl
  detector := rfl

variable {n : Nat} {s t : CallStore}

/-- Saving goes along with shifting. -/
theorem Shifts.save (h : s.Shifts n t) (c : Call) : (s.save c).1.Shifts n (t.save c).1 where
  shelf := by
    rw [shelf_save, shelf_save]
    exact h.shelf.save c
  graph := by simp only [CallStore.save, h.graph]
  detector := h.detector

theorem Shifts.getAll (h : s.Shifts n t) : t.getAll = s.getAll :=
  values_shift h.shelf.table

theorem Shifts.findCycles (h : s.Shifts n t) : t.findCycles = s.findCycles := by
  rw [CallStore.findCycles, h.detector, h.graph, CallStore.findCycles]

/-- Every question has the same answer in both stores, where handles are shifted. -/
structure AnswersAlike (n : Nat) (s t : CallStore) : Prop where
  get? : ∀ i : CallHandle, t.get? (i.shift n) = s.get? i
  /-- Nothing is kept under an earlier handle. -/
  get?_of_lt : ∀ i : CallHandle, i.number < n → t.get? i = none
  findByCaller : ∀ caller, t.findByCaller caller = s.findByCaller caller
  findByCallee : ∀ callee, t.findByCallee callee = s.findByCallee callee
  findByKind : ∀ kind, t.findByKind kind = s.findByKind kind
  findByFile : ∀ filePath, t.findByFile filePath = s.findByFile filePath
  getAll : t.getAll = s.getAll
  findCycles : t.findCycles = s.findCycles
  callGraph : t.callGraph = s.callGraph
  reverseCallGraph : t.reverseCallGraph = s.reverseCallGraph
  /-- So does every other question about the graph. -/
  graph : t.graph = s.graph
  size : t.size = s.size
  isEmpty : t.isEmpty = s.isEmpty
  statistics : t.statistics = s.statistics
  /-- What is saved next gets the shifted handle. -/
  save : ∀ c, (t.save c).2 = (s.save c).2.shift n

/-- No question tells a store with shifted handles from the other. -/
theorem Shifts.answersAlike (h : s.Shifts n t) : s.AnswersAlike n t where
  get? := h.shelf.get?
  get?_of_lt _ hi := get?_eq_none_of_lt h.shelf.table hi
  findByCaller := h.shelf.filterMap_find .caller
  findByCallee := h.shelf.filterMap_find .callee
  findByKind := h.shelf.filterMap_find .kind
  findByFile := h.shelf.filterMap_find .file
  getAll := h.getAll
  findCycles := h.findCycles
  callGraph := by rw [CallStore.callGraph, h.graph, CallStore.callGraph]
  reverseCallGraph := by rw [CallStore.reverseCallGraph, h.graph, CallStore.reverseCallGraph]
  graph := h.graph
  size := h.shelf.table.size
  isEmpty := h.shelf.table.isEmpty
  statistics := by
    have hsize : t.size = s.size := h.shelf.table.size
    have hkind : t.byKind.sizes CallKind.label = s.byKind.sizes CallKind.label :=
      (h.shelf.index .kind).sizes CallKind.label
    have hfile : t.byFile.sizes id = s.byFile.sizes id := (h.shelf.index .file).sizes id
    simp only [CallStore.statistics, hsize, hkind, hfile, h.getAll, h.findCycles, h.graph]
  save _ := h.shelf.nextHandle

end CallStore

/-! ## Chunks -/

namespace ChunkStore

/-- One store has what the other has, under shifted handles. -/
structure Shifts (n : Nat) (s t : ChunkStore) : Prop where
  shelf : s.shelf.Shifts n t.shelf

/-- A cleared store is a new one with shifted handles. -/
theorem shifts_clear (s : ChunkStore) : empty.Shifts s.nextNumber s.clear where
  shelf := by
    rw [shelf_empty, shelf_clear]
    exact s.shelf.shifts_clear

variable {n : Nat} {s t : ChunkStore}

/-- Saving goes along with shifting. -/
theorem Shifts.save (h : s.Shifts n t) (c : Chunk) : (s.save c).1.Shifts n (t.save c).1 where
  shelf := by
    rw [shelf_save, shelf_save]
    exact h.shelf.save c

/-- The handles in a range of complexities are shifted. -/
theorem Shifts.handlesInRange (h : s.Shifts n t) (low high : Nat) :
    t.handlesInRange low high = (s.handlesInRange low high).map (Handle.shift n) := by
  have hbuckets : t.byComplexity.buckets.entries =
      s.byComplexity.buckets.entries.map (Prod.map id (List.map (Handle.shift n))) :=
    h.shelf.index .complexity
  rw [ChunkStore.handlesInRange, hbuckets, List.filter_map, List.flatMap_map,
    ChunkStore.handlesInRange, List.map_flatMap]
  rfl

/-- The chunks in a range of complexities are the same, in the same order. -/
theorem Shifts.findByComplexityRange (h : s.Shifts n t) (low high : Nat) :
    t.findByComplexityRange low high = s.findByComplexityRange low high := by
  have hsort : ((s.handlesInRange low high).map (Handle.shift n)).mergeSort
        (fun a b => decide (a.number ≤ b.number)) =
      ((s.handlesInRange low high).mergeSort (fun a b => decide (a.number ≤ b.number))).map
        (Handle.shift n) := by
    refine (List.map_mergeSort (fun a _ b _ => ?_)).symm
    simp [Handle.shift]
  have hget : ∀ i : ChunkHandle, t.get? (i.shift n) = s.get? i := h.shelf.get?
  rw [ChunkStore.findByComplexityRange, h.handlesInRange, hsort, ChunkStore.resolve,
    filterMap_shift hget, ChunkStore.findByComplexityRange, ChunkStore.resolve]

theorem Shifts.getAll (h : s.Shifts n t) : t.getAll = s.getAll :=
  values_shift h.shelf.table

/-- Every question has the same answer in both stores, where handles are shifted. -/
structure AnswersAlike (n : Nat) (s t : ChunkStore) : Prop where
  get? : ∀ i : ChunkHandle, t.get? (i.shift n) = s.get? i
  /-- Nothing is kept under an earlier handle. -/
  get?_of_lt : ∀ i : ChunkHandle, i.number < n → t.get? i = none
  findByKind : ∀ kind, t.findByKind kind = s.findByKind kind
  findByFile : ∀ filePath, t.findByFile filePath = s.findByFile filePath
  findByModule : ∀ modulePath, t.findByModule modulePath = s.findByModule modulePath
  findBySymbol : ∀ symbolName, t.findBySymbol symbolName = s.findBySymbol symbolName
  findByComplexityRange : ∀ low high,
    t.findByComplexityRange low high = s.findByComplexityRange low high
  findLargeChunks : ∀ minLines, t.findLargeChunks minLines = s.findLargeChunks minLines
  getAll : t.getAll = s.getAll
  toList : t.toList = s.toList.map (Prod.map (Handle.shift n) id)
  size : t.size = s.size
  isEmpty : t.isEmpty = s.isEmpty
  statistics : t.statistics = s.statistics
  /-- What is saved next gets the shifted handle. -/
  save : ∀ c, (t.save c).2 = (s.save c).2.shift n

/-- No question tells a store with shifted handles from the other. -/
theorem Shifts.answersAlike (h : s.Shifts n t) : s.AnswersAlike n t where
  get? := h.shelf.get?
  get?_of_lt _ hi := get?_eq_none_of_lt h.shelf.table hi
  findByKind := h.shelf.filterMap_find .kind
  findByFile := h.shelf.filterMap_find .file
  findByModule := h.shelf.filterMap_find .module
  findBySymbol := h.shelf.filterMap_find .symbol
  findByComplexityRange := h.findByComplexityRange
  findLargeChunks minLines := congrArg (List.filterM _) h.getAll
  getAll := h.getAll
  toList := h.shelf.table
  size := h.shelf.table.size
  isEmpty := h.shelf.table.isEmpty
  statistics := by
    have hsize : t.size = s.size := h.shelf.table.size
    have hkind : t.byKind.sizes ChunkKind.label = s.byKind.sizes ChunkKind.label :=
      (h.shelf.index .kind).sizes ChunkKind.label
    have hfile : t.byFile.sizes id = s.byFile.sizes id := (h.shelf.index .file).sizes id
    have hmodule : t.byModule.sizes id = s.byModule.sizes id := (h.shelf.index .module).sizes id
    have hcomplexity : t.byComplexity.sizes toString = s.byComplexity.sizes toString :=
      (h.shelf.index .complexity).sizes toString
    simp only [ChunkStore.statistics, hsize, hkind, hfile, hmodule, hcomplexity, h.getAll]
  save _ := h.shelf.nextHandle

end ChunkStore

end CodeAtlas.Store
