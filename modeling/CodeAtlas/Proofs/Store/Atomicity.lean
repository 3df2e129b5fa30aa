import CodeAtlas.Proofs.Store.Deletions
import CodeAtlas.Proofs.Store.Lookups

/-!
# Deletions as a whole

A deletion changes a store in place, one table after the other, and may fail between two of them. It
is atomic all the same. It fails only at its first step, when nothing has been changed yet: the table
of symbols and the table of keys are in step after every history, so a key that is found leads to a
symbol. And where it succeeds, nothing but one entry is gone.

Main results:

- Theorems `CallStore.Sound.atomic`, `ChunkStore.atomic` and `SymbolStore.Rows.atomic`: where
  indices and tables are in step, a deletion is atomic.
- Theorems `CallStore.reached_eq_run`, `ChunkStore.reached_eq_run` and `SymbolStore.reached_eq_run`:
  so a deletion that fails leaves no trace in a history.
- Theorem `deletions_atomic`: after every history of each of the stores, deletions are atomic.
-/

namespace CodeAtlas.Store

open CodeAtlas.Analysis
open CodeAtlas.Chunking

/-! ## Atomic tasks -/

section Atomic

variable {σ α : Type} {task : Task σ α} {s t : σ} {error : StoreError} {stored : α → Prop}
  {lost : α → σ → Prop} {x : α}

/-- A task takes something out of a store as a whole or not at all. It fails exactly if there is
nothing of the kind, with one error and with the store as it was, and otherwise gives what was stored
and leaves the store without it. -/
structure Atomic (task : Task σ α) (s : σ) (error : StoreError) (stored : α → Prop)
    (lost : α → σ → Prop) : Prop where
  fails_iff : (∃ e t, task.run s = .error e t) ↔ ∀ x, ¬stored x
  unchanged : ∀ e t, task.run s = .error e t → e = error ∧ t = s
  given : ∀ x t, task.run s = .ok x t → stored x ∧ lost x t

/-- A task that fails at once is atomic if there is nothing to take out. -/
theorem atomic_of_error (hrun : task.run s = .error error s) (hnone : ∀ x, ¬stored x) :
    Atomic task s error stored lost where
  fails_iff := ⟨fun _ => hnone, fun _ => ⟨error, s, hrun⟩⟩
  unchanged e t he := by
    obtain ⟨rfl, rfl⟩ := EStateM.Result.error.inj (hrun.symm.trans he)
    exact ⟨rfl, rfl⟩
  given x t hx := nomatch hrun.symm.trans hx

/-- A task that succeeds is atomic if it takes out what it gives. -/
theorem atomic_of_ok (hrun : task.run s = .ok x t) (hx : stored x) (hlost : lost x t) :
    Atomic task s error stored lost where
  fails_iff := by
    constructor
    · rintro ⟨e, t, he⟩
      exact nomatch hrun.symm.trans he
    · exact fun hnone => absurd hx (hnone x)
  unchanged e t he := nomatch hrun.symm.trans he
  given y u hy := by
    obtain ⟨rfl, rfl⟩ := EStateM.Result.ok.inj (hrun.symm.trans hy)
    exact ⟨hx, hlost⟩

/-- A task that takes something out is atomic if it leaves the store without that. -/
theorem TakesOut.atomic {get? : σ → Option α} {dropped : σ → α → σ}
    (h : TakesOut task get? dropped error) (hstored : ∀ x, stored x ↔ get? s = some x)
    (hlost : ∀ x, get? s = some x → lost x (dropped s x)) : Atomic task s error stored lost := by
  cases hget : get? s with
  | none =>
    refine atomic_of_error (h.run_of_none hget) (fun x hx => ?_)
    exact nomatch hget.symm.trans ((hstored x).1 hx)
  | some x => exact atomic_of_ok (h.run_of_some hget) ((hstored x).2 hget) (hlost x hget)

/-- The store after a task, whether the task fails or not. -/
def left (task : Task σ α) (s : σ) : σ :=
  match task.run s with
  | .ok _ t => t
  | .error _ t => t

/-- After an atomic task the store is the one that comes with the result, or the old one. -/
theorem Atomic.left_eq (h : Atomic task s error stored lost)
    (hok : ∀ done, perform task s = .ok done → t = done.1)
    (herror : ∀ e, perform task s = .error e → t = s) : left task s = t := by
  unfold left
  unfold perform at hok herror
  cases hrun : task.run s with
  | ok x u => exact (hok (u, x) (by rw [hrun])).symm
  | error e u =>
    obtain ⟨rfl, rfl⟩ := h.unchanged e u hrun
    exact (herror e (by rw [hrun])).symm

/-- Two ways of going on that agree wherever the second leads lead to the same. -/
theorem foldl_eq_foldl {ω : Type} {f g : σ → ω → σ}
    (h : ∀ (ops : List ω) op, f (ops.foldl g s) op = g (ops.foldl g s) op) (ops : List ω) :
    ops.foldl f s = ops.foldl g s := by
  induction ops using List.reverseRecOn with
  | nil => rfl
  | append_singleton ops op ih =>
    simp only [List.foldl_append, List.foldl_cons, List.foldl_nil, ih, h]

end Atomic

/-! ## Indices -/

namespace Index

variable {κ ι α : Type} [DecidableEq κ] [DecidableEq ι] {i : Index κ ι} {attr : α → Option κ}

/-- One index is another one without a handle: the other handles and the buckets that are left stand
in the same order, and no bucket is left empty. -/
structure Without (i j : Index κ ι) (id : ι) : Prop where
  find_eq : ∀ key, j.find key = (i.find key).filter (· ≠ id)
  keys_sublist : j.buckets.keys.Sublist i.buckets.keys
  tight : j.Tight

/-- An index in step with some rows loses the handle of a row, and nothing else. -/
theorem Lists.without {rows : List (ι × α)} (h : i.Lists rows attr) (htight : i.Tight)
    (hrows : (rows.map Prod.fst).Nodup) {id : ι} {x : α} (hx : (id, x) ∈ rows) :
    i.Without (i.removeOptional (attr x) id) id where
  find_eq := h.find_filter (p := (· ≠ id)) (h.remove hrows hx)
  keys_sublist := by
    cases attr x with
    | none => exact List.Sublist.refl _
    | some key => exact i.keys_remove_sublist key id
  tight := htight.removeOptional (attr x) id

end Index

/-- A shelf loses the handle of an entry from each index, and nothing else. -/
theorem Shelf.InStep.without {kind : EntityKind} {α : Type} {catalogue : Catalogue α}
    {s : Shelf kind catalogue} (h : s.InStep) {i : Handle kind} {x : α}
    (hget : s.table.get? i = some x) (a : catalogue.Attribute) :
    (s.index a).Without ((s.drop i x).index a) i :=
  (h.lists a).without (h.tight a) s.table.nodup_keys (s.table.mem_entries_iff.2 hget)

/-! ## Calls -/

namespace CallStore

variable {s : CallStore}

/-- The deletion of a call is atomic: it fails with the handle, or gives the call of the handle and
leaves the store without this call. -/
def DeletesAtomically (s : CallStore) (i : CallHandle) : Prop :=
  Atomic (deletion i) s (.unknownHandle .call i.number) (fun c => s.get? i = some c)
    (fun _ t => s.Thinned t [i])

/-- With indices and graph in step, the deletion of a call is atomic. -/
theorem Sound.atomic (h : s.Sound) (i : CallHandle) : s.DeletesAtomically i :=
  (takesOut_deletion i).atomic (fun _ => Iff.rfl)
    (fun c hget => h.thinned (deleteAll_cons_eq_ok_iff.2 ⟨c, hget, rfl⟩))

/-- The store after an operation, where a deletion works in place. -/
def after (s : CallStore) : Operation → CallStore
  | .delete i => left (deletion i) s
  | op => s.apply op

/-- The store after some operations in place, starting with the empty store. -/
def reached (ops : List Operation) : CallStore := ops.foldl after empty

/-- After every history an operation in place does what it does as a whole. -/
theorem after_run (ops : List Operation) (op : Operation) :
    (run ops).after op = (run ops).apply op := by
  cases op with
  | delete i =>
    exact ((sound_run ops).atomic i).left_eq
      (fun _ hok => by simp only [CallStore.apply, delete, hok])
      (fun _ herror => by simp only [CallStore.apply, delete, herror])
  | _ => rfl

/-- A history in place leads where the history of operations as a whole leads. -/
theorem reached_eq_run (ops : List Operation) : reached ops = run ops :=
  foldl_eq_foldl after_run ops

/-- A handle was given out for a call, and that was neither deleted nor cleared since. -/
def StandsFor (ops : List Operation) (i : CallHandle) (c : Call) : Prop :=
  Standing after handed Operation.Drops empty ops i c

/-- After every history in place a handle leads to the call for which it stands. -/
theorem get?_reached_iff (ops : List Operation) (i : CallHandle) (c : Call) :
    (reached ops).get? i = some c ↔ StandsFor ops i c := by
  rw [reached_eq_run]
  exact (view.get?_eq_some_iff rfl ops).trans (standing_congr reached_eq_run)

end CallStore

/-! ## Chunks -/

namespace ChunkStore

variable {s : ChunkStore}

/-- One store is another one without the chunk of a handle. -/
structure Loses (s t : ChunkStore) (i : ChunkHandle) : Prop where
  entries_eq : t.chunks.entries = s.chunks.entries.filter (fun e => e.1 ≠ i)
  byKind : s.byKind.Without t.byKind i
  byFile : s.byFile.Without t.byFile i
  byModule : s.byModule.Without t.byModule i
  bySymbol : s.bySymbol.Without t.bySymbol i
  byComplexity : s.byComplexity.Without t.byComplexity i
  nextNumber_eq : t.nextNumber = s.nextNumber

/-- The deletion of a chunk is atomic: it fails with the handle, or gives the chunk of the handle and
leaves the store without this chunk. -/
def DeletesAtomically (s : ChunkStore) (i : ChunkHandle) : Prop :=
  Atomic (deletion i) s (.unknownHandle .chunk i.number) (fun c => s.get? i = some c)
    (fun _ t => s.Loses t i)

/-- With indices in step, the deletion of a chunk is atomic. -/
theorem atomic (h : s.shelf.InStep) (i : ChunkHandle) : s.DeletesAtomically i := by
  refine (takesOut_deletion i).atomic (fun _ => Iff.rfl) (fun c hget => ?_)
  have hwithout := h.without hget
  exact {
    entries_eq := s.chunks.entries_erase i
    byKind := hwithout .kind
    byFile := hwithout .file
    byModule := hwithout .module
    bySymbol := hwithout .symbol
    byComplexity := hwithout .complexity
    nextNumber_eq := rfl }

/-- The store after an operation, where a deletion works in place. -/
def after (s : ChunkStore) : Operation → ChunkStore
  | .delete i => left (deletion i) s
  | op => s.apply op

/-- The store after some operations in place, starting with the empty store. -/
def reached (ops : List Operation) : ChunkStore := ops.foldl after empty

/-- After every history an operation in place does what it does as a whole. -/
theorem after_run (ops : List Operation) (op : Operation) :
    (run ops).after op = (run ops).apply op := by
  cases op with
  | delete i =>
    exact (atomic (inStep_run ops) i).left_eq
      (fun _ hok => by simp only [ChunkStore.apply, delete, hok])
      (fun _ herror => by simp only [ChunkStore.apply, delete, herror])
  | _ => rfl

/-- A history in place leads where the history of operations as a whole leads. -/
theorem reached_eq_run (ops : List Operation) : reached ops = run ops :=
  foldl_eq_foldl after_run ops

/-- A handle was given out for a chunk, and that was neither deleted nor cleared since. -/
def StandsFor (ops : List Operation) (i : ChunkHandle) (c : Chunk) : Prop :=
  Standing after handed Operation.Drops empty ops i c

/-- After every history in place a handle leads to the chunk for which it stands. -/
theorem get?_reached_iff (ops : List Operation) (i : ChunkHandle) (c : Chunk) :
    (reached ops).get? i = some c ↔ StandsFor ops i c := by
  rw [reached_eq_run]
  exact (view.get?_eq_some_iff rfl ops).trans (standing_congr reached_eq_run)

end ChunkStore

/-! ## Symbols -/

namespace SymbolStore

variable {s : SymbolStore} {rows : List (SymbolHandle × Symbol)}

/-- One store is another one without a symbol and its key. -/
structure Loses (s t : SymbolStore) (i : SymbolHandle) (x : Symbol) : Prop where
  get?_eq : s.get? i = some x
  entries_eq : t.symbols.entries = s.symbols.entries.filter (fun e => e.1 ≠ i)
  handles_eq : t.handles.entries = s.handles.entries.filter (fun e => e.1 ≠ x.key)
  byName : s.byName.Without t.byName i
  byKind : s.byKind.Without t.byKind i
  byModule : s.byModule.Without t.byModule i
  byFile : s.byFile.Without t.byFile i
  references_eq : t.references = s.references
  nextNumber_eq : t.nextNumber = s.nextNumber

/-- The deletion of a symbol is atomic: it fails with the key, or gives the symbol with that key and
leaves the store without this symbol. -/
def DeletesAtomically (s : SymbolStore) (key : String) : Prop :=
  Atomic (deletion key) s (.unknownSymbol key) (fun x => x ∈ s.getAll ∧ x.key = key)
    (fun x t => ∃ i, s.Loses t i x)

/-- With both tables and all indices in step, the deletion of a symbol is atomic: a key that is found
leads to a symbol. -/
theorem Rows.atomic (h : s.Rows rows) (hcompact : s.Compact) (key : String) :
    s.DeletesAtomically key := by
  cases hkey : s.handles.get? key with
  | none =>
    refine atomic_of_error (run_deletion_of_none hkey) ?_
    rintro x ⟨hx, hxkey⟩
    obtain ⟨row, hrow, rfl⟩ := List.mem_map.1 (h.mem_getAll_iff.1 hx)
    exact h.key_ne_of_none hkey hrow hxkey
  | some i =>
    obtain ⟨x, hrow, rfl⟩ := h.handle_iff.1 hkey
    have hget := h.mem_iff.1 hrow
    have hx := h.mem_getAll_iff.2 (List.mem_map_of_mem hrow)
    refine atomic_of_ok (run_deletion_of_some hkey hget) ⟨hx, rfl⟩ ⟨i, ?_⟩
    exact {
      get?_eq := hget
      entries_eq := s.symbols.entries_erase i
      handles_eq := s.handles.entries_erase x.key
      byName := h.byName.without hcompact.byName h.nodup hrow
      byKind := h.byKind.without hcompact.byKind h.nodup hrow
      byModule := h.byModule.without hcompact.byModule h.nodup hrow
      byFile := h.byFile.without hcompact.byFile h.nodup hrow
      references_eq := rfl
      nextNumber_eq := rfl }

/-- The store after an operation, where a deletion works in place. -/
def after (s : SymbolStore) : Operation → SymbolStore
  | .delete key => left (deletion key) s
  | op => s.apply op

/-- The store after some operations in place, starting with the empty store. -/
def reached (ops : List Operation) : SymbolStore := ops.foldl after empty

/-- After every history an operation in place does what it does as a whole. -/
theorem after_run (ops : List Operation) (op : Operation) :
    (run ops).after op = (run ops).apply op := by
  cases op with
  | delete key =>
    obtain ⟨rows, h⟩ := follows_run ops
    exact (h.kept.atomic (compact_run ops) key).left_eq
      (fun _ hok => by simp only [SymbolStore.apply, delete, hok])
      (fun _ herror => by simp only [SymbolStore.apply, delete, herror])
  | _ => rfl

/-- A history in place leads where the history of operations as a whole leads. -/
theorem reached_eq_run (ops : List Operation) : reached ops = run ops :=
  foldl_eq_foldl after_run ops

end SymbolStore

/-! ## All stores -/

/-- After every history of each of the stores, in place, deletions are atomic. A handle of a call or
a chunk is stored exactly from the operation that gives it out to the first one that drops it. -/
theorem deletions_atomic :
    (∀ ops i, (CallStore.reached ops).DeletesAtomically i ∧
      ∀ c, (CallStore.reached ops).get? i = some c ↔ CallStore.StandsFor ops i c) ∧
    (∀ ops i, (ChunkStore.reached ops).DeletesAtomically i ∧
      ∀ c, (ChunkStore.reached ops).get? i = some c ↔ ChunkStore.StandsFor ops i c) ∧
    ∀ ops key, (SymbolStore.reached ops).DeletesAtomically key := by
  refine ⟨fun ops i => ?_, fun ops i => ?_, fun ops key => ?_⟩
  · refine ⟨?_, CallStore.get?_reached_iff ops i⟩
    rw [CallStore.reached_eq_run]
    exact (CallStore.sound_run ops).atomic i
  · refine ⟨?_, ChunkStore.get?_reached_iff ops i⟩
    rw [ChunkStore.reached_eq_run]
    exact ChunkStore.atomic (ChunkStore.inStep_run ops) i
  · obtain ⟨rows, h⟩ := SymbolStore.follows_run ops
    rw [SymbolStore.reached_eq_run]
    exact h.kept.atomic (SymbolStore.compact_run ops) key

end CodeAtlas.Store
