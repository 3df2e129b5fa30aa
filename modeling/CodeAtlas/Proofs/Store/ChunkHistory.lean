import CodeAtlas.Proofs.Store.Shelf
import CodeAtlas.Store.Chunks

/-!
# Histories of a chunk store

A store of chunks starts empty and changes by operations. A deletion that succeeds takes the chunk
of a handle out of the table and of every index that lists it. The store is nothing but a table with
five indices.

Main definition: `ChunkStore.view`, the table of chunks with its indices.

Main results:

- Theorem `delete_eq_ok_iff`: what a deletion that succeeds leaves behind.
- Theorem `inStep_run`: after every history the indices are in step with the chunks.
-/

namespace CodeAtlas.Store

open CodeAtlas.Chunking

/-- What chunks are looked up by. -/
inductive ChunkAttribute where
  | kind
  | file
  | module
  | symbol
  | complexity

/-- The attributes of chunks. A chunk may be without a symbol and without a complexity. -/
@[reducible]
def chunkCatalogue : Catalogue Chunk where
  Attribute := ChunkAttribute
  Value
    | .kind => ChunkKind
    | .complexity => Nat
    | _ => String
  decEq
    | .kind => inferInstanceAs (DecidableEq ChunkKind)
    | .complexity => inferInstanceAs (DecidableEq Nat)
    | .file | .module | .symbol => inferInstanceAs (DecidableEq String)
  value?
    | .kind, c => some c.kind
    | .file, c => some c.filePath
    | .module, c => some c.modulePath
    | .symbol, c => c.symbolName
    | .complexity, c => c.complexity

namespace ChunkStore

/-- What changes a store of chunks. -/
inductive Operation where
  | save (c : Chunk)
  | delete (h : ChunkHandle)
  | clear
  deriving Inhabited

/-- The store after an operation; a deletion that fails leaves it as it was. -/
def apply (s : ChunkStore) : Operation → ChunkStore
  | .save c => (s.save c).1
  | .delete h =>
    match s.delete h with
    | .ok deleted => deleted.1
    | .error _ => s
  | .clear => s.clear

/-- The store after some operations, starting with the empty store. -/
def run (ops : List Operation) : ChunkStore := ops.foldl apply empty

variable {s t : ChunkStore} {i : ChunkHandle}

/-! ## Deletions -/

/-- The store without a chunk and its handle. -/
def dropped (s : ChunkStore) (i : ChunkHandle) (c : Chunk) : ChunkStore :=
  { s with
    chunks := s.chunks.erase i
    byKind := s.byKind.remove c.kind i
    byFile := s.byFile.remove c.filePath i
    byModule := s.byModule.remove c.modulePath i
    bySymbol := s.bySymbol.removeOptional c.symbolName i
    byComplexity := s.byComplexity.removeOptional c.complexity i }

/-- A deletion takes the chunk of a handle out everywhere. Without one it fails, and names the
handle. -/
theorem takesOut_deletion (i : ChunkHandle) :
    TakesOut (deletion i) (fun s => s.chunks.get? i) (fun s c => s.dropped i c)
      (.unknownHandle .chunk i.number) where
  run_of_none h := by rw [deletion, EStateM.run_bind, run_takeOut_of_none h]
  run_of_some h := by
    rw [deletion, EStateM.run_bind, run_takeOut_of_some h]
    rfl

/-- A deletion that succeeds takes out the chunk of the handle, and that chunk is given back. -/
theorem delete_eq_ok_iff {deleted : ChunkStore × Chunk} :
    s.delete i = .ok deleted ↔ ∃ c, s.chunks.get? i = some c ∧ deleted = (s.dropped i c, c) :=
  (takesOut_deletion i).perform_eq_ok_iff

/-- A deletion fails if the handle leads nowhere, and names the handle. -/
theorem delete_eq_error_iff {e : StoreError} :
    s.delete i = .error e ↔ s.chunks.get? i = none ∧ e = .unknownHandle .chunk i.number :=
  (takesOut_deletion i).perform_eq_error_iff

/-! ## The table with its indices -/

/-- The chunks with their indices. -/
def shelf (s : ChunkStore) : Shelf .chunk chunkCatalogue where
  table := s.chunks
  index
    | .kind => s.byKind
    | .file => s.byFile
    | .module => s.byModule
    | .symbol => s.bySymbol
    | .complexity => s.byComplexity
  next := s.nextNumber

/-- There is nothing else in the store. -/
theorem eq_of_shelf_eq (h : s.shelf = t.shelf) : s = t := by
  have hchunks : s.chunks = t.chunks := congrArg Shelf.table h
  have hindex := congrFun (congrArg Shelf.index h)
  have hkind : s.byKind = t.byKind := hindex .kind
  have hfile : s.byFile = t.byFile := hindex .file
  have hmodule : s.byModule = t.byModule := hindex .module
  have hsymbol : s.bySymbol = t.bySymbol := hindex .symbol
  have hcomplexity : s.byComplexity = t.byComplexity := hindex .complexity
  have hnext : s.nextNumber = t.nextNumber := congrArg Shelf.next h
  cases s
  cases t
  simp_all

theorem shelf_empty : empty.shelf = .empty :=
  Shelf.ext rfl (funext (fun a => by cases a <;> rfl)) rfl

theorem shelf_save (s : ChunkStore) (c : Chunk) : (s.save c).1.shelf = s.shelf.save c :=
  Shelf.ext rfl (funext (fun a => by cases a <;> rfl)) rfl

theorem shelf_dropped (s : ChunkStore) (i : ChunkHandle) (c : Chunk) :
    (s.dropped i c).shelf = s.shelf.drop i c :=
  Shelf.ext rfl (funext (fun a => by cases a <;> rfl)) rfl

theorem shelf_clear (s : ChunkStore) : s.clear.shelf = s.shelf.clear :=
  Shelf.ext rfl (funext (fun a => by cases a <;> rfl)) rfl

/-- What an operation does to the table and its indices. -/
def Operation.effect : Operation → Effect .chunk Chunk
  | .save c => .save c
  | .delete h => .delete h
  | .clear => .clear

theorem shelf_apply (s : ChunkStore) (op : Operation) :
    (s.apply op).shelf = s.shelf.apply op.effect := by
  cases op with
  | save c => exact s.shelf_save c
  | delete i =>
    simp only [apply, Operation.effect, Shelf.apply]
    split
    · next deleted hdelete =>
      obtain ⟨c, hget, rfl⟩ := delete_eq_ok_iff.1 hdelete
      simp only [show s.shelf.table.get? i = some c from hget, shelf_dropped]
    · next e hdelete =>
      have hget : s.shelf.table.get? i = none := (delete_eq_error_iff.1 hdelete).1
      simp only [hget]
  | clear => exact s.shelf_clear

/-- A store of chunks is a table with indices. -/
def view : View .chunk chunkCatalogue ChunkStore Operation :=
  ⟨shelf, apply, Operation.effect, shelf_apply⟩

/-- After every history the indices are in step with the chunks, and no bucket is empty. -/
theorem inStep_run (ops : List Operation) : (run ops).shelf.InStep := by
  have hempty : empty.shelf.InStep := by
    rw [shelf_empty]
    exact Shelf.inStep_empty
  exact view.inStep_foldl hempty ops

end ChunkStore

end CodeAtlas.Store
