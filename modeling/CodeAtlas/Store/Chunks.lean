import CodeAtlas.Chunk.Basic
import CodeAtlas.Store.Handle
import CodeAtlas.Store.Index
import CodeAtlas.Store.Tally
import CodeAtlas.Store.Task

/-!
# The chunk store

Chunks with their indices. A chunk without a symbol or without a complexity is in no bucket of the
index concerned.
-/

namespace CodeAtlas.Store

open CodeAtlas.Chunking

/-- A handle of the chunk store. -/
abbrev ChunkHandle := Handle .chunk

/-- Chunks with their handles and indices. -/
structure ChunkStore where
  chunks : Table ChunkHandle Chunk := ∅
  byKind : Index ChunkKind ChunkHandle := {}
  byFile : Index String ChunkHandle := {}
  byModule : Index String ChunkHandle := {}
  bySymbol : Index String ChunkHandle := {}
  byComplexity : Index Nat ChunkHandle := {}
  nextNumber : Nat := 0
  deriving Inhabited

/-- Counts of the chunks in a store. -/
structure ChunkStatistics where
  totalChunks : Nat
  byKind : List (String × Nat)
  byFile : List (String × Nat)
  byModule : List (String × Nat)
  complexity : Summary
  /-- The number of chunks of each complexity. -/
  distribution : List (String × Nat)
  lines : Summary
  characters : Summary
  deriving DecidableEq, Repr, Inhabited

namespace Index

variable {κ ι : Type} [DecidableEq κ] [DecidableEq ι]

/-- The index with one more handle for an attribute that may be missing. -/
def addOptional (i : Index κ ι) (key : Option κ) (id : ι) : Index κ ι :=
  match key with
  | none => i
  | some k => i.add k id

/-- The index without a handle of an attribute that may be missing. -/
def removeOptional (i : Index κ ι) (key : Option κ) (id : ι) : Index κ ι :=
  match key with
  | none => i
  | some k => i.remove k id

end Index

namespace ChunkStore

/-- The store without chunks. -/
def empty : ChunkStore := {}

/-- Keeps a chunk. -/
def save (s : ChunkStore) (c : Chunk) : ChunkStore × ChunkHandle :=
  let h : ChunkHandle := ⟨s.nextNumber⟩
  ({ s with
      chunks := s.chunks.insert h c
      byKind := s.byKind.add c.kind h
      byFile := s.byFile.add c.filePath h
      byModule := s.byModule.add c.modulePath h
      bySymbol := s.bySymbol.addOptional c.symbolName h
      byComplexity := s.byComplexity.addOptional c.complexity h
      nextNumber := s.nextNumber + 1 }, h)

/-- The chunk of a handle. -/
def get? (s : ChunkStore) (h : ChunkHandle) : Option Chunk := s.chunks.get? h

/-- The chunks of some handles. -/
def resolve (s : ChunkStore) (hs : List ChunkHandle) : List Chunk := hs.filterMap s.get?

/-- The chunks of a kind. -/
def findByKind (s : ChunkStore) (kind : ChunkKind) : List Chunk := s.resolve (s.byKind.find kind)

/-- The chunks of a file. -/
def findByFile (s : ChunkStore) (filePath : String) : List Chunk :=
  s.resolve (s.byFile.find filePath)

/-- The chunks of a module. -/
def findByModule (s : ChunkStore) (modulePath : String) : List Chunk :=
  s.resolve (s.byModule.find modulePath)

/-- The chunks of a symbol. -/
def findBySymbol (s : ChunkStore) (symbolName : String) : List Chunk :=
  s.resolve (s.bySymbol.find symbolName)

/-- The handles of the chunks whose complexity is in a range, in the order of the index. -/
def handlesInRange (s : ChunkStore) (low high : Nat) : List ChunkHandle :=
  (s.byComplexity.buckets.entries.filter (fun e => low ≤ e.1 && e.1 ≤ high)).flatMap Prod.snd

/-- The chunks whose complexity is in a range with both its ends, in the order in which they were
saved. -/
def findByComplexityRange (s : ChunkStore) (low high : Nat) : List Chunk :=
  s.resolve ((s.handlesInRange low high).mergeSort (fun a b => decide (a.number ≤ b.number)))

/-- The chunks with at least some number of lines. -/
def findLargeChunks (s : ChunkStore) (minLines : Nat) : Except Overflow (List Chunk) :=
  s.chunks.values.filterM (fun c => c.countLines.map (fun lines => decide (minLines ≤ lines)))

/-- All chunks in the order in which they were saved. -/
def getAll (s : ChunkStore) : List Chunk := s.chunks.values

/-- All chunks with their handles. -/
def toList (s : ChunkStore) : List (ChunkHandle × Chunk) := s.chunks.entries

/-- Takes the chunk of a handle out of the table first, and then out of the indices. -/
def deletion (h : ChunkHandle) : Task ChunkStore Chunk := do
  let c ← takeOut chunks (fun s chunks => { s with chunks }) h (.unknownHandle .chunk h.number)
  modify (fun s =>
    { s with
      byKind := s.byKind.remove c.kind h
      byFile := s.byFile.remove c.filePath h
      byModule := s.byModule.remove c.modulePath h
      bySymbol := s.bySymbol.removeOptional c.symbolName h
      byComplexity := s.byComplexity.removeOptional c.complexity h })
  return c

/-- Removes the chunk of a handle. -/
def delete (s : ChunkStore) (h : ChunkHandle) : Except StoreError (ChunkStore × Chunk) :=
  perform (deletion h) s

/-- Removes everything; numbers that were issued are not issued again. -/
def clear (s : ChunkStore) : ChunkStore := { nextNumber := s.nextNumber }

/-- The number of chunks. -/
def size (s : ChunkStore) : Nat := s.chunks.size

/-- Whether there are no chunks. -/
def isEmpty (s : ChunkStore) : Bool := s.chunks.isEmpty

/-- Counts of the chunks. There are none of any kind if one of the numbers leaves its register. -/
def statistics (s : ChunkStore) : Except Overflow ChunkStatistics := do
  let lines ← s.getAll.mapM Chunk.countLines
  let complexity ← Summary.ofList Register.limit64 (s.getAll.filterMap Chunk.complexity)
  let lines ← Summary.ofList Register.limit64 lines
  let characters ← Summary.ofList Register.limit64 (s.getAll.map Chunk.characterCount)
  return {
    totalChunks := s.size
    byKind := s.byKind.sizes ChunkKind.label
    byFile := s.byFile.sizes id
    byModule := s.byModule.sizes id
    complexity
    distribution := s.byComplexity.sizes toString
    lines
    characters }

end ChunkStore

end CodeAtlas.Store
