import CodeAtlas.Chunk.Basic

/-!
# Merging the passes

A structural chunk is dropped if a semantic chunk has the same symbol and starts at the same line.
-/

namespace CodeAtlas.Chunking

/-- Whether some semantic chunk stands for the same definition. -/
def isShadowed (semantic : List Chunk) (c : Chunk) : Bool :=
  semantic.any (fun s => s.symbolName == c.symbolName && s.startLine == c.startLine)

/-- The semantic chunks, then the structural ones that none of them shadows. -/
def merge (semantic structural : List Chunk) : List Chunk :=
  semantic ++ structural.filter (fun c => !isShadowed semantic c)

end CodeAtlas.Chunking
