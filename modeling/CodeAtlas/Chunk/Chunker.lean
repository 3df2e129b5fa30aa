import CodeAtlas.Chunk.Merge
import CodeAtlas.Chunk.Passes

/-!
# Cutting a file into chunks

A chunker is made of valid settings with their patterns read, and runs the passes that its mode
asks for.
-/

namespace CodeAtlas.Chunking

/-- Settings with their patterns read. -/
structure Chunker where
  config : ChunkerConfig
  library : PatternLibrary
  /-- Whether a pattern matches a text. -/
  isMatch : Regex → List Char → Bool
  deriving Inhabited

namespace Chunker

/-- The chunker of valid settings, given how patterns are read and matched. -/
def createWith (read : String → Option Regex) (isMatch : Regex → List Char → Bool)
    (config : ChunkerConfig) : Except ChunkError Chunker := do
  config.validateWith read
  let library ← PatternLibrary.ofConfigWith read config
  return ⟨config, library, isMatch⟩

/-- The chunker of valid settings. -/
def create (config : ChunkerConfig) : Except ChunkError Chunker :=
  createWith Regex.parse Regex.isMatch config

/-- What the semantic pass makes of a file. -/
def semanticChunks (c : Chunker) (file : SourceFile) : Except ChunkError (List Chunk) :=
  semanticPass c.isMatch c.config c.library file

/-- The chunks of a file. In both passes together the semantic one comes first, and so does its
error. -/
def chunkFile (c : Chunker) (file : SourceFile) : Except ChunkError (List Chunk) :=
  match c.config.mode with
  | .hybrid => do
    let semantic ← c.semanticChunks file
    let structural ← structuralPass c.config file
    return merge semantic structural
  | .structural => structuralPass c.config file
  | .semantic => c.semanticChunks file

end Chunker

/-- Numbers about some chunks. -/
structure ChunkingStats where
  totalChunks : Nat
  semanticChunks : Nat
  structuralChunks : Nat
  totalLines : Nat
  totalComplexity : Nat
  minLines : Nat
  maxLines : Nat
  deriving DecidableEq, Repr, Inhabited

namespace ChunkingStats

/-- The numbers about some chunks; without chunks they are all zero. -/
def ofChunks (chunks : List Chunk) : Except Overflow ChunkingStats := do
  let lines ← chunks.mapM Chunk.countLines
  let totalLines ← Register.sum Register.limit64 lines
  let totalComplexity ← Register.sum Register.limit32 (chunks.filterMap Chunk.complexity)
  return {
    totalChunks := chunks.length
    semanticChunks := chunks.countP Chunk.isSemantic
    structuralChunks := chunks.countP Chunk.isStructural
    totalLines
    totalComplexity
    minLines := lines.min?.getD 0
    maxLines := lines.max?.getD 0 }

/-- The numbers in a line of text. -/
def summary (s : ChunkingStats) : String :=
  s!"Chunks: {s.totalChunks} ({s.semanticChunks} semantic, {s.structuralChunks} structural)" ++
    s!" | Lines: {s.totalLines} | Complexity: {s.totalComplexity}" ++
    s!" | Range: {s.minLines}-{s.maxLines}"

end ChunkingStats

end CodeAtlas.Chunking
