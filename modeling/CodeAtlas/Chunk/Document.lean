import CodeAtlas.Chunk.Basic

/-!
# Chunks as documents

A document for a retrieval index: the content, and the fields of the chunk together with its
metadata as one flat map. Where both have a key, the metadata counts.
-/

namespace CodeAtlas.Chunking

/-- A content with a flat map of metadata. -/
structure Document where
  pageContent : String
  metadata : Table String Json
  deriving Inhabited

/-- The fields of a chunk as they are listed in a document. -/
def Chunk.documentFields (c : Chunk) : Except Overflow (List (String × Json)) := do
  let lines ← c.countLines
  return [
    ("file_path", .str c.filePath), ("module_path", .str c.modulePath),
    ("type", .str c.kind.label), ("name", .optStr c.symbolName),
    ("start_line", .nat c.startLine), ("end_line", .nat c.endLine),
    ("calls", .strs c.calls), ("called_by", .strs c.calledBy),
    ("dependencies", .strs c.dependencies), ("complexity", .optNat c.complexity),
    ("lines_count", .nat lines), ("characters_count", .nat c.characterCount),
    ("is_partial", .bool c.isPartial), ("content_hash", .str c.contentHash)]

/-- The document of a chunk. -/
def Chunk.toDocument (c : Chunk) : Except Overflow Document := do
  let fields ← c.documentFields
  return ⟨c.content, Table.ofList (fields ++ c.metadata.entries)⟩

end CodeAtlas.Chunking
