import CodeAtlas.Chunk.Config
import CodeAtlas.Json.Reader

/-!
# Chunking settings as JSON

The settings of chunking are read from an object in which every member may be missing; a category
of patterns has to be complete. They are written as an object with all members.
-/

namespace CodeAtlas.Chunking

/-- Reads a mode. -/
def ChunkingMode.ofJson? (v : Json) : Option ChunkingMode := v.choice?.bind ChunkingMode.ofLabel?

namespace PatternCategory

/-- Reads a category. -/
def ofJson? (v : Json) : Option PatternCategory := do
  let member ← v.record? ["name", "patterns"]
  let name ← (member "name").bind Json.str?
  let patterns ← (member "patterns").bind (Json.list? Json.str?)
  return ⟨name, patterns⟩

/-- The category as an object. -/
def toJson (c : PatternCategory) : Json :=
  .obj [("name", .str c.name), ("patterns", .strs c.patterns)]

end PatternCategory

namespace ChunkerConfig

/-- The names of the settings. -/
def memberNames : List String :=
  ["mode", "patterns", "complexity_keywords", "medium_line_threshold", "complex_line_threshold"]

/-- Reads settings; missing ones have their default values. -/
def ofJson? (v : Json) : Option ChunkerConfig := do
  let default : ChunkerConfig := {}
  let member ← v.record? memberNames
  let mode ← Json.readOr default.mode ChunkingMode.ofJson? (member "mode")
  let patterns ←
    Json.readOr default.patterns (Json.list? PatternCategory.ofJson?) (member "patterns")
  let complexityKeywords ←
    Json.readOr default.complexityKeywords (Json.list? Json.str?) (member "complexity_keywords")
  let mediumLineThreshold ←
    Json.readOr default.mediumLineThreshold Json.nat? (member "medium_line_threshold")
  let complexLineThreshold ←
    Json.readOr default.complexLineThreshold Json.nat? (member "complex_line_threshold")
  return { mode, patterns, complexityKeywords, mediumLineThreshold, complexLineThreshold }

/-- The settings as an object. -/
def toJson (c : ChunkerConfig) : Json := .obj [
  ("mode", .str c.mode.label), ("patterns", .arr (c.patterns.map PatternCategory.toJson)),
  ("complexity_keywords", .strs c.complexityKeywords),
  ("medium_line_threshold", .nat c.mediumLineThreshold),
  ("complex_line_threshold", .nat c.complexLineThreshold)]

end ChunkerConfig

end CodeAtlas.Chunking
