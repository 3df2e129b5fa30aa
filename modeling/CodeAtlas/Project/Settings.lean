import CodeAtlas.Chunk.Settings
import CodeAtlas.Project.Config

/-!
# Analysis settings as JSON

The settings of an analysis are read from an object in which every member may be missing, and
written as an object with all members.
-/

namespace CodeAtlas.Project

open CodeAtlas.Chunking

/-- Reads a mode. -/
def AnalysisMode.ofJson? (v : Json) : Option AnalysisMode := v.choice?.bind AnalysisMode.ofLabel?

namespace ScanOptions

/-- The names of the options. -/
def memberNames : List String :=
  ["include_tests", "include_docs", "max_file_size", "exclude_patterns", "respect_gitignore"]

/-- Reads options; missing ones have their default values. -/
def ofJson? (v : Json) : Option ScanOptions := do
  let default : ScanOptions := {}
  let member ← v.record? memberNames
  let includeTests ← Json.readOr default.includeTests Json.bool? (member "include_tests")
  let includeDocs ← Json.readOr default.includeDocs Json.bool? (member "include_docs")
  let maxFileSize ←
    Json.readOr default.maxFileSize (Json.nullable? Json.nat?) (member "max_file_size")
  let excludePatterns ←
    Json.readOr default.excludePatterns (Json.list? Json.str?) (member "exclude_patterns")
  let respectGitignore ←
    Json.readOr default.respectGitignore Json.bool? (member "respect_gitignore")
  return { includeTests, includeDocs, maxFileSize, excludePatterns, respectGitignore }

/-- The options as an object. -/
def toJson (o : ScanOptions) : Json := .obj [
  ("include_tests", .bool o.includeTests), ("include_docs", .bool o.includeDocs),
  ("max_file_size", .optNat o.maxFileSize), ("exclude_patterns", .strs o.excludePatterns),
  ("respect_gitignore", .bool o.respectGitignore)]

end ScanOptions

namespace AnalyzerConfig

/-- The names of the settings. -/
def memberNames : List String := ["mode", "scan", "chunker"]

/-- Reads settings; missing ones have their default values. -/
def ofJson? (v : Json) : Option AnalyzerConfig := do
  let default : AnalyzerConfig := {}
  let member ← v.record? memberNames
  let mode ← Json.readOr default.mode AnalysisMode.ofJson? (member "mode")
  let scan ← Json.readOr default.scan ScanOptions.ofJson? (member "scan")
  let chunker ← Json.readOr default.chunker ChunkerConfig.ofJson? (member "chunker")
  return { mode, scan, chunker }

/-- The settings as an object. -/
def toJson (c : AnalyzerConfig) : Json := .obj [
  ("mode", .str c.mode.label), ("scan", c.scan.toJson), ("chunker", c.chunker.toJson)]

end AnalyzerConfig

end CodeAtlas.Project
