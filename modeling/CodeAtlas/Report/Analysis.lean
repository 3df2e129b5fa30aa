import CodeAtlas.Project.FileAnalysis
import CodeAtlas.Project.Stats
import CodeAtlas.Report.Entities
import CodeAtlas.Report.Statistics

/-!
# Analyses in reports

What an analysis found, and the numbers about it, as JSON objects.
-/

namespace CodeAtlas.Report

open CodeAtlas.Project
open CodeAtlas.Chunking (ChunkingStats)

/-- The numbers about an analysis. -/
def analysisStats (s : AnalysisStats) : Json := .obj [
  ("files", .nat s.files), ("total_lines", .nat s.totalLines),
  ("total_symbols", .nat s.totalSymbols), ("total_calls", .nat s.totalCalls),
  ("total_chunks", .nat s.totalChunks), ("symbol_kinds", counts s.symbolKinds),
  ("call_kinds", counts s.callKinds), ("chunk_kinds", counts s.chunkKinds),
  ("average_complexity", .mean s.complexity.total s.complexity.count),
  ("max_complexity", .nat s.complexity.max), ("min_complexity", .nat s.complexity.min),
  ("errors", .strs s.errors)]

/-- The numbers about some chunks. -/
def chunkingStats (s : ChunkingStats) : Json := .obj [
  ("total_chunks", .nat s.totalChunks), ("semantic_chunks", .nat s.semanticChunks),
  ("structural_chunks", .nat s.structuralChunks), ("total_lines", .nat s.totalLines),
  ("total_complexity", .nat s.totalComplexity), ("min_lines", .nat s.minLines),
  ("max_lines", .nat s.maxLines)]

/-- What a file holds, as members of an object. -/
def fileAnalysisFields (a : FileAnalysis) : Except Overflow (List (String × Json)) := do
  let chunks ← chunks a.chunks
  return [
    ("symbols", .arr (a.symbols.map symbol)), ("calls", .arr (a.calls.map call)),
    ("chunks", chunks)]

end CodeAtlas.Report
