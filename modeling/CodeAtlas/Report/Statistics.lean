import CodeAtlas.Json
import CodeAtlas.Store.Calls
import CodeAtlas.Store.Chunks
import CodeAtlas.Store.Symbols

/-!
# Statistics in reports

The counts of the three stores as JSON objects.
-/

namespace CodeAtlas.Report

open CodeAtlas.Store

/-- Numbers by name. -/
def counts (entries : List (String × Nat)) : Json :=
  .obj (entries.map (fun e => (e.1, .nat e.2)))

/-- A ranking as a list of pairs. -/
def ranking (entries : List (String × Nat)) : Json :=
  .arr (entries.map (fun e => .arr [.str e.1, .nat e.2]))

/-- The counts of a symbol store. -/
def symbolStatistics (s : SymbolStatistics) : Json := .obj [
  ("total_symbols", .nat s.totalSymbols), ("symbols_by_kind", counts s.byKind),
  ("symbols_by_module", counts s.byModule), ("symbols_by_file", counts s.byFile),
  ("unused_symbols_count", .nat s.unusedCount)]

/-- The counts of a call store. -/
def callStatistics (s : CallStatistics) : Json := .obj [
  ("total_calls", .nat s.totalCalls), ("calls_by_kind", counts s.byKind),
  ("calls_by_file", counts s.byFile), ("most_called", ranking s.mostCalled),
  ("most_calling", ranking s.mostCalling), ("cycles_count", .nat s.cyclesCount),
  ("unique_callers", .nat s.uniqueCallers), ("unique_callees", .nat s.uniqueCallees)]

/-- Mean and extremes of a sample. -/
def summaryFields (s : Summary) : List (String × Json) := [
  ("average", .mean s.total s.count), ("max", .nat s.max), ("min", .nat s.min)]

/-- The counts of a chunk store. -/
def chunkStatistics (s : ChunkStatistics) : Json := .obj [
  ("total_chunks", .nat s.totalChunks), ("chunks_by_kind", counts s.byKind),
  ("chunks_by_file", counts s.byFile), ("chunks_by_module", counts s.byModule),
  ("complexity",
    .obj (summaryFields s.complexity ++ [("distribution", counts s.distribution)])),
  ("lines", .obj (summaryFields s.lines)), ("characters", .obj (summaryFields s.characters))]

/-- The lists of a graph by node. -/
def graph (entries : List (String × List String)) : Json :=
  .obj (entries.map (fun e => (e.1, .strs e.2)))

end CodeAtlas.Report
