import CodeAtlas.Project.Analyzer
import CodeAtlas.Report.Analysis

/-!
# Projects in reports

What an analysis of a project gave, what an analyzer has in store, and the cycles among its calls, as
JSON objects.
-/

namespace CodeAtlas.Report

open CodeAtlas.Chunking
open CodeAtlas.Project

/-- Everything that an analysis of a project gave. -/
def project (r : ProjectReport) : Except Overflow Json := do
  let chunks ← chunks r.chunks
  return .obj [
    ("symbols", .arr (r.symbols.map symbol)), ("calls", .arr (r.calls.map call)),
    ("chunks", chunks), ("statistics", analysisStats r.statistics)]

/-- The counts of the stores. -/
def stores (a : Analyzer) : Except Overflow Json := do
  let chunks ← a.chunks.statistics
  return .obj [
    ("symbols", symbolStatistics a.symbols.statistics),
    ("calls", callStatistics a.calls.statistics), ("chunks", chunkStatistics chunks)]

/-- An analysis of a project: numbers, and everything that was found if it is wanted. -/
def analysis (root : String) (a : Analyzer) (r : ProjectReport) (full : Bool) :
    Except Overflow Json := do
  let stores ← stores a
  let entities ← if full then (project r).map some else .ok none
  return .obj ([("root", .str root), ("summary", analysisStats r.statistics), ("stores", stores)] ++
    entities.toList.map (fun e => ("entities", e)))

/-- An analysis of a file. -/
def file (path : String) (mode : AnalysisMode) (a : FileAnalysis) : Except Overflow Json := do
  let fields ← fileAnalysisFields a
  return .obj ([("file", .str path), ("analysis_type", .str mode.label)] ++ fields)

/-- The cycles among the calls in store. -/
def cycles (a : Analyzer) : Json := .obj [
  ("detector", .str a.calls.detector.label),
  ("cycles", .arr (a.calls.findCycles.map Json.strs)), ("call_graph", graph a.calls.callGraph),
  ("statistics", callStatistics a.calls.statistics)]

/-- The chunks that match a query. -/
def matching (query : String) (found : List Chunk) : Except Overflow Json := do
  let found ← chunks found
  return .obj [("query", .str query), ("matches", found)]

/-- The chunks of a file, with the name of the filter that they have passed. -/
def fileChunks (path : String) (filter : Option ChunkFilter) (found : List Chunk) :
    Except Overflow Json := do
  let stats ← ChunkingStats.ofChunks found
  let found ← chunks found
  return .obj ([("file", .str path)] ++ (filter.toList.map (fun f => ("kind", .str f.label))) ++
    [("summary", .str stats.summary), ("chunks", found)])

end CodeAtlas.Report
