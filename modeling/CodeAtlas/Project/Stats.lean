import CodeAtlas.Analysis.Call
import CodeAtlas.Analysis.Symbol
import CodeAtlas.Chunk.Basic
import CodeAtlas.Store.Tally

/-!
# Numbers about an analysis

How many files, lines and entities an analysis has met, how they divide into kinds, how complex the
chunks are, and which files failed. Lines are added up in 64 bits and complexities in 32.
-/

namespace CodeAtlas.Project

open CodeAtlas.Analysis
open CodeAtlas.Chunking
open CodeAtlas.Store (Summary tally)

/-- Numbers about an analysis. -/
structure AnalysisStats where
  /-- The number of files that were analysed. -/
  files : Nat := 0
  totalLines : Nat := 0
  totalSymbols : Nat := 0
  totalCalls : Nat := 0
  totalChunks : Nat := 0
  symbolKinds : List (String × Nat) := []
  callKinds : List (String × Nat) := []
  chunkKinds : List (String × Nat) := []
  complexity : Summary := {}
  /-- One text for each file that failed: its path and the reason. -/
  errors : List String := []
  deriving DecidableEq, Repr, Inhabited

namespace AnalysisStats

/-- How often each kind occurs, in ascending order of the kinds. -/
def kindCounts (kinds : List String) : List (String × Nat) :=
  (tally kinds).entries.mergeSort (fun a b => decide (a.1 ≤ b.1))

/-- One more file with some lines. -/
def addFile (s : AnalysisStats) (lines : Nat) : Except Overflow AnalysisStats :=
  (Register.fit Register.limit64 (s.totalLines + lines)).map
    (fun totalLines => { s with files := s.files + 1, totalLines })

/-- One more file that failed. -/
def addError (s : AnalysisStats) (error : String) : AnalysisStats :=
  { s with errors := s.errors ++ [error] }

/-- The complexity of some chunks. Where no chunk has one, the numbers about complexity stay as they
are. -/
def complexityOf (s : AnalysisStats) (chunks : List Chunk) : Except Overflow Summary :=
  let scores := chunks.filterMap Chunk.complexity
  if scores.isEmpty then .ok s.complexity else Summary.ofList Register.limit32 scores

/-- The numbers with totals and kinds of some entities. -/
def summarize (s : AnalysisStats) (symbols : List Symbol) (calls : List Call)
    (chunks : List Chunk) : Except Overflow AnalysisStats := do
  let complexity ← s.complexityOf chunks
  return { s with
    totalSymbols := symbols.length
    totalCalls := calls.length
    totalChunks := chunks.length
    symbolKinds := kindCounts (symbols.map (fun x => x.kind.label))
    callKinds := kindCounts (calls.map (fun x => x.kind.label))
    chunkKinds := kindCounts (chunks.map (fun x => x.kind.label))
    complexity }

/-- Whether a file failed. -/
def hasErrors (s : AnalysisStats) : Bool := !s.errors.isEmpty

/-- The numbers in a line of text. -/
def summary (s : AnalysisStats) : String :=
  s!"Files: {s.files} ({s.totalLines} lines) | Symbols: {s.totalSymbols}" ++
    s!" | Calls: {s.totalCalls} | Chunks: {s.totalChunks} | Errors: {s.errors.length}"

end AnalysisStats

end CodeAtlas.Project
