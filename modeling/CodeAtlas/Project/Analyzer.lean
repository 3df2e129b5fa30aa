import CodeAtlas.Project.FileAnalysis
import CodeAtlas.Project.Scan
import CodeAtlas.Project.Stats
import CodeAtlas.Store.Calls
import CodeAtlas.Store.Chunks
import CodeAtlas.Store.Symbols

/-!
# The analysis of a project

An analyzer goes through the source files below a directory and keeps what they hold in stores. A
file that fails is noted and the others go on. Once all files are through, each call is a reference
to the symbol that its callee names, if there is one.

Main statements:

* `run_analysis_of_directory` and `run_analysis_of_not_directory`: the files of a directory are stored
  whatever comes of them, and a root that is none fails and leaves the analyzer as it is;
* `run_fileAnalysis`: so does a file that cannot be analysed.
-/

namespace CodeAtlas.Project

open CodeAtlas.Analysis
open CodeAtlas.Chunking
open CodeAtlas.Files (Workspace)
open CodeAtlas.Graph (CycleDetector)
open CodeAtlas.Store
open CodeAtlas.Syntax

/-! ## Files one after the other -/

/-- The bytes of a file, read and analysed. -/
def FileParser.analyzeFile (p : FileParser) (w : Workspace) (path : String) (mode : AnalysisMode) :
    Except ProjectError FileAnalysis := do
  let bytes ← (w.read path).mapError ProjectError.unreadable
  p.analyzeBytes bytes path mode

/-- What files gave so far. -/
structure Collected where
  analysis : FileAnalysis := {}
  statistics : AnalysisStats := {}
  deriving Inhabited

namespace Collected

/-- One more file with what came of it. -/
def add (c : Collected) (path : String) :
    Except ProjectError FileAnalysis → Except Overflow Collected
  | .ok a => (c.statistics.addFile a.lineCount).map (fun s => ⟨c.analysis.extend a, s⟩)
  | .error e => .ok { c with statistics := c.statistics.addError (path ++ ": " ++ e.message) }

/-- What files give, one after the other. -/
def addAll (c : Collected) (outcomes : List (String × Except ProjectError FileAnalysis)) :
    Except Overflow Collected :=
  outcomes.foldlM (fun c o => c.add o.1 o.2) c

end Collected

/-- What an analysis of a project gives. -/
structure ProjectReport where
  symbols : List Symbol
  calls : List Call
  chunks : List Chunk
  statistics : AnalysisStats
  deriving Inhabited

namespace Collected

/-- The report with the numbers of what was collected. -/
def report (c : Collected) : Except Overflow ProjectReport := do
  let a := c.analysis
  let statistics ← c.statistics.summarize a.symbols a.calls a.chunks
  return ⟨a.symbols, a.calls, a.chunks, statistics⟩

end Collected

/-! ## Analyzers -/

/-- Settings and stores. -/
structure Analyzer where
  config : AnalyzerConfig
  parser : FileParser
  symbols : SymbolStore := .empty
  calls : CallStore := .empty
  chunks : ChunkStore := .empty

namespace Analyzer

/-- An analyzer with empty stores, if the settings make sense, given how patterns are read and
matched. -/
def createWith (read : String → Option Regex) (isMatch : Regex → List Char → Bool)
    (outline : String → Option Tree) (config : AnalyzerConfig) : Except ProjectError Analyzer := do
  config.validateWith read
  let parser ← FileParser.createWith read isMatch outline config.mode config.chunker
  return { config, parser }

/-- An analyzer with empty stores, if the settings make sense. -/
def create (outline : String → Option Tree) (config : AnalyzerConfig) :
    Except ProjectError Analyzer :=
  createWith Regex.parse Regex.isMatch outline config

/-- The analyzer with another way of reporting cycles. -/
def setDetector (a : Analyzer) (detector : CycleDetector) : Analyzer :=
  { a with calls := a.calls.setDetector detector }

/-- The analyzer with empty stores. -/
def clear (a : Analyzer) : Analyzer :=
  { a with symbols := a.symbols.clear, calls := a.calls.clear, chunks := a.chunks.clear }

/-- The analyzer with one more symbol. -/
def addSymbol (a : Analyzer) (s : Symbol) : Analyzer := { a with symbols := (a.symbols.save s).1 }

/-- The analyzer with one more call, which refers to the symbol that its callee names. -/
def addCall (a : Analyzer) (c : Call) : Analyzer :=
  let symbols :=
    match a.symbols.findByName c.callee with
    | some s => a.symbols.addReference s.key c.caller
    | none => a.symbols
  { a with symbols, calls := (a.calls.save c).1 }

/-- The analyzer with one more chunk. -/
def addChunk (a : Analyzer) (c : Chunk) : Analyzer := { a with chunks := (a.chunks.save c).1 }

/-- The analyzer with what was found: symbols first, so that calls find them. -/
def store (a : Analyzer) (found : FileAnalysis) : Analyzer :=
  found.chunks.foldl addChunk (found.calls.foldl addCall (found.symbols.foldl addSymbol a))

/-- The analyzer with what was collected, unless a number left its register on the way. -/
def storeCollected (a : Analyzer) : Except Overflow Collected → Analyzer
  | .ok c => a.store c.analysis
  | .error _ => a

/-- What comes of each file of a scan. -/
def outcomes (a : Analyzer) (w : Workspace) (root : String) (options : ScanOptions) :
    List (String × Except ProjectError FileAnalysis) :=
  (scan w root options).map (fun path => (path, a.parser.analyzeFile w path a.parser.mode))

/-- What an analyzer does: it may change the analyzer, and it may fail. What was changed before a
failure stays changed. -/
abbrev Task := EStateM ProjectError Analyzer

/-- The analyzer after a task with what the task gives, or why it fails. -/
def perform {α : Type} (a : Analyzer) (task : Task α) : Except ProjectError (Analyzer × α) :=
  match task.run a with
  | .ok x a => .ok (a, x)
  | .error e _ => .error e

/-- Fails unless a path leads to a directory. -/
def ensureDirectory (w : Workspace) (path : String) : Except ProjectError Unit :=
  if w.isDirectory path then .ok () else .error (.invalidPath (.notDirectory path))

/-- Fails unless a path leads to a file. -/
def ensureFile (w : Workspace) (path : String) : Except ProjectError Unit :=
  if w.isFile path then .ok () else .error (.invalidPath (.notFile path))

/-- Analyses the files below a directory, in place of what was there before. The lines are counted on
the way and the other numbers last, when everything is in store. -/
def analysis (w : Workspace) (root : String) (options : ScanOptions) :
    Task (Except Overflow ProjectReport) := do
  ofExcept (ensureDirectory w root)
  modify clear
  let a ← get
  let collected := ({} : Collected).addAll (a.outcomes w root options)
  modify (fun a => a.storeCollected collected)
  return collected.bind Collected.report

/-- What comes of a file that is asked for by its path. -/
def fileOutcome (a : Analyzer) (w : Workspace) (path : String) (mode : AnalysisMode) :
    Except ProjectError FileAnalysis := do
  ensureFile w path
  a.parser.analyzeFile w path mode

/-- Keeps what was found besides what was there before. -/
def keep (outcome : Except ProjectError FileAnalysis) : Task FileAnalysis := do
  let found ← ofExcept outcome
  modify (fun a => a.store found)
  return found

/-- Analyses a file and keeps what it holds. -/
def fileAnalysis (w : Workspace) (path : String) (mode : AnalysisMode) : Task FileAnalysis := do
  let a ← get
  keep (a.fileOutcome w path mode)

/-- The analyzer after the analysis of a directory, with the report. -/
def analyze (a : Analyzer) (w : Workspace) (root : String) (options : ScanOptions) :
    Except ProjectError (Analyzer × Except Overflow ProjectReport) :=
  a.perform (analysis w root options)

/-- The analyzer after the analysis of a file, with what was found. -/
def analyzeFile (a : Analyzer) (w : Workspace) (path : String) (mode : AnalysisMode) :
    Except ProjectError (Analyzer × FileAnalysis) :=
  a.perform (fileAnalysis w path mode)

/-! ## Searching -/

/-- Whether a text in small letters occurs in another text, whose letters may be of any size. -/
def occursIn (query : List Char) (text : String) : Bool :=
  Text.occursIn query (Text.lowercase text.toList)

/-- Whether a query occurs in a value: in a string, or in a string of an array. -/
def occursInValue (query : List Char) : Json → Bool
  | .str s => occursIn query s
  | .arr items => (items.filterMap Json.str?).any (occursIn query)
  | _ => false

/-- Whether a query in small letters occurs in the metadata or the content of a chunk. -/
def matchesQuery (query : List Char) (c : Chunk) : Bool :=
  c.metadata.values.any (occursInValue query) || occursIn query c.content

/-- The semantic chunks in store that match a query. -/
def search (a : Analyzer) (query : String) : List Chunk :=
  let query := Text.lowercase query.toList
  a.chunks.getAll.filter (fun c => c.isSemantic && matchesQuery query c)

/-- The chunks of a file that pass a filter, if there is one. -/
def chunksOfFile (a : Analyzer) (w : Workspace) (path : String) (filter : Option ChunkFilter) :
    Except ProjectError (List Chunk) := do
  ensureFile w path
  let found ← a.parser.analyzeFile w path .hybrid
  return found.chunks.filter (fun c => filter.all (fun f => f.admits c))

/-- The semantic chunks of a file that match a query. -/
def searchFile (a : Analyzer) (w : Workspace) (path query : String) :
    Except ProjectError (List Chunk) := do
  let chunks ← a.chunksOfFile w path (some .semantic)
  return chunks.filter (matchesQuery (Text.lowercase query.toList))

/-! ## Laws -/

/-- The analysis of a directory stores and reports what was found, whatever comes of the files. -/
theorem run_analysis_of_directory {w : Workspace} {root : String} (h : w.isDirectory root = true)
    (a : Analyzer) (options : ScanOptions) :
    (analysis w root options).run a =
      let collected := ({} : Collected).addAll (a.outcomes w root options)
      .ok (collected.bind Collected.report) (a.clear.storeCollected collected) := by
  rw [analysis, ensureDirectory, if_pos h]
  rfl

/-- A root that is no directory fails and leaves the analyzer as it is. -/
theorem run_analysis_of_not_directory {w : Workspace} {root : String}
    (h : w.isDirectory root = false) (a : Analyzer) (options : ScanOptions) :
    (analysis w root options).run a = .error (.invalidPath (.notDirectory root)) a := by
  rw [analysis, ensureDirectory, h]
  rfl

/-- What is done with the analyzer at hand is done with that one. -/
theorem run_get_bind {α : Type} (f : Analyzer → Task α) (a : Analyzer) :
    (get >>= f).run a = (f a).run a :=
  rfl

/-- Keeping what was found stores it; if nothing was found, the analyzer stays as it is. -/
theorem run_keep (a : Analyzer) (outcome : Except ProjectError FileAnalysis) :
    (keep outcome).run a =
      match outcome with
      | .ok found => .ok found (a.store found)
      | .error e => .error e a := by
  cases outcome <;> rfl

/-- The analysis of a file stores what comes of it, or fails and leaves the analyzer as it is. -/
theorem run_fileAnalysis (a : Analyzer) (w : Workspace) (path : String) (mode : AnalysisMode) :
    (fileAnalysis w path mode).run a =
      match a.fileOutcome w path mode with
      | .ok found => .ok found (a.store found)
      | .error e => .error e a := by
  rw [fileAnalysis, run_get_bind, run_keep]

end Analyzer

end CodeAtlas.Project
