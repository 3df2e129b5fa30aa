import CodeAtlas.Chunk.Basic
import CodeAtlas.Project.Error
import CodeAtlas.Text.Case

/-!
# Settings of an analysis

What is made of each file, which files of a project are visited, and how they are cut into chunks.
Settings are checked from the outside in: first the options of the scan, then those of chunking.
-/

namespace CodeAtlas.Project

open CodeAtlas.Chunking

/-- What is made of a file. -/
inductive AnalysisMode where
  /-- Symbols, calls and the chunks that the chunking mode gives. -/
  | hybrid
  /-- Symbols and calls. -/
  | ast
  /-- Symbols, calls and semantic chunks. -/
  | semantic
  deriving DecidableEq, Repr, Inhabited

namespace AnalysisMode

/-- The name of a mode. -/
def label : AnalysisMode → String
  | hybrid => "hybrid"
  | ast => "ast"
  | semantic => "semantic"

/-- The mode of a name. -/
def ofLabel? : String → Option AnalysisMode
  | "hybrid" => some hybrid
  | "ast" => some ast
  | "semantic" => some semantic
  | _ => none

/-- The mode of a name in letters of either case. -/
def parse (value : String) : Except ProjectError AnalysisMode :=
  match ofLabel? (String.ofList (Text.asciiLowercase value.toList)) with
  | some mode => .ok mode
  | none => .error (.unknownMode value)

end AnalysisMode

/-- Which chunks of a file are wanted. -/
inductive ChunkFilter where
  | semantic
  | structural
  deriving DecidableEq, Repr, Inhabited

namespace ChunkFilter

/-- The name of a filter. -/
def label : ChunkFilter → String
  | semantic => "semantic"
  | structural => "structural"

/-- The filter of a name. -/
def ofLabel? : String → Option ChunkFilter
  | "semantic" => some semantic
  | "structural" => some structural
  | _ => none

/-- The filter of a name in letters of either case. -/
def parse (value : String) : Except ProjectError ChunkFilter :=
  match ofLabel? (String.ofList (Text.asciiLowercase value.toList)) with
  | some filter => .ok filter
  | none => .error (.unknownFilter value)

/-- Whether a chunk passes the filter. -/
def admits : ChunkFilter → Chunk → Bool
  | semantic, c => c.isSemantic
  | structural, c => c.isStructural

end ChunkFilter

/-- Which files of a project are visited. -/
structure ScanOptions where
  includeTests : Bool := true
  /-- Whether documentation is visited. -/
  includeDocs : Bool := true
  /-- Files with more bytes are left out. -/
  maxFileSize : Option Nat := none
  /-- A file is left out if one of these texts occurs in its path below the root. -/
  excludePatterns : List String := []
  /-- Whether the ignore files of a repository count. -/
  respectGitignore : Bool := true
  deriving DecidableEq, Repr, Inhabited

/-- Options of a scan make sense if some size is allowed and no exclusion is empty. -/
def ScanOptions.validate (o : ScanOptions) : Except ProjectError Unit :=
  if o.maxFileSize = some 0 then .error (.invalidScan .zeroFileSize)
  else if o.excludePatterns.any String.isEmpty then .error (.invalidScan .emptyExclusion)
  else .ok ()

/-- Settings of an analysis. -/
structure AnalyzerConfig where
  mode : AnalysisMode := .hybrid
  scan : ScanOptions := {}
  chunker : ChunkerConfig := {}
  deriving DecidableEq, Repr, Inhabited

namespace AnalyzerConfig

/-- Whether the settings make sense, given how patterns are read; of several faults the first one
counts. -/
def validateWith (read : String → Option Regex) (c : AnalyzerConfig) :
    Except ProjectError Unit := do
  c.scan.validate
  (c.chunker.validateWith read).mapError ProjectError.chunking

/-- Whether the settings make sense; of several faults the first one counts. -/
def validate (c : AnalyzerConfig) : Except ProjectError Unit := c.validateWith Regex.parse

end AnalyzerConfig

end CodeAtlas.Project
