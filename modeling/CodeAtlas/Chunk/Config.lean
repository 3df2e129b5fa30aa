import CodeAtlas.Regex.Reader

/-!
# Settings of chunking

Which passes run, which patterns mark a definition as meaningful, and how complexity is measured.
Settings are checked in a fixed order, for any way to read texts as patterns.
-/

namespace CodeAtlas.Chunking

/-- Why settings are refused. -/
inductive ConfigFault where
  | thresholds (medium complex : Nat)
  | emptyKeyword
  | emptyCategoryName
  deriving DecidableEq, Repr

/-- The wording of the fault. -/
def ConfigFault.message : ConfigFault → String
  | thresholds medium complex =>
    s!"medium_line_threshold ({medium}) cannot exceed complex_line_threshold ({complex})"
  | emptyKeyword => "complexity keywords must not be empty"
  | emptyCategoryName => "pattern category name must not be empty"

/-- Why chunks cannot be made. -/
inductive ChunkError where
  | invalidConfig (fault : ConfigFault)
  | invalidPattern (pattern : String)
  | invalidBoundaries (start stop : Nat)
  | emptyContent
  | emptyFilePath
  deriving DecidableEq, Repr

/-- The wording of the error. -/
def ChunkError.message : ChunkError → String
  | invalidConfig fault => "Invalid configuration: " ++ fault.message
  | invalidPattern pattern => "Invalid pattern '" ++ pattern ++ "'"
  | invalidBoundaries start stop => s!"Invalid chunk boundaries: start={start}, end={stop}"
  | emptyContent => "Empty content provided"
  | emptyFilePath => "Chunk file path cannot be empty"

/-- Which passes run. -/
inductive ChunkingMode where
  /-- Both passes, merged. -/
  | hybrid
  /-- One chunk for each class and function. -/
  | structural
  /-- Only definitions that match a pattern. -/
  | semantic
  deriving DecidableEq, Repr, Inhabited

/-- The name of a mode. -/
def ChunkingMode.label : ChunkingMode → String
  | hybrid => "hybrid"
  | structural => "structural"
  | semantic => "semantic"

/-- The mode of a name. -/
def ChunkingMode.ofLabel? : String → Option ChunkingMode
  | "hybrid" => some hybrid
  | "structural" => some structural
  | "semantic" => some semantic
  | _ => none

/-- A named list of patterns. -/
structure PatternCategory where
  name : String
  patterns : List String
  deriving DecidableEq, Repr, Inhabited

/-- The categories that are looked for by default. -/
def defaultPatterns : List PatternCategory := [
  ⟨"business_logic",
    ["calculate.*revenue", "process.*payment", "validate.*user", "generate.*report",
      "handle.*request", "transform.*data", "compute.*score", "analyze.*performance"]⟩,
  ⟨"data_processing",
    ["parse.*json", "convert.*format", "filter.*data", "sort.*list", "aggregate.*results",
      "normalize.*values"]⟩,
  ⟨"authentication",
    ["authenticate.*user", "verify.*token", "validate.*token", "check.*permission",
      "validate.*credentials", "authorize.*access"]⟩,
  ⟨"database",
    ["query.*database", "save.*record", "update.*table", "delete.*entry", "fetch.*data"]⟩,
  ⟨"api",
    ["handle.*api", "process.*request", "format.*response", "validate.*input",
      "serialize.*data"]⟩]

/-- The words that mark a decision in a line by default. -/
def defaultKeywords : List String :=
  ["if ", "elif ", "for ", "while ", "except ", "and ", "or "]

/-- Settings of chunking. -/
structure ChunkerConfig where
  mode : ChunkingMode := .hybrid
  /-- Categories in order; of several that match the last one gives the type. -/
  patterns : List PatternCategory := defaultPatterns
  /-- Texts that mark a decision in a line. -/
  complexityKeywords : List String := defaultKeywords
  /-- Chunks with more lines are of medium complexity. -/
  mediumLineThreshold : Nat := 20
  /-- Chunks with more lines are complex. -/
  complexLineThreshold : Nat := 50
  deriving DecidableEq, Repr, Inhabited

/-- A category has a name, and its texts can be read as patterns. -/
def PatternCategory.validateWith (read : String → Option Regex) (c : PatternCategory) :
    Except ChunkError Unit :=
  if c.name.isEmpty then .error (.invalidConfig .emptyCategoryName)
  else
    match c.patterns.find? (fun p => (read p).isNone) with
    | some p => .error (.invalidPattern p)
    | none => .ok ()

/-- A category has a name, and its texts denote patterns. -/
def PatternCategory.validate (c : PatternCategory) : Except ChunkError Unit :=
  c.validateWith Regex.parse

namespace ChunkerConfig

/-- Settings that run the structural pass only. -/
def structuralOnly : ChunkerConfig := { mode := .structural }

/-- Settings that run the semantic pass only. -/
def semanticOnly : ChunkerConfig := { mode := .semantic }

/-- Whether the settings make sense, given how patterns are read; of several faults the first one
counts. -/
def validateWith (read : String → Option Regex) (c : ChunkerConfig) : Except ChunkError Unit :=
  if c.complexLineThreshold < c.mediumLineThreshold then
    .error (.invalidConfig (.thresholds c.mediumLineThreshold c.complexLineThreshold))
  else if c.complexityKeywords.any String.isEmpty then .error (.invalidConfig .emptyKeyword)
  else c.patterns.forM (PatternCategory.validateWith read)

/-- Whether the settings make sense; of several faults the first one counts. -/
def validate (c : ChunkerConfig) : Except ChunkError Unit := c.validateWith Regex.parse

end ChunkerConfig

end CodeAtlas.Chunking
