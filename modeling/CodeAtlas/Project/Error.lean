import CodeAtlas.Analysis.Error
import CodeAtlas.Chunk.Config
import CodeAtlas.Files.Tree

/-!
# Faults of an analysis

Why a file or a project cannot be analysed, with the wording of each fault. A fault of symbols,
calls or chunks is passed on with a word in front that says where it arose.
-/

namespace CodeAtlas.Project

open CodeAtlas.Analysis
open CodeAtlas.Chunking
open CodeAtlas.Files (FileFault)

/-- What is wrong with the scan options. -/
inductive ScanFault where
  | zeroFileSize
  | emptyExclusion
  deriving DecidableEq, Repr, Inhabited

/-- The wording of the fault. -/
def ScanFault.message : ScanFault → String
  | zeroFileSize => "max_file_size must be greater than zero"
  | emptyExclusion => "exclude patterns must not be empty"

/-- What a path should lead to. -/
inductive PathFault where
  | notDirectory (path : String)
  | notFile (path : String)
  deriving DecidableEq, Repr, Inhabited

/-- The wording of the fault. -/
def PathFault.message : PathFault → String
  | notDirectory path => "Not a directory: " ++ path
  | notFile path => "File not found: " ++ path

/-- Why a file or a project cannot be analysed. -/
inductive ProjectError where
  | unreadable (fault : FileFault)
  /-- A text that is to be a configuration is none. -/
  | configText
  | entity (fault : EntityError)
  | chunking (fault : ChunkError)
  | invalidPath (fault : PathFault)
  | invalidScan (fault : ScanFault)
  | unknownMode (value : String)
  | unknownFilter (value : String)
  deriving DecidableEq, Repr

/-- The wording of the error. -/
def ProjectError.message : ProjectError → String
  | unreadable fault => "IO error: " ++ fault.message
  | configText => "Config parse error"
  | entity fault => "Extraction error: " ++ fault.message
  | chunking fault => "Chunker error: " ++ fault.message
  | invalidPath fault => "Invalid project path: " ++ fault.message
  | invalidScan fault => "Invalid configuration: " ++ fault.message
  | unknownMode value => "Unknown analysis mode: " ++ value
  | unknownFilter value => "Unknown chunk filter: " ++ value

end CodeAtlas.Project
