import CodeAtlas.Analysis.CallResolution
import CodeAtlas.Analysis.SymbolTable
import CodeAtlas.Chunk.Chunker
import CodeAtlas.Files.Path
import CodeAtlas.Project.Config
import CodeAtlas.Text.Utf8

/-!
# The analysis of a file

Symbols, calls and chunks of one file. A text without an outline has none of them but still has its
lines; a fault of a symbol, a call or a chunk fails the file, in this order.

Main statement: `FileParser.analyzeBytes_of_decode`, bytes that are text are analysed as that text.
-/

namespace CodeAtlas.Project

open CodeAtlas.Analysis
open CodeAtlas.Chunking
open CodeAtlas.Syntax

/-- What a file holds. -/
structure FileAnalysis where
  symbols : List Symbol := []
  calls : List Call := []
  chunks : List Chunk := []
  /-- The number of lines of the text. -/
  lineCount : Nat := 0
  deriving Inhabited

namespace FileAnalysis

/-- Whether nothing was found. -/
def isEmpty (a : FileAnalysis) : Bool := a.symbols.isEmpty && a.calls.isEmpty && a.chunks.isEmpty

/-- What two analyses hold, one after the other, with the lines of the first. -/
def extend (a b : FileAnalysis) : FileAnalysis :=
  { a with
    symbols := a.symbols ++ b.symbols
    calls := a.calls ++ b.calls
    chunks := a.chunks ++ b.chunks }

end FileAnalysis

/-- The module of a file: its name without the extension. -/
def modulePathOf (filePath : String) : String := (Files.Path.fileStem filePath).getD ""

/-- What files are analysed with. -/
structure FileParser where
  /-- The outline of a text, unless the text is malformed. -/
  outline : String → Option Tree
  chunker : Chunker
  mode : AnalysisMode

namespace FileParser

/-- A parser with settings for chunking, given how patterns are read and matched. -/
def createWith (read : String → Option Regex) (isMatch : Regex → List Char → Bool)
    (outline : String → Option Tree) (mode : AnalysisMode) (config : ChunkerConfig) :
    Except ProjectError FileParser :=
  ((Chunker.createWith read isMatch config).mapError ProjectError.chunking).map
    (fun c => ⟨outline, c, mode⟩)

/-- A parser with settings for chunking. -/
def create (outline : String → Option Tree) (mode : AnalysisMode) (config : ChunkerConfig) :
    Except ProjectError FileParser :=
  createWith Regex.parse Regex.isMatch outline mode config

/-- The chunks that a mode asks for. -/
def chunksFor (p : FileParser) (file : SourceFile) : AnalysisMode → Except ChunkError (List Chunk)
  | .ast => .ok []
  | .hybrid => p.chunker.chunkFile file
  | .semantic => (p.chunker.chunkFile file).map (fun cs => cs.filter Chunk.isSemantic)

/-- What a tree holds. -/
def analyzeTree (p : FileParser) (t : Tree) (filePath : String) (mode : AnalysisMode) :
    Except ProjectError FileAnalysis := do
  let modulePath := modulePathOf filePath
  let symbols ← (Symbol.ofTree t filePath modulePath).mapError ProjectError.entity
  let calls ← (Call.ofTree t (Imports.ofTree t) filePath).mapError ProjectError.entity
  let chunks ← (p.chunksFor ⟨t, filePath, modulePath⟩ mode).mapError ProjectError.chunking
  return { symbols, calls, chunks }

/-- What an outline holds, if there is one. -/
def analyzeOutline (p : FileParser) (t : Option Tree) (bytes : List UInt8) (filePath : String)
    (mode : AnalysisMode) : Except ProjectError FileAnalysis := do
  let found ←
    match t with
    | some t => p.analyzeTree t filePath mode
    | none => .ok {}
  return { found with lineCount := Text.lineCount bytes }

/-- What a text holds. -/
def analyzeText (p : FileParser) (source filePath : String) (mode : AnalysisMode) :
    Except ProjectError FileAnalysis :=
  p.analyzeOutline (p.outline source) (Text.Utf8.encode source) filePath mode

/-- The outline of bytes; bytes that are no text have none. -/
def outlineBytes (p : FileParser) (bytes : List UInt8) : Option Tree :=
  match Text.Utf8.decode bytes with
  | .ok source => p.outline (String.ofList source)
  | .error _ => none

/-- What the bytes of a file hold. -/
def analyzeBytes (p : FileParser) (bytes : List UInt8) (filePath : String) (mode : AnalysisMode) :
    Except ProjectError FileAnalysis :=
  p.analyzeOutline (p.outlineBytes bytes) bytes filePath mode

/-- Bytes that are text are analysed as that text. -/
theorem analyzeBytes_of_decode (p : FileParser) {bytes : List UInt8} {source : String}
    (h : Text.Utf8.decode bytes = .ok source.toList) (filePath : String) (mode : AnalysisMode) :
    p.analyzeBytes bytes filePath mode =
      p.analyzeOutline (p.outline source) bytes filePath mode := by
  simp [analyzeBytes, outlineBytes, h]

end FileParser

end CodeAtlas.Project
