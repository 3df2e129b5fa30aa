import CodeAtlas.Chunk.Config
import CodeAtlas.Json
import CodeAtlas.Register
import CodeAtlas.Text.Sha256

/-!
# Chunks

A chunk is a run of source lines with what a search needs to know about it: where it comes from,
what it declares, how complex it is, and free metadata that the passes write.

Main statement: `Chunk.countLines_eq_ok_iff`, when the lines of a chunk can be counted.
-/

namespace CodeAtlas.Chunking

/-- The keys of the metadata that the passes write. -/
inductive MetadataKey where
  | isSemantic
  | isStructural
  | semanticType
  | businessDomain
  | complexityLevel
  | keyPhrases
  | nodeType
  | hasDocstring
  | decoratorCount
  deriving DecidableEq, Repr

/-- The name of a key. -/
def MetadataKey.label : MetadataKey → String
  | isSemantic => "is_semantic_chunk"
  | isStructural => "is_structural_chunk"
  | semanticType => "semantic_type"
  | businessDomain => "business_domain"
  | complexityLevel => "complexity_level"
  | keyPhrases => "key_phrases"
  | nodeType => "ast_node_type"
  | hasDocstring => "has_docstring"
  | decoratorCount => "decorator_count"

/-- What a chunk covers. -/
inductive ChunkKind where
  | function
  | classDef
  | file
  | lines
  | fragment
  deriving DecidableEq, Repr, Inhabited

/-- The name of a kind of chunk. -/
def ChunkKind.label : ChunkKind → String
  | function => "function"
  | classDef => "class"
  | file => "module"
  | lines => "line_chunk"
  | fragment => "partial"

/-- A run of source lines with its metadata. -/
structure Chunk where
  content : String
  kind : ChunkKind
  filePath : String
  modulePath : String
  startLine : Nat
  endLine : Nat
  symbolName : Option String := none
  metadata : Table String Json := ∅
  /-- Callees, each once. -/
  calls : List String := []
  /-- Callers, each once. -/
  calledBy : List String := []
  /-- Dependencies in ascending order, each once. -/
  dependencies : List String := []
  complexity : Option Nat := none
  deriving Inhabited

/-- A text added to the end of a list, unless it is there already. -/
def addOnce (items : List String) (item : String) : List String :=
  if items.contains item then items else items ++ [item]

/-- A text added to an ascending list at its place, unless it is there already. -/
def insertSorted (item : String) : List String → List String
  | [] => [item]
  | x :: rest =>
    if item < x then item :: x :: rest
    else if item = x then x :: rest
    else x :: insertSorted item rest

namespace Chunk

/-- A chunk with text and a file, whose last line is not before its first. -/
def create (content : String) (kind : ChunkKind) (filePath modulePath : String)
    (startLine endLine : Nat) : Except ChunkError Chunk :=
  if content.isEmpty then .error .emptyContent
  else if endLine < startLine then .error (.invalidBoundaries startLine endLine)
  else if filePath.isEmpty then .error .emptyFilePath
  else .ok { content, kind, filePath, modulePath, startLine, endLine }

/-- The number of lines. -/
def lineCount (c : Chunk) : Nat := c.endLine - c.startLine + 1

/-- The number of lines in a register. Lines from 0 to the last number there is are one more than
fits, and lines that end before they start are less than none. -/
def countLines (c : Chunk) : Except Overflow Nat :=
  if c.endLine < c.startLine then .error .difference
  else Register.fit Register.limit64 c.lineCount

/-- The number of characters of the content. -/
def characterCount (c : Chunk) : Nat := c.content.length

/-- Whether the chunk is a part of something larger. -/
def isPartial (c : Chunk) : Bool := c.kind == .fragment

/-- Whether the chunk is a function. -/
def isFunction (c : Chunk) : Bool := c.kind == .function

/-- Whether the chunk is a class. -/
def isClass (c : Chunk) : Bool := c.kind == .classDef

/-- The metadata under a key. -/
def metadata? (c : Chunk) (key : String) : Option Json := c.metadata.get? key

/-- Whether the metadata under a key is true. -/
def flag (c : Chunk) (key : MetadataKey) : Bool :=
  ((c.metadata? key.label).bind Json.bool?).getD false

/-- Whether the semantic pass made the chunk. -/
def isSemantic (c : Chunk) : Bool := c.flag .isSemantic

/-- Whether the structural pass made the chunk. -/
def isStructural (c : Chunk) : Bool := c.flag .isStructural

/-- The chunk with a value under a key. -/
def setMetadata (c : Chunk) (key : String) (value : Json) : Chunk :=
  { c with metadata := c.metadata.insert key value }

/-- The chunk with a value under a key of the passes. -/
def note (c : Chunk) (key : MetadataKey) (value : Json) : Chunk := c.setMetadata key.label value

/-- The chunk with one more callee. -/
def addCall (c : Chunk) (callee : String) : Chunk := { c with calls := addOnce c.calls callee }

/-- The chunk with one more caller. -/
def addCalledBy (c : Chunk) (caller : String) : Chunk :=
  { c with calledBy := addOnce c.calledBy caller }

/-- The chunk with one more dependency. -/
def addDependency (c : Chunk) (dependency : String) : Chunk :=
  { c with dependencies := insertSorted dependency c.dependencies }

/-- Whether the chunk covers a line. -/
def containsLine (c : Chunk) (line : Nat) : Bool := c.startLine ≤ line && line ≤ c.endLine

/-- The digest of the content. -/
def contentHash (c : Chunk) : String := Text.Sha256.hex c.content

theorem countLines_eq_ok_iff {c : Chunk} {n : Nat} :
    c.countLines = .ok n ↔
      c.startLine ≤ c.endLine ∧ c.lineCount < Register.limit64 ∧ c.lineCount = n := by
  unfold countLines
  split
  · next h => simp [Nat.not_le.2 h]
  · next h => simp [Register.fit_eq_ok_iff, Nat.not_lt.1 h]

end Chunk

end CodeAtlas.Chunking
