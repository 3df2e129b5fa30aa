import CodeAtlas.Chunk.Config
import CodeAtlas.Text.Blank
import CodeAtlas.Text.Lines
import CodeAtlas.Text.Search

/-!
# Complexity of chunks

Two measures: the number of lines that hold a decision, and a level that goes by the number of
lines alone.
-/

namespace CodeAtlas.Chunking

/-- The largest score. -/
def maxScore : Nat := 4294967295

/-- Whether a line, without blanks at its ends, holds a keyword. -/
def isDecisionLine (keywords : List String) (line : List Char) : Bool :=
  let line := Text.trim line
  keywords.any (fun k => Text.occursIn k.toList line)

/-- The number of lines with a decision. -/
def decisionLines (keywords : List String) (content : List Char) : Nat :=
  (content.splitOn '\n').countP (isDecisionLine keywords)

/-- The complexity of a content: a line with a decision counts once. -/
def complexityScore (keywords : List String) (content : String) : Nat :=
  min (decisionLines keywords content.toList) maxScore

/-- How a chunk of some lines is rated. -/
inductive ComplexityLevel where
  | simple
  | medium
  | complex
  deriving DecidableEq, Repr, Inhabited

/-- The name of a level. -/
def ComplexityLevel.label : ComplexityLevel → String
  | simple => "simple"
  | medium => "medium"
  | complex => "complex"

/-- The level of a chunk of some lines. -/
def complexityLevel (config : ChunkerConfig) (lines : Nat) : ComplexityLevel :=
  if config.complexLineThreshold < lines then .complex
  else if config.mediumLineThreshold < lines then .medium
  else .simple

end CodeAtlas.Chunking
