import CodeAtlas.Chunk.Basic
import CodeAtlas.Chunk.Complexity
import CodeAtlas.Chunk.Patterns
import CodeAtlas.Syntax.Tree

/-!
# The two passes

Both passes go over every class and function of a file, at any depth, in pre-order. The structural
pass makes a chunk of each of them; the semantic pass makes a chunk of those whose name or
docstring matches a pattern. The first chunk that cannot be made fails the pass.
-/

namespace CodeAtlas.Chunking

open CodeAtlas.Syntax

/-- A file to be cut into chunks. -/
structure SourceFile where
  tree : Tree
  filePath : String
  modulePath : String
  deriving Inhabited

/-- The kind of chunk that a node makes. -/
def chunkKind (n : Node) : ChunkKind :=
  match n.kind with
  | .classDef _ => .classDef
  | .function _ => .function
  | _ => .file

/-- The chunk of a definition: the lines it covers, with their complexity. -/
def definitionChunk (config : ChunkerConfig) (file : SourceFile) (n : Node) :
    Except ChunkError Chunk := do
  let content := file.tree.textForLines n.span.startLine n.span.endLine
  let c ← Chunk.create content (chunkKind n) file.filePath file.modulePath n.span.startLine
    n.span.endLine
  return { c with
    symbolName := n.name?
    complexity := some (complexityScore config.complexityKeywords content) }

/-- The structural chunk of a definition. -/
def structuralChunk (config : ChunkerConfig) (file : SourceFile) (n : Node) :
    Except ChunkError Chunk := do
  let c ← definitionChunk config file n
  let hasDoc := (n.docComment?.map (fun d => !d.isEmpty)).getD false
  return (((c.note .isStructural (.bool true)).note .nodeType (.str n.kind.label)).note
    .hasDocstring (.bool hasDoc)).note .decoratorCount (.nat n.decorators.length)

/-- The semantic chunk of a definition of some type. -/
def semanticChunk (config : ChunkerConfig) (file : SourceFile) (n : Node) (semanticType : String)
    (phrases : List String) : Except ChunkError Chunk := do
  let c ← definitionChunk config file n
  let level := complexityLevel config (c.content.toList.splitOn '\n').length
  return ((((c.note .semanticType (.str semanticType)).note .businessDomain
    (.optStr (businessDomain (n.name?.getD "")))).note .complexityLevel (.str level.label)).note
    .keyPhrases (.strs phrases)).note .isSemantic (.bool true)

/-- The definitions that match a pattern, with what they were found to be, given which patterns match
which texts. -/
def matchedDefinitions (isMatch : Regex → List Char → Bool) (library : PatternLibrary) (t : Tree) :
    List (Node × String × List String) :=
  t.definitionNodes.filterMap (fun n =>
    let m := library.classifyWith isMatch (n.name?.getD "") n.docComment?
    m.semanticType.map (fun semanticType => (n, semanticType, m.keyPhrases)))

/-- One chunk for each definition. -/
def structuralPass (config : ChunkerConfig) (file : SourceFile) :
    Except ChunkError (List Chunk) :=
  file.tree.definitionNodes.mapM (structuralChunk config file)

/-- One chunk for each definition that matches a pattern. -/
def semanticPass (isMatch : Regex → List Char → Bool) (config : ChunkerConfig)
    (library : PatternLibrary) (file : SourceFile) : Except ChunkError (List Chunk) :=
  (matchedDefinitions isMatch library file.tree).mapM
    (fun d => semanticChunk config file d.1 d.2.1 d.2.2)

end CodeAtlas.Chunking
