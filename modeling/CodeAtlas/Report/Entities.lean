import CodeAtlas.Analysis.Call
import CodeAtlas.Analysis.Symbol
import CodeAtlas.Chunk.Document

/-!
# Entities in reports

Symbols, calls, chunks and documents as JSON objects.
-/

namespace CodeAtlas.Report

open CodeAtlas.Analysis
open CodeAtlas.Chunking

/-- A symbol as an object. -/
def symbol (s : Symbol) : Json := .obj [
  ("name", .str s.name), ("kind", .str s.kind.label), ("file_path", .str s.filePath),
  ("module_path", .str s.modulePath), ("start_line", .nat s.startLine),
  ("end_line", .nat s.endLine), ("signature", .optStr s.signature),
  ("doc_comment", .optStr s.docComment), ("visibility", .str s.visibility.label),
  ("decorators", .strs s.decorators), ("parent_class", .optStr s.parentClass),
  ("is_async", .bool s.isAsync), ("is_static", .bool s.isStatic),
  ("is_abstract", .bool s.isAbstract), ("full_name", .str s.fullName),
  ("qualified_name", .str s.qualifiedName), ("line_count", .nat s.lineCount)]

/-- A positional argument as an object. -/
def argument (a : CallArgument) : Json := .obj [
  ("name", .optStr a.name), ("value", .str a.value), ("type_hint", .optStr a.typeHint),
  ("is_keyword", .bool a.isKeyword)]

/-- A call as an object. -/
def call (c : Call) : Json := .obj [
  ("caller", .str c.caller), ("callee", .str c.callee), ("kind", .str c.kind.label),
  ("context", .str c.context.label), ("file_path", .str c.filePath), ("line", .nat c.line),
  ("column", .nat c.column), ("arguments", .arr (c.arguments.map argument)),
  ("keyword_arguments", .ofTable .str c.keywords),
  ("arguments_count", .nat c.arguments.length),
  ("keyword_arguments_count", .nat c.keywords.size)]

/-- A chunk as an object. -/
def chunk (c : Chunk) : Except Overflow Json := do
  let lines ← c.countLines
  return .obj [
    ("content", .str c.content), ("kind", .str c.kind.label), ("file_path", .str c.filePath),
    ("module_path", .str c.modulePath), ("start_line", .nat c.startLine),
    ("end_line", .nat c.endLine), ("symbol_name", .optStr c.symbolName),
    ("metadata", .ofTable id c.metadata), ("calls", .strs c.calls),
    ("called_by", .strs c.calledBy), ("dependencies", .strs c.dependencies),
    ("complexity", .optNat c.complexity), ("line_count", .nat lines),
    ("character_count", .nat c.characterCount), ("is_partial", .bool c.isPartial),
    ("content_hash", .str c.contentHash)]

/-- Some chunks as an array of objects. -/
def chunks (cs : List Chunk) : Except Overflow Json := (cs.mapM chunk).map .arr

/-- A document as an object. -/
def document (d : Document) : Json := .obj [
  ("page_content", .str d.pageContent), ("metadata", .ofTable id d.metadata)]

end CodeAtlas.Report
