import CodeAtlas.Analysis.Definitions
import CodeAtlas.Analysis.Symbol

/-!
# The symbols of a file

One symbol for each definition that counts, in the same order. The first one that cannot be built
fails the whole file.
-/

namespace CodeAtlas.Analysis

open CodeAtlas.Syntax

/-- The name that stands for a decorator without a simple name. -/
def unknownDecorator : String := "unknown_decorator"

/-- The name of a decorator: a name, the attribute of something, or that of what is called. -/
def decoratorName : Expr → String
  | .name n => n
  | .attribute _ attr => attr
  | .call (.name n) => n
  | .call (.attribute _ attr) => attr
  | _ => unknownDecorator

/-- The arguments that a signature lists: those bound by position or keyword without a leading
receiver, then the two that take the remaining arguments. -/
def signatureArguments (p : Parameters) : List String :=
  let named :=
    match p.positional with
    | "self" :: rest => rest
    | "cls" :: rest => rest
    | names => names
  named ++ (p.vararg.map ("*" ++ ·)).toList ++ (p.kwarg.map ("**" ++ ·)).toList

/-- A function's name and arguments. -/
def signature (f : FunctionDef) : String :=
  f.name ++ "(" ++ ", ".intercalate (signatureArguments f.parameters) ++ ")"

namespace Symbol

/-- The symbol of a definition in a file. -/
def ofDefinition (filePath modulePath : String) : Definition → Except EntityError Symbol
  | .ofClass node decl => do
    let s ← create decl.name .classDef filePath modulePath node.span.startLine node.span.endLine
    return { s with
      docComment := decl.docComment
      visibility := .ofName decl.name }.withDecorators (decl.decorators.map decoratorName)
  | .ofFunction node decl scope => do
    let s ← create decl.name .function filePath modulePath node.span.startLine node.span.endLine
    return { s with
      signature := some (Analysis.signature decl)
      docComment := decl.docComment
      isAsync := decl.isAsync
      visibility := .ofName decl.name
      parentClass := scope.className }.withDecorators (decl.decorators.map decoratorName)

/-- The symbols of a file. -/
def ofTree (t : Tree) (filePath modulePath : String) : Except EntityError (List Symbol) :=
  (Definition.ofTree t).mapM (ofDefinition filePath modulePath)

end Symbol

end CodeAtlas.Analysis
