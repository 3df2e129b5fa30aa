import CodeAtlas.Analysis.Call
import CodeAtlas.Analysis.Definitions
import CodeAtlas.Analysis.Imports

/-!
# The calls of a file

Every call below a function or method that counts becomes a relationship of that function, if the
name of its callee can be worked out from the file alone:

* a plain name is what an import binds it to, or itself;
* an attribute of the receiver belongs to the class of the method;
* an attribute of a variable that was assigned from a constructor belongs to that class;
* an attribute of an imported name belongs to the import's target;
* an attribute of any other name is that name and the attribute.

A call in a function that is nested in another function counts for both.
-/

namespace CodeAtlas.Analysis

open CodeAtlas.Syntax

/-- The text of an argument that is neither a name nor a constant. -/
def complexExpression : String := "complex_expression"

/-- The keyword under which splatted mappings are kept. -/
def splatKeyword : String := "**"

/-- An argument as text. -/
def renderArgument : Expr → String
  | .name n => n
  | .constant text => text
  | _ => complexExpression

/-- The variables that hold instances of the file's classes, with their classes, among some
nodes; the last such assignment of a variable wins. -/
def instanceBindings (classes : List String) (nodes : List Node) : Table String String :=
  Table.ofList (nodes.filterMap (fun n =>
    match n.kind with
    | .assign ⟨target, .call (.name className)⟩ =>
      if classes.contains className then some (target, className) else none
    | _ => none))

/-- What the name of a callee is worked out from. -/
structure CallResolver where
  scope : Scope
  imports : Imports
  /-- Variables that hold instances of the file's classes. -/
  instances : Table String String := ∅

namespace CallResolver

/-- The name that an attribute of a name stands for. -/
def resolveAttribute (r : CallResolver) (receiver attr : String) : String :=
  let owner :=
    match r.scope.className with
    | some className =>
      if receiver = "self" ∨ receiver = "cls" then some className else r.instances.get? receiver
    | none => r.instances.get? receiver
  (owner.getD ((r.imports.resolve receiver).getD receiver)) ++ "." ++ attr

/-- The name of a callee, if it can be worked out. -/
def resolve (r : CallResolver) : Expr → Option String
  | .name n => some ((r.imports.resolve n).getD n)
  | .attribute (.name receiver) attr => some (r.resolveAttribute receiver attr)
  | _ => none

end CallResolver

namespace Call

/-- The relationship that a call expression gives rise to. -/
def ofSite (site : CallSite) (caller callee filePath : String) (span : Span) :
    Except EntityError Call := do
  let kind :=
    match site.callee with
    | .attribute _ _ => CallKind.methodCall
    | _ => CallKind.functionCall
  let c ← create caller callee kind filePath span.startLine span.column
  let c := site.arguments.foldl (fun c e => c.addArgument none (renderArgument e)) c
  return site.keywords.foldl
    (fun c k => c.addKeyword (k.name.getD splatKeyword) (renderArgument k.value)) c

/-- The call expressions among some nodes whose callee has a name, with that name. -/
def resolvedSites (r : CallResolver) (nodes : List Node) : List (CallSite × String × Span) :=
  nodes.filterMap (fun n =>
    match n.kind with
    | .call site => (r.resolve site.callee).map (fun callee => (site, callee, n.span))
    | _ => none)

/-- The calls of one definition. A class has none of its own. -/
def ofDefinition (imports : Imports) (classes : List String) (filePath : String) :
    Definition → Except EntityError (List Call)
  | .ofClass _ _ => .ok []
  | .ofFunction node decl scope =>
    let below := node.descendants
    let r : CallResolver := ⟨scope, imports, instanceBindings classes below⟩
    (resolvedSites r below).mapM (fun s =>
      ofSite s.1 (scope.qualify decl.name) s.2.1 filePath s.2.2)

/-- The calls of a file, definition by definition. -/
def ofTree (t : Tree) (imports : Imports) (filePath : String) : Except EntityError (List Call) :=
  let ds := Definition.ofTree t
  let classes := Definition.classNames ds
  (ds.mapM (ofDefinition imports classes filePath)).map List.flatten

end Call

end CodeAtlas.Analysis
