import CodeAtlas.Syntax.Tree

/-!
# Definitions and their scopes

The classes and functions of a file that get a symbol. Every class counts. A function counts if it
stands directly in a class, whose method it then is, or if there is no class around it. A function
nested deeper inside a class, such as a helper in a method, does not count.

A class is followed at once by its methods; what stands deeper in it comes after them.
-/

namespace CodeAtlas.Analysis

open CodeAtlas.Syntax

/-- Where a definition stands: in a class, or in no class at all. -/
structure Scope where
  className : Option String := none
  deriving DecidableEq, Repr, Inhabited

namespace Scope

/-- The scope outside all classes. -/
def file : Scope := ⟨none⟩

/-- The scope of a class. -/
def inClass (name : String) : Scope := ⟨some name⟩

/-- The name of a definition in this scope, with its class in front. -/
def qualify (s : Scope) (name : String) : String :=
  match s.className with
  | some className => className ++ "." ++ name
  | none => name

end Scope

/-- A class or function that counts, with the node that declares it. -/
inductive Definition where
  | ofClass (node : Node) (decl : ClassDef)
  | ofFunction (node : Node) (decl : FunctionDef) (scope : Scope)
  deriving Inhabited

namespace Definition

/-- The node that declares the definition. -/
def node : Definition → Node
  | ofClass node _ => node
  | ofFunction node _ _ => node

/-- The functions that stand directly in a class, as its methods. -/
def methods (scope : Scope) (children : List Node) : List Definition :=
  children.filterMap (fun child =>
    match child.kind with
    | .function decl => some (ofFunction child decl scope)
    | _ => none)

mutual

/-- The definitions in a tree that stands in a scope. -/
def collect (scope : Scope) : Node → List Definition
  | ⟨kind, span, children⟩ =>
    match kind with
    | .classDef decl =>
      let inner := Scope.inClass decl.name
      ofClass ⟨kind, span, children⟩ decl :: (methods inner children ++ collectAll inner children)
    | .function decl =>
      if scope.className.isNone then
        ofFunction ⟨kind, span, children⟩ decl scope :: collectAll scope children
      else collectAll scope children
    | _ => collectAll scope children

/-- The definitions in some trees, one tree after the other. -/
def collectAll (scope : Scope) : List Node → List Definition
  | [] => []
  | n :: rest => collect scope n ++ collectAll scope rest

end

/-- The definitions of a file in order. -/
def ofTree (t : Tree) : List Definition := collect .file t.root

/-- The names of the classes among some definitions. -/
def classNames (ds : List Definition) : List String :=
  ds.filterMap (fun d =>
    match d with
    | ofClass _ decl => some decl.name
    | ofFunction _ _ _ => none)

end Definition

end CodeAtlas.Analysis
