/-!
# Expressions and the parts of definitions

What the outline of a source file keeps of an expression is its shape as far as names can be
resolved through it: a name, an attribute of something, a call of something, or a constant that is
already text. Everything else is `other`.
-/

namespace CodeAtlas.Syntax

/-- The shape of an expression. -/
inductive Expr where
  | name (text : String)
  | attribute (value : Expr) (attr : String)
  | call (func : Expr)
  /-- A literal, as the text it is shown by. -/
  | constant (text : String)
  | other
  deriving DecidableEq, Repr, Inhabited

/-- The name that an expression is. -/
def Expr.asName : Expr → Option String
  | .name n => some n
  | _ => none

/-- The names of a function's parameters, grouped by how they are bound. -/
structure Parameters where
  /-- Parameters in front of the slash. -/
  positionalOnly : List String := []
  /-- Parameters that are bound by position or by keyword. -/
  positional : List String := []
  /-- The parameter that takes the remaining positional arguments. -/
  vararg : Option String := none
  /-- Parameters behind the star. -/
  keywordOnly : List String := []
  /-- The parameter that takes the remaining keyword arguments. -/
  kwarg : Option String := none
  deriving DecidableEq, Repr, Inhabited

/-- A class declaration. -/
structure ClassDef where
  name : String
  docComment : Option String := none
  decorators : List Expr := []
  deriving DecidableEq, Repr, Inhabited

/-- A function declaration. -/
structure FunctionDef where
  name : String
  isAsync : Bool := false
  parameters : Parameters := {}
  docComment : Option String := none
  decorators : List Expr := []
  deriving DecidableEq, Repr, Inhabited

/-- One name of an import statement. -/
structure ImportAlias where
  name : String
  asName : Option String := none
  deriving DecidableEq, Repr, Inhabited

/-- The name that an import binds in the importing module. -/
def ImportAlias.boundName (imported : ImportAlias) : String := imported.asName.getD imported.name

/-- An import of names from a module; a bare relative import has no module. -/
structure ImportFrom where
  moduleName : Option String
  names : List ImportAlias
  deriving DecidableEq, Repr, Inhabited

/-- A keyword argument; a splatted mapping has no name. -/
structure Keyword where
  name : Option String
  value : Expr
  deriving DecidableEq, Repr, Inhabited

/-- A call expression. -/
structure CallSite where
  callee : Expr
  arguments : List Expr := []
  keywords : List Keyword := []
  deriving DecidableEq, Repr, Inhabited

/-- An assignment of a value to a plain name. -/
structure Assignment where
  target : String
  value : Expr
  deriving DecidableEq, Repr, Inhabited

end CodeAtlas.Syntax
