import CodeAtlas.Analysis.Error

/-!
# Symbols

A symbol is a declared class, function or method with the place it is declared at. Its key, the
module followed by the qualified name, identifies it among the symbols of a project.

Main statements:

* `Symbol.startLine_le_endLine_of_create`: a symbol that is built covers at least one line;
* `Symbol.run_change`: changes are made as a whole or not at all.
-/

namespace CodeAtlas.Analysis

/-- What a symbol declares. -/
inductive SymbolKind where
  | function
  | classDef
  | file
  | binding
  | importName
  deriving DecidableEq, Repr, Inhabited

/-- The name of a kind of symbol. -/
def SymbolKind.label : SymbolKind → String
  | function => "function"
  | classDef => "class"
  | file => "module"
  | binding => "variable"
  | importName => "import"

/-- Who may use a symbol, going by its name. -/
inductive Visibility where
  | everyone
  | owner
  | heirs
  deriving DecidableEq, Repr, Inhabited

/-- The name of a visibility. -/
def Visibility.label : Visibility → String
  | everyone => "public"
  | owner => "private"
  | heirs => "protected"

/-- A leading underscore marks a private name. -/
def Visibility.ofName (name : String) : Visibility :=
  if name.toList.head? = some '_' then .owner else .everyone

/-- A declared class, function or method. -/
structure Symbol where
  name : String
  kind : SymbolKind
  filePath : String
  modulePath : String
  startLine : Nat
  endLine : Nat
  signature : Option String := none
  docComment : Option String := none
  visibility : Visibility := .everyone
  decorators : List String := []
  parentClass : Option String := none
  isAsync : Bool := false
  isStatic : Bool := false
  isAbstract : Bool := false
  deriving DecidableEq, Repr, Inhabited

/-- Changes of a symbol; a field that is not given stays as it is. -/
structure SymbolUpdate where
  startLine : Option Nat := none
  endLine : Option Nat := none
  signature : Option String := none
  docComment : Option String := none
  visibility : Option Visibility := none
  decorators : Option (List String) := none
  isAsync : Option Bool := none
  isStatic : Option Bool := none
  isAbstract : Option Bool := none
  deriving DecidableEq, Repr, Inhabited

/-- The symbol with what is given, and with its own fields otherwise. -/
def SymbolUpdate.mergeInto (u : SymbolUpdate) (s : Symbol) : Symbol :=
  { s with
    startLine := u.startLine.getD s.startLine
    endLine := u.endLine.getD s.endLine
    signature := u.signature.or s.signature
    docComment := u.docComment.or s.docComment
    visibility := u.visibility.getD s.visibility
    decorators := u.decorators.getD s.decorators
    isAsync := u.isAsync.getD s.isAsync
    isStatic := u.isStatic.getD s.isStatic
    isAbstract := u.isAbstract.getD s.isAbstract }

namespace Symbol

/-- A symbol with a name, whose last line is not before its first. -/
def create (name : String) (kind : SymbolKind) (filePath modulePath : String)
    (startLine endLine : Nat) : Except EntityError Symbol :=
  if name.isEmpty then .error .emptyName
  else if endLine < startLine then .error (.invalidRange startLine endLine)
  else .ok { name, kind, filePath, modulePath, startLine, endLine }

/-- The symbol with decorators, which say whether it is static and whether it is abstract. -/
def withDecorators (s : Symbol) (decorators : List String) : Symbol :=
  { s with
    decorators
    isStatic := decorators.contains "staticmethod"
    isAbstract := decorators.contains "abstractmethod" }

/-- Makes some changes in place, one field after the other. The range of lines that they lead to is
looked at first; it must not end before it starts. Decorators given here do not touch the flags. -/
def change (u : SymbolUpdate) : EStateM EntityError Symbol Unit := do
  let s ← get
  let startLine := u.startLine.getD s.startLine
  let endLine := u.endLine.getD s.endLine
  if endLine < startLine then throw (.invalidRange startLine endLine)
  modify (fun s => { s with startLine })
  modify (fun s => { s with endLine })
  modify (fun s => { s with signature := u.signature.or s.signature })
  modify (fun s => { s with docComment := u.docComment.or s.docComment })
  modify (fun s => { s with visibility := u.visibility.getD s.visibility })
  modify (fun s => { s with decorators := u.decorators.getD s.decorators })
  modify (fun s => { s with isAsync := u.isAsync.getD s.isAsync })
  modify (fun s => { s with isStatic := u.isStatic.getD s.isStatic })
  modify (fun s => { s with isAbstract := u.isAbstract.getD s.isAbstract })

/-- The symbol after some changes. -/
def update (s : Symbol) (u : SymbolUpdate) : Except EntityError Symbol :=
  match (change u).run s with
  | .ok _ t => .ok t
  | .error e _ => .error e

/-- The module and the name. -/
def fullName (s : Symbol) : String := s.modulePath ++ "." ++ s.name

/-- The name, with the class in front if the symbol is a method. -/
def qualifiedName (s : Symbol) : String :=
  match s.parentClass with
  | some className => className ++ "." ++ s.name
  | none => s.name

/-- What identifies the symbol: the module and the qualified name. -/
def key (s : Symbol) : String := s.modulePath ++ "." ++ s.qualifiedName

/-- The number of lines that the symbol covers. -/
def lineCount (s : Symbol) : Nat := s.endLine - s.startLine + 1

/-- Whether the symbol is a function of a class. -/
def isMethod (s : Symbol) : Bool := s.kind == .function && s.parentClass.isSome

/-- Whether the symbol is a method of its class. -/
def isClassMethod (s : Symbol) : Bool := s.isMethod && s.decorators.contains "classmethod"

/-- Whether the symbol is a method without a receiver. -/
def isStaticMethod (s : Symbol) : Bool := s.isMethod && s.decorators.contains "staticmethod"

theorem startLine_le_endLine_of_create {name filePath modulePath : String} {kind : SymbolKind}
    {a b : Nat} {s : Symbol} (h : create name kind filePath modulePath a b = .ok s) :
    s.startLine ≤ s.endLine := by
  unfold create at h
  split at h
  · cases h
  · split at h
    · cases h
    · cases h
      simp only
      omega

/-- Changes are made as a whole, or refused before the first one is made. -/
theorem run_change (u : SymbolUpdate) (s : Symbol) :
    (change u).run s =
      if u.endLine.getD s.endLine < u.startLine.getD s.startLine then
        .error (.invalidRange (u.startLine.getD s.startLine) (u.endLine.getD s.endLine)) s
      else .ok () (u.mergeInto s) := by
  unfold change
  simp only [EStateM.run_bind, EStateM.run_get]
  split <;> rfl

end Symbol

end CodeAtlas.Analysis
