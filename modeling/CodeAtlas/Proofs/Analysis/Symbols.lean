import CodeAtlas.Analysis.SymbolTable
import CodeAtlas.Proofs.Attempt
import CodeAtlas.Proofs.Analysis.Definitions

/-!
# What a symbol says of its definition

Main results:

- Theorem `create_eq_ok_iff`: when a symbol can be made, and what it is then.
- Theorem `declares_of_ofDefinition`: the symbol of a definition has its name, its kind, its lines
  and the class of its scope.
- Theorem `forall₂_declares`: the symbols of a file stand side by side with its definitions.
-/

namespace CodeAtlas.Analysis

open CodeAtlas.Syntax

namespace Definition

/-- The declared name. -/
def name : Definition → String
  | ofClass _ decl => decl.name
  | ofFunction _ decl _ => decl.name

/-- The kind of symbol that the definition gets. -/
def symbolKind : Definition → SymbolKind
  | ofClass _ _ => .classDef
  | ofFunction _ _ _ => .function

/-- The class of a method. A class in a class is no method. -/
def owner? : Definition → Option String
  | ofClass _ _ => none
  | ofFunction _ _ s => s.className

/-- Whether the definition is a function. -/
def isFunction : Definition → Bool
  | ofClass _ _ => false
  | ofFunction _ _ _ => true

end Definition

namespace Symbol

/-- A symbol can be made of a name and lines in their order, and keeps them. -/
theorem create_eq_ok_iff {name filePath modulePath : String} {kind : SymbolKind} {a b : Nat}
    {x : Symbol} :
    create name kind filePath modulePath a b = .ok x ↔ name.isEmpty = false ∧ a ≤ b ∧
      x = { name, kind, filePath, modulePath, startLine := a, endLine := b } := by
  unfold create
  split
  · next h => simp [h]
  · next h =>
    split
    · next hlines => simp [Nat.not_le.2 hlines]
    · next hlines => simp [h, Nat.not_lt.1 hlines, eq_comm]

/-- What the symbol of a definition in a file says. -/
structure Declares (filePath modulePath : String) (d : Definition) (x : Symbol) : Prop where
  name : x.name = d.name
  kind : x.kind = d.symbolKind
  startLine : x.startLine = d.node.span.startLine
  endLine : x.endLine = d.node.span.endLine
  filePath : x.filePath = filePath
  modulePath : x.modulePath = modulePath
  parentClass : x.parentClass = d.owner?

/-- The symbol of a definition says what the definition is. -/
theorem declares_of_ofDefinition {filePath modulePath : String} {d : Definition} {x : Symbol}
    (h : ofDefinition filePath modulePath d = .ok x) : Declares filePath modulePath d x := by
  cases d with
  | ofClass node decl =>
    simp only [ofDefinition, bind_eq_ok_iff, create_eq_ok_iff, pure, Except.pure,
      Except.ok.injEq] at h
    obtain ⟨_, ⟨-, -, rfl⟩, rfl⟩ := h
    exact ⟨rfl, rfl, rfl, rfl, rfl, rfl, rfl⟩
  | ofFunction node decl scope =>
    simp only [ofDefinition, bind_eq_ok_iff, create_eq_ok_iff, pure, Except.pure,
      Except.ok.injEq] at h
    obtain ⟨_, ⟨-, -, rfl⟩, rfl⟩ := h
    exact ⟨rfl, rfl, rfl, rfl, rfl, rfl, rfl⟩

/-- The qualified name of a symbol is its name in the scope of the definition. -/
theorem Declares.qualifiedName {filePath modulePath : String} {d : Definition} {x : Symbol}
    (h : Declares filePath modulePath d x) : x.qualifiedName = Scope.qualify ⟨d.owner?⟩ d.name := by
  rw [Symbol.qualifiedName, h.parentClass, h.name]
  rfl

/-- The symbols of a file stand side by side with its definitions. -/
theorem forall₂_declares {t : Tree} {filePath modulePath : String} {symbols : List Symbol}
    (h : ofTree t filePath modulePath = .ok symbols) :
    List.Forall₂ (Declares filePath modulePath) (Definition.ofTree t) symbols :=
  (mapM_eq_ok_iff.1 h).imp (fun _ _ hx => declares_of_ofDefinition hx)

end Symbol

end CodeAtlas.Analysis
