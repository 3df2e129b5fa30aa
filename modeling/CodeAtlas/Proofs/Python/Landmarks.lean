import CodeAtlas.Proofs.Syntax.Address
import CodeAtlas.Python.Outline
import Mathlib.Logic.Equiv.Defs

/-!
# Landmarks

The landmarks of a concrete syntax tree are its definitions, imports and calls, and its assignments
of a value to a plain name. An outline has nodes for them, and its other nodes are constructs that
contain some. This module says what it means that an outline has the landmarks of a tree.

Main definitions:

- `Concrete.isLandmark` and `Syntax.Node.isLandmark`: the landmarks on both sides.
- `Represents`: a node of an outline stands for a landmark, at the same place in the text.
- `Concrete.InDecoratorOf` and `Concrete.StatementOf`: landmarks in decorators of a definition, and
  definitions in the body of a class.
- `Concrete.FollowsGrammar`: what the grammar says about decorated definitions and imports.
- `KeepsLandmarks`: the landmarks on both sides correspond one to one.
-/

namespace CodeAtlas.Python

open CodeAtlas.Syntax

namespace Concrete

/-! ## Addresses in concrete trees -/

/-- The node that an address leads to. -/
def at? (c : Concrete) : Address → Option Concrete
  | [] => some c
  | i :: p => c.children[i]?.bind (fun d => d.at? p)

@[simp]
theorem at?_nil (c : Concrete) : c.at? [] = some c :=
  rfl

theorem at?_cons_eq_some_iff {c e : Concrete} {i : Nat} {p : Address} :
    c.at? (i :: p) = some e ↔ ∃ d, c.children[i]? = some d ∧ d.at? p = some e := by
  rw [at?, Option.bind_eq_some_iff]

theorem at?_append (c : Concrete) (p q : Address) :
    c.at? (p ++ q) = (c.at? p).bind (fun d => d.at? q) := by
  induction p generalizing c with
  | nil => rfl
  | cons i p ih =>
    rw [List.cons_append, at?, at?]
    cases c.children[i]? with
    | none => rfl
    | some d => exact ih d

theorem at?_append_of_eq_some {c d : Concrete} {p : Address} (h : c.at? p = some d) (q : Address) :
    c.at? (p ++ q) = d.at? q := by
  rw [at?_append, h, Option.bind_some]

mutual

/-- What a tree has whenever its children have it, every tree has. -/
theorem childrenInduction {motive : Concrete → Prop}
    (step : ∀ c : Concrete, (∀ d ∈ c.children, motive d) → motive c) : ∀ c : Concrete, motive c
  | ⟨construct, role, extent, text, children⟩ =>
    step ⟨construct, role, extent, text, children⟩ (forall_of_children step children)

/-- The same for each of some trees. -/
theorem forall_of_children {motive : Concrete → Prop}
    (step : ∀ c : Concrete, (∀ d ∈ c.children, motive d) → motive c) :
    ∀ cs : List Concrete, ∀ d ∈ cs, motive d
  | [], _, h => absurd h List.not_mem_nil
  | c :: rest, d, h =>
    match List.mem_cons.1 h with
    | .inl heq => heq ▸ childrenInduction step c
    | .inr hrest => forall_of_children step rest d hrest

end

/-! ## Landmarks of a concrete tree -/

/-- Whether the node declares a class or a function. -/
def isDefinition (c : Concrete) : Bool := c.isA .functionDefinition || c.isA .classDefinition

/-- Whether the node is an import statement. -/
def isImport (c : Concrete) : Bool :=
  c.isA .importStatement || c.isA .importFromStatement || c.isA .futureImportStatement

/-- Whether there is one plain name on the left and a value on the right. -/
def assignsName (c : Concrete) : Bool :=
  (c.child? .left).any (isA .identifier) && (c.child? .right).isSome

/-- Whether the node is a definition, an import, a call or an assignment to a plain name. -/
def isLandmark (c : Concrete) : Bool :=
  c.isDefinition || c.isImport || c.isA .call || (c.isA .assignment && c.assignsName)

/-- One landmark stands in a decorator of another one. -/
def InDecoratorOf (c : Concrete) (p q : Address) : Prop :=
  ∃ r d i j s, c.at? r = some d ∧ d.construct = .decoratedDefinition ∧
    p = r ++ [j] ∧ (∃ e, d.children[j]? = some e ∧ e.role = some .definition) ∧
    q = r ++ i :: s ∧ ∃ e, d.children[i]? = some e ∧ e.construct = .decorator

/-- One landmark is a statement of the body of another one, which is a class; decorators may stand
before it. -/
def StatementOf (c : Concrete) (p q : Address) : Prop :=
  ∃ d b body j statement, c.at? p = some d ∧ d.construct = .classDefinition ∧
    d.children[b]? = some body ∧ body.construct = .block ∧ body.children[j]? = some statement ∧
    (q = p ++ [b, j] ∨
      ∃ k e, statement.construct = .decoratedDefinition ∧ statement.children[k]? = some e ∧
        e.role = some .definition ∧ q = p ++ [b, j, k])

/-! ## What the grammar says -/

/-- There is no landmark in the tree. -/
def IsBare (c : Concrete) : Prop := ∀ p d, c.at? p = some d → d.isLandmark = false

/-- A decorated definition has one definition, and beside it decorators and what has no landmarks.
An import has none below it. -/
structure WellMade (c : Concrete) : Prop where
  decorated : c.construct = .decoratedDefinition → ∃ (k : Nat) (definition : Concrete),
    c.children[k]? = some definition ∧ definition.role = some .definition ∧
      definition.isDefinition = true ∧ ∀ (i : Nat) (d : Concrete), c.children[i]? = some d →
        i ≠ k → d.role ≠ some .definition ∧ (d.construct = .decorator ∨ d.IsBare)
  imports : c.isImport = true → ∀ d ∈ c.children, d.IsBare

/-- Every node is made as the grammar says. -/
def FollowsGrammar (c : Concrete) : Prop := ∀ p d, c.at? p = some d → d.WellMade

theorem FollowsGrammar.wellMade {c : Concrete} (h : c.FollowsGrammar) : c.WellMade :=
  h [] c rfl

/-- What follows the grammar does so in every part. -/
theorem FollowsGrammar.at? {c d : Concrete} (h : c.FollowsGrammar) {p : Address}
    (hd : c.at? p = some d) : d.FollowsGrammar := by
  intro q e he
  exact h (p ++ q) e ((at?_append_of_eq_some hd q).trans he)

theorem isBare_iff {c : Concrete} :
    c.IsBare ↔ c.isLandmark = false ∧ ∀ d ∈ c.children, d.IsBare := by
  constructor
  · intro h
    refine ⟨h [] c rfl, fun d hd p e he => ?_⟩
    obtain ⟨i, hi⟩ := List.mem_iff_getElem?.1 hd
    exact h (i :: p) e (at?_cons_eq_some_iff.2 ⟨d, hi, he⟩)
  · rintro ⟨hc, hchildren⟩ p d hd
    cases p with
    | nil => exact Option.some.inj hd ▸ hc
    | cons i p =>
      obtain ⟨e, he, hd⟩ := at?_cons_eq_some_iff.1 hd
      exact hchildren e (List.mem_of_getElem? he) p d hd

theorem followsGrammar_iff {c : Concrete} :
    c.FollowsGrammar ↔ c.WellMade ∧ ∀ d ∈ c.children, d.FollowsGrammar := by
  constructor
  · intro h
    refine ⟨h.wellMade, fun d hd => ?_⟩
    obtain ⟨i, hi⟩ := List.mem_iff_getElem?.1 hd
    exact h.at? (p := [i]) (at?_cons_eq_some_iff.2 ⟨d, hi, rfl⟩)
  · rintro ⟨hc, hchildren⟩ p d hd
    cases p with
    | nil => exact Option.some.inj hd ▸ hc
    | cons i p =>
      obtain ⟨e, he, hd⟩ := at?_cons_eq_some_iff.1 hd
      exact hchildren e (List.mem_of_getElem? he) p d hd

/-- The addresses of the landmarks. -/
def Landmark (c : Concrete) : Type := {p : Address // ∃ d, c.at? p = some d ∧ d.isLandmark = true}

end Concrete

end CodeAtlas.Python

namespace CodeAtlas.Syntax.Node

/-! ## Landmarks of an outline -/

/-- Whether the node stands for a landmark, and neither for the text nor for a construct around
others. -/
def isLandmark (n : Node) : Bool :=
  match n.kind with
  | .file | .other _ => false
  | _ => true

/-- The addresses of the landmarks. -/
def Landmark (n : Node) : Type := {q : Address // ∃ m, n.at? q = some m ∧ m.isLandmark = true}

end CodeAtlas.Syntax.Node

namespace CodeAtlas.Python

open CodeAtlas.Syntax

/-- A node of an outline stands for a landmark: it is at the same place and says what the landmark
says. -/
def Represents (c : Concrete) (n : Node) : Prop :=
  n.span = c.extent.span ∧
    match c.construct with
    | .functionDefinition => ∃ decorators, n.kind = .function (c.functionDef decorators)
    | .classDefinition => ∃ decorators, n.kind = .classDef (c.classDef decorators)
    | .importStatement => n.kind = .imports c.importNames
    | .importFromStatement | .futureImportStatement =>
      n.kind = .importFrom ⟨c.importedModule, c.importNames⟩
    | .call => n.kind = .call c.callSite
    | .assignment => ∃ a, c.assignment? = some a ∧ n.kind = .assign a
    | _ => False

/-- The landmarks of a concrete tree are those of an outline, one by one, and everything else that
the outline has contains some. -/
structure KeepsLandmarks (c : Concrete) (n : Node) (f : c.Landmark ≃ n.Landmark) : Prop where
  represents : ∀ p d m, c.at? p.1 = some d → n.at? (f p).1 = some m → Represents d m
  /-- A landmark is below another one if it is so in the concrete tree or is in a decorator. -/
  isAbove_iff : ∀ p q, (f p).1.IsAbove (f q).1 ↔ p.1.IsAbove q.1 ∨ c.InDecoratorOf p.1 q.1
  /-- A definition in the body of a class is a child of the class. -/
  statements : ∀ p q, c.StatementOf p.1 q.1 → ∃ k, (f q).1 = (f p).1 ++ [k]
  /-- A construct around others is not kept without any. -/
  children_ne_nil : ∀ q m label, n.at? q = some m → m.kind = .other label → m.children ≠ []

end CodeAtlas.Python
