import CodeAtlas.Analysis.SymbolTable
import CodeAtlas.Python.Reader
import Mathlib.Data.List.Forall2

/-!
# Parameter lists

A parameter list has names in front of a slash, names behind it, a star that may have a name, names
behind the star, and a name behind two stars; each of these groups may be missing. The names are
read in one pass that moves those in front of a slash when it comes to the slash, and remembers
whether it has come to a star.

Main definitions:

- `ParameterItem` and `Declares`: what an item of a list declares, whatever annotation or default
  value it has.
- `Arranges`: the order in which a list has the items of its groups.
- `ShowsParameters`: what is known about a function from its parameter list.

Main results:

- Theorem `ParameterReading.add_of_declares`: an item is read for what it declares.
- Theorem `parametersOf_eq`: the groups that are read are those that are written.
- Theorem `showsParameters`: so are those of a function, and what its signature lists.
-/

namespace CodeAtlas.Python.Concrete

open CodeAtlas.Syntax

/-! ## Items -/

/-- What an item of a parameter list stands for. -/
inductive ParameterItem where
  | plain (name : String)
  | slash
  | star
  | vararg (name : String)
  | kwarg (name : String)
  deriving DecidableEq, Repr, Inhabited

/-- A node is a name with some text. -/
structure IsNamed (name : String) (c : Concrete) : Prop where
  isIdentifier : c.construct = .identifier
  text_eq : c.text = name

/-- What may be annotated: a name, or one behind stars. Comments may stand between the stars and the
name. -/
inductive DeclaresBare : Concrete → ParameterItem → Prop where
  | plain {c : Concrete} {name : String} (h : IsNamed name c) : DeclaresBare c (.plain name)
  | vararg {c target : Concrete} {name : String} (hc : c.construct = .listSplatPattern)
    (htarget : c.parts.head? = some target) (h : IsNamed name target) :
    DeclaresBare c (.vararg name)
  | kwarg {c target : Concrete} {name : String} (hc : c.construct = .dictionarySplatPattern)
    (htarget : c.parts.head? = some target) (h : IsNamed name target) :
    DeclaresBare c (.kwarg name)

/-- What an item declares. A node with an annotation starts with what is annotated. -/
inductive Declares : Concrete → ParameterItem → Prop where
  | bare {c : Concrete} {item : ParameterItem} (h : DeclaresBare c item) : Declares c item
  | annotated {c target : Concrete} {item : ParameterItem} (hc : c.construct = .typedParameter)
    (htarget : c.children.head? = some target) (h : DeclaresBare target item) : Declares c item
  | defaulted {c target : Concrete} {name : String}
    (hc : c.construct = .defaultParameter ∨ c.construct = .typedDefaultParameter)
    (htarget : c.child? .name = some target) (h : IsNamed name target) : Declares c (.plain name)
  | slash {c : Concrete} (hc : c.construct = .positionalSeparator) : Declares c .slash
  | star {c : Concrete} (hc : c.construct = .keywordSeparator) : Declares c .star

/-- The first name in a node is the first part of it, if that is a name. -/
theorem find?_isIdentifier {c target : Concrete} {name : String}
    (htarget : c.parts.head? = some target) (h : IsNamed name target) :
    c.children.find? (isA .identifier) = some target := by
  have hskip : c.children.find? (isA .identifier) = c.parts.find? (isA .identifier) := by
    rw [parts, List.find?_filter]
    congr 1
    funext d
    by_cases hd : d.construct = .identifier <;> simp [isA, hd]
  obtain ⟨rest, hparts⟩ := List.head?_eq_some_iff.1 htarget
  simp [hskip, hparts, isA, h.isIdentifier]

namespace ParameterReading

/-- A reading behind one more item. -/
def take (r : ParameterReading) : ParameterItem → ParameterReading
  | .plain name => r.push name
  | .slash =>
    { r with
      parameters :=
        { r.parameters with
          positionalOnly := r.parameters.positionalOnly ++ r.parameters.positional
          positional := [] } }
  | .star => { r with afterStar := true }
  | .vararg name => ⟨{ r.parameters with vararg := some name }, true⟩
  | .kwarg name => { r with parameters := { r.parameters with kwarg := some name } }

variable (r : ParameterReading) {c : Concrete} {item : ParameterItem}

theorem addTarget_of_declaresBare (h : DeclaresBare c item) : r.addTarget c = r.take item := by
  cases h with
  | plain h => simp [addTarget, take, h.isIdentifier, h.text_eq]
  | vararg hc htarget h =>
    simp [addTarget, take, hc, splatName, find?_isIdentifier htarget h, h.text_eq]
  | kwarg hc htarget h =>
    simp [addTarget, take, hc, splatName, find?_isIdentifier htarget h, h.text_eq]

/-- An item is read for what it declares. -/
theorem add_of_declares (h : Declares c item) : r.add c = r.take item := by
  have hunannotated : c.construct ≠ .typedParameter → r.add c = r.addTarget c :=
    fun hc => by simp [add, isA, hc]
  cases h with
  | bare h =>
    rw [hunannotated, addTarget_of_declaresBare r h]
    -- a name and what is behind stars are not of the construct of annotations
    cases h with
    | plain h => simp [h.isIdentifier]
    | vararg hc _ _ => simp [hc]
    | kwarg hc _ _ => simp [hc]
  | annotated hc htarget h =>
    obtain ⟨rest, hchildren⟩ := List.head?_eq_some_iff.1 htarget
    simp [add, isA, hc, hchildren, addTarget_of_declaresBare r h]
  | defaulted hc htarget h =>
    rcases hc with hc | hc <;>
      simp [hunannotated, addTarget, take, hc, htarget, isA, h.isIdentifier, h.text_eq]
  | slash hc => simp [hunannotated, addTarget, take, hc]
  | star hc => simp [hunannotated, addTarget, take, hc]

theorem add_of_isComment (h : c.isA .comment = true) : r.add c = r := by
  have hc : c.construct = .comment := by simpa [isA] using h
  simp [add, addTarget, isA, hc]

/-- Items in a row are read for what they declare, with comments among them or without. -/
theorem foldl_add_eq {cs : List Concrete} {items : List ParameterItem}
    (h : List.Forall₂ Declares (cs.filter (fun c => !c.isA .comment)) items) :
    cs.foldl add r = items.foldl take r := by
  induction cs generalizing r items with
  | nil =>
    obtain rfl := List.forall₂_nil_left_iff.1 h
    rfl
  | cons c rest ih =>
    by_cases hc : c.isA .comment = true
    · rw [List.filter_cons_of_neg (by simpa using hc)] at h
      rw [List.foldl_cons, add_of_isComment r hc, ih r h]
    · rw [List.filter_cons_of_pos (by simpa using hc)] at h
      obtain ⟨item, others, hitem, hothers, rfl⟩ := List.forall₂_cons_left_iff.1 h
      rw [List.foldl_cons, List.foldl_cons, add_of_declares r hitem, ih _ hothers]

/-! ## Groups -/

/-- Names in a row come behind the others of their kind, which a star in front of them decides. -/
theorem foldl_take_plain (names : List String) :
    (names.map ParameterItem.plain).foldl take r =
      if r.afterStar then
        { r with parameters :=
          { r.parameters with keywordOnly := r.parameters.keywordOnly ++ names } }
      else
        { r with parameters :=
          { r.parameters with positional := r.parameters.positional ++ names } } := by
  induction names generalizing r with
  | nil => simp
  | cons name rest ih =>
    rw [List.map_cons, List.foldl_cons, take, ih]
    by_cases hstar : r.afterStar = true <;> simp [push, hstar]

end ParameterReading

/-- The mark behind the names that are bound by position only: a slash, which may be missing if there
are no such names. -/
inductive EndsPositionalOnly (p : Parameters) : List ParameterItem → Prop where
  | slash : EndsPositionalOnly p [.slash]
  | none (h : p.positionalOnly = []) : EndsPositionalOnly p []

/-- The mark in front of the names that are bound by keyword only: a star with a name or without
one, which may be missing if there are no such names. -/
inductive StartsKeywordOnly (p : Parameters) : List ParameterItem → Prop where
  | vararg {name : String} (h : p.vararg = some name) : StartsKeywordOnly p [.vararg name]
  | star (h : p.vararg = none) : StartsKeywordOnly p [.star]
  | none (h : p.vararg = none) (hnames : p.keywordOnly = []) : StartsKeywordOnly p []

/-- The items of a parameter list, in their order. -/
inductive Arranges (p : Parameters) : List ParameterItem → Prop where
  | groups {slash star : List ParameterItem} (hslash : EndsPositionalOnly p slash)
    (hstar : StartsKeywordOnly p star) :
    Arranges p (p.positionalOnly.map .plain ++ slash ++ p.positional.map .plain ++
      (star ++ p.keywordOnly.map .plain) ++ (p.kwarg.map .kwarg).toList)

namespace ParameterReading

variable {p : Parameters} {slash star : List ParameterItem}

/-- The names that are bound by position, and the mark among them. -/
theorem foldl_take_positionals (h : EndsPositionalOnly p slash) :
    (p.positionalOnly.map ParameterItem.plain ++ slash ++
        p.positional.map ParameterItem.plain).foldl take {} =
      ⟨{ positionalOnly := p.positionalOnly, positional := p.positional }, false⟩ := by
  rw [List.foldl_append, List.foldl_append, foldl_take_plain]
  cases h with
  | slash => simp [take, foldl_take_plain]
  | none h => simp [h]

/-- The names that are bound by keyword only, behind their mark. -/
theorem foldl_take_keywords (h : StartsKeywordOnly p star) (front back : List String) :
    (star ++ p.keywordOnly.map ParameterItem.plain).foldl take
        ⟨{ positionalOnly := front, positional := back }, false⟩ =
      ⟨⟨front, back, p.vararg, p.keywordOnly, none⟩, !star.isEmpty⟩ := by
  rw [List.foldl_append]
  cases h with
  | vararg h => simp [take, foldl_take_plain, h]
  | star h => simp [take, foldl_take_plain, h]
  | none h hnames => simp [h, hnames]

end ParameterReading

/-- The groups that are read are those that are written. -/
theorem parametersOf_eq {p : Parameters} {items : List ParameterItem} {cs : List Concrete}
    (hp : Arranges p items)
    (hitems : List.Forall₂ Declares (cs.filter (fun c => !c.isA .comment)) items) :
    parametersOf cs = p := by
  obtain ⟨hslash, hstar⟩ := hp
  rw [parametersOf, ParameterReading.foldl_add_eq _ hitems, List.foldl_append, List.foldl_append,
    ParameterReading.foldl_take_positionals hslash, ParameterReading.foldl_take_keywords hstar]
  rcases p with ⟨positionalOnly, positional, vararg, keywordOnly, kwarg⟩
  cases kwarg <;> rfl

/-! ## Functions -/

/-- What is left of the names that are bound by position or keyword without a leading receiver. -/
inductive WithoutReceiver : List String → List String → Prop where
  | self (names : List String) : WithoutReceiver ("self" :: names) names
  | cls (names : List String) : WithoutReceiver ("cls" :: names) names
  | none {names : List String} (hself : names.head? ≠ some "self")
    (hcls : names.head? ≠ some "cls") : WithoutReceiver names names

/-- What a signature lists of the parameters: the names that are bound by position or keyword
without a leading receiver, then those behind stars. -/
structure Lists (p : Parameters) (arguments : List String) : Prop where
  exists_named : ∃ named, WithoutReceiver p.positional named ∧
    arguments = named ++ (p.vararg.map ("*" ++ ·)).toList ++ (p.kwarg.map ("**" ++ ·)).toList
  /-- Other names are not listed. -/
  hides : ∀ name ∈ p.positionalOnly ++ p.keywordOnly, name ∉ p.positional →
    name.toList.head? ≠ some '*' → name ∉ arguments

theorem exists_withoutReceiver (p : Parameters) :
    ∃ named, WithoutReceiver p.positional named ∧ Analysis.signatureArguments p =
      named ++ (p.vararg.map ("*" ++ ·)).toList ++ (p.kwarg.map ("**" ++ ·)).toList := by
  unfold Analysis.signatureArguments
  split
  · next names hnames => exact ⟨names, hnames ▸ .self names, rfl⟩
  · next names hnames => exact ⟨names, hnames ▸ .cls names, rfl⟩
  · next names hself hcls =>
    refine ⟨p.positional, .none ?_ ?_, rfl⟩
    · intro h
      obtain ⟨rest, hrest⟩ := List.head?_eq_some_iff.1 h
      exact hself rest hrest
    · intro h
      obtain ⟨rest, hrest⟩ := List.head?_eq_some_iff.1 h
      exact hcls rest hrest

theorem WithoutReceiver.subset {names named : List String} (h : WithoutReceiver names named) :
    named ⊆ names := by
  cases h with
  | self => exact List.subset_cons_self _ _
  | cls => exact List.subset_cons_self _ _
  | none => exact List.Subset.refl _

theorem lists_signatureArguments (p : Parameters) : Lists p (Analysis.signatureArguments p) := by
  obtain ⟨named, hnamed, harguments⟩ := exists_withoutReceiver p
  refine ⟨⟨named, hnamed, harguments⟩, fun name _ hpositional hstar hlisted => ?_⟩
  rw [harguments, List.mem_append, List.mem_append] at hlisted
  rcases hlisted with (hlisted | hlisted) | hlisted
  · exact hpositional (hnamed.subset hlisted)
  · obtain ⟨vararg, -, rfl⟩ : ∃ vararg, p.vararg = some vararg ∧ "*" ++ vararg = name := by
      simpa using hlisted
    exact hstar (by simp)
  · obtain ⟨kwarg, -, rfl⟩ : ∃ kwarg, p.kwarg = some kwarg ∧ "**" ++ kwarg = name := by
      simpa using hlisted
    exact hstar (by simp)

/-- What is known about a function from its parameter list. -/
structure ShowsParameters (p : Parameters) (list : Concrete) (f : FunctionDef) : Prop where
  lowered : parametersOf list.children = p
  declared : f.parameters = p
  signature : ∃ arguments, Lists p arguments ∧
    Analysis.signature f = f.name ++ "(" ++ ", ".intercalate arguments ++ ")"

/-- The groups of a function's parameters are those that are written, and its signature lists what
it should. -/
theorem showsParameters {definition list : Concrete} {p : Parameters}
    {items : List ParameterItem} (decorators : List Expr)
    (hlist : definition.child? .parameters = some list) (hp : Arranges p items)
    (hitems : List.Forall₂ Declares list.parts items) :
    ShowsParameters p list (definition.functionDef decorators) := by
  have hlowered : parametersOf list.children = p := parametersOf_eq hp hitems
  have hdeclared : (definition.functionDef decorators).parameters = p := by
    simp [functionDef, hlist, hlowered]
  refine ⟨hlowered, hdeclared, Analysis.signatureArguments p, lists_signatureArguments p, ?_⟩
  rw [Analysis.signature, hdeclared]

/-- A node of which the place does not matter. -/
def unplaced (construct : Construct) (children : List Concrete) : Concrete :=
  ⟨construct, none, default, "", children⟩

/-- A name of which the place does not matter. -/
def unplacedName (name : String) : Concrete := ⟨.identifier, none, default, name, []⟩

/-- A parameter list with names in all its groups: `(low, high=9, /, self, step: int,
*rest: int, strict, loud: bool = 1, **options)`, with comments between the names and behind a star. -/
def clampParameters : Concrete :=
  let comment := commentNode default
  let value := (unplaced .integer []).withRole .value
  let type := unplaced .type [unplacedName "int"]
  (unplaced .parameters [
    comment,
    unplacedName "low",
    unplaced .defaultParameter [(unplacedName "high").withRole .name, comment, value],
    unplaced .positionalSeparator [],
    comment,
    unplacedName "self",
    unplaced .typedParameter [unplacedName "step", comment, type],
    unplaced .typedParameter [unplaced .listSplatPattern [comment, unplacedName "rest"], type],
    unplacedName "strict",
    unplaced .typedDefaultParameter [(unplacedName "loud").withRole .name, type, value],
    comment,
    unplaced .dictionarySplatPattern [unplacedName "options"],
    comment]).withRole .parameters

theorem showsParameters_clamp :
    ShowsParameters ⟨["low", "high"], ["self", "step"], some "rest", ["strict", "loud"],
        some "options"⟩ clampParameters
      ((unplaced .functionDefinition
        [(unplacedName "clamp").withRole .name, clampParameters]).functionDef []) := by
  have hname : ∀ name, IsNamed name (unplacedName name) := fun _ => ⟨rfl, rfl⟩
  have htarget : ∀ name, IsNamed name ((unplacedName name).withRole .name) := fun _ => ⟨rfl, rfl⟩
  exact showsParameters [] rfl (.groups .slash (.vararg rfl))
    (.cons (.bare (.plain (hname "low"))) <|
      .cons (.defaulted (Or.inl rfl) rfl (htarget "high")) <|
      .cons (.slash rfl) <|
      .cons (.bare (.plain (hname "self"))) <|
      .cons (.annotated rfl rfl (.plain (hname "step"))) <|
      .cons (.annotated rfl rfl (.vararg rfl rfl (hname "rest"))) <|
      .cons (.bare (.plain (hname "strict"))) <|
      .cons (.defaulted (Or.inr rfl) rfl (htarget "loud")) <|
      .cons (.bare (.kwarg rfl rfl (hname "options"))) .nil)

/-- The signature of a function in a text, behind a receiver that is not the first parameter. -/
example :
    (readTree "def f(a, /, self, b: int = 1, *c, d, **e): pass\n").bind (fun t =>
      (Analysis.Symbol.ofTree t "a.py" "a").toOption.map (List.map Analysis.Symbol.signature)) =
      some [some "f(b, *c, **e)"] := by
  decide +kernel

end CodeAtlas.Python.Concrete
