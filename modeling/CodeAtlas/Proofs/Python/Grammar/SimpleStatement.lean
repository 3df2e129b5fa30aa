import CodeAtlas.Proofs.Python.Grammar.Expression
import CodeAtlas.Python.Grammar.CasePattern
import CodeAtlas.Python.Grammar.SimpleStatement

/-!
# Simple statements follow the grammar

Whatever is read as a simple statement or as the pattern of a case follows the grammar. The imports
among them are made of names.

Main results:

- Theorems `reads_importStatement` and `reads_importFromStatement`: imports follow the grammar.
- Theorem `reads_simpleStatements`: so do all statements on a line.
- Theorem `reads_casePatterns`: so does what is kept of patterns.
-/

namespace CodeAtlas.Python.Grammar

open Concrete
open CodeAtlas.Parser (many repeatWhile)

set_option mvcgen.warning false

/-! ## Imports -/

/-- What imports are made of: names, which follow the grammar and are no landmarks. -/
def IsName (c : Concrete) : Prop := c.IsBare ∧ c.FollowsGrammar

/-- A construct of names. -/
@[simp]
abbrev NamesOnly (construct : Construct) : Prop :=
  construct = .identifier ∨ construct = .dottedName ∨ construct = .aliasedImport ∨
    construct = .relativeImport ∨ construct = .wildcardImport

theorem isName_iff {c : Concrete} (h : NamesOnly c.construct) :
    IsName c ↔ ∀ d ∈ c.children, IsName d := by
  have hlandmark : c.isLandmark = false := by
    rcases h with h | h | h | h | h <;> simp [isLandmark, isDefinition, isImport, isA, h]
  have hfree : c.construct.IsFree := by
    rcases h with h | h | h | h | h <;> simp [h]
  simp only [IsName, isBare_iff (c := c), hlandmark, true_and, followsGrammar_of_isFree hfree,
    forall_and]

@[simp]
theorem isName_node {construct : Construct} (h : NamesOnly construct) (extent : Extent)
    (children : List Concrete) :
    IsName (node construct extent children) ↔ ∀ d ∈ children, IsName d :=
  isName_iff h

@[simp]
theorem isName_leaf {construct : Construct} (h : NamesOnly construct) (t : Token) :
    IsName (leaf construct t) :=
  (isName_iff h).2 (fun _ hd => absurd hd List.not_mem_nil)

@[simp]
theorem isName_withRole (role : Role) (c : Concrete) : IsName (c.withRole role) ↔ IsName c := by
  have hlandmark : (c.withRole role).isLandmark = c.isLandmark := rfl
  have hchildren : (c.withRole role).children = c.children := rfl
  rw [IsName, IsName, followsGrammar_withRole, isBare_iff, isBare_iff (c := c), hlandmark,
    hchildren]

/-- An import of names follows the grammar. -/
theorem followsGrammar_of_isImport {c : Concrete} (himport : c.isImport = true)
    (h : ∀ d ∈ c.children, IsName d) : c.FollowsGrammar := by
  refine followsGrammar_iff.2 ⟨⟨fun hdecorated => ?_, fun _ d hd => (h d hd).1⟩,
    fun d hd => (h d hd).2⟩
  simp [isImport, isA, hdecorated] at himport

theorem reads_identifier : Reads name IsName := by
  unfold name
  mvcgen
  simp

@[spec]
theorem reads_dottedName (limit : Nat) : Reads (dottedName limit) IsName := by
  have hpart : Reads dottedPart? (fun c? => ∀ c ∈ c?, IsName c) := by
    mvcgen [dottedPart?, -reads_name, reads_identifier] <;> simp_all
  have hparts := reads_many limit hpart
  mvcgen [dottedName, -reads_name, reads_identifier, hparts]
  simp_all

@[spec]
theorem reads_importedName (limit : Nat) : Reads (importedName limit) IsName := by
  mvcgen [importedName, -reads_name, reads_identifier] <;> simp_all

@[spec]
theorem reads_importedNames (limit : Nat) :
    Reads (importedNames limit) (fun items => ∀ c ∈ items.names, IsName c) := by
  have hnames := reads_many limit
    (reads_itemAfterComma Token.isName (reads_importedName limit))
  mvcgen [importedNames, hnames]
  simp_all

@[spec]
theorem reads_bracketedNames (limit : Nat) :
    Reads (bracketedNames limit) (fun items => ∀ c ∈ items.names, IsName c) := by
  mvcgen [bracketedNames]

@[spec]
theorem reads_importedItems (limit : Nat) :
    Reads (importedItems limit) (fun items => ∀ c ∈ items.names, IsName c) := by
  mvcgen [importedItems]
  simp_all

@[spec]
theorem reads_importStatement (limit : Nat) : Reads (importStatement limit) FollowsGrammar := by
  mvcgen [importStatement]
  exact followsGrammar_of_isImport rfl ‹_›

@[spec]
theorem reads_importSource (limit : Nat) : Reads (importSource limit) IsName := by
  have hdots := reads_any (many limit leadingDots?)
  mvcgen [importSource, hdots] <;> simp_all

@[spec]
theorem reads_importFromStatement (limit : Nat) :
    Reads (importFromStatement limit) FollowsGrammar := by
  mvcgen [importFromStatement] <;> refine followsGrammar_of_isImport rfl ?_ <;> simp_all [node]

/-! ## Simple statements -/

@[simp]
theorem followsGrammar_wordNode {construct : Construct} (h : construct.IsFree) (start : Token)
    (parts : List Concrete) :
    (wordNode construct start parts).FollowsGrammar ↔ ∀ d ∈ parts, d.FollowsGrammar :=
  followsGrammar_node h _ parts

section SimpleStatements

variable (r : Rules) [r.FollowGrammar]

theorem reads_assignmentTo? {value : Reader Concrete} (h : Reads value FollowsGrammar)
    {target : Concrete} (htarget : target.FollowsGrammar) :
    Reads (assignmentTo? r value target) (fun c? => ∀ c ∈ c?, c.FollowsGrammar) := by
  mvcgen [assignmentTo?, h] <;> simp_all +zetaDelta
  split <;> simp_all

theorem reads_assignedValue (rounds : Nat) : Reads (assignedValue r rounds) FollowsGrammar := by
  induction rounds with
  | zero => exact reads_failure
  | succ rounds ih =>
    have hassigned := fun {c : Concrete} (hc : c.FollowsGrammar) => reads_assignmentTo? r ih hc
    unfold assignedValue
    mvcgen [hassigned]
    rename_i assigned? _ _ hassigned?
    cases assigned? <;> simp_all

@[spec]
theorem reads_expressionStatement : Reads (expressionStatement r) FollowsGrammar := by
  have helements := reads_elementsOf r [] (reads_expression r)
  have hassigned := fun {c : Concrete} (hc : c.FollowsGrammar) =>
    reads_assignmentTo? r (reads_assignedValue r r.limit) hc
  mvcgen [expressionStatement, helements, hassigned] <;>
    simp_all [Elements.followsGrammar_asExpression]

omit [r.FollowGrammar] in
theorem reads_wordStatement {construct : Construct} (h : construct.IsFree) (text : String) :
    Reads (wordStatement construct text) FollowsGrammar := by
  mvcgen [wordStatement]
  exact (followsGrammar_node h _ _).2 (by simp)

@[spec]
theorem reads_expressions? (ends : List String) :
    Reads (expressions? r ends) (fun cs => ∀ c ∈ cs, c.FollowsGrammar) := by
  have helements := reads_elementsOf r ends (reads_expression r)
  mvcgen [expressions?, helements] <;> simp_all [Elements.followsGrammar_asExpression]

@[spec]
theorem reads_returnStatement : Reads (returnStatement r) FollowsGrammar := by
  mvcgen [returnStatement]
  simp_all

@[spec]
theorem reads_deleteStatement : Reads (deleteStatement r) FollowsGrammar := by
  mvcgen [deleteStatement]
  simp_all

@[spec]
theorem reads_raiseStatement : Reads (raiseStatement r) FollowsGrammar := by
  mvcgen [raiseStatement] <;> simp_all [or_imp]

@[spec]
theorem reads_assertStatement : Reads (assertStatement r) FollowsGrammar := by
  have hitems := reads_enumerated r.limit (reads_expression r)
  mvcgen [assertStatement, hitems]
  simp_all

omit [r.FollowGrammar] in
theorem reads_scopeStatement {construct : Construct} (h : construct.IsFree) (text : String) :
    Reads (scopeStatement r construct text) FollowsGrammar := by
  have hitems := reads_enumerated r.limit reads_name
  mvcgen [scopeStatement, hitems]
  simp_all

@[spec]
theorem reads_printStatement : Reads (printStatement r) FollowsGrammar := by
  have hitems := reads_many r.limit (reads_itemAfterComma startsExpression (reads_expression r))
  mvcgen [printStatement, chevron?, hitems] <;> simp_all [or_imp]

@[spec]
theorem reads_execStatement : Reads (execStatement r) FollowsGrammar := by
  have hitems := reads_enumerated r.limit (reads_expression r)
  mvcgen [execStatement, hitems] <;> simp_all

@[spec]
theorem reads_typeAliasStatement : Reads (typeAliasStatement r) FollowsGrammar := by
  mvcgen [typeAliasStatement]
  simp_all

omit [r.FollowGrammar] in
theorem reads_whole {statement : Reader Concrete} (h : Reads statement FollowsGrammar) :
    Reads (whole statement) FollowsGrammar := by
  mvcgen [whole, h]

@[spec]
theorem reads_nameStatement (text : String) : Reads (nameStatement r text) FollowsGrammar := by
  have hstatement := reads_expressionStatement r
  have hprint := reads_orElse (reads_whole hstatement) (reads_printStatement r)
  have hexec := reads_orElse (reads_whole hstatement) (reads_execStatement r)
  have htype := reads_orElse (reads_whole (reads_typeAliasStatement r)) hstatement
  mvcgen [nameStatement, hprint, hexec, htype]

@[spec]
theorem reads_simpleStatement : Reads (simpleStatement r) FollowsGrammar := by
  mvcgen [simpleStatement, reads_wordStatement, reads_scopeStatement] <;> simp_all

@[spec]
theorem reads_simpleStatements :
    Reads (simpleStatements r) (fun cs => ∀ c ∈ cs, c.FollowsGrammar) := by
  have hnext : Reads (statementAfterSemicolon? r) (fun c? => ∀ c ∈ c?, c.FollowsGrammar) := by
    mvcgen [statementAfterSemicolon?] <;> simp_all
  have hrest := reads_many r.limit hnext
  mvcgen [simpleStatements, hrest]
  simp_all

end SimpleStatements

/-! ## Patterns of cases -/

section Patterns

variable (r : Rules) [r.FollowGrammar]

/-- All that a reader of patterns gives follows the grammar. -/
abbrev PatternsFollow (reader : PatternReader) : Prop :=
  Reads reader (fun cs => ∀ c ∈ cs, c.FollowsGrammar)

theorem reads_patternItems (limit : Nat) {item : PatternReader} (h : PatternsFollow item)
    (close : String) : PatternsFollow (patternItems limit item close) := by
  have hitems := reads_bracketed limit h
  mvcgen [patternItems, hitems]
  simp_all only [List.mem_flatten]
  grind

theorem reads_namedPattern (limit : Nat) {inner : PatternReader} (h : PatternsFollow inner) :
    PatternsFollow (namedPattern limit inner) := by
  have hparts := reads_any (many limit valueNamePart?)
  have hitems := reads_patternItems limit h ")"
  mvcgen [namedPattern, hparts, hitems]
  simp

@[spec]
theorem reads_splatPattern : PatternsFollow splatPattern := by
  mvcgen [splatPattern]
  simp

@[spec]
theorem reads_numberPattern : PatternsFollow numberPattern := by
  mvcgen [numberPattern] <;> simp

theorem reads_entryPattern {key inner : PatternReader} (hkey : PatternsFollow key)
    (hinner : PatternsFollow inner) : PatternsFollow (entryPattern key inner) := by
  mvcgen [entryPattern, hkey, hinner]
  simp_all [or_imp]

theorem reads_closedPattern {key inner : PatternReader} (hkey : PatternsFollow key)
    (hinner : PatternsFollow inner) : PatternsFollow (closedPattern r key inner) := by
  have hnamed := reads_namedPattern r.limit hinner
  have hitems := fun close => reads_patternItems r.limit hinner close
  have hentries := reads_patternItems r.limit (reads_entryPattern hkey hinner) "\x7d"
  mvcgen [closedPattern, hnamed, hitems, hentries] <;> simp_all

theorem reads_alternatives (limit : Nat) {pattern : PatternReader} (h : PatternsFollow pattern) :
    PatternsFollow (alternatives limit pattern) := by
  have hnext : Reads (alternative? pattern)
      (fun cs? => ∀ cs ∈ cs?, ∀ c ∈ cs, c.FollowsGrammar) := by
    mvcgen [alternative?, h] <;> simp_all
  have hothers := reads_many limit hnext
  mvcgen [alternatives, h, hothers]
  simp_all only [List.mem_append, List.mem_flatten]
  grind

/-- Patterns follow the grammar, with alternatives and with names. -/
theorem reads_unnamedPattern_patternOf (depth : Nat) :
    PatternsFollow (unnamedPattern r depth) ∧ PatternsFollow (patternOf r depth) := by
  induction depth with
  | zero => exact ⟨reads_failure, reads_failure⟩
  | succ depth ih =>
    have hboth := reads_alternatives r.limit (reads_closedPattern r ih.1 ih.2)
    have hnames := reads_any (many r.limit patternName?)
    constructor
    · rw [unnamedPattern]
      exact hboth
    · rw [patternOf]
      mvcgen [hboth, hnames]

@[spec]
theorem reads_casePatterns : PatternsFollow (casePatterns r) := by
  have hpattern := (reads_unnamedPattern_patternOf r r.limit).2
  have hcase : Reads (casePattern r) FollowsGrammar := by
    mvcgen [casePattern, hpattern]
    simp_all
  have hitems := reads_separated r.limit (fun t => !t.isSymbol ":" && !t.isWord "if") hcase
  mvcgen [casePatterns, hitems]

end Patterns

end CodeAtlas.Python.Grammar
