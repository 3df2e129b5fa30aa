import CodeAtlas.Proofs.Python.Grammar.SimpleStatement
import CodeAtlas.Python.Reader

/-!
# Compound statements follow the grammar

Whatever is read as a statement with blocks follows the grammar, a decorated definition too: it is
made of decorators and of one definition.

Main result: `reads_allStatements`, the statements of a whole text follow the grammar.
-/

namespace CodeAtlas.Python.Grammar

open Concrete
open CodeAtlas.Parser (many)

set_option mvcgen.warning false

/-! ## Blocks -/

@[simp]
theorem followsGrammar_blockNode (start stop : Position) (statements : List Concrete) :
    (blockNode start statements stop).FollowsGrammar ↔ ∀ d ∈ statements, d.FollowsGrammar :=
  followsGrammar_of_isFree (by simp [blockNode, node])

theorem reads_blockBody (indent : Nat) {statements : Reader (List Concrete)}
    (h : Reads statements (fun cs => ∀ c ∈ cs, c.FollowsGrammar)) (lines : Nat) :
    Reads (blockBody indent statements lines) (fun b => ∀ c ∈ b.statements, c.FollowsGrammar) := by
  induction lines with
  | zero => exact reads_failure
  | succ lines ih =>
    unfold blockBody
    mvcgen [h, ih]
    simp_all [or_imp]

theorem reads_blockAfter (limit : Nat) {onLine below : Reader (List Concrete)}
    (honLine : Reads onLine (fun cs => ∀ c ∈ cs, c.FollowsGrammar))
    (hbelow : Reads below (fun cs => ∀ c ∈ cs, c.FollowsGrammar)) :
    Reads (blockAfter limit onLine below) FollowsGrammar := by
  have hblock := fun indent => reads_inBlock indent (reads_blockBody indent hbelow limit)
  mvcgen [blockAfter, honLine, hblock] <;> simp_all


@[spec]
theorem reads_atLineStart (p : Token → Bool) : Reads (atLineStart p) (fun _ => True) := reads_any _

/-! ## Clauses -/

/-- Rules for statements that read what follows the grammar. -/
class StatementRules.FollowGrammar (s : StatementRules) : Prop where
  rules : s.rules.FollowGrammar
  reads_block : Reads s.block FollowsGrammar

attribute [instance] StatementRules.FollowGrammar.rules
attribute [spec] StatementRules.FollowGrammar.reads_block StatementRules.headExpression

theorem reads_clauseOf? (text : String) {clause : Token → Reader Concrete}
    (h : ∀ t, Reads (clause t) FollowsGrammar) :
    Reads (clauseOf? text clause) (fun c? => ∀ c ∈ c?, c.FollowsGrammar) := by
  mvcgen [clauseOf?, h] <;> simp_all

section CompoundStatements

variable (s : StatementRules) [s.FollowGrammar]

@[spec]
theorem reads_elseClause? : Reads (elseClause? s) (fun c? => ∀ c ∈ c?, c.FollowsGrammar) := by
  refine reads_clauseOf? "else" (fun start => ?_)
  mvcgen
  simp_all

theorem reads_elifClause? : Reads (elifClause? s) (fun c? => ∀ c ∈ c?, c.FollowsGrammar) := by
  refine reads_clauseOf? "elif" (fun start => ?_)
  mvcgen
  simp_all

@[spec]
theorem reads_finallyClause? :
    Reads (finallyClause? s) (fun c? => ∀ c ∈ c?, c.FollowsGrammar) := by
  refine reads_clauseOf? "finally" (fun start => ?_)
  mvcgen
  simp_all

/-! ## Exceptions -/

@[spec]
theorem reads_handledExceptions :
    Reads (handledExceptions s) (fun cs => ∀ c ∈ cs, c.FollowsGrammar) := by
  mvcgen [handledExceptions] <;> simp_all

@[spec]
theorem reads_exceptClause? : Reads (exceptClause? s) (fun c? => ∀ c ∈ c?, c.FollowsGrammar) := by
  refine reads_clauseOf? "except" (fun start => ?_)
  mvcgen
  simp_all [or_imp]

@[spec]
theorem reads_exceptGroupClause? :
    Reads (exceptGroupClause? s) (fun c? => ∀ c ∈ c?, c.FollowsGrammar) := by
  refine reads_clauseOf? "except" (fun start => ?_)
  mvcgen
  simp_all

@[spec]
theorem reads_exceptClauses :
    Reads (exceptClauses s) (fun cs => ∀ c ∈ cs, c.FollowsGrammar) := by
  have hgroup := reads_any atExceptGroup
  have hgroups : Reads (many s.rules.limit (do
      if ← atExceptGroup then exceptGroupClause? s else return none))
        (fun cs => ∀ c ∈ cs, c.FollowsGrammar) := by
    refine reads_many s.rules.limit ?_
    mvcgen [hgroup]
    simp_all
  have hclauses := reads_many s.rules.limit (reads_exceptClause? s)
  mvcgen [exceptClauses, hgroup, hgroups, hclauses]

@[spec]
theorem reads_tryStatement : Reads (tryStatement s) FollowsGrammar := by
  mvcgen [tryStatement] <;> simp_all [or_imp]

/-! ## Conditions, loops and contexts -/

@[spec]
theorem reads_ifStatement : Reads (ifStatement s) FollowsGrammar := by
  have hothers := reads_many s.rules.limit (reads_elifClause? s)
  mvcgen [ifStatement, hothers]
  simp_all [or_imp]

@[spec]
theorem reads_whileStatement : Reads (whileStatement s) FollowsGrammar := by
  mvcgen [whileStatement]
  simp_all [or_imp]

@[spec]
theorem reads_forStatement (async? : Option Token) :
    Reads (forStatement s async?) FollowsGrammar := by
  mvcgen [forStatement]
  simp_all [or_imp]

omit [s.FollowGrammar] in
@[spec]
theorem reads_withClause (r : Rules) [r.FollowGrammar] : Reads (withClause r) FollowsGrammar := by
  have hitem : Reads (withItem r) FollowsGrammar := by
    mvcgen [withItem]
    simp_all
  have hinBrackets := reads_separated r.limit startsItem hitem
  have hplain := reads_separated r.limit startsExpression hitem
  have hbracketed : Reads (bracketedContexts r) (fun cs => ∀ c ∈ cs, c.FollowsGrammar) := by
    mvcgen [bracketedContexts, hinBrackets]
  have hcontexts : Reads (plainContexts r) (fun cs => ∀ c ∈ cs, c.FollowsGrammar) := by
    mvcgen [plainContexts, hplain]
  have hboth := reads_orElse hbracketed hcontexts
  mvcgen [withClause, hboth, hcontexts] <;> simp_all

@[spec]
theorem reads_withStatement (async? : Option Token) :
    Reads (withStatement s async?) FollowsGrammar := by
  mvcgen [withStatement]
  simp_all

/-! ## Definitions -/

/-- A definition that follows the grammar. -/
def IsDefinition (c : Concrete) : Prop := c.isDefinition = true ∧ c.FollowsGrammar

/-- A decorator that follows the grammar and stands for itself. -/
def IsDecorator (c : Concrete) : Prop :=
  c.construct = .decorator ∧ c.role = none ∧ c.FollowsGrammar

omit [s.FollowGrammar] in
@[spec]
theorem reads_typeParameter? (r : Rules) [r.FollowGrammar] :
    Reads (typeParameter? r) (fun cs => ∀ c ∈ cs, c.FollowsGrammar) := by
  have htype := reads_typeParameter r (reads_anyType r)
  mvcgen [typeParameter?, htype] <;> simp_all

omit [s.FollowGrammar] in
@[spec]
theorem reads_functionHead (r : Rules) [r.FollowGrammar] :
    Reads (functionHead r) (fun cs => ∀ c ∈ cs, c.FollowsGrammar) := by
  have hresult : Reads (returnType? r) (fun cs => ∀ c ∈ cs, c.FollowsGrammar) := by
    mvcgen [returnType?] <;> simp_all
  mvcgen [functionHead, hresult]
  simp_all [or_imp]

@[spec]
theorem reads_functionDefinition (async? : Option Token) :
    Reads (functionDefinition s async?) IsDefinition := by
  mvcgen [functionDefinition]
  refine ⟨rfl, ?_⟩
  simp_all [or_imp]

omit [s.FollowGrammar] in
@[spec]
theorem reads_classHead (r : Rules) [r.FollowGrammar] :
    Reads (classHead r) (fun cs => ∀ c ∈ cs, c.FollowsGrammar) := by
  have hbases : Reads (superclasses? r) (fun cs => ∀ c ∈ cs, c.FollowsGrammar) := by
    mvcgen [superclasses?] <;> simp_all
  mvcgen [classHead, hbases]
  simp_all [or_imp]

@[spec]
theorem reads_classDefinition : Reads (classDefinition s) IsDefinition := by
  mvcgen [classDefinition]
  refine ⟨rfl, ?_⟩
  simp_all [or_imp]

@[spec]
theorem reads_definition : Reads (definition s) IsDefinition := by
  mvcgen [definition]

omit [s.FollowGrammar] in
@[spec]
theorem reads_decorator (r : Rules) [r.FollowGrammar] : Reads (decorator r) IsDecorator := by
  mvcgen [decorator]
  refine ⟨rfl, rfl, ?_⟩
  simp_all

/-- Decorators with a definition follow the grammar. -/
theorem followsGrammar_of_decorated {c definition : Concrete} {decorators : List Concrete}
    (hconstruct : c.construct = .decoratedDefinition)
    (hchildren : c.children = decorators ++ [definition.withRole .definition])
    (hdecorators : ∀ d ∈ decorators, IsDecorator d) (hdefinition : IsDefinition definition) :
    c.FollowsGrammar := by
  refine followsGrammar_iff.2 ⟨⟨fun _ => ?_, fun himport => ?_⟩, fun d hd => ?_⟩
  · refine ⟨decorators.length, definition.withRole .definition, ?_, rfl, hdefinition.1, ?_⟩
    · rw [hchildren, List.getElem?_concat_length]
    · intro i d hd hi
      have hlt : i < c.children.length := (List.getElem?_eq_some_iff.1 hd).1
      rw [hchildren, List.length_append, List.length_singleton] at hlt
      rw [hchildren, List.getElem?_append_left (by omega)] at hd
      obtain ⟨hdecorator, hrole, -⟩ := hdecorators d (List.mem_of_getElem? hd)
      exact ⟨by simp [hrole], Or.inl hdecorator⟩
  · simp [isImport, isA, hconstruct] at himport
  · rw [hchildren, List.mem_append, List.mem_singleton] at hd
    rcases hd with hd | rfl
    · exact (hdecorators d hd).2.2
    · exact (followsGrammar_withRole _ _).2 hdefinition.2

@[spec]
theorem reads_decoratedDefinition : Reads (decoratedDefinition s) FollowsGrammar := by
  have hnext : Reads (decorator? s.rules) (fun c? => ∀ c ∈ c?, IsDecorator c) := by
    mvcgen [decorator?] <;> simp_all
  have hdecorators := reads_many s.rules.limit hnext
  mvcgen [decoratedDefinition, hdecorators]
  refine followsGrammar_of_decorated rfl rfl ?_ ‹_›
  simp_all

/-! ## Cases -/

@[spec]
theorem reads_caseClause :
    Reads (caseClause s) (fun cs => ∀ c ∈ cs, c.FollowsGrammar) := by
  have hcondition := reads_ifClause (reads_expression s.rules)
  have hhead : Reads (caseHead s.rules) (fun cs => ∀ c ∈ cs, c.FollowsGrammar) := by
    mvcgen [caseHead, hcondition]
    simp_all [or_imp]
  mvcgen [caseClause, hhead]
  simp_all [or_imp]

omit [s.FollowGrammar] in
theorem reads_matchStatement (r : Rules) [r.FollowGrammar] {cases : Reader Concrete}
    (h : Reads cases FollowsGrammar) : Reads (matchStatement r cases) FollowsGrammar := by
  have helements := reads_elementsOf r [] (reads_expression r)
  mvcgen [matchStatement, matchedValues, helements, h]
  simp_all [or_imp]

/-! ## Statements -/

@[spec]
theorem reads_asyncStatement : Reads (asyncStatement s) FollowsGrammar := by
  mvcgen [asyncStatement]
  simp_all [IsDefinition]

theorem reads_compoundStatement? (t : Token) :
    ∀ compound ∈ compoundStatement? s t, Reads compound FollowsGrammar := by
  intro compound hcompound
  have hdefinition : Reads (definition s) FollowsGrammar :=
    reads_iff.2 (fun _ _ _ _ h => ((reads_definition s).of_eq_some h).2)
  unfold compoundStatement? at hcompound
  split at hcompound
  · split at hcompound
    · exact Option.some.inj hcompound ▸ reads_decoratedDefinition s
    · cases hcompound
  · split at hcompound
    · exact Option.some.inj hcompound ▸ reads_ifStatement s
    · exact Option.some.inj hcompound ▸ reads_whileStatement s
    · exact Option.some.inj hcompound ▸ reads_forStatement s none
    · exact Option.some.inj hcompound ▸ reads_tryStatement s
    · exact Option.some.inj hcompound ▸ reads_withStatement s none
    · exact Option.some.inj hcompound ▸ hdefinition
    · exact Option.some.inj hcompound ▸ hdefinition
    · cases hcompound

theorem reads_statement {cases : Reader Concrete} (h : Reads cases FollowsGrammar) :
    Reads (statement s cases) (fun cs => ∀ c ∈ cs, c.FollowsGrammar) := by
  have hmatch : Reads (do return [← matchStatement s.rules cases])
      (fun cs => ∀ c ∈ cs, c.FollowsGrammar) := by
    have hone := reads_matchStatement s.rules h
    mvcgen [hone]
    simp_all
  have hchoice := reads_orElse hmatch (reads_simpleStatements s.rules)
  mvcgen [statement, hchoice]
  · simp_all
  · have hcompound := reads_compoundStatement? s _ _ ‹compoundStatement? s _ = some _›
    mvcgen [hcompound]
    simp_all

end CompoundStatements

/-! ## Whole texts -/

variable (r : Rules) [r.FollowGrammar]

@[spec]
theorem reads_statementsAt (depth : Nat) :
    Reads (statementsAt r depth) (fun cs => ∀ c ∈ cs, c.FollowsGrammar) := by
  induction depth with
  | zero => exact reads_failure
  | succ depth ih =>
    let s : StatementRules :=
      ⟨r, fun place ts => blockAfter r.limit (simpleStatements r) (statementsAt r depth) place ts⟩
    have hs : s.FollowGrammar := ⟨‹_›, reads_blockAfter r.limit (reads_simpleStatements r) ih⟩
    exact reads_statement s (reads_blockAfter r.limit reads_failure (reads_caseClause s))

/-- The statements of a whole text follow the grammar. -/
theorem reads_allStatements (lines : Nat) :
    Reads (allStatements r lines) (fun cs => ∀ c ∈ cs, c.FollowsGrammar) := by
  induction lines with
  | zero => exact reads_failure
  | succ lines ih =>
    unfold allStatements
    mvcgen [ih] <;> simp_all [or_imp]

end CodeAtlas.Python.Grammar
