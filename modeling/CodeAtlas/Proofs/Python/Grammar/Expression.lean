import CodeAtlas.Proofs.Python.Landmarks
import CodeAtlas.Proofs.Python.Grammar.Basic
import CodeAtlas.Python.Grammar.Expression

/-!
# Expressions follow the grammar

Whatever is read as an expression or as a part of one follows the grammar, as far as that says
something about decorated definitions and imports: there are none in expressions.

Main result: `rulesOf_followGrammar`, the rules for expressions read what follows the grammar.
-/

namespace CodeAtlas.Python

open CodeAtlas.Parser (many repeatWhile)

set_option mvcgen.warning false

/-- A construct may be made of anything. -/
@[simp]
abbrev Construct.IsFree (construct : Construct) : Prop :=
  construct ≠ .decoratedDefinition ∧ construct ≠ .importStatement ∧
    construct ≠ .importFromStatement ∧ construct ≠ .futureImportStatement

namespace Concrete

theorem wellMade_of_isFree {c : Concrete} (h : c.construct.IsFree) : c.WellMade where
  decorated hconstruct := absurd hconstruct h.1
  imports himport := by
    simp only [isImport, isA, Bool.or_eq_true, beq_iff_eq, or_assoc] at himport
    rcases himport with hconstruct | hconstruct | hconstruct <;> simp [hconstruct] at h

theorem followsGrammar_of_isFree {c : Concrete} (h : c.construct.IsFree) :
    c.FollowsGrammar ↔ ∀ d ∈ c.children, d.FollowsGrammar := by
  rw [followsGrammar_iff, and_iff_right (wellMade_of_isFree h)]

@[simp]
theorem followsGrammar_withRole (role : Role) (c : Concrete) :
    (c.withRole role).FollowsGrammar ↔ c.FollowsGrammar := by
  have hwell : (c.withRole role).WellMade ↔ c.WellMade :=
    ⟨fun h => ⟨h.decorated, h.imports⟩, fun h => ⟨h.decorated, h.imports⟩⟩
  rw [followsGrammar_iff, followsGrammar_iff, hwell]
  rfl

end Concrete

namespace Grammar

open Concrete

@[simp]
theorem followsGrammar_node {construct : Construct} (h : construct.IsFree) (extent : Extent)
    (children : List Concrete) :
    (node construct extent children).FollowsGrammar ↔ ∀ d ∈ children, d.FollowsGrammar :=
  followsGrammar_of_isFree h

@[simp]
theorem followsGrammar_leaf {construct : Construct} (h : construct.IsFree) (t : Token) :
    (leaf construct t).FollowsGrammar :=
  (followsGrammar_of_isFree h).2 (fun _ hd => absurd hd List.not_mem_nil)

@[spec]
theorem reads_name : Reads name FollowsGrammar := by
  mvcgen [name]
  simp

@[spec]
theorem reads_closeNode {construct : Construct} (h : construct.IsFree) (start : Token)
    (close : String) {children : List Concrete} (hchildren : ∀ d ∈ children, d.FollowsGrammar) :
    Reads (closeNode construct start close children) FollowsGrammar := by
  mvcgen [closeNode]
  exact (followsGrammar_node h _ _).2 hchildren

/-- Rules for expressions that read what follows the grammar. -/
class Rules.FollowGrammar (r : Rules) : Prop where
  reads_primary : Reads r.primary FollowsGrammar
  reads_expressionOf : ∀ level, Reads (r.expressionOf level) FollowsGrammar
  reads_source : Reads r.source FollowsGrammar

attribute [spec] Rules.FollowGrammar.reads_primary Rules.FollowGrammar.reads_expressionOf
  Rules.FollowGrammar.reads_source

section Rules

variable (r : Rules) [r.FollowGrammar]

@[spec]
theorem reads_expression : Reads r.expression FollowsGrammar :=
  Rules.FollowGrammar.reads_expressionOf .conditional

/-! ## Elements and patterns -/

theorem Elements.followsGrammar_asExpression {es : Elements}
    (h : ∀ c ∈ es.toList, c.FollowsGrammar) : es.asExpression.FollowsGrammar := by
  unfold Elements.asExpression
  split
  · simpa using h
  · exact h es.first List.mem_cons_self

omit [r.FollowGrammar] in
theorem reads_elementsOf (ends : List String) {one : Reader Concrete}
    (h : Reads one FollowsGrammar) :
    Reads (elementsOf r ends one) (fun es => ∀ c ∈ es.toList, c.FollowsGrammar) := by
  have hmany := reads_many r.limit (reads_itemAfterComma (startsExpressionBut ends) h)
  mvcgen [elementsOf, h, hmany]
  simp_all [Elements.toList]

@[spec]
theorem reads_expressions : Reads (expressions r) FollowsGrammar := by
  have helements := reads_elementsOf r [] (reads_expression r)
  mvcgen [expressions, helements]
  exact Elements.followsGrammar_asExpression ‹_›

@[spec]
theorem reads_yielded : Reads (yielded r) FollowsGrammar := by
  mvcgen [yielded] <;> simp_all

@[spec]
theorem reads_yieldedOrExpressions : Reads (yieldedOrExpressions r) FollowsGrammar := by
  mvcgen [yieldedOrExpressions]

/-- What patterns have if they are made from expressions in a row. -/
theorem forall_of_toPatterns? {P : Concrete → Prop} {cs ds : List Concrete}
    (h : toPatterns? cs = some ds) (hP : ∀ c ∈ cs, ∀ d, toPattern? c = some d → P d) :
    ∀ d ∈ ds, P d := by
  induction cs generalizing ds with
  | nil =>
    obtain rfl := Option.some.inj h
    simp
  | cons c rest ih =>
    rw [toPatterns?] at h
    split at h
    · obtain rfl := Option.some.inj h
      rename_i d ds hd hds
      have hrest := ih hds (fun c hc => hP c (List.mem_cons_of_mem _ hc))
      exact List.forall_mem_cons.2 ⟨hP c List.mem_cons_self d hd, hrest⟩
    · cases h

/-- The pattern that an expression is follows the grammar as the expression does. -/
theorem followsGrammar_of_toPattern? {c d : Concrete} (hd : toPattern? c = some d)
    (h : c.FollowsGrammar) : d.FollowsGrammar := by
  induction c using Concrete.childrenInduction generalizing d with
  | step c ih =>
    obtain ⟨construct, role, extent, text, children⟩ := c
    have hchildren : ∀ e ∈ children, e.FollowsGrammar := (followsGrammar_iff.1 h).2
    have hmade : ∀ {result : Construct}, result.IsFree →
        (toPatterns? children).map (fun ds => ⟨result, role, extent, text, ds⟩) = some d →
          d.FollowsGrammar := by
      intro result hfree hsome
      obtain ⟨ds, hds, rfl⟩ := Option.map_eq_some_iff.1 hsome
      refine (followsGrammar_of_isFree hfree).2 (forall_of_toPatterns? hds ?_)
      exact fun e he d hd => ih e he hd (hchildren e he)
    unfold toPattern? at hd
    split at hd
    case h_4 =>
      split at hd
      · obtain rfl := Option.some.inj hd
        exact (followsGrammar_of_isFree (by simp)).2 hchildren
      · cases hd
    case h_5 | h_6 | h_7 | h_8 => exact hmade (by simp) hd
    case h_9 => cases hd
    all_goals exact Option.some.inj hd ▸ h

@[spec]
theorem reads_pattern {c : Concrete} (h : c.FollowsGrammar) : Reads (pattern c) FollowsGrammar := by
  refine reads_iff.2 (fun place ts d rest hd => ?_)
  obtain ⟨e, he, hpair⟩ := Option.map_eq_some_iff.1 hd
  obtain ⟨rfl, -⟩ := Prod.mk.inj hpair
  exact followsGrammar_of_toPattern? he h

@[spec]
theorem reads_loopTargets : Reads (loopTargets r) FollowsGrammar := by
  have helements := reads_elementsOf r ["in"] (Rules.FollowGrammar.reads_primary (r := r))
  mvcgen [loopTargets, helements]
  exact fun _ _ => Elements.followsGrammar_asExpression

/-! ## Strings and templates -/

omit [r.FollowGrammar] in
theorem reads_formatOf {one : Reader Concrete} (h : Reads one FollowsGrammar) :
    Reads (formatOf r one) (fun cs => ∀ c ∈ cs, c.FollowsGrammar) := by
  have hfields : Reads (many r.limit (do
      if ← nextIs (fun t => t.kind == .fieldStart) then return some (← one) else return none))
        (fun cs => ∀ c ∈ cs, c.FollowsGrammar) := by
    refine reads_many r.limit ?_
    mvcgen [h] <;> simp_all
  mvcgen [formatOf, hfields] <;> simp_all

theorem reads_field (depth : Nat) {construct : Construct} (h : construct.IsFree) :
    Reads (field r depth construct) FollowsGrammar := by
  induction depth generalizing construct with
  | zero =>
    unfold field
    mvcgen
  | succ depth ih =>
    have hformat := reads_formatOf r (ih (show Construct.IsFree .formatExpression by simp))
    unfold field
    mvcgen [hformat]
    simp_all

@[spec]
theorem reads_strings : Reads (strings r) FollowsGrammar := by
  have hfields : Reads (many r.limit (do
      if ← nextIs (fun t => t.kind == .fieldStart) then
        return some (← field r r.limit .interpolation)
      else return none)) (fun cs => ∀ c ∈ cs, c.FollowsGrammar) := by
    have hfield := reads_field r r.limit (show Construct.IsFree .interpolation by simp)
    refine reads_many r.limit ?_
    mvcgen [hfield] <;> simp_all
  have hpart : Reads (stringPart? r) (fun c? => ∀ c ∈ c?, c.FollowsGrammar) := by
    mvcgen [stringPart?, hfields] <;> simp_all [followsGrammar_of_isFree]
  have hparts := reads_many r.limit hpart
  mvcgen [strings, hparts] <;> simp_all

/-! ## Brackets -/

@[spec]
theorem reads_loopClause : Reads (loopClause r) FollowsGrammar := by
  have hright := reads_separated r.limit (startsExpressionBut ["for", "async", "if"])
    (Rules.FollowGrammar.reads_source (r := r))
  mvcgen [loopClause, hright]
  simp_all

omit [r.FollowGrammar] in
theorem reads_ifClause {condition : Reader Concrete} (h : Reads condition FollowsGrammar) :
    Reads (ifClause condition) FollowsGrammar := by
  mvcgen [ifClause, h]
  simp_all

@[spec]
theorem reads_clauses : Reads (clauses r) (fun cs => ∀ c ∈ cs, c.FollowsGrammar) := by
  have hif := reads_ifClause (Rules.FollowGrammar.reads_expressionOf (r := r) .renaming)
  have hclause : Reads (clause? r) (fun c? => ∀ c ∈ c?, c.FollowsGrammar) := by
    mvcgen [clause?, atLoopClause, hif] <;> simp_all
  have hclauses := reads_many r.limit hclause
  mvcgen [clauses, hclauses]
  simp_all

theorem reads_closeItems (start : Token) (close : String) {comprehension collection : Construct}
    (hcomprehension : comprehension.IsFree) (hcollection : collection.IsFree) {first : Concrete}
    (hfirst : first.FollowsGrammar) {item : Reader Concrete} (hitem : Reads item FollowsGrammar) :
    Reads (closeItems r start close comprehension collection first item) FollowsGrammar := by
  have hitems := reads_many r.limit (reads_itemAfterComma startsItem hitem)
  mvcgen [closeItems, atLoopClause, hitems] <;> simp_all

@[spec]
theorem reads_splat : Reads (splat r) FollowsGrammar := by
  mvcgen [splat]
  simp_all

@[spec]
theorem reads_splatOrExpression (ends : List String) :
    Reads (splatOrExpression r ends) FollowsGrammar := by
  have hstarred : Reads (do
      let value ← splat r
      require (← nextIs (fun t => ends.any t.isSymbol))
      return value : Reader Concrete) FollowsGrammar := by
    mvcgen
  have hboth := reads_orElse hstarred (reads_expression r)
  mvcgen [splatOrExpression, hboth]

@[spec]
theorem reads_element (ends : List String) : Reads (element r ends) FollowsGrammar := by
  mvcgen [element]

@[spec]
theorem reads_round : Reads (round r) FollowsGrammar := by
  mvcgen [round, reads_closeItems] <;> simp_all

@[spec]
theorem reads_square : Reads (square r) FollowsGrammar := by
  mvcgen [square, reads_closeItems] <;> simp_all

@[spec]
theorem reads_mappingSplat : Reads (mappingSplat r) FollowsGrammar := by
  mvcgen [mappingSplat]
  simp_all

@[spec]
theorem reads_pairOf {key : Concrete} (h : key.FollowsGrammar) :
    Reads (pairOf r key) FollowsGrammar := by
  mvcgen [pairOf]
  simp_all

@[spec]
theorem reads_entry : Reads (entry r) FollowsGrammar := by
  mvcgen [entry]
  exact fun _ _ h => h

@[spec]
theorem reads_curly : Reads (curly r) FollowsGrammar := by
  mvcgen [curly, atEmpty, closeEmpty, reads_closeItems] <;> simp_all

/-! ## Arguments and subscripts -/

@[spec]
theorem reads_argument : Reads (argument r) FollowsGrammar := by
  mvcgen [argument]
  simp_all

@[spec]
theorem reads_arguments : Reads (arguments r) FollowsGrammar := by
  mvcgen [arguments, atEmpty, closeEmpty, reads_closeItems] <;> simp_all

@[spec]
theorem reads_expression? : Reads (expression? r) (fun c? => ∀ c ∈ c?, c.FollowsGrammar) := by
  mvcgen [expression?] <;> simp_all

@[spec]
theorem reads_sliceFrom {lower : Option Concrete} (h : ∀ c ∈ lower, c.FollowsGrammar)
    (colon : Token) : Reads (sliceFrom r lower colon) FollowsGrammar := by
  mvcgen [sliceFrom] <;> simp_all [or_imp]

@[spec]
theorem reads_subscriptItem : Reads (subscriptItem r) FollowsGrammar := by
  mvcgen [subscriptItem] <;> simp_all

@[spec]
theorem reads_subscriptOf {value : Concrete} (h : value.FollowsGrammar) :
    Reads (subscriptOf r value) FollowsGrammar := by
  have hitems := reads_separated r.limit startsItem (reads_subscriptItem r)
  mvcgen [subscriptOf, hitems]
  simp_all

/-! ## Types and parameters -/

omit [r.FollowGrammar] in
@[simp]
theorem followsGrammar_typeNode (inner : Concrete) :
    (typeNode inner).FollowsGrammar ↔ inner.FollowsGrammar := by
  simp [typeNode]

omit [r.FollowGrammar] in
theorem reads_typeParameter {type : Reader Concrete} (h : Reads type FollowsGrammar) :
    Reads (typeParameter r type) FollowsGrammar := by
  have hconstrained : Reads (constrained type) FollowsGrammar := by
    mvcgen [constrained, h]
    simp_all
  have hitems := reads_separated r.limit startsItem hconstrained
  mvcgen [typeParameter, hitems]
  · simp
  · exact fun _ _ => ‹_›

omit [r.FollowGrammar] in
theorem reads_typeTail {type : Reader Concrete} (h : Reads type FollowsGrammar) {left : Concrete}
    (hleft : left.FollowsGrammar) :
    Reads (typeTail type left) (fun c? => ∀ c ∈ c?, c.FollowsGrammar) := by
  mvcgen [typeTail, h] <;> simp_all

theorem reads_typeOf (depth : Nat) : Reads (typeOf r depth) FollowsGrammar := by
  induction depth with
  | zero =>
    unfold typeOf
    mvcgen
  | succ depth ih =>
    have hparameters := reads_typeParameter r ih
    have htail : ∀ {left : Concrete}, left.FollowsGrammar →
        Reads (repeatWhile (typeTail (typeOf r depth)) r.limit left) FollowsGrammar :=
      fun hleft => reads_repeatWhile r.limit (fun _ hleft => reads_typeTail ih hleft) hleft
    unfold typeOf
    mvcgen [splatType, hparameters, htail] <;> simp_all

@[spec]
theorem reads_anyType : Reads (anyType r) FollowsGrammar := reads_typeOf r r.limit

@[spec]
theorem reads_annotation? (annotated : Bool) :
    Reads (annotation? r annotated) (fun c? => ∀ c ∈ c?, c.FollowsGrammar) := by
  mvcgen [annotation?] <;> simp_all

@[spec]
theorem reads_starredParameter (annotated : Bool) {construct : Construct} (h : construct.IsFree)
    (star : Token) : Reads (starredParameter r annotated construct star) FollowsGrammar := by
  mvcgen [starredParameter] <;> simp_all +zetaDelta

@[spec]
theorem reads_defaultValue? :
    Reads (defaultValue? r) (fun c? => ∀ c ∈ c?, c.FollowsGrammar) := by
  mvcgen [defaultValue?] <;> simp_all

@[spec]
theorem reads_parameterOf (annotated : Bool) {target : Concrete} (h : target.FollowsGrammar) :
    Reads (parameterOf r annotated target) FollowsGrammar := by
  mvcgen [parameterOf] <;> simp_all

@[spec]
theorem reads_parameter (annotated : Bool) : Reads (parameter r annotated) FollowsGrammar := by
  mvcgen [parameter] <;> simp_all

@[spec]
theorem reads_parameters : Reads (parameters r) FollowsGrammar := by
  have hitems := reads_bracketed r.limit (reads_parameter r true)
  mvcgen [parameters, hitems]
  · simp
  · exact fun _ _ => id

@[spec]
theorem reads_lambdaParameters? :
    Reads (lambdaParameters? r) (fun c? => ∀ c ∈ c?, c.FollowsGrammar) := by
  have hitems := reads_separated r.limit startsParameter (reads_parameter r false)
  mvcgen [lambdaParameters?, hitems] <;> simp_all

/-! ## Atoms, attributes, calls and subscripts -/

omit [r.FollowGrammar] in
theorem isFree_of_tokenConstruct? {t : Token} {construct : Construct}
    (h : tokenConstruct? t = some construct) : construct.IsFree := by
  unfold tokenConstruct? wordConstruct at h
  grind

@[spec]
theorem reads_atom : Reads (atom r) FollowsGrammar := by
  mvcgen [atom]
  exact followsGrammar_leaf (isFree_of_tokenConstruct? ‹tokenConstruct? _ = some _›) _

omit [r.FollowGrammar] in
@[simp]
theorem followsGrammar_callOf (function arguments : Concrete) :
    (callOf function arguments).FollowsGrammar ↔
      function.FollowsGrammar ∧ arguments.FollowsGrammar := by
  simp [callOf]

@[spec]
theorem reads_trailer {value : Concrete} (h : value.FollowsGrammar) :
    Reads (trailer r value) (fun c? => ∀ c ∈ c?, c.FollowsGrammar) := by
  mvcgen [trailer] <;> simp_all

/-- What is read behind a star follows the grammar. -/
def Starred.FollowsGrammar (s : Starred) : Prop :=
  s.value.FollowsGrammar ∧ (∀ c ∈ s.target?, c.FollowsGrammar) ∧ ∀ c ∈ s.calls, c.FollowsGrammar

omit [r.FollowGrammar] in
theorem followsGrammar_child? {c d : Concrete} {role : Role} (h : c.FollowsGrammar)
    (hd : c.child? role = some d) : d.FollowsGrammar :=
  (followsGrammar_iff.1 h).2 d (List.mem_of_find?_eq_some hd)

theorem reads_starredTrailer {s : Starred} (h : s.FollowsGrammar) :
    Reads (starredTrailer r s) (fun s? => ∀ s ∈ s?, s.FollowsGrammar) := by
  obtain ⟨hvalue, htarget, hcalls⟩ := h
  mvcgen [starredTrailer]
  case vc4 =>
    rename_i harguments _ _ hcall
    have hfollows := followsGrammar_child? (hcall _ rfl) harguments
    simp_all [Starred.FollowsGrammar]
  all_goals simp_all [Starred.FollowsGrammar]

omit [r.FollowGrammar] in
/-- Calls of calls follow the grammar if what is called first and the arguments do. -/
theorem followsGrammar_calls {calls : List Concrete} (h : ∀ c ∈ calls, c.FollowsGrammar)
    {splat : Concrete} (hsplat : splat.FollowsGrammar) :
    (calls.foldr (fun arguments function => callOf function arguments) splat).FollowsGrammar := by
  induction calls with
  | nil => exact hsplat
  | cons arguments rest ih => simp_all

@[spec]
theorem reads_starredPrimary : Reads (starredPrimary r) FollowsGrammar := by
  have hrest : ∀ {s : Starred}, s.FollowsGrammar →
      Reads (repeatWhile (starredTrailer r) r.limit s) Starred.FollowsGrammar :=
    fun hs => reads_repeatWhile r.limit (fun _ hs => reads_starredTrailer r hs) hs
  mvcgen [starredPrimary, hrest]
  · simp_all +zetaDelta [Starred.FollowsGrammar]
  · rename_i htarget _ _ _ hs
    exact followsGrammar_calls hs.2.2 (by simpa +zetaDelta using hs.2.1 _ htarget)

@[spec]
theorem reads_primary : Reads (primary r) FollowsGrammar := by
  have hrest : ∀ {value : Concrete}, value.FollowsGrammar →
      Reads (repeatWhile (trailer r) r.limit value) FollowsGrammar :=
    fun hvalue => reads_repeatWhile r.limit (fun _ hvalue => reads_trailer r hvalue) hvalue
  mvcgen [primary, hrest]
  exact fun _ _ => id

/-! ## Signs, powers and operators -/

omit [r.FollowGrammar] in
@[simp]
theorem followsGrammar_signed (sign : Token) (value : Concrete) :
    (signed sign value).FollowsGrammar ↔ value.FollowsGrammar := by
  unfold signed
  split <;> simp

omit [r.FollowGrammar] in
@[simp]
theorem followsGrammar_signs (signs : List Token) (value : Concrete) :
    (signs.foldr signed value).FollowsGrammar ↔ value.FollowsGrammar := by
  induction signs with
  | nil => rfl
  | cons sign rest ih => rw [List.foldr_cons, followsGrammar_signed, ih]

omit [r.FollowGrammar] in
@[simp]
theorem followsGrammar_operation {construct : Construct} (h : construct.IsFree)
    (left right : Concrete) :
    (operation construct left right).FollowsGrammar ↔
      left.FollowsGrammar ∧ right.FollowsGrammar := by
  simp only [operation, followsGrammar_node h, List.forall_mem_cons, List.not_mem_nil,
    false_implies, implies_true, and_true]

omit [r.FollowGrammar] in
theorem followsGrammar_power {base : Signed} {exponents : List Signed}
    (hbase : base.value.FollowsGrammar) (h : ∀ e ∈ exponents, e.value.FollowsGrammar) :
    (power base exponents).FollowsGrammar := by
  induction exponents generalizing base with
  | nil => simpa [power] using hbase
  | cons e rest ih => simp_all [power]

@[spec]
theorem reads_signedPrimary :
    Reads (signedPrimary r) (fun s => s.value.FollowsGrammar) := by
  have hsigns := reads_any (many r.limit sign?)
  mvcgen [signedPrimary, hsigns]

@[spec]
theorem reads_factor : Reads (factor r) FollowsGrammar := by
  have hexponent : Reads (exponent? r) (fun s? => ∀ s ∈ s?, s.value.FollowsGrammar) := by
    mvcgen [exponent?] <;> simp_all
  have hexponents := reads_many r.limit hexponent
  mvcgen [factor, hexponents]
  exact followsGrammar_power ‹_› ‹_›

omit [r.FollowGrammar] in
theorem reads_leftGrouped (operators : List String) {operand : Reader Concrete}
    (h : Reads operand FollowsGrammar) :
    Reads (leftGrouped r operators operand) FollowsGrammar := by
  unfold leftGrouped
  mvcgen [h]
  intro place ts hleft
  refine reads_repeatWhile r.limit (fun left hleft => ?_) hleft place ts trivial
  mvcgen [h] <;> simp_all

theorem reads_arithmetic (levels : List (List String)) :
    Reads (arithmetic r levels) FollowsGrammar := by
  induction levels with
  | nil => exact reads_factor r
  | cons level tighter ih => exact reads_leftGrouped r level ih

@[spec]
theorem reads_comparison : Reads (comparison r) FollowsGrammar := by
  have hoperand := reads_arithmetic r operatorLevels
  have hcomparator := reads_any comparator?
  have hrest : Reads (many r.limit (do
      if ← comparator? then return some (← arithmetic r operatorLevels) else return none))
        (fun cs => ∀ c ∈ cs, c.FollowsGrammar) := by
    refine reads_many r.limit ?_
    mvcgen [hcomparator, hoperand] <;> simp_all
  mvcgen [comparison, hoperand, hrest]
  simp_all

/-! ## Expressions -/

theorem reads_lambda {body : Reader Concrete} (h : Reads body FollowsGrammar) :
    Reads (lambda r body) FollowsGrammar := by
  mvcgen [lambda, h]
  simp_all [or_imp]

theorem reads_sourceOf : Reads (sourceOf r) FollowsGrammar := by
  have hlambda := reads_lambda r (Rules.FollowGrammar.reads_source (r := r))
  mvcgen [sourceOf, hlambda]

@[spec]
theorem reads_negation : Reads (negation r) FollowsGrammar := by
  mvcgen [negation]
  simp_all

@[spec]
theorem reads_namedExpression : Reads (namedExpression r) FollowsGrammar := by
  mvcgen [namedExpression]
  simp_all

@[spec]
theorem reads_operand : Reads (operand r) FollowsGrammar := by
  have hlambda := reads_lambda r (reads_expression r)
  mvcgen [operand, hlambda]

theorem reads_applied {left : Concrete} (h : left.FollowsGrammar) (level : Level) :
    Reads (applied r left level) FollowsGrammar := by
  cases level <;> mvcgen [applied] <;> simp_all [asPattern]

theorem reads_operatorStep (level : Level) {left : Concrete} (h : left.FollowsGrammar) :
    Reads (operatorStep r level left) (fun c? => ∀ c ∈ c?, c.FollowsGrammar) := by
  have hoperator := reads_any (operatorWithin? level)
  have happlied := fun other => reads_applied r h other
  mvcgen [operatorStep, hoperator, happlied] <;> simp_all

theorem reads_expressionAt (level : Level) : Reads (expressionAt r level) FollowsGrammar := by
  have hrest : ∀ {value : Concrete}, value.FollowsGrammar →
      Reads (repeatWhile (operatorStep r level) r.limit value) FollowsGrammar :=
    fun hvalue => reads_repeatWhile r.limit (fun _ => reads_operatorStep r level) hvalue
  mvcgen [expressionAt, hrest]
  exact fun _ _ => id

end Rules

/-- The rules for expressions read what follows the grammar. -/
instance rulesOf_followGrammar (limit depth : Nat) : (rulesOf limit depth).FollowGrammar := by
  induction depth with
  | zero => exact ⟨reads_failure, fun _ => reads_failure, reads_failure⟩
  | succ depth ih => exact ⟨reads_primary _, reads_expressionAt _, reads_sourceOf _⟩

end Grammar

end CodeAtlas.Python
