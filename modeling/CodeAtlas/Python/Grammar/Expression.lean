import CodeAtlas.Python.Grammar.Brackets
import CodeAtlas.Python.Grammar.Parameters

/-!
# Expressions

Operators from the tightest to the loosest: attributes, calls and subscripts; powers; signs; the
arithmetic operators in six levels; comparisons, of which a whole chain is one construct; and the
levels of `not`, `and`, `or`, `as` and of conditional expressions. Functions without a name and
values with a name in front go as far as they can.

The readers of expressions need readers of what is nested in them. `rulesOf` ties the knot: what is
nested in something at one depth is read at the depth below. Since something nested is read only
behind a token of what it is nested in, the number of tokens is depth enough.
-/

namespace CodeAtlas.Python.Grammar

open CodeAtlas.Parser (repeatWhile many)

/-! ## Atoms, attributes, calls and subscripts -/

/-- What a word stands for. -/
def wordConstruct (t : Token) : Construct :=
  if t.text == "True" then .trueLiteral
  else if t.text == "False" then .falseLiteral
  else if t.text == "None" then .noneLiteral
  else .identifier

/-- What a token that is an expression by itself stands for. -/
def tokenConstruct? (t : Token) : Option Construct :=
  match t.kind with
  | .word => some (wordConstruct t)
  | .integer => some .integer
  | .float => some .float
  | .symbol => if t.text == "..." then some .ellipsis else none
  | _ => none

/-- A name, a literal, or something in brackets. -/
def atom (r : Rules) : Reader Concrete := do
  joinLine
  match ← peek? with
  | none => failure
  | some t =>
    match tokenConstruct? t with
    | some construct => return leaf construct (← token (fun _ => true))
    | none =>
      if t.isSymbol "(" then round r
      else if t.isSymbol "[" then square r
      else if t.isSymbol "\x7b" then curly r
      else strings r

/-- The call of a function with arguments. -/
def callOf (function arguments : Concrete) : Concrete :=
  node .call (across function.extent arguments.extent)
    [function.withRole .function, arguments.withRole .arguments]

/-- One more attribute, call or subscript behind a value, if there is one. -/
def trailer (r : Rules) (value : Concrete) : Reader (Option Concrete) := do
  match ← symbol? "." with
  | some _ =>
    let attr ← name
    return some (node .attribute (across value.extent attr.extent)
      [value.withRole .object, attr.withRole .attribute])
  | none =>
    if ← atSymbol "(" then return some (callOf value (← arguments r))
    else if ← atSymbol "[" then return some (← subscriptOf r value)
    else return none

/-- What is read behind a star. -/
structure Starred where
  /-- All of it. -/
  value : Concrete
  /-- What the star applies to: the longest part that is a name, an attribute or a subscript. -/
  target? : Option Concrete
  /-- The arguments of the calls behind that part, the last ones first. -/
  calls : List Concrete

/-- One more attribute, call or subscript behind a star, if there is one. -/
def starredTrailer (r : Rules) (s : Starred) : Reader (Option Starred) := do
  match ← trailer r s.value with
  | none => return none
  | some value =>
    match value.child? .arguments with
    | none => return some ⟨value, some value, []⟩
    | some arguments => return some ⟨value, s.target?, arguments :: s.calls⟩

/-- A star with the name, attribute or subscript that it applies to. Calls behind that are calls of
the whole. -/
def starredPrimary (r : Rules) : Reader Concrete := do
  let star ← symbol "*"
  let first ← atom r
  let target? := if first.isA .identifier then some first else none
  let s ← repeatWhile (starredTrailer r) r.limit ⟨first, target?, []⟩
  match s.target? with
  | none => failure
  | some target =>
    let splat := node .listSplat (across star.extent target.extent) [target]
    return s.calls.foldr (fun arguments function => callOf function arguments) splat

/-- An atom with its attributes, calls and subscripts, behind a star or without one. -/
def primary (r : Rules) : Reader Concrete := do
  joinLine
  if ← atSymbol "*" then starredPrimary r
  else repeatWhile (trailer r) r.limit (← atom r)

/-! ## Signs and powers -/

/-- The words that may follow an expression within a larger one. -/
def followingWords : List String :=
  ["and", "as", "else", "for", "from", "if", "in", "is", "not", "or"]

/-- A sign, or the word that waits for a value, if one is next. The word is a name unless a value
follows. -/
def sign? : Reader (Option Token) := do
  let waits ← atWord "await"
  let applies ← secondIs (startsExpressionBut followingWords)
  if waits && !applies then return none
  else token? (fun t => ["+", "-", "~"].any t.isSymbol || t.isWord "await")

/-- A value behind a sign. -/
def signed (sign : Token) (value : Concrete) : Concrete :=
  node (if sign.kind == .word then .await else .unaryOperator) (across sign.extent value.extent)
    [value]

/-- An operator between two values. -/
def operation (construct : Construct) (left right : Concrete) : Concrete :=
  node construct (across left.extent right.extent) [left, right]

/-- A value with the signs in front of it. -/
structure Signed where
  signs : List Token
  value : Concrete

/-- A value with its signs. -/
def signedPrimary (r : Rules) : Reader Signed := do
  joinLine
  return ⟨← many r.limit sign?, ← primary r⟩

/-- The next value of a power, if there is one. -/
def exponent? (r : Rules) : Reader (Option Signed) := do
  match ← symbol? "**" with
  | some _ => return some (← signedPrimary r)
  | none => return none

/-- The power of a base and exponents, each of which is the base of those that follow. Signs apply
to the power behind them. -/
def power (base : Signed) : List Signed → Concrete
  | [] => base.signs.foldr signed base.value
  | next :: rest =>
    base.signs.foldr signed (operation .binaryOperator base.value (power next rest))

/-- A power with the signs in front of it. -/
def factor (r : Rules) : Reader Concrete := do
  let base ← signedPrimary r
  return power base (← many r.limit (exponent? r))

/-! ## Arithmetic and comparisons -/

/-- The operators between two values that group to the left, the loosest first. -/
def operatorLevels : List (List String) :=
  [["|"], ["&"], ["^"], ["<<", ">>"], ["+", "-"], ["*", "@", "/", "%", "//"]]

/-- Values with operators between them that group to the left. -/
def leftGrouped (r : Rules) (operators : List String) (operand : Reader Concrete) :
    Reader Concrete := do
  let step (left : Concrete) : Reader (Option Concrete) := do
    match ← token? (fun t => operators.any t.isSymbol) with
    | some _ => return some (operation .binaryOperator left (← operand))
    | none => return none
  repeatWhile step r.limit (← operand)

/-- Values with operators of some levels. -/
def arithmetic (r : Rules) : List (List String) → Reader Concrete
  | [] => factor r
  | level :: tighter => leftGrouped r level (arithmetic r tighter)

/-- Takes an operator that compares, if one is next. -/
def comparator? : Reader Bool := do
  let symbolic ← token? (fun t => ["<", ">", "==", ">=", "<=", "!=", "<>"].any t.isSymbol)
  let negated ← secondIs (fun t => t.isWord "in")
  if symbolic.isSome then return true
  else if (← word? "in").isSome then return true
  else if (← word? "is").isSome then
    let _ ← joiningLines (word? "not")
    return true
  else if negated && (← atWord "not") then
    let _ ← word "not"
    let _ ← word "in"
    return true
  else return false

/-- A chain of comparisons. -/
def comparison (r : Rules) : Reader Concrete := do
  let first ← arithmetic r operatorLevels
  let rest ← many r.limit do
    if ← comparator? then return some (← arithmetic r operatorLevels) else return none
  if rest.isEmpty then return first
  else return node .comparisonOperator (extentOf first rest) (first :: rest)

/-! ## Expressions -/

/-- A function without a name, with a reader of its body. -/
def lambda (r : Rules) (body : Reader Concrete) : Reader Concrete := do
  let start ← word "lambda"
  let parameters? ← joiningLines (lambdaParameters? r)
  let _ ← symbol ":"
  let value ← body
  return node .lambda (across start.extent value.extent)
    (parameters?.toList ++ [value.withRole .body])

/-- What a comprehension goes over: no conditional expression, not even behind a function without a
name. -/
def sourceOf (r : Rules) : Reader Concrete := do
  if ← atWord "lambda" then lambda r r.source else r.expressionOf .renaming

/-- A negation. -/
def negation (r : Rules) : Reader Concrete := do
  let start ← word "not"
  let value ← r.expressionOf .negation
  return node .notOperator (across start.extent value.extent) [value]

/-- A value with a name in front. -/
def namedExpression (r : Rules) : Reader Concrete := do
  let target ← name
  let _ ← symbol ":="
  let value ← r.expressionOf .renaming
  return node .namedExpression (across target.extent value.extent)
    [target.withRole .name, value.withRole .value]

/-- An operand of the operators between expressions. -/
def operand (r : Rules) : Reader Concrete := do
  joinLine
  let named ← nextIs Token.isFreeName
  let given ← secondIs (fun t => t.isSymbol ":=")
  if named && given then namedExpression r
  else if ← atWord "not" then negation r
  else if ← atWord "lambda" then lambda r r.expression
  else comparison r

/-- A value with another name. -/
def asPattern (value target : Concrete) : Concrete :=
  node .asPattern (across value.extent target.extent)
    [value, node .asPatternTarget target.extent [target]]

/-- The levels with the words of their operators. -/
def levelWords : List (String × Level) :=
  [("if", .conditional), ("as", .renaming), ("or", .disjunction), ("and", .conjunction)]

/-- The operator of a level or a tighter one, if one is next. -/
def operatorWithin? (level : Level) : Reader (Option Level) := do
  match ← peek? with
  | none => return none
  | some t =>
    return (levelWords.find? (fun (text, other) => t.isWord text && level.rank ≤ other.rank)).map
      Prod.snd

/-- What an operator and the rest behind it make of a value. Alternatives of conditional expressions
group to the right, all else to the left. -/
def applied (r : Rules) (left : Concrete) : Level → Reader Concrete
  | .conditional => do
    let _ ← word "if"
    let condition ← joiningLines r.expression
    let _ ← word "else"
    let alternative ← r.expression
    return node .conditionalExpression (across left.extent alternative.extent)
      [left, condition, alternative]
  | .renaming => do
    let _ ← word "as"
    return asPattern left (← r.expressionOf .disjunction)
  | .disjunction => do
    let _ ← word "or"
    return operation .booleanOperator left (← r.expressionOf .conjunction)
  | .conjunction => do
    let _ ← word "and"
    return operation .booleanOperator left (← r.expressionOf .negation)
  | .negation => failure

/-- One more operator of a level or a tighter one behind a value, if there is one. -/
def operatorStep (r : Rules) (level : Level) (left : Concrete) : Reader (Option Concrete) := do
  match ← operatorWithin? level with
  | none => return none
  | some other => return some (← applied r left other)

/-- An expression of a level. -/
def expressionAt (r : Rules) (level : Level) : Reader Concrete := do
  repeatWhile (operatorStep r level) r.limit (← operand r)

/-- The rules for expressions that are nested at most so deep. -/
def rulesOf (limit : Nat) : Nat → Rules
  | 0 => ⟨limit, failure, fun _ => failure, failure⟩
  | depth + 1 =>
    ⟨limit, fun place ts => primary (rulesOf limit depth) place ts,
      fun level place ts => expressionAt (rulesOf limit depth) level place ts,
      fun place ts => sourceOf (rulesOf limit depth) place ts⟩

end CodeAtlas.Python.Grammar
