import CodeAtlas.Python.Grammar.Template

/-!
# Brackets

What stands in brackets: tuples, lists, sets and dictionaries, comprehensions of each of them, the
arguments of calls, and subscripts.

A star in front of an item of a tuple, a list, a set or of arguments applies to the whole item. What
is made for each round of a comprehension is no such item, nor is a single expression in round
brackets: a star there belongs to the expression.
-/

namespace CodeAtlas.Python.Grammar

open CodeAtlas.Parser (many)

/-! ## Comprehensions -/

/-- Whether a clause follows that goes over something. -/
def atLoopClause : Reader Bool := do
  let plain ← atWord "for"
  let asynchronous ← atWord "async"
  return plain || asynchronous

/-- The clause of a comprehension that goes over something. -/
def loopClause (r : Rules) : Reader Concrete := do
  let async? ← word? "async"
  let start ← word "for"
  let left ← loopTargets r
  let _ ← word "in"
  let right ← separated r.limit (startsExpressionBut ["for", "async", "if"]) r.source
  let _ ← symbol? ","
  let last := (right.getLast?.getD left).extent
  return node .forInClause (across (async?.getD start).extent last) (left :: right)

/-- The condition of a comprehension or a case. -/
def ifClause (condition : Reader Concrete) : Reader Concrete := do
  let start ← word "if"
  let c ← condition
  return node .ifClause (across start.extent c.extent) [c]

/-- One more clause of a comprehension, if there is one. -/
def clause? (r : Rules) : Reader (Option Concrete) := do
  if ← atLoopClause then return some (← loopClause r)
  else if ← atWord "if" then return some (← ifClause (r.expressionOf .renaming))
  else return none

/-- The clauses of a comprehension. -/
def clauses (r : Rules) : Reader (List Concrete) := do
  let first ← loopClause r
  return first :: (← many r.limit (clause? r))

/-- Whether an item of a bracketed list is something that has no value of its own. -/
def isPartial (item : Concrete) : Bool :=
  [.dictionarySplat, .keywordArgument, .yield].contains item.construct

/-- The rest of what stands in brackets behind its first item: the clauses of a comprehension, or
more items, up to the closing bracket. -/
def closeItems (r : Rules) (start : Token) (close : String) (comprehension collection : Construct)
    (first : Concrete) (item : Reader Concrete) : Reader Concrete := do
  if ← atLoopClause then
    require !isPartial first
    closeNode comprehension start close (first :: (← clauses r))
  else
    let rest ← many r.limit (itemAfterComma startsItem item)
    let _ ← symbol? ","
    closeNode collection start close (first :: rest)

/-- Brackets with nothing in them, or with a comma only. -/
def closeEmpty (construct : Construct) (start : Token) (close : String) : Reader Concrete := do
  let _ ← symbol? ","
  closeNode construct start close []

/-- Whether brackets are empty but for a comma. -/
def atEmpty (close : String) : Reader Bool := do
  let closed ← atSymbol close
  let comma ← atSymbol ","
  let second ← secondIs (fun t => t.isSymbol close)
  return closed || (comma && second)

/-! ## Tuples, lists, sets and dictionaries -/

/-- A star with all that it applies to. -/
def splat (r : Rules) : Reader Concrete := do
  let star ← symbol "*"
  let value ← r.expression
  return node .listSplat (across star.extent value.extent) [value]

/-- An expression, or a star with what it applies to if one of some symbols is behind that. -/
def splatOrExpression (r : Rules) (ends : List String) : Reader Concrete := do
  let starred : Reader Concrete := do
    let value ← splat r
    require (← nextIs (fun t => ends.any t.isSymbol))
    return value
  if ← atSymbol "*" then orElse starred r.expression else r.expression

/-- An item of a tuple, a list or a set, in front of one of some symbols. -/
def element (r : Rules) (ends : List String) : Reader Concrete := do
  if ← atWord "yield" then yielded r else splatOrExpression r ends

/-- What stands in round brackets: a tuple, a comprehension, or one expression. -/
def round (r : Rules) : Reader Concrete := do
  let start ← symbol "("
  if ← atSymbol ")" then closeNode .tuple start ")" []
  else
    let first ← element r [","]
    if ← atSymbol ")" then closeNode .parenthesizedExpression start ")" [first]
    else closeItems r start ")" .generatorExpression .tuple first (element r [",", ")"])

/-- A list or the comprehension of one. -/
def square (r : Rules) : Reader Concrete := do
  let start ← symbol "["
  if ← atSymbol "]" then closeNode .list start "]" []
  else
    let item := element r [",", "]"]
    closeItems r start "]" .listComprehension .list (← item) item

/-- The mapping behind two stars. -/
def mappingSplat (r : Rules) : Reader Concrete := do
  let start ← symbol "**"
  let value ← r.expression
  return node .dictionarySplat (across start.extent value.extent) [value]

/-- The pair of a key, which is read, and a value. -/
def pairOf (r : Rules) (key : Concrete) : Reader Concrete := do
  let _ ← symbol ":"
  let value ← r.expression
  return node .pair (across key.extent value.extent) [key, value]

/-- An entry of a dictionary. -/
def entry (r : Rules) : Reader Concrete := do
  if ← atSymbol "**" then mappingSplat r else pairOf r (← r.expression)

/-- A set, a dictionary, or the comprehension of one. -/
def curly (r : Rules) : Reader Concrete := do
  let start ← symbol "\x7b"
  if ← atEmpty "\x7d" then closeEmpty .dictionary start "\x7d"
  else if ← atSymbol "**" then
    closeItems r start "\x7d" .dictionaryComprehension .dictionary (← entry r) (entry r)
  else
    let item := element r [",", "\x7d"]
    let first ← item
    if ← atSymbol ":" then
      closeItems r start "\x7d" .dictionaryComprehension .dictionary (← pairOf r first) (entry r)
    else closeItems r start "\x7d" .setComprehension .set first item

/-! ## Arguments and subscripts -/

/-- An argument of a call. -/
def argument (r : Rules) : Reader Concrete := do
  let named ← nextIs Token.isFreeName
  let given ← secondIs (fun t => t.isSymbol "=")
  if named && given then
    let key ← name
    let _ ← symbol "="
    let value ← r.expression
    return node .keywordArgument (across key.extent value.extent)
      [key.withRole .name, value.withRole .value]
  else if ← atSymbol "**" then mappingSplat r
  else splatOrExpression r [",", ")"]

/-- The arguments of a call. A comprehension without brackets of its own is the only one. -/
def arguments (r : Rules) : Reader Concrete := do
  let start ← symbol "("
  if ← atEmpty ")" then closeEmpty .argumentList start ")"
  else closeItems r start ")" .generatorExpression .argumentList (← argument r) (argument r)

/-- An expression, if one starts here. -/
def expression? (r : Rules) : Reader (Option Concrete) := do
  if ← nextIs startsExpression then return some (← r.expression) else return none

/-- The end of a slice and its step, behind the first colon. -/
def sliceFrom (r : Rules) (lower : Option Concrete) (colon : Token) : Reader Concrete := do
  let upper ← expression? r
  let second ← symbol? ":"
  let step ← if second.isSome then expression? r else pure none
  let ends := [colon.extent] ++ upper.toList.map Concrete.extent ++
    second.toList.map Token.extent ++ step.toList.map Concrete.extent
  let start := (lower.map Concrete.extent).getD colon.extent
  return node .slice (across start (ends.getLast?.getD colon.extent))
    (lower.toList ++ upper.toList ++ step.toList)

/-- An expression or a slice in a subscript. -/
def subscriptItem (r : Rules) : Reader Concrete := do
  match ← symbol? ":" with
  | some colon => sliceFrom r none colon
  | none =>
    let lower ← r.expression
    match ← symbol? ":" with
    | some colon => sliceFrom r (some lower) colon
    | none => return lower

/-- The subscript behind a value. -/
def subscriptOf (r : Rules) (value : Concrete) : Reader Concrete := do
  let _ ← symbol "["
  let items ← separated r.limit startsItem (subscriptItem r)
  let _ ← symbol? ","
  let stop ← symbol "]"
  return node .subscript (across value.extent stop.extent) (value :: items)

end CodeAtlas.Python.Grammar
