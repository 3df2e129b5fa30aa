import CodeAtlas.Python.Grammar.Imports
import CodeAtlas.Python.Grammar.Parameters

/-!
# Simple statements

Statements that hold no others, of which several may stand on a line. The words `print`, `exec` and
`type` start statements of their own only where they are no names.
-/

namespace CodeAtlas.Python.Grammar

open CodeAtlas.Parser (many)

/-! ## Assignments and expressions -/

/-- Whether a token ends a simple statement. -/
def endsStatement (t : Token) : Bool := t.isLineEnd || t.isSymbol ";"

/-- The operators that assign what they compute. -/
def assigningOperators : List String :=
  ["+=", "-=", "*=", "/=", "@=", "//=", "%=", "**=", ">>=", "<<=", "&=", "^=", "|="]

/-- The assignment to a target of what a reader reads, if there is one behind the target: with an
annotation, with an operator, or a plain one. -/
def assignmentTo? (r : Rules) (value : Reader Concrete) (target : Concrete) :
    Reader (Option Concrete) := do
  if ← atSymbol ":" then
    let _ ← symbol ":"
    let type ← anyType r
    let left := (← pattern target).withRole .left
    match ← symbol? "=" with
    | none => return some (node .assignment (across left.extent type.extent) [left, type])
    | some _ =>
      let right := (← value).withRole .right
      return some (node .assignment (across left.extent right.extent) [left, type, right])
  else
    match ← token? (fun t => t.isSymbol "=" || assigningOperators.any t.isSymbol) with
    | none => return none
    | some operator =>
      let left := (← pattern target).withRole .left
      let right := (← value).withRole .right
      let construct : Construct :=
        if operator.isSymbol "=" then .assignment else .augmentedAssignment
      return some (node construct (across left.extent right.extent) [left, right])

/-- What is assigned: expressions, what a generator gives out, or another assignment. The number
bounds the assignments in a row. -/
def assignedValue (r : Rules) : Nat → Reader Concrete
  | 0 => failure
  | rounds + 1 => do
    let value ← yieldedOrExpressions r
    if value.isA .yield then return value
    else return (← assignmentTo? r (assignedValue r rounds) value).getD value

/-- An assignment, or expressions by themselves. -/
def expressionStatement (r : Rules) : Reader Concrete := do
  if ← atWord "yield" then
    let value ← yielded r
    return node .expressionStatement value.extent [value]
  else
    let es ← elementsOf r [] r.expression
    match ← assignmentTo? r (assignedValue r r.limit) es.asExpression with
    | some assignment => return node .expressionStatement assignment.extent [assignment]
    | none => return node .expressionStatement es.extent es.toList

/-! ## Statements that start with a word -/

/-- A statement of a word by itself. -/
def wordStatement (construct : Construct) (text : String) : Reader Concrete := do
  return node construct (← word text).extent []

/-- A word with parts behind it. -/
def wordNode (construct : Construct) (start : Token) (parts : List Concrete) : Concrete :=
  let last := (parts.getLast?.map Concrete.extent).getD start.extent
  node construct (across start.extent last) parts

/-- Expressions without brackets, if there are any. The words are those that may follow. -/
def expressions? (r : Rules) (ends : List String) : Reader (List Concrete) := do
  if ← nextIs (startsExpressionBut ends) then
    return [(← elementsOf r ends r.expression).asExpression]
  else return []

/-- The statement that gives back a value. -/
def returnStatement (r : Rules) : Reader Concrete := do
  let start ← word "return"
  return wordNode .returnStatement start (← expressions? r [])

/-- The statement that deletes. -/
def deleteStatement (r : Rules) : Reader Concrete := do
  let start ← word "del"
  return wordNode .deleteStatement start [← expressions r]

/-- The statement that raises an exception, which may have a cause. -/
def raiseStatement (r : Rules) : Reader Concrete := do
  let start ← word "raise"
  let raised ← expressions? r ["from"]
  match ← word? "from" with
  | some _ => return wordNode .raiseStatement start (raised ++ [← r.expression])
  | none => return wordNode .raiseStatement start raised

/-- The statement that asserts something. -/
def assertStatement (r : Rules) : Reader Concrete := do
  let start ← word "assert"
  return wordNode .assertStatement start (← enumerated r.limit r.expression)

/-- The statement that declares names of a scope. -/
def scopeStatement (r : Rules) (construct : Construct) (text : String) : Reader Concrete := do
  let start ← word text
  return wordNode construct start (← enumerated r.limit name)

/-- Where a printing statement prints to. -/
def chevron? (r : Rules) : Reader (List Concrete) := do
  match ← symbol? ">>" with
  | none => return []
  | some start =>
    let target ← r.expression
    return [node .chevron (across start.extent target.extent) [target]]

/-- The statement that prints, without round brackets. -/
def printStatement (r : Rules) : Reader Concrete := do
  let start ← word "print"
  let target ← chevron? r
  let first ← if target.isEmpty then pure [← r.expression] else pure []
  let rest ← many r.limit (itemAfterComma startsExpression r.expression)
  let _ ← symbol? ","
  return wordNode .printStatement start (target ++ first ++ rest)

/-- The statement that executes a text, without round brackets. -/
def execStatement (r : Rules) : Reader Concrete := do
  let start ← word "exec"
  let code ← r.primary
  require (code.isA .string || code.isA .identifier)
  match ← word? "in" with
  | none => return wordNode .execStatement start [code]
  | some _ => return wordNode .execStatement start (code :: (← enumerated r.limit r.expression))

/-- The statement that names a type. -/
def typeAliasStatement (r : Rules) : Reader Concrete := do
  let start ← word "type"
  require (← nextIs startsExpression)
  let left ← joiningLines (anyType r)
  let _ ← symbol "="
  return wordNode .typeAliasStatement start [left, ← anyType r]

/-- A statement, unless what is read is not all of it. -/
def whole (statement : Reader Concrete) : Reader Concrete := do
  let c ← statement
  require (← nextIs endsStatement)
  return c

/-- A statement that starts with a name. -/
def nameStatement (r : Rules) (text : String) : Reader Concrete := do
  if text == "print" then
    if ← secondIs (fun t => t.isSymbol ">>") then printStatement r
    else orElse (whole (expressionStatement r)) (printStatement r)
  else if text == "exec" then orElse (whole (expressionStatement r)) (execStatement r)
  else if text == "type" then orElse (whole (typeAliasStatement r)) (expressionStatement r)
  else expressionStatement r

/-! ## Simple statements -/

/-- A simple statement. -/
def simpleStatement (r : Rules) : Reader Concrete := do
  match ← peek? with
  | none => failure
  | some t =>
    if t.kind != .word then expressionStatement r
    else
      match t.text with
      | "import" => importStatement r.limit
      | "from" => importFromStatement r.limit
      | "pass" => wordStatement .passStatement "pass"
      | "break" => wordStatement .breakStatement "break"
      | "continue" => wordStatement .continueStatement "continue"
      | "return" => returnStatement r
      | "del" => deleteStatement r
      | "raise" => raiseStatement r
      | "assert" => assertStatement r
      | "global" => scopeStatement r .globalStatement "global"
      | "nonlocal" => scopeStatement r .nonlocalStatement "nonlocal"
      | text => nameStatement r text

/-- One more statement behind a semicolon, if there is one. -/
def statementAfterSemicolon? (r : Rules) : Reader (Option Concrete) := do
  let semicolon ← atSymbol ";"
  let isLast ← secondIs Token.isLineEnd
  if semicolon && !isLast then
    let _ ← symbol ";"
    return some (← simpleStatement r)
  else return none

/-- The statements on a line, up to its end, which is not taken. -/
def simpleStatements (r : Rules) : Reader (List Concrete) := do
  let first ← simpleStatement r
  let rest ← many r.limit (statementAfterSemicolon? r)
  let _ ← symbol? ";"
  require (← nextIs Token.isLineEnd)
  return first :: rest

end CodeAtlas.Python.Grammar
