import CodeAtlas.Python.Grammar.Block
import CodeAtlas.Python.Grammar.Brackets
import CodeAtlas.Python.Grammar.CasePattern
import CodeAtlas.Python.Grammar.SimpleStatement

/-!
# Compound statements

Statements with blocks: conditions, loops, exceptions, contexts, definitions and cases. The readers
need a reader of the block behind a colon; `statementsAt` ties the knot, at the depth below for what
is nested.
-/

namespace CodeAtlas.Python.Grammar

open CodeAtlas.Parser (many)

/-- The rules for compound statements. -/
structure StatementRules where
  rules : Rules
  /-- Reads a colon and the block behind it. -/
  block : Reader Concrete

/-- Reads an expression in the head of a statement. -/
def StatementRules.headExpression (s : StatementRules) : Reader Concrete :=
  joiningLines s.rules.expression

/-! ## Clauses -/

/-- A clause of a statement that starts on a line of its own with a word, if there is one. -/
def clauseOf? (text : String) (clause : Token → Reader Concrete) : Reader (Option Concrete) := do
  if ← atLineStart (fun t => t.isWord text) then
    let _ ← lineEnd
    let start ← word text
    return some (← clause start)
  else return none

/-- The alternative of a statement, if there is one. -/
def elseClause? (s : StatementRules) : Reader (Option Concrete) :=
  clauseOf? "else" fun start => do return wordNode .elseClause start [← s.block]

/-- One more condition of a statement, if there is one. -/
def elifClause? (s : StatementRules) : Reader (Option Concrete) :=
  clauseOf? "elif" fun start => do
    let condition ← s.headExpression
    return wordNode .elifClause start [condition, ← s.block]

/-- The last clause of a statement that handles exceptions, if there is one. -/
def finallyClause? (s : StatementRules) : Reader (Option Concrete) :=
  clauseOf? "finally" fun start => do return wordNode .finallyClause start [← s.block]

/-! ## Exceptions -/

/-- The exceptions that a clause handles, of which the last may be a name for them. -/
def handledExceptions (s : StatementRules) : Reader (List Concrete) := joiningLines do
  if ← atSymbol ":" then return []
  else
    let value ← s.rules.expression
    match ← symbol? "," with
    | some _ => return [value, ← s.rules.expression]
    | none => return [value]

/-- One more clause that handles exceptions, if there is one. -/
def exceptClause? (s : StatementRules) : Reader (Option Concrete) :=
  clauseOf? "except" fun start => do
    return wordNode .exceptClause start ((← handledExceptions s) ++ [← s.block])

/-- A star directly behind a token. -/
def isStarBehind (start t : Token) : Bool :=
  t.isSymbol "*" && t.extent.start == start.extent.stop

/-- One more clause that handles groups of exceptions, if there is one. -/
def exceptGroupClause? (s : StatementRules) : Reader (Option Concrete) :=
  clauseOf? "except" fun start => do
    let _ ← token (isStarBehind start)
    let value ← s.headExpression
    return wordNode .exceptGroupClause start [value, ← s.block]

/-- Whether the clause that comes next handles groups of exceptions. -/
def atExceptGroup : Reader Bool := fun _ ts =>
  match ts with
  | _ :: start :: star :: _ => some (start.isWord "except" && isStarBehind start star, ts)
  | _ => some (false, ts)

/-- The clauses that handle exceptions: all of them handle groups, or none does. -/
def exceptClauses (s : StatementRules) : Reader (List Concrete) := do
  if ← atExceptGroup then
    many s.rules.limit do
      if ← atExceptGroup then exceptGroupClause? s else return none
  else many s.rules.limit (exceptClause? s)

/-- A block with clauses that handle its exceptions, of which there is one at least. -/
def tryStatement (s : StatementRules) : Reader Concrete := do
  let start ← word "try"
  let block ← s.block
  let handlers ← exceptClauses s
  let other ← if handlers.isEmpty then pure none else elseClause? s
  let last ← finallyClause? s
  require (!handlers.isEmpty || last.isSome)
  return wordNode .tryStatement start ([block] ++ handlers ++ other.toList ++ last.toList)

/-! ## Conditions and loops -/

/-- A condition with its alternatives. -/
def ifStatement (s : StatementRules) : Reader Concrete := do
  let start ← word "if"
  let condition ← s.headExpression
  let block ← s.block
  let others ← many s.rules.limit (elifClause? s)
  let last ← elseClause? s
  return wordNode .ifStatement start ([condition, block] ++ others ++ last.toList)

/-- A loop with a condition. -/
def whileStatement (s : StatementRules) : Reader Concrete := do
  let start ← word "while"
  let condition ← s.headExpression
  let block ← s.block
  return wordNode .whileStatement start ([condition, block] ++ (← elseClause? s).toList)

/-- A loop over something, behind a word that makes it asynchronous. -/
def forStatement (s : StatementRules) (async? : Option Token) : Reader Concrete := do
  let start ← word "for"
  let targets ← joiningLines (loopTargets s.rules)
  let _ ← word "in"
  let source ← joiningLines (expressions s.rules)
  let block ← s.block
  return wordNode .forStatement (async?.getD start)
    ([targets.withRole .left, source.withRole .right, block] ++ (← elseClause? s).toList)

/-! ## Contexts -/

/-- A context, which may get a name. -/
def withItem (r : Rules) : Reader Concrete := do
  let value ← r.expression
  return node .withItem value.extent [value]

/-- Several contexts in round brackets in front of a colon. Brackets around a single one are those
of an expression, which is not read here. -/
def bracketedContexts (r : Rules) : Reader (List Concrete) := do
  let _ ← symbol "("
  let items ← separated r.limit startsItem (withItem r)
  let _ ← symbol? ","
  let _ ← symbol ")"
  require (← atSymbol ":")
  require (1 < items.length)
  return items

/-- Contexts without brackets around all of them. -/
def plainContexts (r : Rules) : Reader (List Concrete) := do
  let items ← separated r.limit startsExpression (withItem r)
  let _ ← symbol? ","
  return items

/-- The contexts of a statement. -/
def withClause (r : Rules) : Reader Concrete := joiningLines do
  let bracketed ← atSymbol "("
  let items ← if bracketed then orElse (bracketedContexts r) (plainContexts r) else plainContexts r
  match items with
  | [] => failure
  | first :: rest => return node .withClause (extentOf first rest) items

/-- A block in some contexts, behind a word that makes it asynchronous. -/
def withStatement (s : StatementRules) (async? : Option Token) : Reader Concrete := do
  let start ← word "with"
  let contexts ← withClause s.rules
  return wordNode .withStatement (async?.getD start) [contexts, ← s.block]

/-! ## Definitions -/

/-- The type parameters of a definition, if there are any. -/
def typeParameter? (r : Rules) : Reader (List Concrete) := do
  if ← atSymbol "[" then return [← typeParameter r (anyType r)] else return []

/-- The type of what a function gives back, if it is stated. -/
def returnType? (r : Rules) : Reader (List Concrete) := do
  match ← symbol? "->" with
  | some _ => return [← anyType r]
  | none => return []

/-- The head of a function behind its first word. -/
def functionHead (r : Rules) : Reader (List Concrete) := joiningLines do
  let declared ← name
  let types ← typeParameter? r
  let given ← parameters r
  let result ← returnType? r
  return [declared.withRole .name] ++ types ++ [given.withRole .parameters] ++ result

/-- A function, behind a word that makes it asynchronous. -/
def functionDefinition (s : StatementRules) (async? : Option Token) : Reader Concrete := do
  let start ← word "def"
  let head ← functionHead s.rules
  return wordNode .functionDefinition (async?.getD start)
    (async?.toList.map (leaf .asyncWord) ++ head ++ [← s.block])

/-- The superclasses of a class, if there are any. -/
def superclasses? (r : Rules) : Reader (List Concrete) := do
  if ← atSymbol "(" then
    let given ← arguments r
    require (given.isA .argumentList)
    return [given]
  else return []

/-- The head of a class behind its first word. -/
def classHead (r : Rules) : Reader (List Concrete) := joiningLines do
  let declared ← name
  let types ← typeParameter? r
  let bases ← superclasses? r
  return [declared.withRole .name] ++ types ++ bases

/-- A class. -/
def classDefinition (s : StatementRules) : Reader Concrete := do
  let start ← word "class"
  let head ← classHead s.rules
  return wordNode .classDefinition start (head ++ [← s.block])

/-- A definition without decorators. -/
def definition (s : StatementRules) : Reader Concrete := do
  if ← atWord "class" then classDefinition s
  else functionDefinition s (← word? "async")

/-- A decorator with the end of its line. -/
def decorator (r : Rules) : Reader Concrete := do
  let start ← symbol "@"
  let value ← r.expression
  let _ ← lineEnd
  return node .decorator (across start.extent value.extent) [value]

/-- One more decorator, if there is one. -/
def decorator? (r : Rules) : Reader (Option Concrete) := do
  if ← atSymbol "@" then return some (← decorator r) else return none

/-- A definition with decorators. -/
def decoratedDefinition (s : StatementRules) : Reader Concrete := do
  let first ← decorator s.rules
  let others ← many s.rules.limit (decorator? s.rules)
  let defined ← definition s
  return node .decoratedDefinition (across first.extent defined.extent)
    ([first] ++ others ++ [defined.withRole .definition])

/-! ## Cases -/

/-- The head of a case behind its first word. -/
def caseHead (r : Rules) : Reader (List Concrete) := joiningLines do
  let compared ← casePatterns r
  if ← atWord "if" then return compared ++ [← ifClause r.expression] else return compared

/-- A case, at the start of its line. -/
def caseClause (s : StatementRules) : Reader (List Concrete) := do
  let start ← word "case"
  let head ← caseHead s.rules
  return [wordNode .caseClause start (head ++ [← s.block])]

/-- What is matched. -/
def matchedValues (r : Rules) : Reader (List Concrete) := joiningLines do
  return (← elementsOf r [] r.expression).toList

/-- A statement that chooses among cases, which start on a line of their own. The reader is that of
the block of cases. -/
def matchStatement (r : Rules) (cases : Reader Concrete) : Reader Concrete := do
  let start ← word "match"
  require (← nextIs startsExpression)
  let values ← matchedValues r
  let ended ← secondIs Token.isLineEnd
  require ended
  return wordNode .matchStatement start (values ++ [← cases])

/-! ## Statements -/

/-- A compound statement that starts with a word, if the word starts one. -/
def compoundStatement? (s : StatementRules) (t : Token) : Option (Reader Concrete) :=
  if t.kind != .word then
    if t.isSymbol "@" then some (decoratedDefinition s) else none
  else
    match t.text with
    | "if" => some (ifStatement s)
    | "while" => some (whileStatement s)
    | "for" => some (forStatement s none)
    | "try" => some (tryStatement s)
    | "with" => some (withStatement s none)
    | "def" | "class" => some (definition s)
    | _ => none

/-- A statement behind the word that makes it asynchronous. -/
def asyncStatement (s : StatementRules) : Reader Concrete := do
  let async ← word "async"
  if ← atWord "for" then forStatement s (some async)
  else if ← atWord "with" then withStatement s (some async)
  else functionDefinition s (some async)

/-- A compound statement, or the simple statements on a line. The reader is that of the block of
cases. -/
def statement (s : StatementRules) (cases : Reader Concrete) : Reader (List Concrete) := do
  match ← peek? with
  | none => failure
  | some t =>
    let continued ← secondIs (fun t => ["def", "for", "with"].any t.isWord)
    if t.isWord "async" && continued then return [← asyncStatement s]
    else if t.isWord "match" then
      orElse (do return [← matchStatement s.rules cases]) (simpleStatements s.rules)
    else
      match compoundStatement? s t with
      | some compound => return [← compound]
      | none => simpleStatements s.rules

/-- The statements at the start of a line. The number bounds how deep they are nested. -/
def statementsAt (r : Rules) : Nat → Reader (List Concrete)
  | 0 => failure
  | depth + 1 =>
    let s : StatementRules :=
      ⟨r, fun place ts => blockAfter r.limit (simpleStatements r) (statementsAt r depth) place ts⟩
    statement s (blockAfter r.limit failure (caseClause s))

end CodeAtlas.Python.Grammar
