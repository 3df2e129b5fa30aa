import CodeAtlas.Analysis.Error
import CodeAtlas.Table

/-!
# Call relationships

A call relationship says that one function calls another at some place, with the arguments as text.
Positional arguments are a list; keyword arguments are a table, in which a repeated keyword keeps
its first place and takes the last value.
-/

namespace CodeAtlas.Analysis

/-- How a call reaches its callee. -/
inductive CallKind where
  | functionCall
  | methodCall
  | constructorCall
  | importCall
  deriving DecidableEq, Repr, Inhabited

/-- The name of a kind of call. -/
def CallKind.label : CallKind → String
  | functionCall => "function_call"
  | methodCall => "method_call"
  | constructorCall => "constructor_call"
  | importCall => "import_call"

/-- Where in a statement a call stands. Calls found in source text are all plain ones. -/
inductive CallContext where
  | assignment
  | returnValue
  | condition
  | loop
  | exception
  | functionCall
  deriving DecidableEq, Repr, Inhabited

/-- The name of a context. -/
def CallContext.label : CallContext → String
  | assignment => "assignment"
  | returnValue => "return"
  | condition => "condition"
  | loop => "loop"
  | exception => "exception"
  | functionCall => "function_call"

/-- A positional argument as text. Nothing is known about its type. -/
structure CallArgument where
  name : Option String := none
  value : String
  typeHint : Option String := none
  isKeyword : Bool := false
  deriving DecidableEq, Repr, Inhabited

/-- One function calling another. -/
structure Call where
  caller : String
  callee : String
  kind : CallKind
  context : CallContext := .functionCall
  filePath : String
  line : Nat
  column : Nat
  arguments : List CallArgument := []
  keywords : Table String String := ∅
  deriving DecidableEq, Inhabited

namespace Call

/-- A call between two names at a line that is counted from 1. -/
def create (caller callee : String) (kind : CallKind) (filePath : String) (line column : Nat) :
    Except EntityError Call :=
  if caller.isEmpty then .error (.emptyCallTarget .caller)
  else if callee.isEmpty then .error (.emptyCallTarget .callee)
  else if line = 0 then .error (.invalidLine line)
  else .ok { caller, callee, kind, filePath, line, column }

/-- The call with one more positional argument. -/
def addArgument (c : Call) (name : Option String) (value : String) : Call :=
  { c with arguments := c.arguments ++ [{ name, value }] }

/-- The call with a keyword argument; a keyword that is there already takes the new value. -/
def addKeyword (c : Call) (key value : String) : Call :=
  { c with keywords := c.keywords.insert key value }

/-- The value of a keyword argument. -/
def keyword? (c : Call) (key : String) : Option String := c.keywords.get? key

end Call

end CodeAtlas.Analysis
