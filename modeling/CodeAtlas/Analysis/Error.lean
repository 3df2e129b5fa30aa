/-!
# Faults of symbols and calls

Why a symbol or a call relationship cannot be built.
-/

namespace CodeAtlas.Analysis

/-- The two ends of a call. -/
inductive CallEnd where
  | caller
  | callee
  deriving DecidableEq, Repr

/-- Why a symbol or a call relationship cannot be built. -/
inductive EntityError where
  | emptyName
  | invalidRange (start stop : Nat)
  | emptyCallTarget (which : CallEnd)
  | invalidLine (line : Nat)
  deriving DecidableEq, Repr

/-- The wording of the error. -/
def EntityError.message : EntityError → String
  | emptyName => "Symbol name cannot be empty"
  | invalidRange start stop => s!"Invalid line range: start {start} > end {stop}"
  | emptyCallTarget .caller => "Call caller cannot be empty"
  | emptyCallTarget .callee => "Call callee cannot be empty"
  | invalidLine line => s!"Invalid line number: {line}"

end CodeAtlas.Analysis
