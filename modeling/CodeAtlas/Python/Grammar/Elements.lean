import CodeAtlas.Python.Grammar.Basic

/-!
# Expressions in a row, and what is assigned to

Expressions without brackets: one of them, or several with commas between them. The same text may
stand on the left of an assignment, where it is a pattern; patterns are therefore made from the
expressions that they were read as.
-/

namespace CodeAtlas.Python.Grammar

open CodeAtlas.Parser (many)

/-! ## Elements -/

/-- Expressions in a row with the end of the last one or of the comma behind it. -/
structure Elements where
  first : Concrete
  rest : List Concrete
  comma : Option Token

namespace Elements

/-- All elements. -/
def toList (es : Elements) : List Concrete := es.first :: es.rest

/-- Whether there is a comma. -/
def hasComma (es : Elements) : Bool := !es.rest.isEmpty || es.comma.isSome

/-- From the first element to the last one or the comma behind it. -/
def extent (es : Elements) : Extent :=
  match es.comma with
  | some comma => across es.first.extent comma.extent
  | none => extentOf es.first es.rest

/-- One expression by itself, or a list if there is a comma. -/
def asExpression (es : Elements) : Concrete :=
  if es.hasComma then node .expressionList es.extent es.toList else es.first

end Elements

/-- Reads elements with a reader of one of them. The words are those that end the row behind a
comma. -/
def elementsOf (r : Rules) (ends : List String) (one : Reader Concrete) : Reader Elements := do
  let first ← one
  let rest ← many r.limit (itemAfterComma (startsExpressionBut ends) one)
  return ⟨first, rest, ← symbol? ","⟩

/-- Reads expressions without brackets. -/
def expressions (r : Rules) : Reader Concrete := do
  return (← elementsOf r [] r.expression).asExpression

/-- Reads what a generator gives out. -/
def yielded (r : Rules) : Reader Concrete := do
  let start ← word "yield"
  match ← word? "from" with
  | some _ =>
    let value ← r.expression
    return node .yield (across start.extent value.extent) [value]
  | none =>
    if ← nextIs startsExpression then
      let value ← expressions r
      return node .yield (across start.extent value.extent) [value]
    else return node .yield start.extent []

/-- Reads expressions without brackets, or what a generator gives out. -/
def yieldedOrExpressions (r : Rules) : Reader Concrete := do
  joinLine
  if ← atWord "yield" then yielded r else expressions r

/-! ## Patterns -/

/-- Whether a node is a name, an attribute or a subscript: what a single value is assigned to, and
what a star in a pattern applies to. -/
def isTarget (c : Concrete) : Bool := [.identifier, .attribute, .subscript].contains c.construct

mutual

/-- The pattern that an expression is on the left of an assignment, if it can stand there. -/
def toPattern? : Concrete → Option Concrete
  | ⟨construct, role, extent, text, children⟩ =>
    match construct with
    | .identifier | .attribute | .subscript => some ⟨construct, role, extent, text, children⟩
    | .listSplat =>
      if children.all isTarget then some ⟨.listSplatPattern, role, extent, text, children⟩ else none
    | .tuple | .parenthesizedExpression =>
      (toPatterns? children).map (⟨.tuplePattern, role, extent, text, ·⟩)
    | .list => (toPatterns? children).map (⟨.listPattern, role, extent, text, ·⟩)
    | .expressionList => (toPatterns? children).map (⟨.patternList, role, extent, text, ·⟩)
    | _ => none

/-- The patterns that expressions in a row are. -/
def toPatterns? : List Concrete → Option (List Concrete)
  | [] => some []
  | c :: rest =>
    match toPattern? c, toPatterns? rest with
    | some d, some ds => some (d :: ds)
    | _, _ => none

end

/-- The pattern that an expression is, or failure. -/
def pattern (c : Concrete) : Reader Concrete := fun _ ts => (toPattern? c).map (fun d => (d, ts))

/-- Reads the targets of a loop, up to the word in front of what it goes over. -/
def loopTargets (r : Rules) : Reader Concrete := do
  pattern (← elementsOf r ["in"] r.primary).asExpression

end CodeAtlas.Python.Grammar
