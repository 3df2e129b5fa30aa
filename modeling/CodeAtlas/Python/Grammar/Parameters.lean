import CodeAtlas.Python.Grammar.Elements

/-!
# Types and parameters

Annotations, and the parameters of functions. A name with a subscript is a generic type, all else
that annotates is an expression.
-/

namespace CodeAtlas.Python.Grammar

open CodeAtlas.Parser (repeatWhile)

/-! ## Types -/

/-- A node around what annotates something. -/
def typeNode (inner : Concrete) : Concrete := node .type inner.extent [inner]

/-- The name behind one or two stars. -/
def splatType : Reader Concrete := do
  let star ← token (fun t => t.isSymbol "*" || t.isSymbol "**")
  let target ← name
  return typeNode (node .splatType (across star.extent target.extent) [target])

/-- A type with the type that constrains it, if there is one. -/
def constrained (type : Reader Concrete) : Reader Concrete := do
  let first ← type
  match ← symbol? ":" with
  | none => return first
  | some _ =>
    let second ← type
    return typeNode (node .constrainedType (across first.extent second.extent) [first, second])

/-- The types in square brackets. -/
def typeParameter (r : Rules) (type : Reader Concrete) : Reader Concrete := do
  let start ← symbol "["
  let items ← separated r.limit startsItem (constrained type)
  let _ ← symbol? ","
  closeNode .typeParameter start "]" items

/-- One more member or alternative of a generic type, if there is one. -/
def typeTail (type : Reader Concrete) (left : Concrete) : Reader (Option Concrete) := do
  match ← symbol? "|" with
  | some _ =>
    let right ← type
    return some (typeNode (node .unionType (across left.extent right.extent) [left, right]))
  | none =>
    match ← symbol? "." with
    | some _ =>
      let member ← name
      return some (typeNode (node .memberType (across left.extent member.extent) [left, member]))
    | none => return none

/-- A type. The number bounds how deep types are nested. -/
def typeOf (r : Rules) : Nat → Reader Concrete
  | 0 => failure
  | depth + 1 => do
    joinLine
    let named ← nextIs Token.isFreeName
    let subscripted ← secondIs (fun t => t.isSymbol "[")
    let starred ← nextIs (fun t => t.isSymbol "*" || t.isSymbol "**")
    if named && subscripted then
      let target ← name
      let parameters ← typeParameter r (typeOf r depth)
      let generic := node .genericType (across target.extent parameters.extent)
        [target, parameters]
      repeatWhile (typeTail (typeOf r depth)) r.limit (typeNode generic)
    else if starred then splatType
    else return typeNode (← r.expression)

/-- Any type. -/
def anyType (r : Rules) : Reader Concrete := typeOf r r.limit

/-- The annotation behind a colon, if annotations are allowed and there is one. -/
def annotation? (r : Rules) (annotated : Bool) : Reader (Option Concrete) := do
  if annotated then
    match ← symbol? ":" with
    | some _ => return some (← anyType r)
    | none => return none
  else return none

/-! ## Parameters -/

/-- A starred parameter behind its stars, with its annotation. -/
def starredParameter (r : Rules) (annotated : Bool) (construct : Construct) (star : Token) :
    Reader Concrete := do
  let target ← r.primary
  require (isTarget target)
  let splat := node construct (across star.extent target.extent) [target]
  match ← annotation? r annotated with
  | none => return splat
  | some type => return node .typedParameter (across splat.extent type.extent) [splat, type]

/-- The default value of a parameter, if there is one. -/
def defaultValue? (r : Rules) : Reader (Option Concrete) := do
  match ← symbol? "=" with
  | some _ => return some ((← r.expression).withRole .value)
  | none => return none

/-- A parameter with its target, which is read, and what may follow: an annotation and a default
value. -/
def parameterOf (r : Rules) (annotated : Bool) (target : Concrete) : Reader Concrete := do
  let type? ← annotation? r annotated
  let value? ← defaultValue? r
  match type?, value? with
  | none, none => return target
  | some type, none =>
    return node .typedParameter (across target.extent type.extent) [target, type]
  | none, some value =>
    return node .defaultParameter (across target.extent value.extent)
      [target.withRole .name, value]
  | some type, some value =>
    return node .typedDefaultParameter (across target.extent value.extent)
      [target.withRole .name, type, value]

/-- A parameter or a mark between parameters. -/
def parameter (r : Rules) (annotated : Bool) : Reader Concrete := do
  match ← symbol? "/" with
  | some slash => return leaf .positionalSeparator slash
  | none =>
    match ← symbol? "**" with
    | some star => starredParameter r annotated .dictionarySplatPattern star
    | none =>
      match ← symbol? "*" with
      | some star =>
        if ← nextIs Token.isFreeName then starredParameter r annotated .listSplatPattern star
        else return leaf .keywordSeparator star
      | none =>
        if ← atSymbol "(" then
          let target ← pattern (← r.primary)
          require (target.isA .tuplePattern)
          parameterOf r false target
        else parameterOf r annotated (← name)

/-- Parameters in round brackets. -/
def parameters (r : Rules) : Reader Concrete := do
  let start ← symbol "("
  let items ← bracketed r.limit (parameter r true)
  closeNode .parameters start ")" items

/-- Whether a token may start a parameter of a function without a name. -/
def startsParameter (t : Token) : Bool := !(t.isSymbol ":" || t.isSymbol ",")

/-- The parameters of a function without a name, if there are any. -/
def lambdaParameters? (r : Rules) : Reader (Option Concrete) := do
  if ← atSymbol ":" then return none
  else
    let items ← separated r.limit startsParameter (parameter r false)
    let comma? ← symbol? ","
    let stop := ((comma?.map Token.extent).or (items.getLast?.map Concrete.extent))
    match items.head?, stop with
    | some first, some last =>
      return some (node .lambdaParameters (across first.extent last) items)
    | _, _ => return none

end CodeAtlas.Python.Grammar
