import CodeAtlas.Python.Grammar.Template

/-!
# Patterns of cases

What a case of a `match` statement compares with. Besides names and literals a pattern may hold
strings, which are all that is kept of it, because there may be something in their fields.
-/

namespace CodeAtlas.Python.Grammar

open CodeAtlas.Parser (many)

/-- Reads a pattern and gives the strings in it. -/
abbrev PatternReader := Reader (List Concrete)

/-! ## Patterns without alternatives -/

/-- One more part of the name of a value or a class, if there is one. -/
def valueNamePart? : Reader (Option Unit) := do
  match ← symbol? "." with
  | some _ => let _ ← name; return some ()
  | none => return none

/-- Patterns in brackets, each of them read by the same reader. -/
def patternItems (limit : Nat) (item : PatternReader) (close : String) : PatternReader := do
  let items ← bracketed limit item
  let _ ← symbol close
  return items.flatten

/-- A name with its dots, and the patterns of its attributes in round brackets. -/
def namedPattern (limit : Nat) (inner : PatternReader) : PatternReader := do
  let _ ← name
  let _ ← many limit valueNamePart?
  match ← symbol? "(" with
  | none => return []
  | some _ => patternItems limit inner ")"

/-- A star or two with a name. -/
def splatPattern : PatternReader := do
  let _ ← token (fun t => t.isSymbol "*" || t.isSymbol "**")
  let _ ← name
  return []

/-- Whether a token is a number. -/
def isNumber (t : Token) : Bool := t.kind == .integer || t.kind == .float

/-- A number, which may be negative or have an imaginary part. -/
def numberPattern : PatternReader := do
  let _ ← symbol? "-"
  let _ ← token isNumber
  match ← token? (fun t => t.isSymbol "+" || t.isSymbol "-") with
  | none => return []
  | some _ =>
    let _ ← token isNumber
    return []

/-- An entry of a mapping: a key with a pattern, or the rest of the mapping. -/
def entryPattern (key inner : PatternReader) : PatternReader := do
  if ← nextIs (fun t => t.isSymbol "*" || t.isSymbol "**") then splatPattern
  else
    let found ← key
    let _ ← symbol ":"
    return found ++ (← inner)

/-- A pattern without alternatives. The readers are those of a key of a mapping and of any
pattern. -/
def closedPattern (r : Rules) (key inner : PatternReader) : PatternReader := do
  joinLine
  match ← peek? with
  | none => failure
  | some t =>
    if t.kind == .string || t.kind == .templateStart then return [← strings r]
    else if ["True", "False", "None"].any t.isWord then
      let _ ← token (fun _ => true)
      return []
    else if t.isName then namedPattern r.limit inner
    else if t.isSymbol "-" || isNumber t then numberPattern
    else if t.isSymbol "*" || t.isSymbol "**" then splatPattern
    else
      let _ ← token (fun t => ["(", "[", "\x7b"].any t.isSymbol)
      if t.isSymbol "(" then patternItems r.limit inner ")"
      else if t.isSymbol "[" then patternItems r.limit inner "]"
      else patternItems r.limit (entryPattern key inner) "\x7d"

/-! ## Patterns -/

/-- One more alternative of a pattern, if there is one. -/
def alternative? (pattern : PatternReader) : Reader (Option (List Concrete)) := do
  match ← symbol? "|" with
  | some _ => return some (← pattern)
  | none => return none

/-- Alternatives, of which there is one at least. -/
def alternatives (limit : Nat) (pattern : PatternReader) : PatternReader := do
  let first ← pattern
  return first ++ (← many limit (alternative? pattern)).flatten

/-- One more name for what a pattern matches, if there is one. -/
def patternName? : Reader (Option Concrete) := do
  match ← word? "as" with
  | some _ => return some (← name)
  | none => return none

mutual

/-- Alternatives that have no name. The number bounds how deep patterns are nested. -/
def unnamedPattern (r : Rules) : Nat → PatternReader
  | 0 => failure
  | depth + 1 =>
    alternatives r.limit (closedPattern r (unnamedPattern r depth) (patternOf r depth))

/-- A pattern, which may be that of an attribute, with the names for what it matches. -/
def patternOf (r : Rules) : Nat → PatternReader
  | 0 => failure
  | depth + 1 => do
    let named ← nextIs Token.isFreeName
    let given ← secondIs (fun t => t.isSymbol "=")
    if named && given then
      let _ ← name
      let _ ← symbol "="
    let found ← alternatives r.limit
      (closedPattern r (unnamedPattern r depth) (patternOf r depth))
    let _ ← many r.limit patternName?
    return found

end

/-- A pattern of a case. -/
def casePattern (r : Rules) : Reader Concrete := do
  joinLine
  match ← peek? with
  | none => failure
  | some start => return node .casePattern start.extent (← patternOf r r.limit)

/-- The patterns of a case, for which commas make a sequence. -/
def casePatterns (r : Rules) : Reader (List Concrete) := do
  let patterns ← separated r.limit (fun t => !t.isSymbol ":" && !t.isWord "if") (casePattern r)
  let _ ← symbol? ","
  return patterns

end CodeAtlas.Python.Grammar
