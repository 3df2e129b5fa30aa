import CodeAtlas.Toml.Scalar
import CodeAtlas.Toml.Table

/-!
# Reading TOML documents

Lines with a key and a value, headers of tables, and values that are nested in arrays and inline
tables. A document that breaks the rules of the format, or defines something twice, has no value.
-/

namespace CodeAtlas.Toml

open CodeAtlas.Parser (peek? nextIs satisfy takeWhile exactly exactly? require repeatWhile many)

/-! ## Keys and line ends -/

/-- Whether a character may stand in a key without quotes. -/
def isBareKeyChar (c : Char) : Bool := c.isAlphanum || c = '_' || c = '-'

/-- A key without dots. -/
def simpleKey : Scan String := do
  if ← nextIs (fun c => c = '"' || c = '\'') then lineString
  else
    let cs ← takeWhile isBareKeyChar
    require !cs.isEmpty
    return String.ofList cs

/-- A key with the blanks around it. -/
def paddedKey : Scan String := do
  blanks
  let key ← simpleKey
  blanks
  return key

/-- A dotted key: the parts in front of the last dot, and the last part. -/
structure Key where
  path : List String
  last : String

/-- Reads a dotted key. -/
def key : Scan Key := do
  let first ← paddedKey
  let rest ← many (← remaining) do
    if ← exactly? ['.'] then return some (← paddedKey) else return none
  let parts := first :: rest
  return ⟨parts.dropLast, parts.getLast?.getD first⟩

/-- Takes a comment, if there is one. -/
def comment? : Scan Unit := do
  if ← exactly? ['#'] then
    let _ ← takeWhile isText

/-- Takes the rest of a line: blanks, a comment and the end of the line or of the text. -/
def lineEnd : Scan Unit := do
  blanks
  comment?
  if ← newline? then return ()
  else Parser.atEnd

/-- Takes blanks, comments and the ends of lines between the items of an array. -/
def arrayGap : Scan Unit := do
  let _ ← many (← remaining) do
    blanks
    let commented ← nextIs (· == '#')
    comment?
    if ← newline? then return some ()
    else
      require !commented
      return none

/-! ## Values -/

/-- How deep values may be nested. -/
def maxDepth : Nat := 79

/-- The items of an array behind its opening bracket, with the closing one. -/
def arrayItems (value : Scan Json) : Scan Json := do
  let items ← many (← remaining) do
    arrayGap
    if ← nextIs (· == ']') then return none
    else
      let v ← value
      arrayGap
      if !(← exactly? [',']) then require (← nextIs (· == ']'))
      return some v
  exactly [']']
  return .arr items

/-- Members with the one that a key and a value behind an equals sign are. -/
def inlineMember (value : Scan Json) (m : Members) : Scan Members := do
  let k ← key
  exactly ['=']
  blanks
  let v ← value
  blanks
  match m.addDotted k.last v k.path with
  | some m => return m
  | none => failure

/-- The members of an inline table behind its opening brace, with the closing one. -/
def inlineMembers (value : Scan Json) : Scan Json := do
  blanks
  if ← exactly? ['\x7d'] then return .obj []
  else
    let first ← inlineMember value []
    let m ← repeatWhile (fun m => do
      if ← exactly? [','] then return some (← inlineMember value m) else return none)
      (← remaining) first
    exactly ['\x7d']
    return .obj (membersToJson m)

/-- A value that is nested at most so deep. -/
def value : Nat → Scan Json
  | 0 => scalar
  | depth + 1 => do
    if ← exactly? ['['] then arrayItems (value depth)
    else if ← exactly? ['\x7b'] then inlineMembers (value depth)
    else scalar

/-! ## Documents -/

/-- What was read of a document: its members, and the headers that the next lines stand below. -/
structure Document where
  members : Members := []
  header : List String := []
  deriving Inhabited

/-- A line with a key and a value. -/
def memberLine (d : Document) : Scan Document := do
  let k ← key
  exactly ['=']
  blanks
  let v ← value maxDepth
  lineEnd
  match d.members.changeWithin (Members.addDotted k.last v k.path) d.header with
  | some members => return { d with members }
  | none => failure

/-- A line with the header of a table, behind the first bracket. -/
def headerLine (d : Document) : Scan Document := do
  let isRepeated ← exactly? ['[']
  let k ← key
  exactly (if isRepeated then [']', ']'] else [']'])
  lineEnd
  let change := if isRepeated then Members.openNext k.last else Members.openTable k.last
  match d.members.changeWithin change k.path with
  | some members => return ⟨members, k.path ++ [k.last]⟩
  | none => failure

/-- One more line, unless the text ends. -/
def line? (d : Document) : Scan (Option Document) := do
  blanks
  match ← peek? with
  | none => return none
  | some c =>
    if c = '#' then
      lineEnd
      return some d
    else if c = '\n' || c = '\r' then
      require (← newline?)
      return some d
    else if ← exactly? ['['] then return some (← headerLine d)
    else return some (← memberLine d)

/-- The document of a whole text. -/
def document : Scan Document := do
  let _ ← exactly? ['\ufeff']
  let d ← repeatWhile line? (← remaining) {}
  Parser.atEnd
  return d

/-- The value of a document, if it follows the rules of the format. -/
def read? (text : String) : Option Json :=
  (document text.toList).map (fun (d, _) => .obj (membersToJson d.members))

end CodeAtlas.Toml
