import CodeAtlas.Json
import CodeAtlas.Parser
import CodeAtlas.Text.Digit

/-!
# Scalars of TOML

Strings, numbers, truth values and moments in time. Strings are basic, with escapes, or literal, and
each of these stands on one line or between three quotes on several lines.

No setting is a floating-point number or a moment, so only their kind is kept.
-/

namespace CodeAtlas.Toml

open CodeAtlas.Parser (satisfy satisfy? takeWhile exactly exactly? require orElse many nextIs)

/-- Takes something from the front of a text, or fails. -/
abbrev Scan := Parser Char

/-- The number of characters that are left. -/
def remaining : Scan Nat := fun cs => some (cs.length, cs)

/-- Whether a character may stand in a string or a comment. -/
def isText (c : Char) : Bool := c = '\t' || (' ' ≤ c && c ≠ '\x7f')

/-- Takes blanks. -/
def blanks : Scan Unit := do
  let _ ← takeWhile (fun c => c = ' ' || c = '\t')

/-- Takes the end of a line, if it is next. -/
def newline? : Scan Bool := do
  if ← exactly? ['\n'] then return true else exactly? ['\r', '\n']

/-! ## Strings -/

/-- The number that some digits are. -/
def digitsValue (base : Nat) (ds : List Char) : Nat := (Text.digits? base ds).getD 0

/-- The character that a letter behind a backslash stands for. -/
def escapedChar? : Char → Option Char
  | 'b' => some '\x08'
  | 't' => some '\t'
  | 'n' => some '\n'
  | 'f' => some '\x0c'
  | 'r' => some '\r'
  | '"' => some '"'
  | '\\' => some '\\'
  | _ => none

/-- The character whose number follows. -/
def numberedChar : Nat → List Char → Scan Char
  | 0, ds =>
    let n := digitsValue 16 ds.reverse
    if n.isValidChar then return Char.ofNat n else failure
  | length + 1, ds => do numberedChar length ((← satisfy (Text.isDigitOf 16)) :: ds)

/-- The character that an escape stands for, behind its backslash. -/
def escape : Scan Char := do
  if ← exactly? ['u'] then numberedChar 4 []
  else if ← exactly? ['U'] then numberedChar 8 []
  else
    match escapedChar? (← satisfy (fun _ => true)) with
    | some c => return c
    | none => failure

/-- A character of a literal string. -/
def literalChar : Scan (List Char) := do return [← satisfy isText]

/-- A character of a basic string. -/
def basicChar : Scan (List Char) := do
  if ← exactly? ['\\'] then return [← escape] else literalChar

/-- Takes blanks and the ends of lines. -/
def blankLines : Scan Unit := do
  let _ ← many (← remaining) do
    if (← satisfy? (fun c => c = ' ' || c = '\t')).isSome then return some ()
    else if ← newline? then return some ()
    else return none

/-- A backslash at the end of a line, with the blanks and line ends behind it. -/
def joinedLines : Scan (List Char) := do
  exactly ['\\']
  blanks
  require (← newline?)
  blankLines
  return []

/-- A piece of a string on several lines, whose line ends are line feeds. -/
def blockPiece (char : Scan (List Char)) : Scan (List Char) := do
  if ← newline? then return ['\n'] else char

/-- The rest of a string on one line, up to its closing quote. -/
def lineText (char : Scan (List Char)) (quote : Char) : Nat → Scan (List Char)
  | 0 => failure
  | rounds + 1 => do
    if ← exactly? [quote] then return []
    else return (← char) ++ (← lineText char quote rounds)

/-- The rest of a string on several lines, up to its three closing quotes, in front of which one or
two quotes belong to the string. -/
def blockText (piece : Scan (List Char)) (quote : Char) : Nat → Scan (List Char)
  | 0 => failure
  | rounds + 1 => do
    let quotes ← takeWhile (· == quote)
    if 3 ≤ quotes.length then
      require (quotes.length ≤ 5)
      return quotes.drop 3
    else return quotes ++ (← piece) ++ (← blockText piece quote rounds)

/-- A string on one line. -/
def lineString : Scan String := do
  let rounds ← remaining
  if ← exactly? ['"'] then return String.ofList (← lineText basicChar '"' rounds)
  else
    exactly ['\'']
    return String.ofList (← lineText literalChar '\'' rounds)

/-- A string of either kind. -/
def string : Scan String := do
  let rounds ← remaining
  if ← exactly? ['"', '"', '"'] then
    let _ ← newline?
    return String.ofList (← blockText (orElse joinedLines (blockPiece basicChar)) '"' rounds)
  else if ← exactly? ['\'', '\'', '\''] then
    let _ ← newline?
    return String.ofList (← blockText (blockPiece literalChar) '\'' rounds)
  else lineString

/-! ## Numbers -/

/-- Digits, between which single underscores may stand. -/
def digits (base : Nat) : Scan (List Char) := do
  let first ← satisfy (Text.isDigitOf base)
  let rest ← many (← remaining) do
    if ← exactly? ['_'] then return some (← satisfy (Text.isDigitOf base))
    else satisfy? (Text.isDigitOf base)
  return first :: rest

/-- An integer, which has to fit into 64 bits. -/
def integer (n : Int) : Scan Json := do
  require (-9223372036854775808 ≤ n && n ≤ 9223372036854775807)
  return .int n

/-- Any floating-point number. -/
def someFloat : Json := .decimal 0 1

/-- Whether a number is too large to be told from infinity as a floating-point number: its digits,
without a point, times a power of ten. -/
def overflows (ds : List Char) (exponent : Int) : Bool :=
  let m := digitsValue 10 ds
  let threshold := Nat.pow 2 1024 - Nat.pow 2 970
  if m = 0 then false
  else if (ds.length : Int) + exponent ≤ 0 then false
  else if 0 ≤ exponent then 400 < exponent || threshold ≤ m * Nat.pow 10 exponent.toNat
  else threshold * Nat.pow 10 exponent.natAbs ≤ m

/-- The exponent of a number, if it has one. -/
def exponent? : Scan (Option Int) := do
  match ← satisfy? (fun c => c = 'e' || c = 'E') with
  | none => return none
  | some _ =>
    let sign ← satisfy? (fun c => c = '+' || c = '-')
    let n : Int := digitsValue 10 (← digits 10)
    return some (if sign = some '-' then -n else n)

/-- The rest of a number behind its digits: nothing, or what makes it a floating-point number. -/
def numberFrom (isNegative : Bool) (whole : List Char) : Scan Json := do
  let part ← if ← exactly? ['.'] then digits 10 else pure []
  let power ← exponent?
  if part.isEmpty && power.isNone then
    let n : Int := digitsValue 10 whole
    integer (if isNegative then -n else n)
  else
    require (isNegative || !overflows (whole ++ part) (power.getD 0 - part.length))
    return someFloat

/-- An integer in a base, behind the mark of the base. -/
def basedInteger (base : Nat) : Scan Json := do
  integer (digitsValue base (← digits base))

/-- A number. -/
def number : Scan Json := do
  if ← exactly? ['0', 'x'] then basedInteger 16
  else if ← exactly? ['0', 'o'] then basedInteger 8
  else if ← exactly? ['0', 'b'] then basedInteger 2
  else
    let sign ← satisfy? (fun c => c = '+' || c = '-')
    if ← exactly? ['i', 'n', 'f'] then return someFloat
    else if ← exactly? ['n', 'a', 'n'] then return someFloat
    else
      let whole ← digits 10
      require (whole.length = 1 || whole.head? != some '0')
      numberFrom (sign = some '-') whole

/-! ## Moments in time -/

/-- Any moment in time, a record none of whose members is a setting. -/
def someMoment : Json := .obj [("moment", .bool true)]

/-- A number of exactly some digits within some bounds. -/
def fixedNumber (length low high : Nat) : Scan Nat := do
  let ds ← many length (satisfy? Char.isDigit)
  require (ds.length = length)
  let n := digitsValue 10 ds
  require (low ≤ n && n ≤ high)
  return n

/-- The number of days of a month. -/
def daysOfMonth (year month : Nat) : Nat :=
  if month = 2 then
    if (year % 4 = 0 ∧ year % 100 ≠ 0) ∨ year % 400 = 0 then 29 else 28
  else if month = 4 ∨ month = 6 ∨ month = 9 ∨ month = 11 then 30
  else 31

/-- A date. -/
def date : Scan Unit := do
  let year ← fixedNumber 4 0 9999
  exactly ['-']
  let month ← fixedNumber 2 1 12
  exactly ['-']
  let _ ← fixedNumber 2 1 (daysOfMonth year month)

/-- A time of a day. -/
def time : Scan Unit := do
  let _ ← fixedNumber 2 0 23
  exactly [':']
  let _ ← fixedNumber 2 0 59
  exactly [':']
  let _ ← fixedNumber 2 0 60
  if ← exactly? ['.'] then
    require !(← takeWhile Char.isDigit).isEmpty

/-- How far a time is ahead of the one at Greenwich. -/
def timeOffset : Scan Unit := do
  match ← satisfy? (fun c => c = 'Z' || c = 'z') with
  | some _ => return ()
  | none =>
    let _ ← satisfy (fun c => c = '+' || c = '-')
    let _ ← fixedNumber 2 0 23
    exactly [':']
    let _ ← fixedNumber 2 0 59

/-- The time behind a date. -/
def timeOfDate : Scan Unit := do
  let _ ← satisfy (fun c => c = 'T' || c = 't' || c = ' ')
  time
  let _ ← Parser.optional timeOffset

/-- A moment in time: a date, a time, or both. -/
def moment : Scan Json := do
  orElse (do date; let _ ← Parser.optional timeOfDate) time
  return someMoment

/-! ## Scalars -/

/-- A scalar. -/
def scalar : Scan Json := do
  if ← nextIs (fun c => c = '"' || c = '\'') then return .str (← string)
  else if ← exactly? ['t', 'r', 'u', 'e'] then return .bool true
  else if ← exactly? ['f', 'a', 'l', 's', 'e'] then return .bool false
  else orElse moment number

end CodeAtlas.Toml
