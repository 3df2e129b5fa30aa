import CodeAtlas.Json
import CodeAtlas.Text.Shortest

/-!
# Printing JSON

The compact form without blanks, and the form with one member a line, indented by two blanks.
Strings escape quotes, backslashes and control characters and keep everything else as it is.
-/

namespace CodeAtlas.Json

/-- A control character as four hexadecimal digits. -/
def escapeControl (c : Char) : List Char :=
  ['\\', 'u', '0', '0', Nat.digitChar (c.toNat / 16), Nat.digitChar (c.toNat % 16)]

/-- A character of a string as it is written. -/
def escapeChar (c : Char) : List Char :=
  if c = '"' then ['\\', '"']
  else if c = '\\' then ['\\', '\\']
  else if c = '\n' then ['\\', 'n']
  else if c = '\r' then ['\\', 'r']
  else if c = '\t' then ['\\', 't']
  else if c.toNat = 8 then ['\\', 'b']
  else if c.toNat = 12 then ['\\', 'f']
  else if c.toNat < 32 then escapeControl c
  else [c]

/-- A string in quotes. -/
def quote (s : String) : String :=
  String.ofList ('"' :: (s.toList.flatMap escapeChar ++ ['"']))

/-- A decimal fraction with its point. -/
def decimalText (mantissa : Int) (exponent : Nat) : String :=
  let ds := Nat.toDigits 10 mantissa.natAbs
  let ds := List.replicate (exponent + 1 - ds.length) '0' ++ ds
  let whole := ds.take (ds.length - exponent)
  let part := ds.drop (ds.length - exponent)
  (if mantissa < 0 then "-" else "") ++ String.ofList (whole ++ '.' :: part)

/-- A value without parts. -/
def scalarText : Json → String
  | null => "null"
  | bool b => if b then "true" else "false"
  | int n => toString n
  | decimal mantissa exponent => decimalText mantissa exponent
  | mean total count => String.ofList (Text.Shortest.render total count)
  | str s => quote s
  | arr _ => "[]"
  | obj _ => "\x7b\x7d"

mutual

/-- A value without blanks. -/
def compact : Json → String
  | arr items => "[" ++ compactItems items ++ "]"
  | obj fields => "\x7b" ++ compactFields fields ++ "\x7d"
  | v => scalarText v

/-- Items with commas between them. -/
def compactItems : List Json → String
  | [] => ""
  | [v] => compact v
  | v :: w :: rest => compact v ++ "," ++ compactItems (w :: rest)

/-- Members with commas between them. -/
def compactFields : List (String × Json) → String
  | [] => ""
  | [(k, v)] => quote k ++ ":" ++ compact v
  | (k, v) :: e :: rest => quote k ++ ":" ++ compact v ++ "," ++ compactFields (e :: rest)

end

/-- A new line with an indentation. -/
def newLine (depth : Nat) : String := "\n" ++ String.ofList (List.replicate (2 * depth) ' ')

mutual

/-- A value over several lines, inside some levels of indentation. -/
def prettyAt (depth : Nat) : Json → String
  | arr (v :: rest) => "[" ++ prettyItems (depth + 1) (v :: rest) ++ newLine depth ++ "]"
  | obj (e :: rest) => "\x7b" ++ prettyFields (depth + 1) (e :: rest) ++ newLine depth ++ "\x7d"
  | v => scalarText v

/-- Items, each on a line of its own. -/
def prettyItems (depth : Nat) : List Json → String
  | [] => ""
  | [v] => newLine depth ++ prettyAt depth v
  | v :: w :: rest => newLine depth ++ prettyAt depth v ++ "," ++ prettyItems depth (w :: rest)

/-- Members, each on a line of its own. -/
def prettyFields (depth : Nat) : List (String × Json) → String
  | [] => ""
  | [(k, v)] => newLine depth ++ quote k ++ ": " ++ prettyAt depth v
  | (k, v) :: e :: rest =>
    newLine depth ++ quote k ++ ": " ++ prettyAt depth v ++ "," ++ prettyFields depth (e :: rest)

end

/-- A value over several lines. -/
def pretty (v : Json) : String := prettyAt 0 v

end CodeAtlas.Json
