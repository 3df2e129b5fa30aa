import CodeAtlas.Text.Case
import CodeAtlas.Text.Digit

/-!
# Integer literals

An integer literal is shown as the decimal numeral of its value if the value is below 2^127, and as
it is written otherwise. Underscores between digits do not count, and a letter behind a leading zero
gives the base.
-/

namespace CodeAtlas.Python.Literal

/-- The values from here on are not worked out. -/
def valueLimit : Nat := Nat.pow 2 127

/-- The base that a literal is written in, and its digits. -/
def baseAndDigits : List Char → Nat × List Char
  | '0' :: 'x' :: rest => (16, rest)
  | '0' :: 'o' :: rest => (8, rest)
  | '0' :: 'b' :: rest => (2, rest)
  | cs => (10, cs)

/-- The value of an integer literal, if it is below the limit. -/
def integerValue? (literal : List Char) : Option Nat :=
  let (base, ds) := baseAndDigits (Text.asciiLowercase (literal.filter (· ≠ '_')))
  (Text.digits? base ds).filter (· < valueLimit)

/-- An integer literal as it is shown. -/
def integerText (literal : String) : String :=
  match integerValue? literal.toList with
  | some n => toString n
  | none => literal

/-- A floating-point literal is shown without underscores. -/
def floatText (literal : String) : String := String.ofList (literal.toList.filter (· ≠ '_'))

/-- Equal values are shown alike, whatever the base. -/
example : integerText "0x_1F" = "31" ∧ integerText "3_1" = "31" ∧ integerText "1_0j" = "1_0j" := by
  decide +kernel

end CodeAtlas.Python.Literal
