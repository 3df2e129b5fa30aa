/-!
# Digits

The values of digits and of numerals in a base up to 36, whose digits beyond nine are letters of
either case.

Main statement: `digitsFrom_append`, a numeral is worked out from the left.
-/

namespace CodeAtlas.Text

/-- The value of a digit, for bases up to 36. -/
def digitValue (c : Char) : Option Nat :=
  if c.isDigit then some (c.toNat - 48)
  else if 'a' ≤ c ∧ c ≤ 'z' then some (c.toNat - 87)
  else if 'A' ≤ c ∧ c ≤ 'Z' then some (c.toNat - 55)
  else none

/-- The digit as a value below a base. -/
def digitBelow (base : Nat) (c : Char) : Option Nat := (digitValue c).filter (· < base)

/-- Whether a character is a digit of a base. -/
def isDigitOf (base : Nat) (c : Char) : Bool := (digitBelow base c).isSome

/-- The value of digits behind others that have a value already. -/
def digitsFrom (base : Nat) (value : Nat) : List Char → Option Nat
  | [] => some value
  | c :: rest =>
    match digitBelow base c with
    | none => none
    | some d => digitsFrom base (value * base + d) rest

/-- The value of a sequence of digits with at least one digit. -/
def digits? (base : Nat) (cs : List Char) : Option Nat :=
  if cs.isEmpty then none else digitsFrom base 0 cs

theorem digitsFrom_append (base value : Nat) (cs ds : List Char) :
    digitsFrom base value (cs ++ ds) =
      (digitsFrom base value cs).bind (fun n => digitsFrom base n ds) := by
  induction cs generalizing value with
  | nil => rfl
  | cons c rest ih =>
    simp only [List.cons_append, digitsFrom]
    split
    · rfl
    · exact ih _

example : digits? 16 "fF".toList = some 255 ∧ digits? 8 "8".toList = none ∧
    digits? 10 [] = none := by
  decide +kernel

end CodeAtlas.Text
