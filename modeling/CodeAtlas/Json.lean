import CodeAtlas.Table

/-!
# JSON values

The values that configurations are read from, that chunks carry as metadata and that reports are
made of. A number is an integer, a decimal fraction as it was written, or the mean of a sample,
which stays a pair of integers until it is printed.
-/

namespace CodeAtlas

/-- A JSON value. The keys of an object are in the order in which they are printed. -/
inductive Json where
  | null
  | bool (b : Bool)
  | int (n : Int)
  /-- The number `mantissa / 10 ^ exponent`, written with a decimal point or an exponent. -/
  | decimal (mantissa : Int) (exponent : Nat)
  /-- The floating-point number nearest to `total / count`. -/
  | mean (total count : Nat)
  | str (s : String)
  | arr (items : List Json)
  | obj (fields : List (String × Json))
  deriving Inhabited

namespace Json

/-- A natural number. -/
def nat (n : Nat) : Json := int n

/-- A string, or null where there is none. -/
def optStr : Option String → Json
  | none => null
  | some s => str s

/-- A natural number, or null where there is none. -/
def optNat : Option Nat → Json
  | none => null
  | some n => nat n

/-- An array of strings. -/
def strs (items : List String) : Json := arr (items.map str)

/-- An object with the entries of a table. -/
def ofTable {α : Type} (f : α → Json) (t : Table String α) : Json :=
  obj (t.entries.map (fun e => (e.1, f e.2)))

/-- The value of a member of an object. -/
def field? (key : String) : Json → Option Json
  | obj fields => (fields.find? (fun e => e.1 == key)).map Prod.snd
  | _ => none

/-- The string that a value is. -/
def str? : Json → Option String
  | str s => some s
  | _ => none

/-- The truth value that a value is. -/
def bool? : Json → Option Bool
  | bool b => some b
  | _ => none

end Json

end CodeAtlas
