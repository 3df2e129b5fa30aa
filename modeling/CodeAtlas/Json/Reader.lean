import CodeAtlas.Json

/-!
# Reading records from JSON

Settings are records whose members may be left out. A record is written as an object, whose unknown
members do not count, or as the array of its members in order. `Json.record?` turns either form
into a look-up by name; `readOr` reads one member, which may be missing but not malformed.

Main statements:

* `readOr_of_missing`, `readOr_of_present`: a member that is missing has its default value, and one
  that is there has to be readable.
-/

namespace CodeAtlas.Json

/-- The largest number that a setting can be. -/
def maxNat : Nat := 18446744073709551615

/-- The natural number that a value is, up to `maxNat`. -/
def nat? : Json → Option Nat
  | int (.ofNat n) => if n ≤ maxNat then some n else none
  | _ => none

/-- The items of an array, if every one of them can be read. -/
def list? {α : Type} (read : Json → Option α) : Json → Option (List α)
  | arr items => items.mapM read
  | _ => none

/-- A value that may be null. -/
def nullable? {α : Type} (read : Json → Option α) : Json → Option (Option α)
  | null => some none
  | v => (read v).map some

/-- The name that stands for one of several alternatives: a string, or an object whose only member
is null. -/
def choice? : Json → Option String
  | str s => some s
  | obj [(name, null)] => some name
  | _ => none

/-- The members of a record by name. An array gives them in the order of the names. -/
def record? (names : List String) : Json → Option (String → Option Json)
  | obj fields => some (fun name => (obj fields).field? name)
  | arr items =>
    if items.length ≤ names.length then
      some (fun name => (obj (names.zip items)).field? name)
    else none
  | _ => none

/-- A member of a record: its default value if it is missing. -/
def readOr {α : Type} (default : α) (read : Json → Option α) : Option Json → Option α
  | none => some default
  | some v => read v

theorem readOr_of_missing {α : Type} (default : α) (read : Json → Option α) :
    readOr default read none = some default :=
  rfl

theorem readOr_of_present {α : Type} (default : α) (read : Json → Option α) (v : Json) :
    readOr default read (some v) = read v :=
  rfl

end CodeAtlas.Json
