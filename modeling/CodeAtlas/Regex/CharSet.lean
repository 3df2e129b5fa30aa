import CodeAtlas.Text.Blank
import CodeAtlas.Text.Case

/-!
# Sets of characters

What a single place of a pattern may match.
-/

namespace CodeAtlas.Regex

/-- A set of characters. -/
inductive CharSet where
  /-- Code points from the first to the last. -/
  | range (first last : Nat)
  /-- Characters of one of the general categories. -/
  | category (categories : List Text.Category)
  /-- Code points in one of the runs. -/
  | runs (runs : List (Nat × Nat))
  | word
  | digit
  | blank
  | union (a b : CharSet)
  | inter (a b : CharSet)
  | diff (a b : CharSet)
  | symmDiff (a b : CharSet)
  | compl (a : CharSet)
  /-- The set with the forms of other case of its members. -/
  | anyCase (a : CharSet)
  deriving DecidableEq, Repr, Inhabited

namespace CharSet

/-- The set without members. -/
def none : CharSet := range 1 0

/-- The set of all characters. -/
def all : CharSet := range 0 0x10FFFF

/-- The set of one character. -/
def single (c : Char) : CharSet := range c.toNat c.toNat

/-- Whether `c` is a member. -/
def contains : CharSet → Char → Bool
  | range first last, c => first ≤ c.toNat && c.toNat ≤ last
  | category ks, c => ks.any (Text.hasCategory c)
  | runs rs, c => rs.any (fun run => run.1 ≤ c.toNat && c.toNat ≤ run.2)
  | word, c => Text.isWordChar c
  | digit, c => Text.isDecimalDigit c
  | blank, c => Text.isBlank c
  | union a b, c => a.contains c || b.contains c
  | inter a b, c => a.contains c && b.contains c
  | diff a b, c => a.contains c && !b.contains c
  | symmDiff a b, c => a.contains c != b.contains c
  | compl a, c => !a.contains c
  | anyCase a, c => (Text.caseForms c).any a.contains

/-- The union of some sets. -/
def unions (sets : List CharSet) : CharSet := sets.foldl union none

end CharSet

end CodeAtlas.Regex
