import CodeAtlas.Register
import CodeAtlas.Table

/-!
# Counting

How often values occur in a list, in the order of their first occurrence, and summaries of
samples of numbers.

Main statement: `getD_get?_tally`, a tally holds the number of occurrences of each value that occurs.
-/

namespace CodeAtlas.Store

/-- How often each text occurs, in the order of first occurrence. -/
def tally (names : List String) : Table String Nat :=
  names.foldl (fun t name => t.alter name (fun n => some (n.getD 0 + 1))) ∅

/-- The texts that occur most often with their numbers, the most frequent first; of equally
frequent ones the one that occurs first. -/
def topCounts (limit : Nat) (names : List String) : List (String × Nat) :=
  ((tally names).entries.mergeSort (fun a b => decide (b.2 ≤ a.2))).take limit

/-- Total, size and extremes of a sample; all zero without a sample. -/
structure Summary where
  total : Nat := 0
  count : Nat := 0
  max : Nat := 0
  min : Nat := 0
  deriving DecidableEq, Repr, Inhabited

/-- The summary of a sample, whose numbers are added up in a register. -/
def Summary.ofList (limit : Nat) (values : List Nat) : Except Overflow Summary := do
  let total ← Register.sum limit values
  return {
    total
    count := values.length
    max := values.max?.getD 0
    min := values.min?.getD 0 }

theorem get?_foldl_tally (names : List String) (t : Table String Nat) (name : String) :
    ((names.foldl (fun t name => t.alter name (fun n => some (n.getD 0 + 1))) t).get? name).getD 0 =
      (t.get? name).getD 0 + names.count name := by
  induction names generalizing t with
  | nil => simp
  | cons x rest ih =>
    simp only [List.foldl_cons]
    rw [ih]
    by_cases h : name = x
    · subst h
      simp
      omega
    · have : x ≠ name := fun e => h e.symm
      simp [Table.get?_alter, h, this]

/-- A tally holds the number of occurrences. -/
theorem getD_get?_tally (names : List String) (name : String) :
    ((tally names).get? name).getD 0 = names.count name := by
  simp [tally, get?_foldl_tally]

end CodeAtlas.Store
