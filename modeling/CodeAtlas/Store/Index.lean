import CodeAtlas.Table

/-!
# Secondary indices

An index maps an attribute to the handles of the entries that have it, in the order in which they
were added. No attribute is left without handles.

Main statements: `Index.find_add` and `Index.find_remove`, what adding and removing a handle does to
a look-up.
-/

namespace CodeAtlas.Store

/-- Handles by attribute. -/
structure Index (κ ι : Type) where
  buckets : Table κ (List ι) := ⟨[], by simp⟩
  deriving Inhabited

namespace Index

variable {κ ι : Type} [DecidableEq κ]

/-- The index with one more handle for an attribute. -/
def add (i : Index κ ι) (key : κ) (id : ι) : Index κ ι :=
  ⟨i.buckets.alter key (fun ids => some (ids.getD [] ++ [id]))⟩

/-- The handles of an attribute. -/
def find (i : Index κ ι) (key : κ) : List ι := (i.buckets.get? key).getD []

/-- The number of handles of each attribute. -/
def sizes (i : Index κ ι) (name : κ → String) : List (String × Nat) :=
  i.buckets.entries.map (fun e => (name e.1, e.2.length))

theorem find_add (i : Index κ ι) (key other : κ) (id : ι) :
    (i.add key id).find other = if other = key then i.find other ++ [id] else i.find other := by
  by_cases h : other = key
  · subst h
    simp [add, find]
  · simp [add, find, Table.get?_alter, h]

variable [DecidableEq ι]

/-- Some handles, unless there are none. -/
def nonempty (ids : List ι) : Option (List ι) := if ids.isEmpty then none else some ids

/-- The index without a handle of an attribute. -/
def remove (i : Index κ ι) (key : κ) (id : ι) : Index κ ι :=
  ⟨i.buckets.alter key (fun ids => ids.bind (fun ids => nonempty (ids.filter (· ≠ id))))⟩

theorem find_remove (i : Index κ ι) (key other : κ) (id : ι) :
    (i.remove key id).find other =
      if other = key then (i.find other).filter (· ≠ id) else i.find other := by
  by_cases h : other = key
  · subst h
    simp only [remove, find, Table.get?_alter_self, if_pos]
    cases i.buckets.get? other with
    | none => simp
    | some ids =>
      simp only [Option.bind_some, nonempty, Option.getD_some]
      split
      · next hn => simpa using (List.isEmpty_iff.1 hn).symm
      · rfl
  · simp [remove, find, Table.get?_alter, h]

end Index

end CodeAtlas.Store
