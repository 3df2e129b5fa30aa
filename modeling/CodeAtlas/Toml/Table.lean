import CodeAtlas.Json

/-!
# Tables of TOML

A document is a table whose members are values, tables and lists of tables. How a table came about
decides what may still be added to it: a table with a header of its own is defined once, one that
was made only to hold another one may get a header later, and one that was made by a dotted key only
gets more members by dotted keys.

Main statement: `lookup_addMember`, a member that was added is found.
-/

namespace CodeAtlas.Toml

/-- How a table came about. -/
inductive TableOrigin where
  /-- It has a header of its own. -/
  | header
  /-- It holds a table that has a header. -/
  | nested
  /-- It is in front of a dot in a key. -/
  | dotted
  deriving DecidableEq, Repr, Inhabited

/-- A member of a table. -/
inductive Item where
  | value (v : Json)
  | table (origin : TableOrigin) (members : List (String × Item))
  /-- Tables with the same header; the last one is open. -/
  | tables (earlier : List (List (String × Item))) (last : List (String × Item))
  deriving Inhabited

/-- The members of a table by their names. -/
abbrev Members := List (String × Item)

namespace Members

/-- The member of a name. -/
def lookup (key : String) : Members → Option Item
  | [] => none
  | (k, item) :: rest => if k = key then some item else lookup key rest

/-- Members with another item under a name that is there. -/
def replace (key : String) (item : Item) : Members → Members
  | [] => []
  | (k, old) :: rest => if k = key then (k, item) :: rest else (k, old) :: replace key item rest

/-- Members with one more, whose name is new. -/
def addMember (key : String) (v : Json) (m : Members) : Option Members :=
  match lookup key m with
  | none => some (m ++ [(key, .value v)])
  | some _ => none

/-- Members with one more under a dotted key. Only tables that were made by dotted keys may get
members, though others may stand further up. -/
def addDotted (key : String) (v : Json) : List String → Members → Option Members
  | [], m => addMember key v m
  | k :: path, m =>
    match lookup k m with
    | none => (addDotted key v path []).map (fun inner => m ++ [(k, .table .dotted inner)])
    | some (.table .dotted inner) =>
      (addDotted key v path inner).map (fun inner => replace k (.table .dotted inner) m)
    | some (.table .nested inner) =>
      if path.isEmpty then none
      else (addDotted key v path inner).map (fun inner => replace k (.table .nested inner) m)
    | some (.tables earlier last) =>
      if path.isEmpty then none
      else (addDotted key v path last).map (fun last => replace k (.tables earlier last) m)
    | some (.table .header _) | some (.value _) => none

/-- Members with a change in the table of some headers. Tables that are missing on the way are
made. -/
def changeWithin (change : Members → Option Members) : List String → Members → Option Members
  | [], m => change m
  | k :: path, m =>
    match lookup k m with
    | none => (changeWithin change path []).map (fun inner => m ++ [(k, .table .nested inner)])
    | some (.table origin inner) =>
      (changeWithin change path inner).map (fun inner => replace k (.table origin inner) m)
    | some (.tables earlier last) =>
      (changeWithin change path last).map (fun last => replace k (.tables earlier last) m)
    | some (.value _) => none

/-- Members with a table that has a header. -/
def openTable (key : String) (m : Members) : Option Members :=
  match lookup key m with
  | none => some (m ++ [(key, .table .header [])])
  | some (.table .nested inner) => some (replace key (.table .header inner) m)
  | some _ => none

/-- Members with one more table under a header that may be repeated. -/
def openNext (key : String) (m : Members) : Option Members :=
  match lookup key m with
  | none => some (m ++ [(key, .tables [] [])])
  | some (.tables earlier last) => some (replace key (.tables (earlier ++ [last]) []) m)
  | some _ => none

theorem lookup_append_of_none {key : String} {m : Members} (h : lookup key m = none)
    (rest : Members) : lookup key (m ++ rest) = lookup key rest := by
  induction m with
  | nil => rfl
  | cons e m ih =>
    simp only [lookup] at h
    split at h
    · cases h
    · next hne => simp only [List.cons_append, lookup, if_neg hne, ih h]

/-- A member that was added is found. -/
theorem lookup_addMember {key : String} {v : Json} {m m' : Members}
    (h : addMember key v m = some m') : lookup key m' = some (.value v) := by
  simp only [addMember] at h
  split at h
  · next hnone =>
    cases h
    rw [lookup_append_of_none hnone]
    simp [lookup]
  · cases h

end Members

mutual

/-- The value that a member is. -/
def Item.toJson : Item → Json
  | .value v => v
  | .table _ members => .obj (membersToJson members)
  | .tables earlier last => .arr (tablesToJson earlier ++ [.obj (membersToJson last)])

/-- The values that members are. -/
def membersToJson : List (String × Item) → List (String × Json)
  | [] => []
  | (key, item) :: rest => (key, item.toJson) :: membersToJson rest

/-- The values that tables are. -/
def tablesToJson : List (List (String × Item)) → List Json
  | [] => []
  | members :: rest => .obj (membersToJson members) :: tablesToJson rest

end

end CodeAtlas.Toml
