import CodeAtlas.Store.Chunks
import Mathlib.Data.List.Basic

/-!
# Handles that start later

A store that has issued handles before and holds nothing any more differs from a new one in the
numbers that it gives out next. What is said here of tables and indices is the same for both, but
for handles that are shifted by what was issued before.

Main results:

- Theorem `Entries.alter_map`: renaming keys and values goes along with every change of a table.
- Theorems `Table.Renames.get?` and `Table.Renames.alter`: looking up and changing a renamed table.
- Theorems `Index.Shifts.find`, `Index.Shifts.add` and `Index.Shifts.remove`: the same for indices.
-/

namespace CodeAtlas

/-! ## Renamed tables -/

section Renames

variable {κ κ' α β : Type} [DecidableEq κ] [DecidableEq κ'] {f : κ → κ'} {h : α → β}

/-- What is found under a renamed key is the renamed value. -/
theorem Entries.find_map (hf : Function.Injective f) (k : κ) (l : List (κ × α)) :
    find (f k) (l.map (Prod.map f h)) = (find k l).map h := by
  induction l with
  | nil => rfl
  | cons e rest ih =>
    obtain ⟨k', v⟩ := e
    by_cases hk : k' = k
    · simp [find, hk]
    · have hne : f k' ≠ f k := fun heq => hk (hf heq)
      simp only [List.map_cons, Prod.map_apply, find, if_neg hk, if_neg hne, ih]

/-- A change that goes along with renaming gives the renamed entries. -/
theorem Entries.alter_map (hf : Function.Injective f) {g : Option α → Option α}
    {g' : Option β → Option β} (hg : ∀ v, g' (v.map h) = (g v).map h) (k : κ)
    (l : List (κ × α)) :
    alter (f k) g' (l.map (Prod.map f h)) = (alter k g l).map (Prod.map f h) := by
  induction l with
  | nil =>
    have hnone := hg none
    simp only [Option.map_none] at hnone
    simp only [List.map_nil, alter, hnone]
    cases g none <;> rfl
  | cons e rest ih =>
    obtain ⟨k', v⟩ := e
    have hsome := hg (some v)
    simp only [Option.map_some] at hsome
    by_cases hk : k' = k
    · simp only [List.map_cons, Prod.map_apply, alter, hk, if_true, hsome]
      cases g (some v) <;> rfl
    · have hne : f k' ≠ f k := fun heq => hk (hf heq)
      simp only [List.map_cons, Prod.map_apply, alter, if_neg hk, if_neg hne, ih]

namespace Table

/-- A table with the keys and the values of another one under new names. -/
def Renames (f : κ → κ') (h : α → β) (t : Table κ α) (u : Table κ' β) : Prop :=
  u.entries = t.entries.map (Prod.map f h)

variable {t : Table κ α} {u : Table κ' β}

/-- What is found under a renamed key is the renamed value. -/
theorem Renames.get? (ht : Renames f h t u) (hf : Function.Injective f) (k : κ) :
    u.get? (f k) = (t.get? k).map h := by
  rw [Table.get?, ht, Entries.find_map hf, Table.get?]

omit [DecidableEq κ] in
/-- Nothing is found under a key that is no new name. -/
theorem Renames.get?_eq_none (ht : Renames f h t u) {k : κ'} (hk : ∀ k', f k' ≠ k) :
    u.get? k = none := by
  rw [Table.get?_eq_none_iff, Table.keys, ht, List.map_map]
  intro hmem
  obtain ⟨e, -, he⟩ := List.mem_map.1 hmem
  exact hk e.1 he

/-- A change that goes along with renaming gives the renamed table. -/
theorem Renames.alter (ht : Renames f h t u) (hf : Function.Injective f) {g : Option α → Option α}
    {g' : Option β → Option β} (hg : ∀ v, g' (v.map h) = (g v).map h) (k : κ) :
    Renames f h (t.alter k g) (u.alter (f k) g') :=
  (congrArg (Entries.alter (f k) g') ht).trans (Entries.alter_map hf hg k t.entries)

theorem Renames.insert (ht : Renames f h t u) (hf : Function.Injective f) (k : κ) (v : α) :
    Renames f h (t.insert k v) (u.insert (f k) (h v)) :=
  ht.alter hf (fun _ => rfl) k

omit [DecidableEq κ] [DecidableEq κ'] in
theorem Renames.values (ht : Renames f h t u) : u.values = t.values.map h := by
  simp [Table.values, show u.entries = t.entries.map (Prod.map f h) from ht]

omit [DecidableEq κ] [DecidableEq κ'] in
theorem Renames.size (ht : Renames f h t u) : u.size = t.size := by
  rw [Table.size, ht, List.length_map, Table.size]

omit [DecidableEq κ] [DecidableEq κ'] in
theorem Renames.isEmpty (ht : Renames f h t u) : u.isEmpty = t.isEmpty := by
  rw [Table.isEmpty, ht, List.isEmpty_map, Table.isEmpty]

end Table

end Renames

namespace Store

/-! ## Shifted handles -/

variable {kind : EntityKind}

/-- The handle that comes a number of handles later. -/
def Handle.shift (n : Nat) (i : Handle kind) : Handle kind := ⟨n + i.number⟩

theorem Handle.shift_injective (n : Nat) : Function.Injective (Handle.shift n : Handle kind → _) := by
  rintro ⟨i⟩ ⟨j⟩ hij
  have hsum : n + i = n + j := congrArg Handle.number hij
  rw [Nat.add_left_cancel hsum]

/-- No handle is shifted to an earlier number. -/
theorem Handle.shift_ne_of_lt {n : Nat} {j : Handle kind} (hj : j.number < n) (i : Handle kind) :
    i.shift n ≠ j := by
  rintro rfl
  exact absurd hj (Nat.not_lt.2 (Nat.le_add_right n i.number))

/-- A shifted handle leads to what the handle led to. -/
theorem get?_shift {α : Type} {n : Nat} {t u : Table (Handle kind) α}
    (h : t.Renames (Handle.shift n) id u) (i : Handle kind) : u.get? (i.shift n) = t.get? i := by
  rw [h.get? (Handle.shift_injective n), Option.map_id_apply]

/-- Nothing is under a handle that was issued earlier. -/
theorem get?_eq_none_of_lt {α : Type} {n : Nat} {t u : Table (Handle kind) α}
    (h : t.Renames (Handle.shift n) id u) {i : Handle kind} (hi : i.number < n) :
    u.get? i = none :=
  h.get?_eq_none (Handle.shift_ne_of_lt hi)

/-- Under shifted handles stand the same values. -/
theorem values_shift {α : Type} {n : Nat} {t u : Table (Handle kind) α}
    (h : t.Renames (Handle.shift n) id u) : u.values = t.values :=
  h.values.trans (List.map_id _)

/-- What shifted handles lead to is what the handles led to. -/
theorem filterMap_shift {α : Type} {n : Nat} {get get' : Handle kind → Option α}
    (hget : ∀ i, get' (i.shift n) = get i) (ids : List (Handle kind)) :
    (ids.map (Handle.shift n)).filterMap get' = ids.filterMap get := by
  rw [List.filterMap_map]
  exact List.filterMap_congr (fun i _ => hget i)

namespace Index

variable {κ : Type} [DecidableEq κ]

/-- An index with shifted handles. -/
def Shifts (n : Nat) (i j : Index κ (Handle kind)) : Prop :=
  Table.Renames id (List.map (Handle.shift n)) i.buckets j.buckets

variable {n : Nat} {i j : Index κ (Handle kind)}

/-- The handles of an attribute are shifted. -/
theorem Shifts.find (h : Shifts n i j) (key : κ) :
    j.find key = (i.find key).map (Handle.shift n) := by
  have hget := Table.Renames.get? h Function.injective_id key
  rw [id_eq] at hget
  rw [Index.find, Index.find, hget]
  cases i.buckets.get? key <;> rfl

/-- The handles of an attribute lead to what they led to before they were shifted. -/
theorem Shifts.filterMap_find (h : Shifts n i j) {α : Type} {get get' : Handle kind → Option α}
    (hget : ∀ a, get' (a.shift n) = get a) (key : κ) :
    (j.find key).filterMap get' = (i.find key).filterMap get := by
  rw [h.find, filterMap_shift hget]

/-- One more handle is shifted too. -/
theorem Shifts.add (h : Shifts n i j) (key : κ) (a : Handle kind) :
    Shifts n (i.add key a) (j.add key (a.shift n)) := by
  refine Table.Renames.alter h Function.injective_id (fun ids => ?_) key
  cases ids <;> simp

theorem Shifts.addOptional (h : Shifts n i j) (key : Option κ) (a : Handle kind) :
    Shifts n (i.addOptional key a) (j.addOptional key (a.shift n)) := by
  cases key with
  | none => exact h
  | some k => exact h.add k a

/-- Removing a handle and shifting the others go along. -/
theorem nonempty_shift (n : Nat) (ids : List (Handle kind)) (a : Handle kind) :
    nonempty ((ids.map (Handle.shift n)).filter (· ≠ a.shift n)) =
      (nonempty (ids.filter (· ≠ a))).map (List.map (Handle.shift n)) := by
  have hfilter : (ids.map (Handle.shift n)).filter (· ≠ a.shift n) =
      (ids.filter (· ≠ a)).map (Handle.shift n) := by
    rw [List.filter_map]
    refine congrArg _ (List.filter_congr (fun b _ => decide_eq_decide.2 (not_congr ?_)))
    exact (Handle.shift_injective n).eq_iff
  rw [hfilter, nonempty, nonempty, List.isEmpty_map]
  split <;> rfl

/-- Without a handle the others are shifted. -/
theorem Shifts.remove (h : Shifts n i j) (key : κ) (a : Handle kind) :
    Shifts n (i.remove key a) (j.remove key (a.shift n)) := by
  refine Table.Renames.alter h Function.injective_id (fun ids => ?_) key
  cases ids with
  | none => rfl
  | some ids => exact nonempty_shift n ids a

omit [DecidableEq κ] in
/-- Each attribute has as many handles as before. -/
theorem Shifts.sizes (h : Shifts n i j) (name : κ → String) : j.sizes name = i.sizes name := by
  rw [Index.sizes, h, List.map_map, Index.sizes]
  exact List.map_congr_left (fun e _ => by simp)

end Index

end Store

end CodeAtlas
