/-!
# Ordered tables

A table maps keys to values and remembers the order in which its keys were first added.
Every change goes through one operation, `Table.alter`, which recomputes the value under
one key; what it does to look-ups and to the list of keys is said by a few lemmas, and the
other operations are instances of it.

Main statements:

* `Table.get?_alter`: only the value under the altered key changes;
* `Table.keys_alter_of_isSome`: altering a present key keeps the order of the keys;
* `Table.keys_alter_of_new`: a new key goes to the end;
* `Table.keys_alter_of_removed`: removing a key keeps the order of the others;
* `Table.entries_insert_of_new`, `Table.entries_insert_of_present` and `Table.entries_erase`: the
  entries after a new key, after another value under a present key, and without a key;
* `Table.values_insert_of_new` and `Table.values_perm_erase`: the values after a new key and
  without a key;
* `Table.Places.push` and `Table.Places.pop`: the places in an array after a new value and without
  the last one.
-/

namespace CodeAtlas

variable {κ α : Type} [DecidableEq κ]

namespace Entries

/-- The value stored under `k`. -/
def find (k : κ) : List (κ × α) → Option α
  | [] => none
  | (k', v) :: rest => if k' = k then some v else find k rest

/-- The entries after the value under `k` is recomputed by `f`; a new key goes to the end. -/
def alter (k : κ) (f : Option α → Option α) : List (κ × α) → List (κ × α)
  | [] =>
    match f none with
    | none => []
    | some w => [(k, w)]
  | (k', v) :: rest =>
    if k' = k then
      match f (some v) with
      | none => rest
      | some w => (k', w) :: rest
    else (k', v) :: alter k f rest

theorem mem_keys_alter {k x : κ} {f : Option α → Option α} {l : List (κ × α)}
    (h : x ∈ (alter k f l).map Prod.fst) : x = k ∨ x ∈ l.map Prod.fst := by
  induction l with
  | nil =>
    simp only [alter] at h
    split at h <;> simp_all
  | cons e rest ih =>
    obtain ⟨k', v⟩ := e
    simp only [alter] at h
    split at h
    · split at h
      · exact Or.inr (by simp [h])
      · simp at h
        rcases h with h | h
        · exact Or.inr (by simp [h])
        · exact Or.inr (by simp [h])
    · simp only [List.map_cons, List.mem_cons] at h ⊢
      rcases h with h | h
      · exact Or.inr (Or.inl h)
      · rcases ih h with h | h
        · exact Or.inl h
        · exact Or.inr (Or.inr h)

theorem nodup_alter {k : κ} {f : Option α → Option α} {l : List (κ × α)}
    (h : (l.map Prod.fst).Nodup) : ((alter k f l).map Prod.fst).Nodup := by
  induction l with
  | nil =>
    simp only [alter]
    split <;> simp
  | cons e rest ih =>
    obtain ⟨k', v⟩ := e
    simp only [List.map_cons, List.nodup_cons] at h
    simp only [alter]
    split
    · split
      · exact h.2
      · simpa using h
    · next hne =>
      simp only [List.map_cons, List.nodup_cons]
      refine ⟨fun hmem => ?_, ih h.2⟩
      rcases mem_keys_alter hmem with hk | hk
      · exact hne hk
      · exact h.1 hk

theorem find_eq_none_iff {k : κ} {l : List (κ × α)} :
    find k l = none ↔ k ∉ l.map Prod.fst := by
  induction l with
  | nil => simp [find]
  | cons e rest ih =>
    obtain ⟨k', v⟩ := e
    by_cases hk : k' = k
    · simp [find, hk]
    · have hk' : k ≠ k' := fun h => hk h.symm
      simp only [find, if_neg hk, List.map_cons, List.mem_cons, not_or]
      exact ih.trans ⟨fun h => ⟨hk', h⟩, fun h => h.2⟩

/-- With different keys, an entry is what is found under its key. -/
theorem mem_iff_find {k : κ} {v : α} {l : List (κ × α)} (h : (l.map Prod.fst).Nodup) :
    (k, v) ∈ l ↔ find k l = some v := by
  induction l with
  | nil => simp [find]
  | cons e rest ih =>
    obtain ⟨x, u⟩ := e
    simp only [List.map_cons, List.nodup_cons] at h
    by_cases hx : x = k
    · subst hx
      have hrest : (x, v) ∉ rest := fun hmem => h.1 (List.mem_map.2 ⟨(x, v), hmem, rfl⟩)
      simp [find, hrest, eq_comm]
    · have hx' : k ≠ x := fun heq => hx heq.symm
      simp [find, hx, hx', ih h.2]

/-- Taking out the value under a key leaves the other entries. -/
theorem perm_alter_none {k : κ} {v : α} {l : List (κ × α)} (h : find k l = some v) :
    l.Perm ((k, v) :: alter k (fun _ => none) l) := by
  induction l with
  | nil => simp [find] at h
  | cons e rest ih =>
    obtain ⟨x, u⟩ := e
    by_cases hx : x = k
    · simp only [find, if_pos hx, Option.some.injEq] at h
      subst hx h
      simp [alter]
    · simp only [find, if_neg hx] at h
      simp only [alter, if_neg hx]
      exact ((ih h).cons (x, u)).trans (List.Perm.swap _ _ _)

/-- A new key goes behind all others. -/
theorem alter_of_new {k : κ} {v : α} {l : List (κ × α)} (h : find k l = none) :
    alter k (fun _ => some v) l = l ++ [(k, v)] := by
  induction l with
  | nil => simp [alter]
  | cons e rest ih =>
    obtain ⟨x, u⟩ := e
    by_cases hx : x = k
    · simp [find, hx] at h
    · simp only [find, if_neg hx] at h
      simp [alter, hx, ih h]

/-- Another value under a present key changes the entry of that key only. -/
theorem alter_of_present {k : κ} {u v : α} {l : List (κ × α)} (hl : (l.map Prod.fst).Nodup)
    (h : find k l = some u) :
    alter k (fun _ => some v) l = l.map (fun e => if e.1 = k then (k, v) else e) := by
  induction l with
  | nil => simp [find] at h
  | cons e rest ih =>
    obtain ⟨x, w⟩ := e
    simp only [List.map_cons, List.nodup_cons] at hl
    by_cases hx : x = k
    · subst hx
      have hrest : rest.map (fun e => if e.1 = x then (x, v) else e) = rest := by
        refine (List.map_congr_left (fun e he => if_neg (fun heq => hl.1 ?_))).trans
          (List.map_id rest)
        exact heq ▸ List.mem_map_of_mem he
      simp [alter, hrest]
    · simp only [find, if_neg hx] at h
      simp [alter, hx, ih hl.2 h]

/-- Without a key the other entries stay as they are. -/
theorem alter_none_eq_filter {k : κ} {l : List (κ × α)} (hl : (l.map Prod.fst).Nodup) :
    alter k (fun _ => none) l = l.filter (fun e => e.1 ≠ k) := by
  induction l with
  | nil => rfl
  | cons e rest ih =>
    obtain ⟨x, w⟩ := e
    simp only [List.map_cons, List.nodup_cons] at hl
    by_cases hx : x = k
    · subst hx
      have hrest : rest.filter (fun e => decide (e.1 ≠ x)) = rest := by
        refine List.filter_eq_self.2 (fun e he => decide_eq_true (fun heq => hl.1 ?_))
        exact heq ▸ List.mem_map_of_mem he
      rw [List.filter_cons_of_neg (by simp), hrest]
      simp [alter]
    · simp [alter, hx, ih hl.2]

theorem find_alter {k k' : κ} {f : Option α → Option α} {l : List (κ × α)}
    (h : (l.map Prod.fst).Nodup) :
    find k' (alter k f l) = if k' = k then f (find k l) else find k' l := by
  induction l with
  | nil =>
    simp only [alter, find]
    cases hf : f none with
    | none => simp [find]
    | some w =>
      by_cases hk : k' = k
      · simp [find, hk]
      · have : k ≠ k' := fun h => hk h.symm
        simp [find, hk, this]
  | cons e rest ih =>
    obtain ⟨x, v⟩ := e
    simp only [List.map_cons, List.nodup_cons] at h
    have ih := ih h.2
    by_cases hx : x = k
    · subst hx
      simp only [alter, if_pos, find]
      cases hf : f (some v) with
      | none =>
        by_cases hk : k' = x
        · subst hk
          simpa using find_eq_none_iff.2 h.1
        · have : x ≠ k' := fun h => hk h.symm
          simp [hk, this]
      | some w =>
        by_cases hk : k' = x
        · simp [find, hk]
        · have : x ≠ k' := fun h => hk h.symm
          simp [find, hk, this]
    · simp only [alter, if_neg hx, find]
      by_cases hk : x = k'
      · subst hk
        simp [hx]
      · simp [hk, ih]

end Entries

/-- Entries with pairwise different keys, in the order in which the keys were first added. -/
structure Table (κ α : Type) where
  /-- The entries in order. -/
  entries : List (κ × α)
  /-- No key occurs twice. -/
  nodup_keys : (entries.map Prod.fst).Nodup

namespace Table

/-- The table without entries. -/
def empty : Table κ α := ⟨[], by simp⟩

instance : EmptyCollection (Table κ α) := ⟨empty⟩

instance : Inhabited (Table κ α) := ⟨empty⟩

/-- Two tables with the same entries are equal. -/
@[ext]
theorem ext {κ α : Type} {s t : Table κ α} (h : s.entries = t.entries) : s = t := by
  cases s
  cases t
  simp_all

instance [DecidableEq α] : DecidableEq (Table κ α) := fun s t =>
  if h : s.entries = t.entries then isTrue (ext h) else isFalse (fun e => h (e ▸ rfl))

/-- The keys in the order in which they were first added. -/
def keys (t : Table κ α) : List κ := t.entries.map Prod.fst

/-- The values in the order of their keys. -/
def values (t : Table κ α) : List α := t.entries.map Prod.snd

/-- The number of entries. -/
def size (t : Table κ α) : Nat := t.entries.length

/-- Whether the table has no entries. -/
def isEmpty (t : Table κ α) : Bool := t.entries.isEmpty

/-- The value stored under `k`. -/
def get? (t : Table κ α) (k : κ) : Option α := Entries.find k t.entries

/-- Whether a value is stored under `k`. -/
def contains (t : Table κ α) (k : κ) : Bool := (t.get? k).isSome

/-- Recomputes the value under `k`: `f` gets the old value and gives the new one, where `none`
stands for no entry. A new key goes to the end; a removed one leaves the others in order. -/
def alter (t : Table κ α) (k : κ) (f : Option α → Option α) : Table κ α :=
  ⟨Entries.alter k f t.entries, Entries.nodup_alter t.nodup_keys⟩

/-- Stores `v` under `k`; a key that is already present keeps its place. -/
def insert (t : Table κ α) (k : κ) (v : α) : Table κ α := t.alter k (fun _ => some v)

/-- Removes the entry of `k`, if there is one. -/
def erase (t : Table κ α) (k : κ) : Table κ α := t.alter k (fun _ => none)

/-- The table with the entries of a list; a later entry replaces the value of an earlier one
with the same key. -/
def ofList (l : List (κ × α)) : Table κ α :=
  l.foldl (fun t e => t.insert e.1 e.2) empty

@[simp]
theorem get?_empty (k : κ) : (empty : Table κ α).get? k = none :=
  rfl

@[simp]
theorem get?_emptyCollection (k : κ) : (∅ : Table κ α).get? k = none :=
  rfl

/-- Altering one key changes the value under that key only. -/
theorem get?_alter (t : Table κ α) (k k' : κ) (f : Option α → Option α) :
    (t.alter k f).get? k' = if k' = k then f (t.get? k) else t.get? k' :=
  Entries.find_alter t.nodup_keys

@[simp]
theorem get?_alter_self (t : Table κ α) (k : κ) (f : Option α → Option α) :
    (t.alter k f).get? k = f (t.get? k) := by
  simp [get?_alter]

theorem get?_alter_of_ne (t : Table κ α) {k k' : κ} (f : Option α → Option α) (h : k' ≠ k) :
    (t.alter k f).get? k' = t.get? k' := by
  simp [get?_alter, h]

@[simp]
theorem get?_insert_self (t : Table κ α) (k : κ) (v : α) : (t.insert k v).get? k = some v := by
  simp [insert]

theorem get?_insert_of_ne (t : Table κ α) {k k' : κ} (v : α) (h : k' ≠ k) :
    (t.insert k v).get? k' = t.get? k' := by
  simp [insert, get?_alter, h]

@[simp]
theorem get?_erase_self (t : Table κ α) (k : κ) : (t.erase k).get? k = none := by
  simp [erase]

theorem get?_erase_of_ne (t : Table κ α) {k k' : κ} (h : k' ≠ k) :
    (t.erase k).get? k' = t.get? k' := by
  simp [erase, get?_alter, h]

/-- An entry is what is stored under its key. -/
theorem mem_entries_iff (t : Table κ α) {k : κ} {v : α} : (k, v) ∈ t.entries ↔ t.get? k = some v :=
  Entries.mem_iff_find t.nodup_keys

/-- A key is what has a value. -/
theorem mem_keys_iff (t : Table κ α) {k : κ} : k ∈ t.keys ↔ ∃ v, t.get? k = some v := by
  simp only [keys, List.mem_map, ← mem_entries_iff]
  constructor
  · rintro ⟨e, he, rfl⟩
    exact ⟨e.2, he⟩
  · rintro ⟨v, hv⟩
    exact ⟨(k, v), hv, rfl⟩

/-- A new entry goes behind all others. -/
theorem entries_insert_of_new (t : Table κ α) {k : κ} (v : α) (h : t.get? k = none) :
    (t.insert k v).entries = t.entries ++ [(k, v)] :=
  Entries.alter_of_new h

/-- Another value under a present key changes the entry of that key only. -/
theorem entries_insert_of_present (t : Table κ α) {k : κ} {u : α} (v : α) (h : t.get? k = some u) :
    (t.insert k v).entries = t.entries.map (fun e => if e.1 = k then (k, v) else e) :=
  Entries.alter_of_present t.nodup_keys h

/-- Without a key the other entries stay as they are. -/
theorem entries_erase (t : Table κ α) (k : κ) :
    (t.erase k).entries = t.entries.filter (fun e => e.1 ≠ k) :=
  Entries.alter_none_eq_filter t.nodup_keys

/-- The value of a new key goes behind all others. -/
theorem values_insert_of_new (t : Table κ α) {k : κ} (v : α) (h : t.get? k = none) :
    (t.insert k v).values = t.values ++ [v] := by
  simp [values, insert, alter, Entries.alter_of_new h]

/-- Without a key only its value is missing. -/
theorem values_perm_erase (t : Table κ α) {k : κ} {v : α} (h : t.get? k = some v) :
    t.values.Perm (v :: (t.erase k).values) := by
  have hperm := (Entries.perm_alter_none h).map Prod.snd
  simpa [values, erase, alter] using hperm

theorem get?_eq_none_iff (t : Table κ α) (k : κ) : t.get? k = none ↔ k ∉ t.keys :=
  Entries.find_eq_none_iff

/-- A new entry that is removed again leaves no trace. -/
theorem erase_insert_of_new (t : Table κ α) {k : κ} (v : α) (h : t.get? k = none) :
    (t.insert k v).erase k = t := by
  have hkeys : ∀ e ∈ t.entries, e.1 ≠ k := by
    rintro e he rfl
    exact (t.get?_eq_none_iff e.1).1 h (List.mem_map_of_mem he)
  refine ext ?_
  rw [entries_erase, entries_insert_of_new t v h, List.filter_append,
    List.filter_eq_self.2 (fun e he => decide_eq_true (hkeys e he)),
    List.filter_cons_of_neg (by simp), List.filter_nil, List.append_nil]

/-- A key that keeps a value keeps its place, and so do all others. -/
theorem keys_alter_of_isSome (t : Table κ α) {k : κ} {f : Option α → Option α} {v : α}
    (h : t.get? k = some v) (hf : (f (some v)).isSome) : (t.alter k f).keys = t.keys := by
  obtain ⟨l, hl⟩ := t
  simp only [keys, alter, get?] at *
  induction l with
  | nil => simp [Entries.find] at h
  | cons e rest ih =>
    obtain ⟨x, u⟩ := e
    by_cases hx : x = k
    · simp only [Entries.find, if_pos hx, Option.some.injEq] at h
      subst h
      obtain ⟨w, hw⟩ := Option.isSome_iff_exists.1 hf
      simp [Entries.alter, hx, hw]
    · simp only [Entries.find, if_neg hx] at h
      simp only [List.map_cons, List.nodup_cons] at hl
      simp [Entries.alter, hx, ih hl.2 h]

/-- A new key goes behind all others. -/
theorem keys_alter_of_new (t : Table κ α) {k : κ} {f : Option α → Option α}
    (h : t.get? k = none) (hf : (f none).isSome) : (t.alter k f).keys = t.keys ++ [k] := by
  obtain ⟨l, hl⟩ := t
  simp only [keys, alter, get?] at *
  induction l with
  | nil =>
    obtain ⟨w, hw⟩ := Option.isSome_iff_exists.1 hf
    simp [Entries.alter, hw]
  | cons e rest ih =>
    obtain ⟨x, u⟩ := e
    by_cases hx : x = k
    · simp [Entries.find, hx] at h
    · simp only [Entries.find, if_neg hx] at h
      simp only [List.map_cons, List.nodup_cons] at hl
      simp [Entries.alter, hx, ih hl.2 h]

/-- A removed key leaves the order of the others as it was. -/
theorem keys_alter_of_removed (t : Table κ α) {k : κ} {f : Option α → Option α}
    (hf : f (t.get? k) = none) : (t.alter k f).keys = t.keys.filter (· ≠ k) := by
  obtain ⟨l, hl⟩ := t
  simp only [keys, alter, get?] at *
  induction l with
  | nil =>
    simp only [Entries.find] at hf
    simp [Entries.alter, hf]
  | cons e rest ih =>
    obtain ⟨x, u⟩ := e
    simp only [List.map_cons, List.nodup_cons] at hl
    by_cases hx : x = k
    · subst hx
      simp only [Entries.find, if_pos] at hf
      have : (rest.map Prod.fst).filter (fun y => decide (y ≠ x)) = rest.map Prod.fst := by
        apply List.filter_eq_self.2
        intro y hy
        have : y ≠ x := fun e => hl.1 (e ▸ hy)
        simp [this]
      simp only [Entries.alter, if_pos, hf, List.map_cons, List.filter_cons]
      simpa using this.symm
    · simp only [Entries.find, if_neg hx] at hf
      simp [Entries.alter, hx, ih hl.2 hf]

/-! ## Tables of places -/

/-- The table holds the place of each value of an array, and nothing else. -/
def Places (t : Table κ Nat) (xs : Array κ) : Prop :=
  ∀ k i, t.get? k = some i ↔ xs[i]? = some k

variable {t : Table κ Nat} {xs : Array κ} {k : κ}

theorem places_empty : (∅ : Table κ Nat).Places #[] := by
  intro k i
  simp

/-- What is in the array is at some place, and nothing else is. -/
theorem Places.get?_eq_none_iff (h : t.Places xs) : t.get? k = none ↔ k ∉ xs := by
  rw [Array.mem_iff_getElem?, not_exists, Option.eq_none_iff_forall_ne_some]
  exact forall_congr' (fun i => not_congr (h k i))

/-- No value is at two places. -/
theorem Places.unique (h : t.Places xs) {i j : Nat} (hi : xs[i]? = some k)
    (hj : xs[j]? = some k) : i = j := by
  have hi := (h k i).2 hi
  have hj := (h k j).2 hj
  exact Option.some.inj (hi.symm.trans hj)

/-- A new value at the end of the array has its own place. -/
theorem Places.push (h : t.Places xs) (hk : k ∉ xs) :
    (t.insert k xs.size).Places (xs.push k) := by
  intro a i
  rw [Array.getElem?_push]
  by_cases ha : a = k
  · subst ha
    rw [get?_insert_self]
    split
    · next hi => simp [hi]
    · next hi =>
      constructor
      · intro heq
        exact absurd (Option.some.inj heq).symm hi
      · intro heq
        exact absurd (Array.mem_of_getElem? heq) hk
  · rw [get?_insert_of_ne _ _ ha, h a i]
    split
    · next hi =>
      subst hi
      simp only [Array.getElem?_eq_none (Nat.le_refl _), Option.some.injEq, reduceCtorEq,
        false_iff]
      exact fun heq => ha heq.symm
    · exact Iff.rfl

/-- Without the value at its end the array has no place for it. -/
theorem Places.pop (h : t.Places (xs.push k)) (hk : k ∉ xs) : (t.erase k).Places xs := by
  intro a i
  have hplace := h a i
  rw [Array.getElem?_push] at hplace
  by_cases ha : a = k
  · subst ha
    rw [get?_erase_self]
    constructor
    · intro hnone
      contradiction
    · intro hi
      exact absurd (Array.mem_of_getElem? hi) hk
  · rw [get?_erase_of_ne _ ha, hplace]
    split
    · next hi =>
      subst hi
      constructor
      · intro heq
        exact absurd (Option.some.inj heq).symm ha
      · intro hi
        simp at hi
    · exact Iff.rfl

end Table

end CodeAtlas
