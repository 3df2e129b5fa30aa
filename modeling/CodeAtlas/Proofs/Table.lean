import CodeAtlas.Table
import Mathlib.Data.Finset.Card
import Mathlib.Data.List.Induction

/-!
# Changes of a table one after the other

Two changes of one key are one change, unless the second adds a key that the first took away. So a
change that gives back what was there leaves no trace, not even in the order of the keys. Changes of
different keys can be made in either order as long as neither of them adds a key.

Main results:

- Theorem `Table.alter_alter_self`: two changes of one key are one.
- Theorem `Table.alter_eq_self`: a change that gives back the same value is none.
- Theorem `Table.alter_comm`: changes of different keys commute if neither adds a key.
- Theorem `Table.keys_alter_sublist`: a change that adds no key keeps the order of the keys.
- Theorem `concat_eq_append_cons_iff`: where things stand in a list with one more element.
- Theorem `isLast_concat`: what comes last after one more element of a list.
- Theorem `Table.get?_ofList_eq_some_iff`: a table made of a list has the last value of each key.
- Theorem `Table.keys_ofList`: its keys are in the order in which they came first.
- Theorem `Table.size_ofList`: it has as many entries as there are different keys.
-/

namespace CodeAtlas

variable {κ α : Type} [DecidableEq κ]

namespace Entries

variable {k k' : κ} {f g : Option α → Option α} {l : List (κ × α)}

/-- A change that gives back the value that is there is none. -/
theorem alter_eq_self (h : f (find k l) = find k l) : alter k f l = l := by
  induction l with
  | nil =>
    simp only [find] at h
    simp [alter, h]
  | cons e rest ih =>
    obtain ⟨x, v⟩ := e
    by_cases hx : x = k
    · simp only [find, if_pos hx] at h
      simp [alter, hx, h]
    · simp only [find, if_neg hx] at h
      simp [alter, hx, ih h]

/-- Only what is made of the value that is there matters. -/
theorem alter_congr (h : f (find k l) = g (find k l)) : alter k f l = alter k g l := by
  induction l with
  | nil =>
    simp only [find] at h
    simp [alter, h]
  | cons e rest ih =>
    obtain ⟨x, v⟩ := e
    by_cases hx : x = k
    · simp only [find, if_pos hx] at h
      simp [alter, hx, h]
    · simp only [find, if_neg hx] at h
      simp [alter, hx, ih h]

/-- Two changes of one key are one, if the second adds no key. -/
theorem alter_alter_self (hl : (l.map Prod.fst).Nodup) (hg : g none = none) :
    alter k g (alter k f l) = alter k (fun o => g (f o)) l := by
  induction l with
  | nil =>
    simp only [alter]
    cases hf : f none with
    | none => simp [alter, hg]
    | some w => simp [alter]
  | cons e rest ih =>
    obtain ⟨x, v⟩ := e
    simp only [List.map_cons, List.nodup_cons] at hl
    by_cases hx : x = k
    · subst hx
      have hrest : alter x g rest = rest :=
        alter_eq_self (by rw [find_eq_none_iff.2 hl.1, hg])
      cases hf : f (some v) with
      | none => simp [alter, hf, hg, hrest]
      | some w => simp [alter, hf]
    · simp [alter, hx, ih hl.2]

/-- Changes of different keys commute if neither adds a key. -/
theorem alter_comm (hk : k ≠ k') (hf : f none = none) (hg : g none = none) :
    alter k' g (alter k f l) = alter k f (alter k' g l) := by
  induction l with
  | nil => simp [alter, hf, hg]
  | cons e rest ih =>
    obtain ⟨x, v⟩ := e
    by_cases hx : x = k
    · subst hx
      cases hv : f (some v) with
      | none => simp [alter, hv, hk]
      | some w => simp [alter, hv, hk]
    · by_cases hx' : x = k'
      · subst hx'
        cases hv : g (some v) with
        | none => simp [alter, hv, hx]
        | some w => simp [alter, hv, hx]
      · simp [alter, hx, hx', ih]

end Entries

namespace Table

variable {t : Table κ α} {k k' : κ} {f g : Option α → Option α}

/-- A change that gives back the value that is there is none. -/
theorem alter_eq_self (h : f (t.get? k) = t.get? k) : t.alter k f = t :=
  ext (Entries.alter_eq_self h)

/-- Only what is made of the value that is there matters. -/
theorem alter_congr (h : f (t.get? k) = g (t.get? k)) : t.alter k f = t.alter k g :=
  ext (Entries.alter_congr h)

/-- Two changes of one key are one, if the second adds no key. -/
theorem alter_alter_self (hg : g none = none) :
    (t.alter k f).alter k g = t.alter k (fun o => g (f o)) :=
  ext (Entries.alter_alter_self t.nodup_keys hg)

/-- Changes of different keys commute if neither adds a key. -/
theorem alter_comm (hk : k ≠ k') (hf : f none = none) (hg : g none = none) :
    (t.alter k f).alter k' g = (t.alter k' g).alter k f :=
  ext (Entries.alter_comm hk hf hg)

/-- A change that adds no key keeps the order of the keys. -/
theorem keys_alter_sublist (hf : f none = none) : (t.alter k f).keys.Sublist t.keys := by
  cases hget : t.get? k with
  | none =>
    have hsame : t.alter k f = t := alter_eq_self (by rw [hget, hf])
    exact hsame.symm ▸ List.Sublist.refl _
  | some v =>
    cases hv : f (some v) with
    | none =>
      rw [t.keys_alter_of_removed (by rw [hget, hv])]
      exact List.filter_sublist
    | some w =>
      have hkeys : (t.alter k f).keys = t.keys := t.keys_alter_of_isSome hget (by rw [hv]; rfl)
      exact hkeys.symm ▸ List.Sublist.refl _

/-- Two removals can be made in either order. -/
theorem erase_comm (t : Table κ α) (k k' : κ) : (t.erase k).erase k' = (t.erase k').erase k := by
  by_cases hk : k = k'
  · rw [hk]
  · exact alter_comm hk rfl rfl

end Table

/-! ## The last of a list -/

section Last

variable {p q : α → Prop} {l : List α} {x y : α}

omit [DecidableEq κ]

/-- What stands at a place of a list with one more element at its end is that element, or stood at
this place before. -/
theorem concat_eq_append_cons_iff {front back : List α} :
    l ++ [y] = front ++ x :: back ↔
      (back = [] ∧ front = l ∧ x = y) ∨ ∃ rest, back = rest ++ [y] ∧ l = front ++ x :: rest := by
  constructor
  · intro heq
    rcases List.eq_nil_or_concat back with rfl | ⟨rest, z, rfl⟩
    · obtain ⟨rfl, hlast⟩ := List.append_inj' heq rfl
      exact Or.inl ⟨rfl, rfl, (List.cons.inj hlast).1.symm⟩
    · rw [List.concat_eq_append, ← List.cons_append, ← List.append_assoc] at heq
      obtain ⟨rfl, hlast⟩ := List.append_inj' heq rfl
      obtain rfl := (List.cons.inj hlast).1
      exact Or.inr ⟨rest, List.concat_eq_append, rfl⟩
  · rintro (⟨rfl, rfl, rfl⟩ | ⟨rest, rfl, rfl⟩)
    · rfl
    · simp

/-- Of what has a property in a list, this comes last. -/
def IsLast (p : α → Prop) (l : List α) (x : α) : Prop :=
  ∃ front back, l = front ++ x :: back ∧ p x ∧ ∀ y ∈ back, ¬p y

/-- One more element comes last if it has the property, and changes nothing otherwise. -/
theorem isLast_concat : IsLast p (l ++ [y]) x ↔ (p y ∧ x = y) ∨ (¬p y ∧ IsLast p l x) := by
  constructor
  · rintro ⟨front, back, heq, hx, hback⟩
    rcases concat_eq_append_cons_iff.1 heq with ⟨rfl, rfl, rfl⟩ | ⟨rest, rfl, rfl⟩
    · exact Or.inl ⟨hx, rfl⟩
    · exact Or.inr ⟨hback y (by simp), front, rest, rfl, hx,
        fun z hz => hback z (List.mem_append_left _ hz)⟩
  · rintro (⟨hy, rfl⟩ | ⟨hy, front, back, rfl, hx, hback⟩)
    · exact ⟨l, [], rfl, hy, fun _ h => absurd h List.not_mem_nil⟩
    · refine ⟨front, back ++ [y], by simp, hx, fun z hz => ?_⟩
      rcases List.mem_append.1 hz with hz | hz
      · exact hback z hz
      · rwa [List.mem_singleton.1 hz]

theorem not_isLast_nil : ¬IsLast p [] x := by
  rintro ⟨front, back, heq, -⟩
  simp at heq

theorem IsLast.prop (h : IsLast p l x) : p x := by
  obtain ⟨-, -, -, hx, -⟩ := h
  exact hx

theorem IsLast.mem (h : IsLast p l x) : x ∈ l := by
  obtain ⟨front, back, rfl, -⟩ := h
  exact List.mem_append_right front List.mem_cons_self

/-- Something comes last as soon as something has the property. -/
theorem exists_isLast_iff : (∃ x, IsLast p l x) ↔ ∃ x ∈ l, p x := by
  induction l using List.reverseRecOn with
  | nil => simp [not_isLast_nil]
  | append_singleton l z ih =>
    by_cases hz : p z
    · simp [isLast_concat, hz]
    · simp [isLast_concat, hz, ih, or_and_right, exists_or]

/-- What is made of elements comes last if it is made of the element that does. -/
theorem isLast_map_iff {β : Type} {p : β → Prop} {f : α → β} {y : β} :
    IsLast p (l.map f) y ↔ ∃ x, IsLast (fun x => p (f x)) l x ∧ f x = y := by
  induction l using List.reverseRecOn with
  | nil => simp [not_isLast_nil]
  | append_singleton l z ih =>
    simp only [List.map_append, List.map_singleton, isLast_concat, ih]
    by_cases hz : p (f z)
    · simp [hz, eq_comm]
    · simp [hz]

/-- What comes last of those that are picked comes last among all with both properties. -/
theorem isLast_filter_iff [DecidablePred q] :
    IsLast p (l.filter q) x ↔ IsLast (fun y => q y ∧ p y) l x := by
  induction l using List.reverseRecOn with
  | nil => simp [not_isLast_nil]
  | append_singleton l z ih =>
    by_cases hz : q z
    · simp [isLast_concat, List.filter_append, hz, ih]
    · simp [isLast_concat, List.filter_append, hz, ih]

end Last

/-! ## Different elements of a list -/

section Different

omit [DecidableEq κ]

variable [DecidableEq α] {l others : List α}

/-- One more element comes last among the different ones, unless it is there already. -/
theorem eraseDups_concat (l : List α) (x : α) :
    (l ++ [x]).eraseDups = l.eraseDups ++ if x ∈ l then [] else [x] := by
  rw [List.eraseDups_append]
  by_cases h : x ∈ l <;> simp [List.removeAll, List.eraseDups_cons, h]

/-- A list without repetitions is as long as there are different elements in any list with the same
elements. -/
theorem length_eq_card_toFinset (hnodup : l.Nodup) (hmem : ∀ a, a ∈ l ↔ a ∈ others) :
    l.length = others.toFinset.card := by
  rw [← List.toFinset.ext hmem, List.toFinset_card_of_nodup hnodup]

end Different

/-! ## Tables made of lists -/

namespace Table

variable {l : List (κ × α)} {k : κ} {v : α}

/-- One more entry is added behind the others. -/
theorem ofList_concat (l : List (κ × α)) (e : κ × α) :
    ofList (l ++ [e]) = (ofList l).insert e.1 e.2 := by
  simp [ofList]

/-- A table made of a list has the last value of each key. -/
theorem get?_ofList_eq_some_iff :
    (ofList l).get? k = some v ↔ IsLast (fun e => e.1 = k) l (k, v) := by
  induction l using List.reverseRecOn with
  | nil => simp [ofList, not_isLast_nil]
  | append_singleton l e ih =>
    obtain ⟨k', w⟩ := e
    rw [ofList_concat, isLast_concat]
    by_cases hk : k' = k
    · subst hk
      simp [eq_comm]
    · have hk' : k ≠ k' := fun heq => hk heq.symm
      simp [get?_insert_of_ne _ _ hk', ih, hk]

/-- A key of no entry has no value. -/
theorem get?_ofList_eq_none_iff : (ofList l).get? k = none ↔ ∀ e ∈ l, e.1 ≠ k := by
  rw [Option.eq_none_iff_forall_ne_some]
  simp only [ne_eq, get?_ofList_eq_some_iff]
  constructor
  · rintro h e he rfl
    obtain ⟨⟨k, v⟩, hlast⟩ := exists_isLast_iff (p := fun d => d.1 = e.1).2 ⟨e, he, rfl⟩
    have hk : k = e.1 := hlast.prop
    exact h v (hk ▸ hlast)
  · intro h v hlast
    exact h (k, v) hlast.mem rfl

/-- The keys of a table made of a list are in the order in which they came first. -/
theorem keys_ofList (l : List (κ × α)) : (ofList l).keys = (l.map Prod.fst).eraseDups := by
  induction l using List.reverseRecOn with
  | nil => rfl
  | append_singleton l e ih =>
    rw [ofList_concat, List.map_append, List.map_singleton, eraseDups_concat, ← ih]
    cases hget : (ofList l).get? e.1 with
    | none =>
      have hnew : e.1 ∉ l.map Prod.fst := by
        rwa [get?_eq_none_iff, ih, List.mem_eraseDups] at hget
      rw [insert, keys_alter_of_new _ hget rfl, if_neg hnew]
    | some w =>
      have hold : e.1 ∈ l.map Prod.fst := by
        rw [← List.mem_eraseDups, ← ih]
        exact (mem_keys_iff _).2 ⟨w, hget⟩
      rw [insert, keys_alter_of_isSome _ hget rfl, if_pos hold, List.append_nil]

/-- A table made of a list has as many entries as there are different keys. -/
theorem size_ofList (l : List (κ × α)) :
    (ofList l).size = (l.map Prod.fst).toFinset.card := by
  rw [size, ← List.length_map Prod.fst]
  refine length_eq_card_toFinset (ofList l).nodup_keys (fun k => ?_)
  change k ∈ (ofList l).keys ↔ k ∈ l.map Prod.fst
  rw [keys_ofList, List.mem_eraseDups]

/-- A table is made of its entries. -/
theorem ofList_entries (t : Table κ α) : ofList t.entries = t := by
  obtain ⟨l, hl⟩ := t
  refine ext ?_
  change (ofList l).entries = l
  induction l using List.reverseRecOn with
  | nil => rfl
  | append_singleton l e ih =>
    rw [List.map_append, List.map_singleton, List.nodup_append'] at hl
    obtain ⟨hl, -, hdisjoint⟩ := hl
    have hnew : (ofList l).get? e.1 = none :=
      get?_ofList_eq_none_iff.2 (fun d hd heq =>
        hdisjoint (List.mem_map_of_mem hd) (heq ▸ List.mem_singleton_self e.1))
    rw [ofList_concat, entries_insert_of_new _ _ hnew, ih hl]

/-- Entries that are added to a table come behind its own. -/
theorem foldl_insert_eq (t : Table κ α) (l : List (κ × α)) :
    l.foldl (fun t e => t.insert e.1 e.2) t = ofList (t.entries ++ l) := by
  rw [ofList, List.foldl_append, ← ofList, ofList_entries]

/-- Entries for keys that are there leave the order of the keys as it is. -/
theorem keys_ofList_append_of_present (t : Table κ α) (h : ∀ e ∈ l, e.1 ∈ t.keys) :
    (ofList (t.entries ++ l)).keys = t.keys := by
  have hself : t.keys.eraseDups = t.keys := by
    have hkeys := keys_ofList t.entries
    rw [ofList_entries] at hkeys
    exact hkeys.symm
  have hnone : (l.map Prod.fst).removeAll t.keys = [] := by
    refine List.filter_eq_nil_iff.2 (fun k hk => ?_)
    obtain ⟨e, he, rfl⟩ := List.mem_map.1 hk
    simpa using h e he
  rw [keys_ofList, List.map_append, List.eraseDups_append]
  change t.keys.eraseDups ++ ((l.map Prod.fst).removeAll t.keys).eraseDups = t.keys
  rw [hself, hnone, List.eraseDups_nil, List.append_nil]

end Table

end CodeAtlas
