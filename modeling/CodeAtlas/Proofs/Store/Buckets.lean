import CodeAtlas.Proofs.Store.Sizes
import CodeAtlas.Proofs.Table

/-!
# Indices, bucket by bucket

Two indices may list the same handles and still differ, by an empty bucket or by the order of their
buckets. Here indices are compared as they are kept. A handle that is added and removed again leaves
no trace, and handles can be removed in either order.

Main results:

- Theorems `Tight.remove_add` and `Tight.removeOptional_addOptional`: a handle that is new to a
  bucket leaves no trace if it goes again.
- Theorem `remove_comm`: the order of removals does not matter.
- Theorem `Tight.remove`: no removal leaves an empty bucket behind.
- Theorem `keys_remove_sublist`: the buckets that are left stay in order.
-/

namespace CodeAtlas.Store.Index

variable {κ ι α : Type} [DecidableEq κ] {i : Index κ ι} {rows : List (ι × α)} {attr : α → Option κ}

/-- What no row belongs to is in no bucket. -/
theorem Lists.not_mem_find (h : i.Lists rows attr) {id : ι} (hid : id ∉ rows.map Prod.fst)
    (key : κ) : id ∉ i.find key := by
  intro hmem
  obtain ⟨x, hx, -⟩ := h.mem_find_iff.1 hmem
  exact hid (List.mem_map_of_mem hx)

/-- What a table does not hold is in no bucket of an index in step with it. -/
theorem Lists.not_mem_find_of_new [DecidableEq ι] {t : Table ι α} (h : i.Lists t.entries attr)
    {id : ι} (hid : t.get? id = none) (key : κ) : id ∉ i.find key :=
  h.not_mem_find ((t.get?_eq_none_iff id).1 hid) key

/-- What is kept for a value is no empty bucket. -/
theorem Tight.get?_ne (h : i.Tight) (key : κ) : i.buckets.get? key ≠ some [] :=
  fun hget => h (key, []) ((Table.mem_entries_iff _).2 hget) rfl

/-- Without empty buckets, an index that lists nothing has no buckets. -/
theorem Tight.eq_empty (h : i.Tight) (hfind : ∀ key, i.find key = []) : i = {} := by
  refine congrArg Index.mk (Table.ext (List.eq_nil_iff_forall_not_mem.2 ?_))
  rintro ⟨key, ids⟩ hbucket
  exact h _ hbucket ((find_of_mem_buckets hbucket).symm.trans (hfind key))

/-- Without rows an index lists nothing. -/
theorem Lists.find_eq_nil (h : i.Lists rows attr) (hrows : rows = []) (key : κ) :
    i.find key = [] := by
  rw [h key, hrows]
  rfl

/-- An index of some of the rows lists some of the handles, in the same order. -/
theorem Lists.find_filter (h : i.Lists rows attr) {j : Index κ ι} {p : ι → Bool}
    (hfilter : j.Lists (rows.filter (fun row => p row.1)) attr) (key : κ) :
    j.find key = (i.find key).filter p := by
  rw [h key, hfilter key, List.filter_map, List.filter_filter, List.filter_filter]
  simp only [Function.comp_apply, Bool.and_comm]

/-- One more handle, of an attribute that may be missing, leaves no bucket empty. -/
theorem Tight.addOptional (h : i.Tight) (key? : Option κ) (id : ι) :
    (i.addOptional key? id).Tight := by
  cases key? with
  | none => exact h
  | some key => exact h.add key id

/-- Some handles are kept as they are, and none are not kept. -/
theorem nonempty_ne (ids : List ι) : nonempty ids ≠ some [] := by
  unfold nonempty
  split
  · exact Option.some_ne_none [] ∘ Eq.symm
  · next hne => exact fun h => hne (List.isEmpty_iff.2 (Option.some.inj h))

/-- Without empty buckets, a bucket is kept exactly as long as it has handles. -/
theorem nonempty_getD {o : Option (List ι)} (h : o ≠ some []) : nonempty (o.getD []) = o := by
  cases o with
  | none => rfl
  | some ids =>
    have hne : ids ≠ [] := fun hnil => h (congrArg some hnil)
    rw [Option.getD_some, nonempty, List.isEmpty_eq_false_iff.2 hne]
    rfl

/-- Handles that are left of handles that are left, unless there are none. -/
theorem bind_nonempty (ids : List ι) (p : ι → Bool) :
    (nonempty ids).bind (fun ids => nonempty (ids.filter p)) = nonempty (ids.filter p) := by
  unfold nonempty
  split
  · next hnil => simp [List.isEmpty_iff.1 hnil]
  · rfl

/-! ## A handle that comes and goes -/

variable [DecidableEq ι]

/-- Removing a handle leaves no bucket empty. -/
theorem Tight.remove (h : i.Tight) (key : κ) (id : ι) : (i.remove key id).Tight := by
  rintro ⟨other, ids⟩ hbucket rfl
  have hget := (Table.mem_entries_iff _).1 hbucket
  rw [Index.remove, Table.get?_alter] at hget
  split at hget
  · obtain ⟨old, -, hleft⟩ := Option.bind_eq_some_iff.1 hget
    exact nonempty_ne _ hleft
  · exact h.get?_ne other hget

/-- Removing a handle of an attribute that may be missing leaves no bucket empty. -/
theorem Tight.removeOptional (h : i.Tight) (key? : Option κ) (id : ι) :
    (i.removeOptional key? id).Tight := by
  cases key? with
  | none => exact h
  | some key => exact h.remove key id

/-- A handle that is new to a bucket leaves no trace if it goes again. -/
theorem Tight.remove_add (h : i.Tight) {key : κ} {id : ι} (hid : id ∉ i.find key) :
    (i.add key id).remove key id = i := by
  have hleft : (((i.buckets.get? key).getD []) ++ [id]).filter (· ≠ id) =
      (i.buckets.get? key).getD [] := by
    rw [List.filter_append, List.filter_eq_self.2, List.filter_cons_of_neg (by simp),
      List.filter_nil, List.append_nil]
    exact fun other hother => decide_eq_true (fun heq => hid (heq ▸ hother))
  refine congrArg Index.mk ?_
  rw [Index.add, Table.alter_alter_self rfl]
  refine Table.alter_eq_self ?_
  rw [Option.bind_some, hleft]
  exact nonempty_getD (h.get?_ne key)

/-- A handle that is new to the index of an attribute that may be missing leaves no trace if it goes
again. -/
theorem Tight.removeOptional_addOptional (h : i.Tight) {key? : Option κ} {id : ι}
    (hid : ∀ key, id ∉ i.find key) : (i.addOptional key? id).removeOptional key? id = i := by
  cases key? with
  | none => rfl
  | some key => exact h.remove_add (hid key)

/-! ## Handles that go -/

/-- Handles can be removed in either order. -/
theorem remove_comm (i : Index κ ι) (key other : κ) (id id' : ι) :
    (i.remove key id).remove other id' = (i.remove other id').remove key id := by
  refine congrArg Index.mk ?_
  simp only [Index.remove]
  by_cases hkey : key = other
  · subst hkey
    rw [Table.alter_alter_self rfl, Table.alter_alter_self rfl]
    refine Table.alter_congr ?_
    cases i.buckets.get? key with
    | none => rfl
    | some ids =>
      simp only [Option.bind_some, bind_nonempty, List.filter_filter, Bool.and_comm]
  · exact Table.alter_comm hkey rfl rfl

/-- The buckets that are left stay in order. -/
theorem keys_remove_sublist (i : Index κ ι) (key : κ) (id : ι) :
    (i.remove key id).buckets.keys.Sublist i.buckets.keys :=
  Table.keys_alter_sublist rfl

end CodeAtlas.Store.Index
