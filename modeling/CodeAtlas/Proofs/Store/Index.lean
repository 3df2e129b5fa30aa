import CodeAtlas.Store.Chunks
import Mathlib.Data.List.Nodup

/-!
# What an index lists

The rows of a store are its handles with what is kept under them, in some order. An index is in step
with the rows if it lists, for every value of an attribute, the handles of the rows with that value
in the order of the rows. The attribute may be missing.

Main results:

- Theorems `Lists.add` and `Lists.remove`: an index stays in step with one more row at the end, and
  without a row.
- Theorem `Lists.filterMap_find`: a look-up in the index is a scan of the rows.
- Theorem `Lists.perm_flatMap`: the handles under several values are those of the rows with these
  values, but in another order.
-/

namespace CodeAtlas.Store.Index

variable {κ ι α : Type} [DecidableEq κ] {i : Index κ ι} {rows : List (ι × α)} {attr : α → Option κ}

/-- The index lists the handles of the rows that have an attribute, in the order of the rows. -/
def Lists (i : Index κ ι) (rows : List (ι × α)) (attr : α → Option κ) : Prop :=
  ∀ key, i.find key = (rows.filter (fun row => attr row.2 = some key)).map Prod.fst

/-- The index without handles lists no rows. -/
theorem lists_nil (attr : α → Option κ) : ({} : Index κ ι).Lists [] attr :=
  fun _ => rfl

/-- What the index lists under a value belongs to a row with that value. -/
theorem Lists.mem_find_iff (h : i.Lists rows attr) {key : κ} {id : ι} :
    id ∈ i.find key ↔ ∃ x, (id, x) ∈ rows ∧ attr x = some key := by
  simp [h key]

/-- The handles of some rows lead to what these rows keep. -/
theorem filterMap_of_rows {get : ι → Option α} (hget : ∀ row ∈ rows, get row.1 = some row.2)
    (p : α → Bool) :
    ((rows.filter (fun row => p row.2)).map Prod.fst).filterMap get =
      (rows.map Prod.snd).filter p := by
  rw [List.filterMap_map, List.filter_map]
  calc (rows.filter (fun row => p row.2)).filterMap (get ∘ Prod.fst)
      = (rows.filter (fun row => p row.2)).filterMap (fun row => some row.2) :=
        List.filterMap_congr (fun row hrow => hget row (List.mem_filter.1 hrow).1)
    _ = (rows.filter (fun row => p row.2)).map Prod.snd := congrFun List.filterMap_eq_map' _

/-- A look-up in the index is a scan of the rows. -/
theorem Lists.filterMap_find (h : i.Lists rows attr) {get : ι → Option α}
    (hget : ∀ row ∈ rows, get row.1 = some row.2) (key : κ) :
    (i.find key).filterMap get =
      (rows.map Prod.snd).filter (fun x => attr x = some key) := by
  rw [h key]
  exact filterMap_of_rows hget (fun x => decide (attr x = some key))

/-- A look-up in the index of an attribute that is never missing is a scan of the rows. -/
theorem Lists.filterMap_find_some {f : α → κ} (h : i.Lists rows (fun x => some (f x)))
    {get : ι → Option α} (hget : ∀ row ∈ rows, get row.1 = some row.2) (key : κ) :
    (i.find key).filterMap get = (rows.map Prod.snd).filter (fun x => f x = key) := by
  simpa only [Option.some.injEq] using h.filterMap_find hget key

/-- Adding a handle changes what is listed under its own value only. -/
theorem find_addOptional (i : Index κ ι) (key? : Option κ) (key : κ) (id : ι) :
    (i.addOptional key? id).find key =
      if key? = some key then i.find key ++ [id] else i.find key := by
  cases key? with
  | none => simp [addOptional]
  | some k => simp [addOptional, find_add, eq_comm]

/-- The index stays in step with one more row at the end. -/
theorem Lists.add (h : i.Lists rows attr) (id : ι) (x : α) :
    (i.addOptional (attr x) id).Lists (rows ++ [(id, x)]) attr := by
  intro key
  rw [find_addOptional, h key, List.filter_append]
  split
  · next hx => simp [hx]
  · next hx => simp [hx]

/-! ## Several values together -/

/-- A bucket holds what is listed under its value. -/
theorem find_of_mem_buckets {key : κ} {ids : List ι} (h : (key, ids) ∈ i.buckets.entries) :
    i.find key = ids := by
  rw [find, i.buckets.mem_entries_iff.1 h]
  rfl

/-- What is listed stands in a bucket. -/
theorem exists_bucket_of_mem_find {key : κ} {id : ι} (h : id ∈ i.find key) :
    ∃ ids, (key, ids) ∈ i.buckets.entries ∧ id ∈ ids := by
  rw [find] at h
  cases hget : i.buckets.get? key with
  | none => simp [hget] at h
  | some ids => exact ⟨ids, i.buckets.mem_entries_iff.2 hget, by simpa [hget] using h⟩

/-- No handle is listed twice under one value. -/
theorem Lists.nodup_find (h : i.Lists rows attr) (hrows : (rows.map Prod.fst).Nodup) (key : κ) :
    (i.find key).Nodup := by
  rw [h key]
  exact hrows.sublist (List.filter_sublist.map Prod.fst)

/-- The handles listed under some values are those of the rows with such a value. -/
theorem Lists.perm_flatMap (h : i.Lists rows attr) (hrows : (rows.map Prod.fst).Nodup)
    (p : κ → Bool) :
    ((i.buckets.entries.filter (fun e => p e.1)).flatMap Prod.snd).Perm
      ((rows.filter (fun row => (attr row.2).any p)).map Prod.fst) := by
  have hbuckets : (i.buckets.entries.filter (fun e => p e.1)).Pairwise (fun d e => d.1 ≠ e.1) :=
    (List.pairwise_map.1 i.buckets.nodup_keys).filter _
  have hfind : ∀ e ∈ i.buckets.entries.filter (fun e => p e.1), i.find e.1 = e.2 :=
    fun e he => find_of_mem_buckets (List.mem_filter.1 he).1
  refine (List.perm_ext_iff_of_nodup ?_ (hrows.sublist (List.filter_sublist.map _))).2 ?_
  · refine List.nodup_flatMap.2 ⟨fun e he => hfind e he ▸ h.nodup_find hrows e.1, ?_⟩
    refine hbuckets.imp_of_mem (fun {d e} hd he hne id hidd hide => hne ?_)
    -- a handle in two buckets has one row with two values
    rw [← hfind d hd] at hidd
    rw [← hfind e he] at hide
    obtain ⟨x, hx, hkeyx⟩ := h.mem_find_iff.1 hidd
    obtain ⟨y, hy, hkeyy⟩ := h.mem_find_iff.1 hide
    have hxy : x = y := congrArg Prod.snd (List.inj_on_of_nodup_map hrows hx hy rfl)
    exact Option.some.inj ((hxy ▸ hkeyx).symm.trans hkeyy)
  · intro id
    simp only [List.mem_flatMap, List.mem_filter, List.mem_map]
    constructor
    · rintro ⟨e, ⟨he, hp⟩, hid⟩
      rw [← find_of_mem_buckets he] at hid
      obtain ⟨x, hx, hkey⟩ := h.mem_find_iff.1 hid
      exact ⟨(id, x), ⟨hx, by simpa [hkey] using hp⟩, rfl⟩
    · rintro ⟨⟨_, x⟩, ⟨hx, hp⟩, rfl⟩
      obtain ⟨key, hkey, hp⟩ := (Option.any_eq_true _ _).1 hp
      obtain ⟨ids, hids, hid⟩ := exists_bucket_of_mem_find (h.mem_find_iff.2 ⟨x, hx, hkey⟩)
      exact ⟨(key, ids), ⟨hids, hp⟩, hid⟩

/-! ## Rows that go -/

variable [DecidableEq ι]

/-- Removing a handle changes what is listed under its own value only. -/
theorem find_removeOptional (i : Index κ ι) (key? : Option κ) (key : κ) (id : ι) :
    (i.removeOptional key? id).find key =
      if key? = some key then (i.find key).filter (· ≠ id) else i.find key := by
  cases key? with
  | none => simp [removeOptional]
  | some k => simp [removeOptional, find_remove, eq_comm]

/-- The index stays in step without a row. -/
theorem Lists.remove (h : i.Lists rows attr) (hrows : (rows.map Prod.fst).Nodup) {id : ι} {x : α}
    (hmem : (id, x) ∈ rows) :
    (i.removeOptional (attr x) id).Lists (rows.filter (fun row => row.1 ≠ id)) attr := by
  intro key
  have hlisted : (i.find key).filter (· ≠ id) =
      ((rows.filter (fun row => row.1 ≠ id)).filter (fun row => attr row.2 = some key)).map
        Prod.fst := by
    rw [h key, List.filter_map, List.filter_filter, List.filter_filter]
    simp only [Function.comp_apply, Bool.and_comm]
  rw [find_removeOptional, ← hlisted]
  split
  · rfl
  · next hx =>
    -- the handle has one row only, and that has another value
    refine (List.filter_eq_self.2 (fun j hj => decide_eq_true ?_)).symm
    rintro rfl
    obtain ⟨y, hy, hkey⟩ := h.mem_find_iff.1 hj
    have hxy : y = x := congrArg Prod.snd (List.inj_on_of_nodup_map hrows hy hmem rfl)
    exact hx (hxy ▸ hkey)

/-! ## Rows in a table -/

variable {t : Table ι α} {id : ι} {x : α}

/-- The index stays in step with a table that gets a new handle. -/
theorem Lists.insert (h : i.Lists t.entries attr) (hid : t.get? id = none) (x : α) :
    (i.addOptional (attr x) id).Lists (t.insert id x).entries attr := by
  rw [t.entries_insert_of_new x hid]
  exact h.add id x

/-- The index stays in step with a table that loses a handle. -/
theorem Lists.erase (h : i.Lists t.entries attr) (hid : t.get? id = some x) :
    (i.removeOptional (attr x) id).Lists (t.erase id).entries attr := by
  rw [t.entries_erase id]
  exact h.remove t.nodup_keys (t.mem_entries_iff.2 hid)

/-- A look-up in the index is a scan of the table. -/
theorem Lists.resolve (h : i.Lists t.entries attr) (key : κ) :
    (i.find key).filterMap t.get? = t.values.filter (fun x => attr x = some key) :=
  h.filterMap_find (fun _ hrow => t.mem_entries_iff.1 hrow) key

/-- A look-up in the index of an attribute that is never missing is a scan of the table. -/
theorem Lists.resolve_some {f : α → κ} (h : i.Lists t.entries (fun x => some (f x))) (key : κ) :
    (i.find key).filterMap t.get? = t.values.filter (fun x => f x = key) :=
  h.filterMap_find_some (fun _ hrow => t.mem_entries_iff.1 hrow) key

/-- What stands in a bucket is kept, and has the attribute of the bucket. -/
theorem Lists.exists_of_mem_bucket (h : i.Lists t.entries attr) {bucket : κ × List ι}
    (hbucket : bucket ∈ i.buckets.entries) (hid : id ∈ bucket.2) :
    ∃ x, t.get? id = some x ∧ attr x = some bucket.1 := by
  rw [← find_of_mem_buckets hbucket] at hid
  obtain ⟨x, hx, hkey⟩ := h.mem_find_iff.1 hid
  exact ⟨x, t.mem_entries_iff.1 hx, hkey⟩

end CodeAtlas.Store.Index
