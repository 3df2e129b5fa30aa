import CodeAtlas.Proofs.Store.Handles
import CodeAtlas.Proofs.Store.Index
import CodeAtlas.Store.Symbols

/-!
# What a symbol store keeps

A store of symbols starts empty and changes by operations. Beside the table of symbols it keeps a
table of keys and four indices. The indices list the symbols in the order in which they were last
saved, which is not the order of the table: a symbol that is saved again stays where it is in the
table and goes to the end in the indices.

Main results:

- Theorem `Rows.handle_iff`: the table of keys leads to the symbol with that key.
- Theorem `Rows.apply`: every operation keeps both tables and all indices in step, where the rows
  that the indices list change by `rowsAfter`.
- Theorem `Rows.keys_apply`: a new key goes behind all others, and a key that is saved again stays
  where it is.
- Theorem `Rows.handle_apply_iff`: a handle that was given out can only lose its key.
-/

namespace CodeAtlas.Store.SymbolStore

open CodeAtlas.Analysis

/-- What changes a store of symbols. -/
inductive Operation where
  | save (x : Symbol)
  | delete (key : String)
  | clear
  | addReference (key user : String)
  deriving Inhabited

/-- The store after an operation; a deletion that fails leaves it as it was. -/
def apply (s : SymbolStore) : Operation → SymbolStore
  | .save x => (s.save x).1
  | .delete key =>
    match s.delete key with
    | .ok deleted => deleted.1
    | .error _ => s
  | .clear => s.clear
  | .addReference key user => s.addReference key user

/-- The store after some operations, starting with the empty store. -/
def run (ops : List Operation) : SymbolStore := ops.foldl apply empty

/-- The store after one more operation. -/
theorem run_concat (ops : List Operation) (op : Operation) :
    run (ops ++ [op]) = (run ops).apply op := by
  simp [run]

/-- The symbol that an operation saves. -/
def Operation.saved? : Operation → Option Symbol
  | .save x => some x
  | _ => none

/-- The operation removes what is kept under a key, if there is anything. -/
def Operation.Removes : Operation → String → Prop
  | .delete k, key => key = k
  | .clear, _ => True
  | _, _ => False

/-- The operation saves under a key or removes what is kept under it. -/
def Operation.Touches : Operation → String → Prop
  | .save x, key => key = x.key
  | op, key => op.Removes key

instance Operation.decidableRemoves : ∀ op key, Decidable (Operation.Removes op key)
  | .delete k, key => inferInstanceAs (Decidable (key = k))
  | .clear, _ => inferInstanceAs (Decidable True)
  | .save _, _ => inferInstanceAs (Decidable False)
  | .addReference _ _, _ => inferInstanceAs (Decidable False)

instance Operation.decidableTouches : ∀ op key, Decidable (Operation.Touches op key)
  | .save x, key => inferInstanceAs (Decidable (key = x.key))
  | .delete k, key => inferInstanceAs (Decidable (key = k))
  | .clear, _ => inferInstanceAs (Decidable True)
  | .addReference _ _, _ => inferInstanceAs (Decidable False)

/-! ## Tables and indices in step -/

/-- Both tables and all indices of the store are about the same rows. The table of symbols is in the
order of its handles, which is also the order of the keys; the indices list the rows in theirs. -/
structure Rows (s : SymbolStore) (rows : List (SymbolHandle × Symbol)) : Prop where
  nodup : (rows.map Prod.fst).Nodup
  mem_iff : ∀ {i x}, (i, x) ∈ rows ↔ s.symbols.get? i = some x
  byName : s.byName.Lists rows (fun x => some x.name)
  byKind : s.byKind.Lists rows (fun x => some x.kind)
  byModule : s.byModule.Lists rows (fun x => some x.modulePath)
  byFile : s.byFile.Lists rows (fun x => some x.filePath)
  inStep : s.handles.entries = s.symbols.entries.map (fun e => (e.2.key, e.1))
  shelved : Shelved s.symbols s.nextNumber

variable {s : SymbolStore} {rows : List (SymbolHandle × Symbol)}

/-- Without symbols there are no rows. -/
theorem rows_clear (s : SymbolStore) : s.clear.Rows [] where
  nodup := List.nodup_nil
  mem_iff := by simp [clear]
  byName := Index.lists_nil _
  byKind := Index.lists_nil _
  byModule := Index.lists_nil _
  byFile := Index.lists_nil _
  inStep := rfl
  shelved := shelved_empty _

/-- The table of keys leads to the row with that key. -/
theorem Rows.handle_iff (h : s.Rows rows) {key : String} {i : SymbolHandle} :
    s.handles.get? key = some i ↔ ∃ x, (i, x) ∈ rows ∧ x.key = key := by
  rw [← Table.mem_entries_iff, h.inStep, List.mem_map]
  constructor
  · rintro ⟨⟨j, x⟩, he, heq⟩
    obtain ⟨hkey, rfl⟩ := Prod.mk.inj heq
    exact ⟨x, h.mem_iff.2 (s.symbols.mem_entries_iff.1 he), hkey⟩
  · rintro ⟨x, hx, rfl⟩
    exact ⟨(i, x), s.symbols.mem_entries_iff.2 (h.mem_iff.1 hx), rfl⟩

/-- A key that leads nowhere is no key of a row. -/
theorem Rows.key_ne_of_none (h : s.Rows rows) {key : String} (hkey : s.handles.get? key = none)
    {row : SymbolHandle × Symbol} (hrow : row ∈ rows) : row.2.key ≠ key := by
  intro heq
  have hsome := h.handle_iff.2 ⟨row.2, hrow, heq⟩
  rw [hkey] at hsome
  cases hsome

/-- No two rows have the same key. -/
theorem Rows.handle_eq (h : s.Rows rows) {row other : SymbolHandle × Symbol} (hrow : row ∈ rows)
    (hother : other ∈ rows) (hkey : row.2.key = other.2.key) : row.1 = other.1 := by
  have hleft := h.handle_iff.2 ⟨row.2, hrow, hkey⟩
  have hright := h.handle_iff.2 ⟨other.2, hother, rfl⟩
  exact Option.some.inj (hleft.symm.trans hright)

/-- The keys of the symbols are those of the table of keys, in the same order. -/
theorem Rows.map_key (h : s.Rows rows) : s.getAll.map Symbol.key = s.handles.keys := by
  rw [Table.keys, h.inStep, getAll, Table.values, List.map_map, List.map_map]
  rfl

/-- The rows are the symbols of the table. -/
theorem Rows.mem_getAll_iff (h : s.Rows rows) {x : Symbol} :
    x ∈ s.getAll ↔ x ∈ rows.map Prod.snd := by
  simp only [getAll, Table.values, List.mem_map]
  constructor
  · rintro ⟨e, he, rfl⟩
    exact ⟨e, h.mem_iff.2 (s.symbols.mem_entries_iff.1 he), rfl⟩
  · rintro ⟨row, hrow, rfl⟩
    exact ⟨row, s.symbols.mem_entries_iff.2 (h.mem_iff.1 hrow), rfl⟩

/-- Leaving out a key leaves out one row. -/
theorem Rows.filter_key (h : s.Rows rows) {i : SymbolHandle} {x : Symbol} (hx : (i, x) ∈ rows) :
    rows.filter (fun row => row.2.key ≠ x.key) = rows.filter (fun row => row.1 ≠ i) := by
  refine List.filter_congr (fun row hrow => decide_eq_decide.2 (not_congr ⟨fun hkey => ?_, ?_⟩))
  · exact h.handle_eq hrow hx hkey
  · intro hi
    exact congrArg (fun e => e.2.key) (List.inj_on_of_nodup_map h.nodup hrow hx hi)

/-! ## Saving -/

/-- A known key keeps its handle, and a new one gets the next. -/
theorem handle_save (s : SymbolStore) (x : Symbol) :
    (s.save x).2 = (s.handles.get? x.key).getD ⟨s.nextNumber⟩ := by
  unfold save prepare
  cases s.handles.get? x.key with
  | none => rfl
  | some i =>
    dsimp only
    cases s.symbols.get? i with
    | none => rfl
    | some old => rfl

/-- Saving under a new key keeps the symbol under the next handle. -/
theorem save_of_new {x : Symbol} (hkey : s.handles.get? x.key = none) :
    (s.save x).1 = { s with
      symbols := s.symbols.insert ⟨s.nextNumber⟩ x
      handles := s.handles.insert x.key ⟨s.nextNumber⟩
      byName := s.byName.add x.name ⟨s.nextNumber⟩
      byKind := s.byKind.add x.kind ⟨s.nextNumber⟩
      byModule := s.byModule.add x.modulePath ⟨s.nextNumber⟩
      byFile := s.byFile.add x.filePath ⟨s.nextNumber⟩
      nextNumber := s.nextNumber + 1 } := by
  simp [save, prepare, hkey, index]

/-- Saving under a known key replaces the symbol, in the indices too. -/
theorem save_of_known {x old : Symbol} {i : SymbolHandle} (hkey : s.handles.get? x.key = some i)
    (hold : s.symbols.get? i = some old) :
    (s.save x).1 = { s with
      symbols := s.symbols.insert i x
      byName := (s.byName.remove old.name i).add x.name i
      byKind := (s.byKind.remove old.kind i).add x.kind i
      byModule := (s.byModule.remove old.modulePath i).add x.modulePath i
      byFile := (s.byFile.remove old.filePath i).add x.filePath i } := by
  simp [save, prepare, hkey, hold, index, unindex]

/-- A row at the end takes the place of the one with the same key. -/
def saved (s : SymbolStore) (rows : List (SymbolHandle × Symbol)) (x : Symbol) :
    List (SymbolHandle × Symbol) :=
  rows.filter (fun row => row.2.key ≠ x.key) ++ [((s.save x).2, x)]

/-- Under a new key nothing is replaced. -/
theorem Rows.saved_of_new (h : s.Rows rows) {x : Symbol} (hkey : s.handles.get? x.key = none) :
    s.saved rows x = rows ++ [(⟨s.nextNumber⟩, x)] := by
  have hrows : rows.filter (fun row => row.2.key ≠ x.key) = rows :=
    List.filter_eq_self.2 (fun _ hrow => decide_eq_true (h.key_ne_of_none hkey hrow))
  rw [saved, hrows, handle_save, hkey]
  rfl

/-- Saving under a new key keeps everything in step. -/
theorem Rows.save_new (h : s.Rows rows) {x : Symbol} (hkey : s.handles.get? x.key = none) :
    (s.save x).1.Rows (s.saved rows x) := by
  have hnew : s.symbols.get? ⟨s.nextNumber⟩ = none := h.shelved.get?_eq_none (Nat.le_refl _)
  have hfresh : (⟨s.nextNumber⟩ : SymbolHandle) ∉ rows.map Prod.fst := by
    intro hmem
    obtain ⟨row, hrow, heq⟩ := List.mem_map.1 hmem
    have hget := h.mem_iff.1 hrow
    rw [heq, hnew] at hget
    cases hget
  rw [save_of_new hkey, h.saved_of_new hkey]
  exact {
    nodup := by
      rw [List.map_append, List.map_singleton, ← List.concat_eq_append, List.nodup_concat]
      exact ⟨hfresh, h.nodup⟩
    mem_iff := by
      intro i y
      by_cases hi : i = ⟨s.nextNumber⟩
      · subst hi
        have hrow : ((⟨s.nextNumber⟩ : SymbolHandle), y) ∉ rows := fun hmem =>
          hfresh (List.mem_map_of_mem hmem)
        simp [hrow, eq_comm]
      · simp [hi, Table.get?_insert_of_ne _ _ hi, h.mem_iff]
    byName := h.byName.add _ x
    byKind := h.byKind.add _ x
    byModule := h.byModule.add _ x
    byFile := h.byFile.add _ x
    inStep := by
      rw [Table.entries_insert_of_new _ _ hkey, Table.entries_insert_of_new _ _ hnew,
        List.map_append, h.inStep]
      rfl
    shelved := h.shelved.insert_next x }

/-- Saving under a known key keeps everything in step. -/
theorem Rows.save_known (h : s.Rows rows) {x old : Symbol} {i : SymbolHandle}
    (hrow : (i, old) ∈ rows) (hkey : old.key = x.key) : (s.save x).1.Rows (s.saved rows x) := by
  have hold := h.mem_iff.1 hrow
  have hhandle : s.handles.get? x.key = some i := h.handle_iff.2 ⟨old, hrow, hkey⟩
  have hsaved : s.saved rows x = rows.filter (fun row => row.1 ≠ i) ++ [(i, x)] := by
    rw [saved, ← hkey, h.filter_key hrow, handle_save, hhandle]
    rfl
  rw [save_of_known hhandle hold, hsaved]
  exact {
    nodup := by
      rw [List.map_append, List.map_singleton, ← List.concat_eq_append, List.nodup_concat]
      exact ⟨by simp, h.nodup.sublist (List.filter_sublist.map _)⟩
    mem_iff := by
      intro j y
      by_cases hj : j = i
      · subst hj
        simp [eq_comm]
      · simp [hj, Table.get?_insert_of_ne _ _ hj, h.mem_iff]
    byName := (h.byName.remove h.nodup hrow).add i x
    byKind := (h.byKind.remove h.nodup hrow).add i x
    byModule := (h.byModule.remove h.nodup hrow).add i x
    byFile := (h.byFile.remove h.nodup hrow).add i x
    inStep := by
      rw [Table.entries_insert_of_present _ _ hold, List.map_map, h.inStep]
      refine List.map_congr_left (fun e he => ?_)
      by_cases hi : e.1 = i
      · have hsym := s.symbols.mem_entries_iff.1 he
        rw [hi, hold] at hsym
        simp [hi, ← Option.some.inj hsym, hkey]
      · simp [hi]
    shelved := h.shelved.insert_present hold x }

/-- Saving keeps everything in step. -/
theorem Rows.save (h : s.Rows rows) (x : Symbol) : (s.save x).1.Rows (s.saved rows x) := by
  cases hkey : s.handles.get? x.key with
  | none => exact h.save_new hkey
  | some i =>
    obtain ⟨old, hrow, heq⟩ := h.handle_iff.1 hkey
    exact h.save_known hrow heq

/-! ## Deleting -/

/-- A deletion under a key that leads nowhere fails at once. -/
theorem run_deletion_of_none {key : String} (h : s.handles.get? key = none) :
    (deletion key).run s = .error (.unknownSymbol key) s := by
  rw [deletion, EStateM.run_bind, run_takeOut_of_none h]

/-- A deletion under a key that leads to no symbol fails after the key is gone. -/
theorem run_deletion_of_dangling {key : String} {i : SymbolHandle}
    (hkey : s.handles.get? key = some i) (hnone : s.symbols.get? i = none) :
    (deletion key).run s =
      .error (.unknownHandle .symbol i.number) { s with handles := s.handles.erase key } := by
  have hleft : ({ s with handles := s.handles.erase key } : SymbolStore).symbols.get? i = none :=
    hnone
  rw [deletion, EStateM.run_bind, run_takeOut_of_some hkey]
  simp only [EStateM.run_bind]
  rw [run_takeOut_of_none hleft]

/-- With a key that leads to no symbol, a deletion fails and is not without a trace. -/
example : (deletion "app.main").run { handles := (∅ : Table _ _).insert "app.main" ⟨0⟩ } =
    .error (.unknownHandle .symbol 0) empty := by
  rfl

/-- A deletion takes a symbol out everywhere, and its key. -/
theorem run_deletion_of_some {key : String} {i : SymbolHandle} {x : Symbol}
    (hkey : s.handles.get? key = some i) (hx : s.symbols.get? i = some x) :
    (deletion key).run s = .ok x { s with
      symbols := s.symbols.erase i
      handles := s.handles.erase key
      byName := s.byName.remove x.name i
      byKind := s.byKind.remove x.kind i
      byModule := s.byModule.remove x.modulePath i
      byFile := s.byFile.remove x.filePath i } := by
  have hleft : ({ s with handles := s.handles.erase key } : SymbolStore).symbols.get? i = some x :=
    hx
  rw [deletion, EStateM.run_bind, run_takeOut_of_some hkey]
  simp only [EStateM.run_bind]
  rw [run_takeOut_of_some hleft]
  rfl

/-- A deletion that succeeds takes out the symbol of the key, and that symbol is given back. -/
theorem delete_eq_ok_iff {key : String} {deleted : SymbolStore × Symbol} :
    s.delete key = .ok deleted ↔ ∃ i x, s.handles.get? key = some i ∧ s.symbols.get? i = some x ∧
      deleted = ({ s with
        symbols := s.symbols.erase i
        handles := s.handles.erase key
        byName := s.byName.remove x.name i
        byKind := s.byKind.remove x.kind i
        byModule := s.byModule.remove x.modulePath i
        byFile := s.byFile.remove x.filePath i }, x) := by
  unfold delete perform
  cases hkey : s.handles.get? key with
  | none => simp [run_deletion_of_none hkey]
  | some i =>
    cases hget : s.symbols.get? i with
    | none => simp [run_deletion_of_dangling hkey hget, hget]
    | some x => simp [run_deletion_of_some hkey hget, hget, eq_comm (b := deleted)]

/-- A deletion fails if no row has the key. -/
theorem Rows.handle_eq_none (h : s.Rows rows) {key : String} {e : StoreError}
    (hdelete : s.delete key = .error e) : s.handles.get? key = none := by
  cases hkey : s.handles.get? key with
  | none => rfl
  | some i =>
    obtain ⟨x, hrow, -⟩ := h.handle_iff.1 hkey
    have hok := delete_eq_ok_iff.2 ⟨i, x, hkey, h.mem_iff.1 hrow, rfl⟩
    rw [hdelete] at hok
    cases hok

/-- Deleting keeps everything in step. -/
theorem Rows.delete (h : s.Rows rows) {key : String} {deleted : SymbolStore × Symbol}
    (hdelete : s.delete key = .ok deleted) :
    deleted.1.Rows (rows.filter (fun row => row.2.key ≠ key)) := by
  obtain ⟨i, x, hkey, hget, rfl⟩ := delete_eq_ok_iff.1 hdelete
  have hrow := h.mem_iff.2 hget
  obtain ⟨y, hy, rfl⟩ := h.handle_iff.1 hkey
  obtain rfl : x = y := Option.some.inj (hget.symm.trans (h.mem_iff.1 hy))
  rw [h.filter_key hrow]
  exact {
    nodup := h.nodup.sublist (List.filter_sublist.map _)
    mem_iff := by
      intro j y
      by_cases hj : j = i
      · subst hj
        simp
      · simp [hj, Table.get?_erase_of_ne _ hj, h.mem_iff]
    byName := h.byName.remove h.nodup hrow
    byKind := h.byKind.remove h.nodup hrow
    byModule := h.byModule.remove h.nodup hrow
    byFile := h.byFile.remove h.nodup hrow
    inStep := by
      rw [Table.entries_erase, Table.entries_erase, h.inStep, List.filter_map]
      refine congrArg (List.map _) (List.filter_congr (fun e he => decide_eq_decide.2 ?_))
      have hmem := h.mem_iff.2 (s.symbols.mem_entries_iff.1 he)
      refine not_congr ⟨fun hkey => h.handle_eq hmem hrow hkey, fun hi => ?_⟩
      exact congrArg (fun e => e.2.key) (List.inj_on_of_nodup_map h.nodup hmem hrow hi)
    shelved := h.shelved.erase i }

/-! ## Every operation -/

/-- The rows after an operation: those that it does not touch, and the one that it saves. -/
def rowsAfter (s : SymbolStore) (rows : List (SymbolHandle × Symbol)) (op : Operation) :
    List (SymbolHandle × Symbol) :=
  rows.filter (fun row => ¬op.Touches row.2.key) ++
    op.saved?.toList.map (fun x => ((s.save x).2, x))

/-- Every operation keeps both tables and all indices in step. -/
theorem Rows.apply (h : s.Rows rows) (op : Operation) :
    (s.apply op).Rows (s.rowsAfter rows op) := by
  cases op with
  | save x => exact h.save x
  | delete key =>
    have hafter : s.rowsAfter rows (.delete key) = rows.filter (fun row => row.2.key ≠ key) :=
      List.append_nil _
    simp only [SymbolStore.apply, hafter]
    split
    · next deleted hdelete => exact h.delete hdelete
    · next e hdelete =>
      have hrows : rows.filter (fun row => row.2.key ≠ key) = rows :=
        List.filter_eq_self.2 (fun _ hrow =>
          decide_eq_true (h.key_ne_of_none (h.handle_eq_none hdelete) hrow))
      rw [hrows]
      exact h
  | clear =>
    have hafter : s.rowsAfter rows .clear = [] := by
      simp [rowsAfter, Operation.saved?, Operation.Touches, Operation.Removes]
    rw [hafter]
    exact s.rows_clear
  | addReference key user =>
    have hafter : s.rowsAfter rows (.addReference key user) = rows := by
      simp [rowsAfter, Operation.saved?, Operation.Touches, Operation.Removes]
    rw [hafter]
    exact ⟨h.nodup, h.mem_iff, h.byName, h.byKind, h.byModule, h.byFile, h.inStep, h.shelved⟩

/-- The keys after an operation: those that it does not remove, and a new one that it saves. -/
def keysAfter (keys : List String) (op : Operation) : List String :=
  keys.filter (fun key => ¬op.Removes key) ++
    (op.saved?.toList.map Symbol.key).filter (fun key => key ∉ keys)

/-- A new key goes behind all others, and a key that is saved again stays where it is. -/
theorem Rows.keys_apply (h : s.Rows rows) (op : Operation) :
    (s.apply op).handles.keys = keysAfter s.handles.keys op := by
  cases op with
  | save x =>
    rw [SymbolStore.apply]
    cases hkey : s.handles.get? x.key with
    | none =>
      have hnew := (Table.get?_eq_none_iff _ _).1 hkey
      have hkeys : (s.handles.insert x.key ⟨s.nextNumber⟩).keys = s.handles.keys ++ [x.key] :=
        s.handles.keys_alter_of_new hkey rfl
      rw [save_of_new hkey]
      simp [keysAfter, Operation.saved?, Operation.Removes, hnew, hkeys]
    | some i =>
      obtain ⟨old, hrow, -⟩ := h.handle_iff.1 hkey
      have hknown := (Table.mem_keys_iff _).2 ⟨i, hkey⟩
      rw [save_of_known hkey (h.mem_iff.1 hrow)]
      simp [keysAfter, Operation.saved?, Operation.Removes, hknown]
  | delete key =>
    have hafter : keysAfter s.handles.keys (.delete key) = s.handles.keys.filter (· ≠ key) :=
      List.append_nil _
    simp only [SymbolStore.apply, hafter]
    split
    · next deleted hdelete =>
      obtain ⟨i, x, -, -, rfl⟩ := delete_eq_ok_iff.1 hdelete
      exact s.handles.keys_alter_of_removed rfl
    · next e hdelete =>
      refine (List.filter_eq_self.2 (fun k hk => decide_eq_true ?_)).symm
      rintro rfl
      exact (Table.get?_eq_none_iff _ _).1 (h.handle_eq_none hdelete) hk
  | clear =>
    have hafter : keysAfter s.handles.keys .clear = [] := by
      simp [keysAfter, Operation.saved?, Operation.Removes]
    rw [hafter]
    rfl
  | addReference key user =>
    simp [SymbolStore.apply, addReference, keysAfter, Operation.saved?, Operation.Removes]

/-! ## Handles -/

/-- What a key leads to was given out before. -/
theorem Rows.issued (h : s.Rows rows) {key : String} {i : SymbolHandle}
    (hi : s.handles.get? key = some i) : i.number < s.nextNumber := by
  obtain ⟨x, hrow, -⟩ := h.handle_iff.1 hi
  exact h.shelved.issued i ((Table.mem_keys_iff _).2 ⟨x, h.mem_iff.1 hrow⟩)

/-- Numbers are never given back. -/
theorem nextNumber_le_apply (s : SymbolStore) (op : Operation) :
    s.nextNumber ≤ (s.apply op).nextNumber := by
  cases op with
  | save x =>
    simp only [SymbolStore.apply, SymbolStore.save, prepare]
    split
    · split <;> exact Nat.le_refl _
    · exact Nat.le_succ _
  | delete key =>
    simp only [SymbolStore.apply]
    split
    · next deleted hdelete =>
      obtain ⟨i, x, -, -, rfl⟩ := delete_eq_ok_iff.1 hdelete
      exact Nat.le_refl _
    · exact Nat.le_refl _
  | clear => exact Nat.le_refl _
  | addReference key user => exact Nat.le_refl _

/-- After a symbol is saved, its key and no other leads to its handle. -/
theorem Rows.handle_save_iff (h : s.Rows rows) (x : Symbol) {key : String} :
    (s.save x).1.handles.get? key = some (s.save x).2 ↔ key = x.key := by
  have hsaved := h.save x
  have hx : ((s.save x).2, x) ∈ s.saved rows x :=
    List.mem_append_right _ (List.mem_singleton_self _)
  rw [hsaved.handle_iff]
  constructor
  · rintro ⟨y, hy, rfl⟩
    exact congrArg (fun e => e.2.key) (List.inj_on_of_nodup_map hsaved.nodup hy hx rfl)
  · rintro rfl
    exact ⟨x, hx, rfl⟩

/-- A handle that was given out can only lose its key, and only by being removed. -/
theorem Rows.handle_apply_iff (h : s.Rows rows) {i : SymbolHandle} (hi : i.number < s.nextNumber)
    (op : Operation) {key : String} :
    (s.apply op).handles.get? key = some i ↔ s.handles.get? key = some i ∧ ¬op.Removes key := by
  cases op with
  | save x =>
    have hremoves : ¬(Operation.save x).Removes key := id
    simp only [SymbolStore.apply, hremoves, not_false_eq_true, and_true]
    cases hkey : s.handles.get? x.key with
    | none =>
      rw [save_of_new hkey]
      by_cases hx : key = x.key
      · subst hx
        have hne : (⟨s.nextNumber⟩ : SymbolHandle) ≠ i := by
          rintro rfl
          exact Nat.lt_irrefl _ hi
        simp [hkey, hne]
      · simp [Table.get?_insert_of_ne _ _ hx]
    | some j =>
      obtain ⟨old, hrow, -⟩ := h.handle_iff.1 hkey
      rw [save_of_known hkey (h.mem_iff.1 hrow)]
  | delete k =>
    simp only [SymbolStore.apply, Operation.Removes]
    by_cases hk : key = k
    · subst hk
      split
      · next deleted hdelete =>
        obtain ⟨j, x, -, -, rfl⟩ := delete_eq_ok_iff.1 hdelete
        simp
      · next e hdelete => simp [h.handle_eq_none hdelete]
    · split
      · next deleted hdelete =>
        obtain ⟨j, x, -, -, rfl⟩ := delete_eq_ok_iff.1 hdelete
        simp [hk, Table.get?_erase_of_ne _ hk]
      · simp [hk]
  | clear => simp [SymbolStore.apply, clear, Operation.Removes]
  | addReference k user => simp [SymbolStore.apply, addReference, Operation.Removes]

end CodeAtlas.Store.SymbolStore
