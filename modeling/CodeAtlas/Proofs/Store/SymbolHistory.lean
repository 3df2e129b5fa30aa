import CodeAtlas.Proofs.Store.SymbolRows
import Mathlib.Data.List.Induction

/-!
# Histories of a symbol store

What a store of symbols holds is said here by its history alone: a symbol is there if it was saved
and its key was neither saved again nor removed since, the symbols stand in the order in which their
keys came, and look-ups give them in the order in which they were last saved.

Main results:

- Theorems `lastSave_concat` and `firstSave_concat`: what one more operation changes.
- Theorem `Follows.apply`: every operation keeps the store in step with its history.
- Theorem `handle_save_eq_iff`: two savings give out the same handle exactly if they are about the
  same key and nothing between them removes it.
- Theorem `recorded_run`: after every history the store is what the history says.
-/

namespace CodeAtlas.Store.SymbolStore

open CodeAtlas.Analysis

/-! ## What a history says -/

/-- An operation stands at a place, and all later ones have a property. -/
def StandsAt (ops : List Operation) (i : Nat) (op : Operation) (p : Operation → Prop) : Prop :=
  ops[i]? = some op ∧ ∀ later ∈ ops.drop (i + 1), p later

/-- A symbol is saved at a place, and nothing has touched its key since. -/
def LastSave (ops : List Operation) (i : Nat) (x : Symbol) : Prop :=
  StandsAt ops i (.save x) (fun op => ¬op.Touches x.key)

/-- The last operation that touched a key saved it. -/
def Live (ops : List Operation) (key : String) : Prop :=
  ∃ i x, LastSave ops i x ∧ x.key = key

/-- A key that was not live is saved at a place, and nothing has removed it since. -/
def FirstSave (ops : List Operation) (i : Nat) (key : String) : Prop :=
  (∃ x, StandsAt ops i (.save x) (fun op => ¬op.Removes key) ∧ x.key = key) ∧
    ¬Live (ops.take i) key

/-- One symbol was last saved before another. -/
def SavedBefore (ops : List Operation) (x y : Symbol) : Prop :=
  ∃ i j, LastSave ops i x ∧ LastSave ops j y ∧ i < j

/-- One key has been there for longer than another. -/
def OlderThan (ops : List Operation) (key other : String) : Prop :=
  ∃ i j, FirstSave ops i key ∧ FirstSave ops j other ∧ i < j

/-- A list has the symbols with a property, each of them once and in the order in which they were
last saved. -/
structure ListsRecent (ops : List Operation) (found : List Symbol) (p : Symbol → Prop) : Prop where
  mem_iff : ∀ x, x ∈ found ↔ (∃ i, LastSave ops i x) ∧ p x
  nodup : found.Nodup
  order : found.Pairwise (SavedBefore ops)

/-- A store is what its history says. -/
structure Recorded (ops : List Operation) (s : SymbolStore) : Prop where
  /-- The symbols are those that were saved last under their keys. -/
  mem_getAll_iff : ∀ x, x ∈ s.getAll ↔ ∃ i, LastSave ops i x
  /-- Each key has one symbol. -/
  nodup_keys : (s.getAll.map Symbol.key).Nodup
  /-- The symbols stand in the order in which their keys came. -/
  getAll_order : (s.getAll.map Symbol.key).Pairwise (OlderThan ops)
  findByKind : ∀ kind, ListsRecent ops (s.findByKind kind) (fun x => x.kind = kind)
  findByModule : ∀ path, ListsRecent ops (s.findByModule path) (fun x => x.modulePath = path)
  findByFile : ∀ path, ListsRecent ops (s.findByFile path) (fun x => x.filePath = path)

/-! ## One more operation -/

variable {ops : List Operation} {op : Operation} {i : Nat} {x y : Symbol} {key other : String}

/-- After one more operation there stands what stood before, if it has the property, or that
operation. -/
theorem standsAt_concat {a : Operation} {p : Operation → Prop} :
    StandsAt (ops ++ [op]) i a p ↔ (StandsAt ops i a p ∧ p op) ∨ (i = ops.length ∧ op = a) := by
  unfold StandsAt
  rcases Nat.lt_trichotomy i ops.length with hlt | heq | hgt
  · have hne : i ≠ ops.length := Nat.ne_of_lt hlt
    rw [List.getElem?_append_left hlt, List.drop_append_of_le_length hlt]
    simp [hne, or_imp, forall_and, and_assoc]
  · subst heq
    simp
  · have hne : i ≠ ops.length := Nat.ne_of_gt hgt
    have hle : ops.length ≤ i := Nat.le_of_lt hgt
    have hpast : (ops ++ [op])[i]? = none :=
      List.getElem?_eq_none (by simpa using Nat.succ_le_of_lt hgt)
    simp [hne, hle, hpast]

/-- What stands at a place stands inside the history. -/
theorem StandsAt.lt_length {a : Operation} {p : Operation → Prop} (h : StandsAt ops i a p) :
    i < ops.length :=
  (List.getElem?_eq_some_iff.1 h.1).1

/-- One more operation takes away the last save of a key that it touches, and may be one itself. -/
theorem lastSave_concat :
    LastSave (ops ++ [op]) i x ↔
      (LastSave ops i x ∧ ¬op.Touches x.key) ∨ (i = ops.length ∧ op = .save x) :=
  standsAt_concat

/-- One more operation takes away the first save of a key that it removes, and is one itself if it
saves a key that is not live. -/
theorem firstSave_concat :
    FirstSave (ops ++ [op]) i key ↔
      (FirstSave ops i key ∧ ¬op.Removes key) ∨
        (i = ops.length ∧ (∃ x, op = .save x ∧ x.key = key) ∧ ¬Live ops key) := by
  constructor
  · rintro ⟨⟨x, hx, hkey⟩, hlive⟩
    rcases standsAt_concat.1 hx with ⟨hx, hop⟩ | ⟨rfl, hop⟩
    · rw [List.take_append_of_le_length (Nat.le_of_lt hx.lt_length)] at hlive
      exact Or.inl ⟨⟨⟨x, hx, hkey⟩, hlive⟩, hop⟩
    · rw [List.take_left] at hlive
      exact Or.inr ⟨rfl, ⟨x, hop, hkey⟩, hlive⟩
  · rintro (⟨⟨⟨x, hx, hkey⟩, hlive⟩, hop⟩ | ⟨rfl, ⟨x, hop, hkey⟩, hlive⟩)
    · refine ⟨⟨x, standsAt_concat.2 (Or.inl ⟨hx, hop⟩), hkey⟩, ?_⟩
      rwa [List.take_append_of_le_length (Nat.le_of_lt hx.lt_length)]
    · refine ⟨⟨x, standsAt_concat.2 (Or.inr ⟨rfl, hop⟩), hkey⟩, ?_⟩
      rwa [List.take_left]

/-- A last save stays one if its key is not touched. -/
theorem LastSave.concat (h : LastSave ops i x) (hop : ¬op.Touches x.key) :
    LastSave (ops ++ [op]) i x :=
  lastSave_concat.2 (Or.inl ⟨h, hop⟩)

/-- A first save stays one if its key is not removed. -/
theorem FirstSave.concat (h : FirstSave ops i key) (hop : ¬op.Removes key) :
    FirstSave (ops ++ [op]) i key :=
  firstSave_concat.2 (Or.inl ⟨h, hop⟩)

/-- A first save stands inside the history. -/
theorem FirstSave.lt_length (h : FirstSave ops i key) : i < ops.length := by
  obtain ⟨⟨x, hx, -⟩, -⟩ := h
  exact hx.lt_length

/-- Symbols that are not touched stay in the order of their last saves. -/
theorem SavedBefore.concat (h : SavedBefore ops x y) (hx : ¬op.Touches x.key)
    (hy : ¬op.Touches y.key) : SavedBefore (ops ++ [op]) x y := by
  obtain ⟨i, j, hi, hj, hlt⟩ := h
  exact ⟨i, j, hi.concat hx, hj.concat hy, hlt⟩

/-- Keys that are not removed stay in the order of their first saves. -/
theorem OlderThan.concat (h : OlderThan ops key other) (hkey : ¬op.Removes key)
    (hother : ¬op.Removes other) : OlderThan (ops ++ [op]) key other := by
  obtain ⟨i, j, hi, hj, hlt⟩ := h
  exact ⟨i, j, hi.concat hkey, hj.concat hother, hlt⟩

/-- No symbol was last saved before itself. -/
theorem SavedBefore.ne (h : SavedBefore ops x y) : x ≠ y := by
  rintro rfl
  obtain ⟨i, j, hi, hj, hlt⟩ := h
  have hlater : Operation.save x ∈ ops.drop (i + 1) := by
    refine List.mem_of_getElem? (i := j - (i + 1)) ?_
    rw [List.getElem?_drop, Nat.add_sub_cancel' hlt]
    exact hj.1
  exact hi.2 _ hlater rfl

/-! ## A store in step with its history -/

/-- The rows of the store after a history are in the order of their last saves, and its keys in the
order of their first ones. -/
structure Follows (ops : List Operation) (rows : List (SymbolHandle × Symbol)) : Prop where
  kept : (run ops).Rows rows
  last : ∀ x, x ∈ rows.map Prod.snd ↔ ∃ i, LastSave ops i x
  recency : (rows.map Prod.snd).Pairwise (SavedBefore ops)
  first : ∀ key ∈ (run ops).handles.keys, ∃ i, FirstSave ops i key
  age : (run ops).handles.keys.Pairwise (OlderThan ops)

variable {rows : List (SymbolHandle × Symbol)}

/-- Without a history there is nothing. -/
theorem follows_nil : Follows [] [] where
  kept := empty.rows_clear
  last := by simp [LastSave, StandsAt]
  recency := List.Pairwise.nil
  first := fun _ hkey => absurd hkey List.not_mem_nil
  age := List.Pairwise.nil

/-- The keys in store are the live ones. -/
theorem Follows.mem_keys_iff (h : Follows ops rows) :
    key ∈ (run ops).handles.keys ↔ Live ops key := by
  rw [← h.kept.map_key, List.mem_map]
  simp only [h.kept.mem_getAll_iff, h.last, Live]
  exact ⟨fun ⟨x, ⟨i, hx⟩, hkey⟩ => ⟨i, x, hx, hkey⟩, fun ⟨i, x, hx, hkey⟩ => ⟨x, ⟨i, hx⟩, hkey⟩⟩

/-- The symbols after an operation are those that it does not touch, and the one that it saves. -/
theorem map_snd_rowsAfter (s : SymbolStore) (rows : List (SymbolHandle × Symbol))
    (op : Operation) :
    (s.rowsAfter rows op).map Prod.snd =
      (rows.map Prod.snd).filter (fun x => ¬op.Touches x.key) ++ op.saved?.toList := by
  simp [rowsAfter, List.filter_map, Function.comp_def]

/-- What an operation saves. -/
theorem mem_saved?_iff : x ∈ op.saved?.toList ↔ op = .save x := by
  cases op <;> simp [Operation.saved?, eq_comm]

/-- Every operation keeps the symbols in the order of their last saves. -/
theorem Follows.recency_apply (h : Follows ops rows) (op : Operation) :
    (((run ops).rowsAfter rows op).map Prod.snd).Pairwise (SavedBefore (ops ++ [op])) := by
  rw [map_snd_rowsAfter, List.pairwise_append]
  refine ⟨?_, ?_, ?_⟩
  · refine (h.recency.filter _).imp_of_mem (fun {x y} hx hy hxy => ?_)
    exact hxy.concat (of_decide_eq_true (List.mem_filter.1 hx).2)
      (of_decide_eq_true (List.mem_filter.1 hy).2)
  · cases op.saved? <;> simp
  · intro x hx y hy
    obtain ⟨hx, hop⟩ := List.mem_filter.1 hx
    obtain ⟨i, hi⟩ := (h.last x).1 hx
    refine ⟨i, ops.length, hi.concat (of_decide_eq_true hop), ?_, hi.lt_length⟩
    exact lastSave_concat.2 (Or.inr ⟨rfl, mem_saved?_iff.1 hy⟩)

/-- What a new key of an operation is. -/
theorem Follows.firstSave_of_new (h : Follows ops rows)
    (hkey : key ∈ (op.saved?.toList.map Symbol.key).filter (fun k => k ∉ (run ops).handles.keys)) :
    FirstSave (ops ++ [op]) ops.length key := by
  obtain ⟨hsaved, hnew⟩ := List.mem_filter.1 hkey
  obtain ⟨x, hx, hxkey⟩ := List.mem_map.1 hsaved
  refine firstSave_concat.2 (Or.inr ⟨rfl, ⟨x, mem_saved?_iff.1 hx, hxkey⟩, ?_⟩)
  rw [← h.mem_keys_iff]
  exact of_decide_eq_true hnew

/-- Every operation keeps the keys in the order of their first saves. -/
theorem Follows.age_apply (h : Follows ops rows) (op : Operation) :
    (keysAfter (run ops).handles.keys op).Pairwise (OlderThan (ops ++ [op])) := by
  rw [keysAfter, List.pairwise_append]
  refine ⟨?_, ?_, ?_⟩
  · refine (h.age.filter _).imp_of_mem (fun {key other} hkey hother holder => ?_)
    exact holder.concat (of_decide_eq_true (List.mem_filter.1 hkey).2)
      (of_decide_eq_true (List.mem_filter.1 hother).2)
  · refine List.Pairwise.filter _ ?_
    cases op.saved? <;> simp
  · intro key hkey other hother
    obtain ⟨hkey, hop⟩ := List.mem_filter.1 hkey
    obtain ⟨i, hi⟩ := h.first key hkey
    exact ⟨i, ops.length, hi.concat (of_decide_eq_true hop), h.firstSave_of_new hother,
      hi.lt_length⟩

/-- Every operation keeps the store in step with its history. -/
theorem Follows.apply (h : Follows ops rows) (op : Operation) :
    Follows (ops ++ [op]) ((run ops).rowsAfter rows op) where
  kept := run_concat ops op ▸ h.kept.apply op
  last x := by
    simp only [map_snd_rowsAfter, List.mem_append, List.mem_filter, decide_eq_true_eq, h.last,
      mem_saved?_iff, lastSave_concat, exists_or, exists_and_right]
    simp
  recency := h.recency_apply op
  first key hkey := by
    rw [run_concat, h.kept.keys_apply] at hkey
    rcases List.mem_append.1 hkey with hold | hnew
    · obtain ⟨hold, hop⟩ := List.mem_filter.1 hold
      obtain ⟨i, hi⟩ := h.first key hold
      exact ⟨i, hi.concat (of_decide_eq_true hop)⟩
    · exact ⟨ops.length, h.firstSave_of_new hnew⟩
  age := by
    rw [run_concat, h.kept.keys_apply]
    exact h.age_apply op

/-- After every history the store is in step with it. -/
theorem follows_run (ops : List Operation) : ∃ rows, Follows ops rows := by
  induction ops using List.reverseRecOn with
  | nil => exact ⟨[], follows_nil⟩
  | append_singleton ops op ih =>
    obtain ⟨rows, h⟩ := ih
    exact ⟨_, h.apply op⟩

/-! ## Look-ups -/

/-- A look-up in an index gives the symbols with an attribute in the order of their last saves. -/
theorem Follows.listsRecent (h : Follows ops rows) {κ : Type} [DecidableEq κ]
    {index : Index κ SymbolHandle} {attr : Symbol → κ}
    (hindex : index.Lists rows (fun x => some (attr x))) (value : κ) :
    ListsRecent ops ((run ops).resolve (index.find value)) (fun x => attr x = value) := by
  have hfound : (run ops).resolve (index.find value) =
      (rows.map Prod.snd).filter (fun x => attr x = value) :=
    hindex.filterMap_find_some (fun _ hrow => h.kept.mem_iff.1 hrow) value
  rw [hfound]
  exact {
    mem_iff := fun x => by simp only [List.mem_filter, h.last, decide_eq_true_eq]
    nodup := (h.recency.imp SavedBefore.ne).filter _
    order := h.recency.filter _ }

/-- A store in step with its history is what the history says. -/
theorem Follows.recorded (h : Follows ops rows) : Recorded ops (run ops) where
  mem_getAll_iff x := h.kept.mem_getAll_iff.trans (h.last x)
  nodup_keys := h.kept.map_key ▸ (run ops).handles.nodup_keys
  getAll_order := h.kept.map_key ▸ h.age
  findByKind := h.listsRecent h.kept.byKind
  findByModule := h.listsRecent h.kept.byModule
  findByFile := h.listsRecent h.kept.byFile

/-! ## Handles -/

/-- The handle of a saved symbol belongs to its key until that is removed, and to no other. -/
theorem handle_run_iff (before after : List Operation) (x : Symbol) :
    ((run before).save x).2.number < (run (before ++ .save x :: after)).nextNumber ∧
      ∀ key, (run (before ++ .save x :: after)).handles.get? key = some ((run before).save x).2 ↔
        key = x.key ∧ ∀ op ∈ after, ¬op.Removes x.key := by
  induction after using List.reverseRecOn with
  | nil =>
    obtain ⟨rows, h⟩ := follows_run before
    have hiff : ∀ key, ((run before).apply (.save x)).handles.get? key =
        some ((run before).save x).2 ↔ key = x.key := fun key => h.kept.handle_save_iff x
    rw [run_concat]
    exact ⟨(h.kept.save x).issued ((hiff x.key).2 rfl), by simpa using hiff⟩
  | append_singleton after op ih =>
    obtain ⟨hissued, hiff⟩ := ih
    obtain ⟨rows, h⟩ := follows_run (before ++ .save x :: after)
    have hsplit : before ++ .save x :: (after ++ [op]) = (before ++ .save x :: after) ++ [op] := by
      simp
    rw [hsplit, run_concat]
    refine ⟨Nat.lt_of_lt_of_le hissued (nextNumber_le_apply _ op), fun key => ?_⟩
    rw [h.kept.handle_apply_iff hissued op, hiff key, and_assoc]
    refine and_congr_right (fun hkey => ?_)
    simp [hkey, or_imp, forall_and]

/-- Two savings give out the same handle exactly if they are about the same key and nothing between
them removes it. -/
theorem handle_save_eq_iff (before after : List Operation) (x y : Symbol) :
    ((run (before ++ .save x :: after)).save y).2 = ((run before).save x).2 ↔
      y.key = x.key ∧ ∀ op ∈ after, ¬op.Removes x.key := by
  obtain ⟨hissued, hiff⟩ := handle_run_iff before after x
  rw [← hiff y.key, handle_save]
  cases (run (before ++ .save x :: after)).handles.get? y.key with
  | some i => simp
  | none =>
    simp only [Option.getD_none, reduceCtorEq, iff_false]
    intro heq
    rw [← heq] at hissued
    exact Nat.lt_irrefl _ hissued

/-- After every history the store is what the history says, and a handle stays with its key until
that is removed and is never given out for anything else. -/
theorem recorded_run :
    (∀ ops, Recorded ops (run ops)) ∧
      ∀ before after x y,
        ((run (before ++ .save x :: after)).save y).2 = ((run before).save x).2 ↔
          y.key = x.key ∧ ∀ op ∈ after, ¬op.Removes x.key := by
  refine ⟨fun ops => ?_, handle_save_eq_iff⟩
  obtain ⟨rows, h⟩ := follows_run ops
  exact h.recorded

end CodeAtlas.Store.SymbolStore
