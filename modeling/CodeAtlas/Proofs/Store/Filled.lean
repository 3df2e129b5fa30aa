import CodeAtlas.Proofs.Store.CallHistory
import CodeAtlas.Proofs.Store.ChunkHistory
import CodeAtlas.Proofs.Store.Sizes
import CodeAtlas.Proofs.Store.SymbolReferences
import CodeAtlas.Proofs.Table

/-!
# Filled stores

A store is cleared and then filled from a list. Stores of calls and of chunks then hold the list as
it is, and count its kinds. A store of symbols holds one symbol for each key: the last one that has
it, at the place where the key came first.

Main results:

- Theorems `CallStore.holds_saveAll` and `ChunkStore.holds_saveAll`: what is saved is what is held.
- Theorem `Shelf.Holds.sizes_perm_tally`: then the sizes of the buckets are the numbers of each kind.
- Theorem `SymbolStore.keepsLatest_saveAll`: what is saved under one key is held once, as it was
  saved last.
- Theorem `SymbolStore.length_saveAll`: there are as many symbols as different keys.
-/

namespace CodeAtlas.Store

open CodeAtlas.Analysis
open CodeAtlas.Chunking

/-! ## Shelves -/

namespace Shelf

variable {kind : EntityKind} {α : Type} {catalogue : Catalogue α} {s : Shelf kind catalogue}
  {xs : List α}

/-- A shelf holds some entries in their order, and its indices are in step with them. -/
structure Holds (s : Shelf kind catalogue) (xs : List α) : Prop where
  inStep : s.InStep
  values_eq : s.table.values = xs

/-- A shelf that is cleared and filled holds what it is filled with. -/
theorem holds_saveAll (s : Shelf kind catalogue) (xs : List α) : (s.clear.saveAll xs).Holds xs := by
  obtain ⟨hinStep, hvalues⟩ := s.inStep_clear.saveAll xs
  exact ⟨hinStep, hvalues⟩

theorem Holds.size_eq (h : s.Holds xs) : s.table.size = xs.length := by
  rw [← h.values_eq, Table.values, List.length_map, Table.size]

/-- The sizes of the buckets are the tally of an attribute that is never missing. -/
theorem Holds.sizes_perm_tally (h : s.Holds xs) {a : catalogue.Attribute}
    {f : α → catalogue.Value a} (hf : ∀ x, catalogue.value? a x = some (f x))
    {label : catalogue.Value a → String} (hlabel : Function.Injective label) :
    ((s.index a).sizes label).Perm (tally (xs.map (fun x => label (f x)))).entries := by
  have hlists := h.inStep.lists a
  rw [show catalogue.value? a = fun x => some (f x) from funext hf] at hlists
  have hperm := hlists.sizes_perm_tally (h.inStep.tight a) hlabel
  rw [← h.values_eq, Table.values, List.map_map]
  exact hperm

end Shelf

/-! ## Calls and chunks -/

/-- Different kinds of calls have different names. -/
theorem callKind_label_injective : Function.Injective CallKind.label := by
  intro a b h
  cases a <;> cases b <;> first | rfl | exact absurd h (by decide)

/-- Different kinds of chunks have different names. -/
theorem chunkKind_label_injective : Function.Injective ChunkKind.label := by
  intro a b h
  cases a <;> cases b <;> first | rfl | exact absurd h (by decide)

/-- The store with some more calls. -/
def CallStore.saveAll (s : CallStore) (cs : List Call) : CallStore :=
  cs.foldl (fun s c => (s.save c).1) s

/-- A store that is cleared and filled holds the calls that it is filled with. -/
theorem CallStore.holds_saveAll (s : CallStore) (cs : List Call) :
    (s.clear.saveAll cs).shelf.Holds cs := by
  have hshelf : (s.clear.saveAll cs).shelf = s.clear.shelf.saveAll cs :=
    (List.foldl_hom CallStore.shelf (fun s c => (s.shelf_save c).symm)).symm
  rw [hshelf, s.shelf_clear]
  exact Shelf.holds_saveAll s.shelf cs

/-- The store with some more chunks. -/
def ChunkStore.saveAll (s : ChunkStore) (cs : List Chunk) : ChunkStore :=
  cs.foldl (fun s c => (s.save c).1) s

/-- A store that is cleared and filled holds the chunks that it is filled with. -/
theorem ChunkStore.holds_saveAll (s : ChunkStore) (cs : List Chunk) :
    (s.clear.saveAll cs).shelf.Holds cs := by
  have hshelf : (s.clear.saveAll cs).shelf = s.clear.shelf.saveAll cs :=
    (List.foldl_hom ChunkStore.shelf (fun s c => (s.shelf_save c).symm)).symm
  rw [hshelf, s.shelf_clear]
  exact Shelf.holds_saveAll s.shelf cs

/-! ## Symbols -/

namespace SymbolStore

/-- Of some symbols those are kept that come last with their key, at the place where the key came
first. -/
structure KeepsLatest (xs stored : List Symbol) : Prop where
  keys_eq : stored.map Symbol.key = (xs.map Symbol.key).eraseDups
  last : ∀ x ∈ stored, ∃ front behind, xs = front ++ x :: behind ∧ ∀ y ∈ behind, y.key ≠ x.key

/-- One more symbol comes behind all others, or at the place of the one with its key. -/
theorem KeepsLatest.concat {xs stored later : List Symbol} (h : KeepsLatest xs stored) {x : Symbol}
    (hkeys : later.map Symbol.key =
      stored.map Symbol.key ++ if x.key ∈ stored.map Symbol.key then [] else [x.key])
    (hmem : ∀ y ∈ later, (y ∈ stored ∧ y.key ≠ x.key) ∨ y = x) :
    KeepsLatest (xs ++ [x]) later where
  keys_eq := by
    rw [hkeys, List.map_append, List.map_singleton, eraseDups_concat]
    simp only [h.keys_eq, List.mem_eraseDups]
  last := by
    intro y hy
    rcases hmem y hy with ⟨hstored, hne⟩ | rfl
    · obtain ⟨front, behind, rfl, hbehind⟩ := h.last y hstored
      refine ⟨front, behind ++ [x], by simp, fun z hz => ?_⟩
      rcases List.mem_append.1 hz with hz | hz
      · exact hbehind z hz
      · rw [List.mem_singleton.1 hz]
        exact hne.symm
    · exact ⟨xs, [], rfl, fun _ hz => absurd hz List.not_mem_nil⟩

/-- The keys after a symbol is saved are those that were there, and its own. -/
theorem Rows.map_key_save {s : SymbolStore} {rows : List (SymbolHandle × Symbol)} (h : s.Rows rows)
    (x : Symbol) :
    (s.save x).1.getAll.map Symbol.key =
      s.getAll.map Symbol.key ++ if x.key ∈ s.getAll.map Symbol.key then [] else [x.key] := by
  have hkeys : (s.save x).1.handles.keys = keysAfter s.handles.keys (.save x) :=
    h.keys_apply (.save x)
  rw [(h.save x).map_key, h.map_key, hkeys]
  by_cases hx : x.key ∈ s.handles.keys <;>
    simp [keysAfter, Operation.Removes, Operation.saved?, hx]

/-- What is kept after a symbol is saved was there under another key, or is the symbol. -/
theorem Rows.mem_getAll_save {s : SymbolStore} {rows : List (SymbolHandle × Symbol)}
    (h : s.Rows rows) {x y : Symbol} (hy : y ∈ (s.save x).1.getAll) :
    (y ∈ s.getAll ∧ y.key ≠ x.key) ∨ y = x := by
  obtain ⟨row, hrow, rfl⟩ := List.mem_map.1 ((h.save x).mem_getAll_iff.1 hy)
  rcases List.mem_append.1 hrow with hold | hnew
  · obtain ⟨hold, hne⟩ := List.mem_filter.1 hold
    exact Or.inl ⟨h.mem_getAll_iff.2 (List.mem_map_of_mem hold), of_decide_eq_true hne⟩
  · exact Or.inr (congrArg Prod.snd (List.mem_singleton.1 hnew))

/-- A store that is cleared and filled keeps what comes last under each key. -/
theorem keepsLatest_saveAll (s : SymbolStore) (xs : List Symbol) :
    KeepsLatest xs (s.clear.saveAll xs).getAll := by
  induction xs using List.reverseRecOn with
  | nil => exact ⟨rfl, fun _ hy => absurd hy List.not_mem_nil⟩
  | append_singleton xs x ih =>
    obtain ⟨rows, hrows, -⟩ := s.rows_clear.saveAll xs
    have hsave : s.clear.saveAll (xs ++ [x]) = ((s.clear.saveAll xs).save x).1 := by
      simp [saveAll]
    rw [hsave]
    exact ih.concat (hrows.map_key_save x) (fun y hy => hrows.mem_getAll_save hy)

/-- There are as many symbols as different keys. -/
theorem length_saveAll (s : SymbolStore) (xs : List Symbol) :
    (s.clear.saveAll xs).getAll.length = (xs.map Symbol.key).toFinset.card := by
  obtain ⟨rows, hrows, -⟩ := s.rows_clear.saveAll xs
  have hnodup : ((s.clear.saveAll xs).getAll.map Symbol.key).Nodup := by
    rw [hrows.map_key]
    exact Table.nodup_keys _
  rw [← List.length_map Symbol.key]
  refine length_eq_card_toFinset hnodup (fun key => ?_)
  rw [(s.keepsLatest_saveAll xs).keys_eq, List.mem_eraseDups]

end SymbolStore

end CodeAtlas.Store
