import CodeAtlas.Proofs.Store.Buckets
import CodeAtlas.Proofs.Store.Handles
import CodeAtlas.Proofs.Store.Shift
import CodeAtlas.Store.Task

/-!
# Tables with indices

The stores of calls and of chunks keep a table under handles, and an index for each attribute that
its entries are looked up by. What an operation does to them does not depend on what the attributes
are. It is said here once, of a shelf: a table with an index for each attribute of a catalogue. A
store is seen as the shelf in it, where each of its operations has one effect.

Main definitions:

- `Catalogue`: the attributes of what is kept.
- `Shelf`, `Effect` and `Shelf.apply`: a table with indices, and what can happen to it.
- `Shelf.InStep`: the indices are in step with the table, and no bucket is empty.
- `TakesOut` and `View`: a task that deletes, and a store with a shelf in it.

Main results:

- Theorem `InStep.apply`: every operation keeps table and indices in step.
- Theorem `InStep.drop_save`: what goes again leaves no trace but the number that was issued.
- Theorems `InStep.find_filter` and `InStep.eq_clear`: indices list what is left in the table.
- Theorem `Shifts.save`: saving goes along with shifting all handles.
- Theorems `View.fresh` and `View.get?_eq_some_iff`: what a history of a store says about handles.
-/

namespace CodeAtlas.Store

variable {kind : EntityKind} {α : Type}

/-- The attributes by which something is looked up, and their values. An attribute may be missing. -/
structure Catalogue (α : Type) where
  Attribute : Type
  Value : Attribute → Type
  decEq : ∀ a, DecidableEq (Value a)
  value? : ∀ a, α → Option (Value a)

attribute [instance] Catalogue.decEq

/-- A table under handles with an index for each attribute, and the number that is given out next. -/
@[ext]
structure Shelf (kind : EntityKind) (catalogue : Catalogue α) where
  table : Table (Handle kind) α
  index : ∀ a, Index (catalogue.Value a) (Handle kind)
  next : Nat

/-- What can happen to what is kept. -/
inductive Effect (kind : EntityKind) (α : Type) where
  | save (x : α)
  | delete (i : Handle kind)
  | clear
  | keep

namespace Effect

/-- The handle that is given out, with what is kept under it. -/
def handed (handle : α → Handle kind) : Effect kind α → Option (Handle kind × α)
  | .save x => some (handle x, x)
  | _ => none

/-- What is kept under a handle is taken away, if there is anything. -/
def Drops : Effect kind α → Handle kind → Prop
  | .delete j, i => i = j
  | .clear, _ => True
  | _, _ => False

end Effect

namespace Shelf

variable {catalogue : Catalogue α} {s t : Shelf kind catalogue} {i : Handle kind} {x : α}

/-- The shelf without entries from which no handle was given out. -/
def empty : Shelf kind catalogue := ⟨∅, fun _ => {}, 0⟩

/-- The shelf with one more entry under the next handle. -/
def save (s : Shelf kind catalogue) (x : α) : Shelf kind catalogue where
  table := s.table.insert ⟨s.next⟩ x
  index a := (s.index a).addOptional (catalogue.value? a x) ⟨s.next⟩
  next := s.next + 1

/-- The shelf with some more entries, one after the other. -/
def saveAll (s : Shelf kind catalogue) (xs : List α) : Shelf kind catalogue := xs.foldl save s

/-- The shelf without an entry and its handle. -/
def drop (s : Shelf kind catalogue) (i : Handle kind) (x : α) : Shelf kind catalogue where
  table := s.table.erase i
  index a := (s.index a).removeOptional (catalogue.value? a x) i
  next := s.next

/-- The shelf without entries. -/
def clear (s : Shelf kind catalogue) : Shelf kind catalogue := { empty with next := s.next }

/-- The shelf after something has happened to it. -/
def apply (s : Shelf kind catalogue) : Effect kind α → Shelf kind catalogue
  | .save x => s.save x
  | .delete i =>
    match s.table.get? i with
    | some x => s.drop i x
    | none => s
  | .clear => s.clear
  | .keep => s

/-! ## Handles -/

/-- A handle that is dropped leads nowhere. -/
theorem get?_apply_of_drops (s : Shelf kind catalogue) {e : Effect kind α} (h : e.Drops i) :
    (s.apply e).table.get? i = none := by
  cases e with
  | delete j =>
    obtain rfl : i = j := h
    simp only [apply]
    split
    · exact s.table.get?_erase_self i
    · assumption
  | clear => exact Table.get?_empty i
  | _ => exact h.elim

/-- What is not dropped stays, unless something is saved. -/
theorem get?_apply_of_not_drops {handle : α → Handle kind} {e : Effect kind α}
    (hsaves : e.handed handle = none) (hdrops : ¬e.Drops i) (hget : s.table.get? i = some x) :
    (s.apply e).table.get? i = some x := by
  cases e with
  | save y => cases hsaves
  | delete j =>
    simp only [apply]
    split
    · exact (s.table.get?_erase_of_ne hdrops).trans hget
    · exact hget
  | clear => exact absurd trivial hdrops
  | keep => exact hget

/-- Saving keeps something under the next handle, and nothing else gives a handle out. -/
theorem issues : Issues (fun s : Shelf kind catalogue => s.table) (fun s => s.next) apply
    (fun s e => e.handed (fun _ => ⟨s.next⟩)) := by
  intro s e
  cases e with
  | save x => exact Or.inr ⟨x, rfl, rfl, rfl⟩
  | delete i =>
    refine Or.inl ⟨rfl, ?_⟩
    simp only [apply]
    split
    · exact ⟨rfl, s.table.entries_erase i ▸ List.filter_sublist⟩
    · exact ⟨rfl, List.Sublist.refl _⟩
  | clear => exact Or.inl ⟨rfl, rfl, List.nil_sublist _⟩
  | keep => exact Or.inl ⟨rfl, rfl, List.Sublist.refl _⟩

/-! ## Indices in step -/

/-- The table is in the order of its handles, every index is in step with it, and no bucket is
empty. -/
structure InStep (s : Shelf kind catalogue) : Prop where
  shelved : Shelved s.table s.next
  lists : ∀ a, (s.index a).Lists s.table.entries (catalogue.value? a)
  tight : ∀ a, (s.index a).Tight

/-- Without entries the indices are in step. -/
theorem inStep_clear (s : Shelf kind catalogue) : s.clear.InStep where
  shelved := shelved_empty _
  lists _ := Index.lists_nil _
  tight _ := Index.tight_nil

theorem inStep_empty : (empty : Shelf kind catalogue).InStep := inStep_clear empty

/-- The next handle is new to the table. -/
theorem InStep.get?_next (h : s.InStep) : s.table.get? ⟨s.next⟩ = none :=
  h.shelved.get?_eq_none (Nat.le_refl _)

theorem InStep.save (h : s.InStep) (x : α) : (s.save x).InStep where
  shelved := h.shelved.insert_next x
  lists a := (h.lists a).insert h.get?_next x
  tight a := (h.tight a).addOptional _ _

theorem InStep.drop (h : s.InStep) (hget : s.table.get? i = some x) : (s.drop i x).InStep where
  shelved := h.shelved.erase i
  lists a := (h.lists a).erase hget
  tight a := (h.tight a).removeOptional _ _

/-- Whatever happens, the indices stay in step. -/
theorem InStep.apply (h : s.InStep) (e : Effect kind α) : (s.apply e).InStep := by
  cases e with
  | save x => exact h.save x
  | delete i =>
    simp only [Shelf.apply]
    split
    · next x hget => exact h.drop hget
    · exact h
  | clear => exact s.inStep_clear
  | keep => exact h

/-- What is saved comes behind what is there. -/
theorem InStep.values_save (h : s.InStep) (x : α) :
    (s.save x).table.values = s.table.values ++ [x] :=
  s.table.values_insert_of_new x h.get?_next

theorem InStep.saveAll (h : s.InStep) (xs : List α) :
    (s.saveAll xs).InStep ∧ (s.saveAll xs).table.values = s.table.values ++ xs := by
  induction xs generalizing s with
  | nil => exact ⟨h, (List.append_nil _).symm⟩
  | cons x xs ih =>
    obtain ⟨hlater, hvalues⟩ := ih (h.save x)
    refine ⟨hlater, hvalues.trans ?_⟩
    rw [h.values_save, List.append_assoc, List.singleton_append]

/-- An entry that is saved and goes again leaves no trace but the number that was issued. -/
theorem InStep.drop_save (h : s.InStep) (x : α) :
    (s.save x).drop ⟨s.next⟩ x = { s with next := s.next + 1 } := by
  have hindex : ∀ a, ((s.index a).addOptional (catalogue.value? a x) ⟨s.next⟩).removeOptional
      (catalogue.value? a x) ⟨s.next⟩ = s.index a :=
    fun a => (h.tight a).removeOptional_addOptional ((h.lists a).not_mem_find_of_new h.get?_next)
  simp only [Shelf.drop, Shelf.save, s.table.erase_insert_of_new x h.get?_next, hindex]

/-- If some entries of a table are left, the handles of others are gone from the indices, and those
that are left stand in the same order. -/
theorem InStep.find_filter (h : s.InStep) (h' : t.InStep) {p : Handle kind → Bool}
    (hentries : t.table.entries = s.table.entries.filter (fun e => p e.1)) (a : catalogue.Attribute)
    (key : catalogue.Value a) : (t.index a).find key = ((s.index a).find key).filter p :=
  (h.lists a).find_filter (hentries ▸ h'.lists a) key

/-- If no entry is left, nothing is left. -/
theorem InStep.eq_clear (h : s.InStep) (hentries : s.table.entries = []) : s = s.clear := by
  have htable : s.table = ∅ := Table.ext hentries
  have hindex : s.index = fun _ => {} :=
    funext (fun a => (h.tight a).eq_empty ((h.lists a).find_eq_nil hentries))
  calc s = ⟨s.table, s.index, s.next⟩ := rfl
    _ = s.clear := by rw [htable, hindex, clear, empty]

/-! ## Shifted handles -/

/-- One shelf has what the other has, under shifted handles. -/
structure Shifts (n : Nat) (s t : Shelf kind catalogue) : Prop where
  table : s.table.Renames (Handle.shift n) id t.table
  index : ∀ a, (s.index a).Shifts n (t.index a)
  next : t.next = n + s.next

/-- A cleared shelf is an empty one with shifted handles. -/
theorem shifts_clear (s : Shelf kind catalogue) : empty.Shifts s.next s.clear :=
  ⟨rfl, fun _ => rfl, rfl⟩

variable {n : Nat}

/-- The next handle is shifted. -/
theorem Shifts.nextHandle (h : s.Shifts n t) :
    (⟨t.next⟩ : Handle kind) = Handle.shift n ⟨s.next⟩ :=
  congrArg Handle.mk h.next

/-- Saving goes along with shifting. -/
theorem Shifts.save (h : s.Shifts n t) (x : α) : (s.save x).Shifts n (t.save x) where
  table := by
    simp only [Shelf.save, h.nextHandle]
    exact h.table.insert (Handle.shift_injective n) _ x
  index a := by
    simp only [Shelf.save, h.nextHandle]
    exact (h.index a).addOptional _ _
  next := congrArg (· + 1) h.next

/-- A shifted handle leads to what the handle leads to. -/
theorem Shifts.get? (h : s.Shifts n t) (i : Handle kind) :
    t.table.get? (i.shift n) = s.table.get? i :=
  get?_shift h.table i

/-- The handles listed under a value lead to the same entries. -/
theorem Shifts.filterMap_find (h : s.Shifts n t) (a : catalogue.Attribute)
    (key : catalogue.Value a) :
    ((t.index a).find key).filterMap t.table.get? =
      ((s.index a).find key).filterMap s.table.get? :=
  (h.index a).filterMap_find h.get? key

end Shelf

/-! ## Stores with a shelf -/

section TakesOut

variable {σ : Type} {task : Task σ α} {get? : σ → Option α} {dropped : σ → α → σ}
  {error : StoreError} {s : σ}

/-- A task takes something out of a store and gives it back, or fails at once if it is not there. -/
structure TakesOut (task : Task σ α) (get? : σ → Option α) (dropped : σ → α → σ)
    (error : StoreError) : Prop where
  run_of_none : ∀ {s}, get? s = none → task.run s = .error error s
  run_of_some : ∀ {s x}, get? s = some x → task.run s = .ok x (dropped s x)

theorem TakesOut.perform_eq_ok_iff (h : TakesOut task get? dropped error) {done : σ × α} :
    perform task s = .ok done ↔ ∃ x, get? s = some x ∧ done = (dropped s x, x) := by
  unfold perform
  cases hget : get? s with
  | none => simp [h.run_of_none hget]
  | some x => simp [h.run_of_some hget, eq_comm]

theorem TakesOut.perform_eq_error_iff (h : TakesOut task get? dropped error) {e : StoreError} :
    perform task s = .error e ↔ get? s = none ∧ e = error := by
  unfold perform
  cases hget : get? s with
  | none => simp [h.run_of_none hget, eq_comm]
  | some x => simp [h.run_of_some hget]

end TakesOut

/-- A store with a shelf in it, on which each operation has an effect. -/
structure View (kind : EntityKind) (catalogue : Catalogue α) (σ ω : Type) where
  shelf : σ → Shelf kind catalogue
  apply : σ → ω → σ
  effect : ω → Effect kind α
  shelf_apply : ∀ s op, shelf (apply s op) = (shelf s).apply (effect op)

namespace View

variable {catalogue : Catalogue α} {σ ω : Type} (v : View kind catalogue σ ω) {start : σ}

/-- The handle that an operation gives out, with what is kept under it. -/
def handed (s : σ) (op : ω) : Option (Handle kind × α) :=
  (v.effect op).handed (fun _ => ⟨(v.shelf s).next⟩)

/-- An operation takes away what is kept under a handle, if there is anything. -/
def Drops (op : ω) : Handle kind → Prop := (v.effect op).Drops

/-- Whatever is done, the indices stay in step. -/
theorem inStep_foldl (hstart : (v.shelf start).InStep) (ops : List ω) :
    (v.shelf (ops.foldl v.apply start)).InStep := by
  refine List.foldlRecOn (motive := fun s => (v.shelf s).InStep) ops v.apply hstart
    (fun s hs op _ => ?_)
  rw [v.shelf_apply]
  exact hs.apply (v.effect op)

theorem issues :
    Issues (fun s => (v.shelf s).table) (fun s => (v.shelf s).next) v.apply v.handed := by
  intro s op
  simp only [v.shelf_apply]
  exact Shelf.issues (v.shelf s) (v.effect op)

theorem get?_apply_of_drops (s : σ) (op : ω) (i : Handle kind) (h : v.Drops op i) :
    (v.shelf (v.apply s op)).table.get? i = none := by
  rw [v.shelf_apply]
  exact (v.shelf s).get?_apply_of_drops h

/-- From a store without entries, a history gives out every handle once and for one entry. -/
theorem fresh (hstart : (v.shelf start).table = ∅) (ops : List ω) :
    Fresh (fun s => (v.shelf s).table) v.apply v.handed v.Drops start ops :=
  v.issues.fresh v.get?_apply_of_drops hstart ops

/-- A handle leads to something exactly if it was given out for that and not dropped since. -/
theorem get?_eq_some_iff (hstart : (v.shelf start).table = ∅) (ops : List ω) {i : Handle kind}
    {x : α} :
    (v.shelf (ops.foldl v.apply start)).table.get? i = some x ↔
      Standing v.apply v.handed v.Drops start ops i x := by
  refine v.issues.get?_eq_some_iff v.get?_apply_of_drops (fun s op i x hsaves hdrops hget => ?_)
    hstart ops
  rw [v.shelf_apply]
  exact Shelf.get?_apply_of_not_drops hsaves hdrops hget

end View

end CodeAtlas.Store
