import CodeAtlas.Proofs.Store.Shelf
import CodeAtlas.Store.Calls

/-!
# Histories of a call store

A store of calls starts empty and changes by operations. The stored calls follow them: a saved call
comes last, under a handle that no stored call has, and a deleted one is taken out. Next to its call
graph the store is a table with four indices.

Main definition: `CallStore.view`, the table of calls with its indices.

Main results:

- Theorem `delete_eq_ok_iff`: what a deletion that succeeds leaves behind.
- Theorem `inStep_run`: after every history the indices are in step with the calls.
- Theorem `getAll_save`: a saved call comes behind the stored ones.
- Theorem `getAll_delete`: a deletion takes one call out, or fails and changes nothing.
-/

namespace CodeAtlas.Store

open CodeAtlas.Analysis
open CodeAtlas.Graph (CycleDetector)

/-- What calls are looked up by. -/
inductive CallAttribute where
  | caller
  | callee
  | kind
  | file

/-- The attributes of calls. No call is without one of them. -/
@[reducible]
def callCatalogue : Catalogue Call where
  Attribute := CallAttribute
  Value
    | .kind => CallKind
    | _ => String
  decEq
    | .caller | .callee | .file => inferInstanceAs (DecidableEq String)
    | .kind => inferInstanceAs (DecidableEq CallKind)
  value?
    | .caller, c => some c.caller
    | .callee, c => some c.callee
    | .kind, c => some c.kind
    | .file, c => some c.filePath

namespace CallStore

/-- What changes a store of calls. -/
inductive Operation where
  | save (c : Call)
  | delete (h : CallHandle)
  | clear
  | setDetector (detector : CycleDetector)
  deriving Inhabited

/-- The store after an operation; a deletion that fails leaves it as it was. -/
def apply (s : CallStore) : Operation → CallStore
  | .save c => (s.save c).1
  | .delete h =>
    match s.delete h with
    | .ok deleted => deleted.1
    | .error _ => s
  | .clear => s.clear
  | .setDetector detector => s.setDetector detector

/-- The store after some operations, starting with the empty store. -/
def run (ops : List Operation) : CallStore := ops.foldl apply empty

/-- What holds of the empty store and is kept by every operation holds after every history. -/
theorem run_induction {p : CallStore → Prop} (hempty : p empty)
    (hstep : ∀ s op, p s → p (s.apply op)) (ops : List Operation) : p (run ops) :=
  List.foldlRecOn ops apply hempty (fun s hs op _ => hstep s op hs)

variable {s t : CallStore} {i : CallHandle}

/-! ## Deletions -/

/-- The store without a call and its handle. -/
def dropped (s : CallStore) (i : CallHandle) (c : Call) : CallStore :=
  { s with
    calls := s.calls.erase i
    byCaller := s.byCaller.remove c.caller i
    byCallee := s.byCallee.remove c.callee i
    byKind := s.byKind.remove c.kind i
    byFile := s.byFile.remove c.filePath i
    graph := s.graph.removeEdge c.caller c.callee }

/-- A deletion takes the call of a handle out everywhere. Without one it fails, and names the
handle. -/
theorem takesOut_deletion (i : CallHandle) :
    TakesOut (deletion i) (fun s => s.calls.get? i) (fun s c => s.dropped i c)
      (.unknownHandle .call i.number) where
  run_of_none h := by rw [deletion, EStateM.run_bind, run_takeOut_of_none h]
  run_of_some h := by
    rw [deletion, EStateM.run_bind, run_takeOut_of_some h]
    rfl

/-- A deletion that succeeds takes out the call of the handle, and that call is given back. -/
theorem delete_eq_ok_iff {deleted : CallStore × Call} :
    s.delete i = .ok deleted ↔ ∃ c, s.calls.get? i = some c ∧ deleted = (s.dropped i c, c) :=
  (takesOut_deletion i).perform_eq_ok_iff

/-- A deletion fails if the handle leads nowhere, and names the handle. -/
theorem delete_eq_error_iff {e : StoreError} :
    s.delete i = .error e ↔ s.calls.get? i = none ∧ e = .unknownHandle .call i.number :=
  (takesOut_deletion i).perform_eq_error_iff

/-- A deletion that succeeds takes one call out. -/
theorem getAll_delete {deleted : CallStore × Call} (hdelete : s.delete i = .ok deleted) :
    s.getAll.Perm (deleted.2 :: deleted.1.getAll) := by
  obtain ⟨c, hget, rfl⟩ := delete_eq_ok_iff.1 hdelete
  exact s.calls.values_perm_erase hget

/-! ## The table with its indices -/

/-- The calls with their indices. -/
def shelf (s : CallStore) : Shelf .call callCatalogue where
  table := s.calls
  index
    | .caller => s.byCaller
    | .callee => s.byCallee
    | .kind => s.byKind
    | .file => s.byFile
  next := s.nextNumber

/-- The rest of the store are its call graph and the way of reporting cycles. -/
theorem eq_of_shelf_eq (hshelf : s.shelf = t.shelf) (hgraph : s.graph = t.graph)
    (hdetector : s.detector = t.detector) : s = t := by
  have hcalls : s.calls = t.calls := congrArg Shelf.table hshelf
  have hindex := congrFun (congrArg Shelf.index hshelf)
  have hcaller : s.byCaller = t.byCaller := hindex .caller
  have hcallee : s.byCallee = t.byCallee := hindex .callee
  have hkind : s.byKind = t.byKind := hindex .kind
  have hfile : s.byFile = t.byFile := hindex .file
  have hnext : s.nextNumber = t.nextNumber := congrArg Shelf.next hshelf
  cases s
  cases t
  simp_all

theorem shelf_empty : empty.shelf = .empty :=
  Shelf.ext rfl (funext (fun a => by cases a <;> rfl)) rfl

theorem shelf_save (s : CallStore) (c : Call) : (s.save c).1.shelf = s.shelf.save c :=
  Shelf.ext rfl (funext (fun a => by cases a <;> rfl)) rfl

theorem shelf_dropped (s : CallStore) (i : CallHandle) (c : Call) :
    (s.dropped i c).shelf = s.shelf.drop i c :=
  Shelf.ext rfl (funext (fun a => by cases a <;> rfl)) rfl

theorem shelf_clear (s : CallStore) : s.clear.shelf = s.shelf.clear :=
  Shelf.ext rfl (funext (fun a => by cases a <;> rfl)) rfl

/-- What an operation does to the table and its indices. -/
def Operation.effect : Operation → Effect .call Call
  | .save c => .save c
  | .delete h => .delete h
  | .clear => .clear
  | .setDetector _ => .keep

theorem shelf_apply (s : CallStore) (op : Operation) :
    (s.apply op).shelf = s.shelf.apply op.effect := by
  cases op with
  | save c => exact s.shelf_save c
  | delete i =>
    simp only [apply, Operation.effect, Shelf.apply]
    split
    · next deleted hdelete =>
      obtain ⟨c, hget, rfl⟩ := delete_eq_ok_iff.1 hdelete
      simp only [show s.shelf.table.get? i = some c from hget, shelf_dropped]
    · next e hdelete =>
      have hget : s.shelf.table.get? i = none := (delete_eq_error_iff.1 hdelete).1
      simp only [hget]
  | clear => exact s.shelf_clear
  | setDetector detector => rfl

/-- A store of calls is a table with indices. -/
def view : View .call callCatalogue CallStore Operation :=
  ⟨shelf, apply, Operation.effect, shelf_apply⟩

/-- After every history the indices are in step with the calls, and no bucket is empty. -/
theorem inStep_run (ops : List Operation) : (run ops).shelf.InStep := by
  have hempty : empty.shelf.InStep := by
    rw [shelf_empty]
    exact Shelf.inStep_empty
  exact view.inStep_foldl hempty ops

/-- A saved call comes behind the stored ones. -/
theorem getAll_save (h : Shelved s.calls s.nextNumber) (c : Call) :
    (s.save c).1.getAll = s.getAll ++ [c] :=
  s.calls.values_insert_of_new c (h.get?_eq_none (Nat.le_refl _))

end CallStore

end CodeAtlas.Store
