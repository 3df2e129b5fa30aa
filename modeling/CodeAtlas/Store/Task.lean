import CodeAtlas.Store.Handle
import CodeAtlas.Table

/-!
# Tasks

A task changes a store in place, one step after the other, and may fail between two of them. What its
steps have done by then stays done.

Main statements: `run_takeOut_of_none` and `run_takeOut_of_some`, what it does to a store to take an
entry out of one of its tables.
-/

namespace CodeAtlas.Store

variable {σ κ α : Type}

/-- A change of a store in place, with a result or an error. -/
abbrev Task (σ α : Type) := EStateM StoreError σ α

/-- The store after a task with the result of the task, or the error. -/
def perform (task : Task σ α) (s : σ) : Except StoreError (σ × α) :=
  match task.run s with
  | .ok x t => .ok (t, x)
  | .error e _ => .error e

variable [DecidableEq κ] {table : σ → Table κ α} {put : σ → Table κ α → σ} {s : σ} {k : κ}

/-- Takes the value of a key out of a table of the store, and fails if there is none. -/
def takeOut (table : σ → Table κ α) (put : σ → Table κ α → σ) (k : κ) (error : StoreError) :
    Task σ α := do
  match (table (← get)).get? k with
  | none => throw error
  | some x =>
    modify (fun s => put s ((table s).erase k))
    return x

theorem run_takeOut_of_none (h : (table s).get? k = none) (error : StoreError) :
    (takeOut table put k error).run s = .error error s := by
  rw [takeOut, EStateM.run_bind, EStateM.run_get]
  simp only [h]
  rfl

theorem run_takeOut_of_some {x : α} (h : (table s).get? k = some x) (error : StoreError) :
    (takeOut table put k error).run s = .ok x (put s ((table s).erase k)) := by
  rw [takeOut, EStateM.run_bind, EStateM.run_get]
  simp only [h]
  rfl

end CodeAtlas.Store
