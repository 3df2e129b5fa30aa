import CodeAtlas.Analysis.Symbol

/-!
# Symbols with their times

A record keeps a symbol with the time at which it was created and the time of its last update. It is
built by creating it and setting some optional properties, in any order, and changed only by updates.
What time it is comes from outside.

Main statement: `SymbolRecord.run_update`, an update is made as a whole, at its time, or refused and
leaves the record as it is.
-/

namespace CodeAtlas.Analysis

/-- A property that a symbol is given while it is built. -/
inductive SymbolProperty where
  | signature (text : String)
  | docComment (text : Option String)
  | visibility (visibility : Visibility)
  | decorators (names : List String)
  | parentClass (className : Option String)
  | isAsync (isAsync : Bool)
  deriving DecidableEq, Repr

/-- The symbol with a property. Of these only the decorators touch more than one field. -/
def Symbol.give (s : Symbol) : SymbolProperty → Symbol
  | .signature text => { s with signature := some text }
  | .docComment text => { s with docComment := text }
  | .visibility visibility => { s with visibility }
  | .decorators names => s.withDecorators names
  | .parentClass className => { s with parentClass := className }
  | .isAsync isAsync => { s with isAsync }

/-- A symbol with the times at which it was created and last updated. -/
structure SymbolRecord (τ : Type) where
  symbol : Symbol
  createdAt : τ
  updatedAt : τ
  deriving DecidableEq, Repr

namespace SymbolRecord

variable {τ α : Type}

/-- The record of a new symbol. -/
def create (now : τ) (name : String) (kind : SymbolKind) (filePath modulePath : String)
    (startLine endLine : Nat) : Except EntityError (SymbolRecord τ) :=
  (Symbol.create name kind filePath modulePath startLine endLine).map (fun s => ⟨s, now, now⟩)

/-- The record with a property of its symbol. -/
def give (r : SymbolRecord τ) (property : SymbolProperty) : SymbolRecord τ :=
  { r with symbol := r.symbol.give property }

/-- Does something to the symbol of a record. What is done to the symbol before an error stays
done. -/
def onSymbol (task : EStateM EntityError Symbol α) : EStateM EntityError (SymbolRecord τ) α :=
  fun r =>
    match task.run r.symbol with
    | .ok x s => .ok x { r with symbol := s }
    | .error e s => .error e { r with symbol := s }

/-- Changes the symbol of a record, and then sets the time of the last update. -/
def update (u : SymbolUpdate) (now : τ) : EStateM EntityError (SymbolRecord τ) Unit := do
  onSymbol (Symbol.change u)
  modify (fun r => { r with updatedAt := now })

theorem run_onSymbol_of_ok {task : EStateM EntityError Symbol α} {r : SymbolRecord τ} {x : α}
    {s : Symbol} (h : task.run r.symbol = .ok x s) :
    (onSymbol task).run r = .ok x { r with symbol := s } := by
  simp only [onSymbol, EStateM.run] at h ⊢
  rw [h]

theorem run_onSymbol_of_error {task : EStateM EntityError Symbol α} {r : SymbolRecord τ}
    {e : EntityError} {s : Symbol} (h : task.run r.symbol = .error e s) :
    (onSymbol task).run r = .error e { r with symbol := s } := by
  simp only [onSymbol, EStateM.run] at h ⊢
  rw [h]

/-- An update is made as a whole, or refused and leaves the record as it is. -/
theorem run_update (u : SymbolUpdate) (now : τ) (r : SymbolRecord τ) :
    (update u now).run r =
      if u.endLine.getD r.symbol.endLine < u.startLine.getD r.symbol.startLine then
        .error (.invalidRange (u.startLine.getD r.symbol.startLine)
          (u.endLine.getD r.symbol.endLine)) r
      else .ok () ⟨u.mergeInto r.symbol, r.createdAt, now⟩ := by
  have hchange := Symbol.run_change u r.symbol
  rw [update, EStateM.run_bind]
  by_cases hrange : u.endLine.getD r.symbol.endLine < u.startLine.getD r.symbol.startLine
  · rw [if_pos hrange] at hchange ⊢
    rw [run_onSymbol_of_error hchange]
  · rw [if_neg hrange] at hchange ⊢
    rw [run_onSymbol_of_ok hchange]
    rfl

end SymbolRecord

end CodeAtlas.Analysis
