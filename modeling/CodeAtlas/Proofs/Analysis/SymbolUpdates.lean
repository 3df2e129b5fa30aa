import CodeAtlas.Analysis.SymbolRecord

/-!
# Updates of symbols

A symbol is built with a range of lines that does not end before it starts, and every update keeps
that: an update is judged by the range that it would lead to, and is made as a whole or not at all.
What a symbol is called and where it comes from is settled when it is built; no update can change it.

Main results:

- Theorem `IsBuilt.startLine_le_endLine`: the properties of a symbol do not touch its range.
- Theorem `update_whole`: what one update does.
- Theorem `Kept.updated`: an update, made or refused, keeps the range and what identifies the symbol.
- Theorem `kept_after`: what holds after every history of updates.
-/

namespace CodeAtlas.Analysis.SymbolRecord

variable {τ : Type} {r t : SymbolRecord τ} {u : SymbolUpdate} {now : τ}

/-! ## Building -/

/-- A record is built: it is new, or it was given a property while it was built. -/
inductive IsBuilt : SymbolRecord τ → Prop where
  | create {now : τ} {name filePath modulePath : String} {kind : SymbolKind}
      {startLine endLine : Nat} {r : SymbolRecord τ}
      (h : create now name kind filePath modulePath startLine endLine = .ok r) : IsBuilt r
  | give {r : SymbolRecord τ} (h : IsBuilt r) (property : SymbolProperty) : IsBuilt (r.give property)

/-- A new record is that of a new symbol. -/
theorem create_eq_ok {name filePath modulePath : String} {kind : SymbolKind}
    {startLine endLine : Nat} (h : create now name kind filePath modulePath startLine endLine = .ok r) :
    Symbol.create name kind filePath modulePath startLine endLine = .ok r.symbol := by
  unfold create at h
  cases hs : Symbol.create name kind filePath modulePath startLine endLine with
  | error e => simp [hs, Except.map] at h
  | ok s =>
    rw [hs] at h
    cases h
    rfl

/-- No property of a symbol is its range. -/
theorem IsBuilt.startLine_le_endLine (h : IsBuilt r) : r.symbol.startLine ≤ r.symbol.endLine := by
  induction h with
  | create h => exact Symbol.startLine_le_endLine_of_create (create_eq_ok h)
  | give _ property ih => cases property <;> exact ih

/-! ## One update -/

/-- An update is made as a whole or not at all. -/
structure UpdatesWhole (r : SymbolRecord τ) (u : SymbolUpdate) (now : τ) : Prop where
  /-- It is refused exactly if the range that it would lead to ends before it starts. -/
  refused_iff : (∃ e t, (update u now).run r = .error e t) ↔
    u.endLine.getD r.symbol.endLine < u.startLine.getD r.symbol.startLine
  /-- The error tells that range, and nothing has been changed, the times included. -/
  refused : ∀ e t, (update u now).run r = .error e t →
    e = .invalidRange (u.startLine.getD r.symbol.startLine) (u.endLine.getD r.symbol.endLine) ∧ t = r
  /-- Otherwise the fields that are given are set and no others, and the time of the update is
  noted. -/
  made : ∀ t, (update u now).run r = .ok () t →
    t = { r with symbol := u.mergeInto r.symbol, updatedAt := now }

theorem update_whole (r : SymbolRecord τ) (u : SymbolUpdate) (now : τ) : UpdatesWhole r u now := by
  have hrun := run_update u now r
  by_cases hrange : u.endLine.getD r.symbol.endLine < u.startLine.getD r.symbol.startLine
  · rw [if_pos hrange] at hrun
    refine ⟨⟨fun _ => hrange, fun _ => ⟨_, _, hrun⟩⟩, ?refused, ?made⟩
    case refused =>
      intro e t he
      obtain ⟨rfl, rfl⟩ := EStateM.Result.error.inj (hrun.symm.trans he)
      exact ⟨rfl, rfl⟩
    case made => exact fun t ht => nomatch hrun.symm.trans ht
  · rw [if_neg hrange] at hrun
    refine ⟨⟨?_, fun hlt => absurd hlt hrange⟩, ?refused, ?made⟩
    · rintro ⟨e, t, he⟩
      exact nomatch hrun.symm.trans he
    case refused => exact fun e t he => nomatch hrun.symm.trans he
    case made =>
      intro t ht
      exact (EStateM.Result.ok.inj (hrun.symm.trans ht)).2.symm

/-! ## Histories of updates -/

/-- The record after an update, whether it is made or refused. -/
def updated (r : SymbolRecord τ) (u : SymbolUpdate) (now : τ) : SymbolRecord τ :=
  match (update u now).run r with
  | .ok _ t => t
  | .error _ t => t

/-- The record after a history of updates, each with its time. -/
def after (r : SymbolRecord τ) (history : List (SymbolUpdate × τ)) : SymbolRecord τ :=
  history.foldl (fun r step => r.updated step.1 step.2) r

theorem updated_eq (r : SymbolRecord τ) (u : SymbolUpdate) (now : τ) :
    r.updated u now =
      if u.endLine.getD r.symbol.endLine < u.startLine.getD r.symbol.startLine then r
      else { r with symbol := u.mergeInto r.symbol, updatedAt := now } := by
  rw [updated, run_update]
  by_cases hrange : u.endLine.getD r.symbol.endLine < u.startLine.getD r.symbol.startLine
  · rw [if_pos hrange, if_pos hrange]
  · rw [if_neg hrange, if_neg hrange]

/-- A record as it is left by updates of another one. -/
structure Kept (r t : SymbolRecord τ) : Prop where
  startLine_le_endLine : t.symbol.startLine ≤ t.symbol.endLine
  name : t.symbol.name = r.symbol.name
  kind : t.symbol.kind = r.symbol.kind
  filePath : t.symbol.filePath = r.symbol.filePath
  modulePath : t.symbol.modulePath = r.symbol.modulePath
  parentClass : t.symbol.parentClass = r.symbol.parentClass
  createdAt : t.createdAt = r.createdAt

namespace Kept

/-- What a symbol is called follows from its name and its class. -/
theorem qualifiedName (h : Kept r t) : t.symbol.qualifiedName = r.symbol.qualifiedName := by
  rw [Symbol.qualifiedName, Symbol.qualifiedName, h.parentClass, h.name]

theorem key (h : Kept r t) : t.symbol.key = r.symbol.key := by
  rw [Symbol.key, Symbol.key, h.modulePath, h.qualifiedName]

/-- The difference in the number of lines is one of natural numbers. -/
theorem lineCount (h : Kept r t) : t.symbol.lineCount + t.symbol.startLine = t.symbol.endLine + 1 := by
  have hrange := h.startLine_le_endLine
  unfold Symbol.lineCount
  omega

/-- An update that is refused keeps the old range, and one that is made was judged by the new one. No
update gives what identifies a symbol. -/
theorem updated (h : Kept r t) (u : SymbolUpdate) (now : τ) : Kept r (t.updated u now) := by
  rw [updated_eq]
  by_cases hrange : u.endLine.getD t.symbol.endLine < u.startLine.getD t.symbol.startLine
  · rw [if_pos hrange]
    exact h
  · rw [if_neg hrange]
    exact ⟨Nat.not_lt.1 hrange, h.name, h.kind, h.filePath, h.modulePath, h.parentClass, h.createdAt⟩

end Kept

end CodeAtlas.Analysis.SymbolRecord
