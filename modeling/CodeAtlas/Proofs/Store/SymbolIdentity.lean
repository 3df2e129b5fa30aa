import CodeAtlas.Proofs.Store.SymbolHistory

/-!
# Keys and identities

What identifies a symbol is its module together with its qualified name. The store goes by the key,
which puts a dot between the two, and a key can be read in two ways if the module of one symbol goes
on, behind a dot, with what the qualified name of the other starts with.

Main results:

- Theorem `key_eq_iff`: two symbols have the same key if they have the same identity or one of them
  shadows the other.
- Theorem `sameIdentity_of_key_eq`: modules of the same depth leave only the first case.
- Theorem `keptApart_run`: after every history, a new symbol takes the place of those with its
  identity and of those that it shadows or that shadow it, and of no others.
-/

namespace CodeAtlas.Analysis.Symbol

/-- The symbols have the same module and the same qualified name. -/
def SameIdentity (x y : Symbol) : Prop :=
  x.modulePath = y.modulePath ∧ x.qualifiedName = y.qualifiedName

instance (x y : Symbol) : Decidable (x.SameIdentity y) :=
  inferInstanceAs (Decidable (x.modulePath = y.modulePath ∧ x.qualifiedName = y.qualifiedName))

/-- The module of the second symbol goes on behind that of the first with what the qualified name of
the first starts with. -/
def Shadows (x y : Symbol) : Prop :=
  ∃ part, y.modulePath = x.modulePath ++ "." ++ part ∧
    x.qualifiedName = part ++ "." ++ y.qualifiedName

/-- The number of dots in the module. -/
def moduleDepth (x : Symbol) : Nat := x.modulePath.toList.count '.'

/-- Two ways to cut a list at a mark: at the same place, or one of them further on. -/
theorem append_cons_eq_append_cons_iff {α : Type} {mark : α} {front front' back back' : List α} :
    front ++ mark :: back = front' ++ mark :: back' ↔
      (front = front' ∧ back = back') ∨
        (∃ part, front' = front ++ mark :: part ∧ back = part ++ mark :: back') ∨
        ∃ part, front = front' ++ mark :: part ∧ back' = part ++ mark :: back := by
  constructor
  · intro h
    rcases List.append_eq_append_iff.1 h with ⟨_ | ⟨_, part⟩, hfront, hback⟩ |
      ⟨_ | ⟨_, part⟩, hfront, hback⟩
    · exact Or.inl ⟨by simpa using hfront.symm, (List.cons.inj hback).2⟩
    · obtain ⟨rfl, rfl⟩ := List.cons.inj hback
      exact Or.inr (Or.inl ⟨part, hfront, rfl⟩)
    · exact Or.inl ⟨by simpa using hfront, (List.cons.inj hback).2.symm⟩
    · obtain ⟨rfl, rfl⟩ := List.cons.inj hback
      exact Or.inr (Or.inr ⟨part, hfront, rfl⟩)
  · rintro (⟨rfl, rfl⟩ | ⟨part, rfl, rfl⟩ | ⟨part, rfl, rfl⟩)
    · rfl
    · simp
    · simp

variable {x y : Symbol}

theorem toList_key (x : Symbol) :
    x.key.toList = x.modulePath.toList ++ '.' :: x.qualifiedName.toList := by
  simp [key]

/-- Shadowing, character by character. -/
theorem shadows_iff :
    x.Shadows y ↔ ∃ part, y.modulePath.toList = x.modulePath.toList ++ '.' :: part ∧
      x.qualifiedName.toList = part ++ '.' :: y.qualifiedName.toList := by
  constructor
  · rintro ⟨part, hmodule, hname⟩
    exact ⟨part.toList, by simp [hmodule], by simp [hname]⟩
  · rintro ⟨part, hmodule, hname⟩
    exact ⟨String.ofList part, String.toList_inj.1 (by simp [hmodule]),
      String.toList_inj.1 (by simp [hname])⟩

/-- Two symbols have the same key if they have the same identity or one shadows the other. -/
theorem key_eq_iff : x.key = y.key ↔ x.SameIdentity y ∨ x.Shadows y ∨ y.Shadows x := by
  rw [← String.toList_inj, toList_key, toList_key, append_cons_eq_append_cons_iff, String.toList_inj,
    String.toList_inj, shadows_iff, shadows_iff, SameIdentity]

/-- A shadowed symbol is in a deeper module. -/
theorem Shadows.moduleDepth_lt (h : x.Shadows y) : x.moduleDepth < y.moduleDepth := by
  obtain ⟨part, hmodule, -⟩ := shadows_iff.1 h
  rw [moduleDepth, moduleDepth, hmodule, List.count_append, List.count_cons_self]
  omega

/-- In modules of the same depth only symbols with the same identity have the same key. -/
theorem sameIdentity_of_key_eq (hdepth : x.moduleDepth = y.moduleDepth) (hkey : x.key = y.key) :
    x.SameIdentity y := by
  rcases key_eq_iff.1 hkey with hsame | hshadows | hshadows
  · exact hsame
  · exact absurd hdepth (Nat.ne_of_lt hshadows.moduleDepth_lt)
  · exact absurd hdepth (Nat.ne_of_gt hshadows.moduleDepth_lt)

end CodeAtlas.Analysis.Symbol

namespace CodeAtlas.Store.SymbolStore

open CodeAtlas.Analysis

/-! ## What a new symbol displaces -/

/-- The operation takes a symbol away: it saves one with the same identity or one that shadows it or
is shadowed by it, or it removes the key. -/
def Operation.Displaces : Operation → Symbol → Prop
  | .save x, y => y.SameIdentity x ∨ y.Shadows x ∨ x.Shadows y
  | op, y => op.Removes y.key

/-- What touches the key of a symbol displaces it. -/
theorem Operation.touches_iff_displaces {op : Operation} {y : Symbol} :
    op.Touches y.key ↔ op.Displaces y := by
  cases op with
  | save x => exact Symbol.key_eq_iff
  | delete key => exact Iff.rfl
  | clear => exact Iff.rfl
  | addReference key user => exact Iff.rfl

/-- After one more symbol the store holds that one and those that it does not displace. -/
theorem mem_getAll_save_iff (ops : List Operation) (x y : Symbol) :
    y ∈ ((run ops).save x).1.getAll ↔
      y = x ∨ (y ∈ (run ops).getAll ∧ ¬(Operation.save x).Displaces y) := by
  have hafter := (recorded_run.1 (ops ++ [.save x])).mem_getAll_iff y
  rw [run_concat, SymbolStore.apply] at hafter
  rw [hafter, (recorded_run.1 ops).mem_getAll_iff y]
  simp only [lastSave_concat, Operation.touches_iff_displaces, Operation.save.injEq]
  constructor
  · rintro ⟨i, ⟨hi, hstays⟩ | ⟨-, rfl⟩⟩
    · exact Or.inr ⟨⟨i, hi⟩, hstays⟩
    · exact Or.inl rfl
  · rintro (rfl | ⟨⟨i, hi⟩, hstays⟩)
    · exact ⟨ops.length, Or.inr ⟨rfl, rfl⟩⟩
    · exact ⟨i, Or.inl ⟨hi, hstays⟩⟩

/-- Symbols in a store make way for others only by what they are. -/
structure KeptApart (ops : List Operation) : Prop where
  /-- A symbol is there if it was saved and nothing displaced it since. -/
  mem_getAll_iff : ∀ x, x ∈ (run ops).getAll ↔
    ∃ i, StandsAt ops i (.save x) (fun op => ¬op.Displaces x)
  /-- One more symbol takes the place of those that it displaces. -/
  mem_save_iff : ∀ x y, y ∈ ((run ops).save x).1.getAll ↔
    y = x ∨ (y ∈ (run ops).getAll ∧ ¬(Operation.save x).Displaces y)
  /-- In modules of the same depth these are symbols with the same identity. -/
  sameIdentity : ∀ x, ∀ y ∈ (run ops).getAll, y ∉ ((run ops).save x).1.getAll →
    y.moduleDepth = x.moduleDepth → y.SameIdentity x

/-- After every history a symbol makes way for those with its identity and for those that it shadows
or that shadow it. -/
theorem keptApart_run (ops : List Operation) : KeptApart ops where
  mem_getAll_iff x := by
    rw [(recorded_run.1 ops).mem_getAll_iff x]
    simp only [LastSave, Operation.touches_iff_displaces]
  mem_save_iff := mem_getAll_save_iff ops
  sameIdentity x y hy hgone hdepth := by
    have hdisplaces : (Operation.save x).Displaces y := by
      by_contra hstays
      exact hgone ((mem_getAll_save_iff ops x y).2 (Or.inr ⟨hy, hstays⟩))
    exact Symbol.sameIdentity_of_key_eq hdepth (Symbol.key_eq_iff.2 hdisplaces)

/-- A function of a module with a dot in its name. -/
def dottedFunction : Symbol where
  name := "c"
  kind := .function
  filePath := "a.b.py"
  modulePath := "a.b"
  startLine := 1
  endLine := 2

/-- A method whose class is named like what is behind that dot. -/
def dottedMethod : Symbol where
  name := "c"
  kind := .function
  filePath := "a.py"
  modulePath := "a"
  startLine := 2
  endLine := 3
  parentClass := some "b"

/-- The method takes the place of the function, which is in another module and has another qualified
name. -/
theorem displaced_without_sameIdentity :
    (∃ x, Symbol.create "c" .function "a.b.py" "a.b" 1 2 = .ok x ∧ dottedFunction = x) ∧
      (∃ x, Symbol.create "c" .function "a.py" "a" 2 3 = .ok x ∧
        dottedMethod = { x with parentClass := some "b" }) ∧
      dottedFunction ∈ (run [.save dottedFunction]).getAll ∧
      dottedFunction ∉ ((run [.save dottedFunction]).save dottedMethod).1.getAll ∧
      ¬dottedFunction.SameIdentity dottedMethod := by
  have hgone : dottedFunction ∉ ((run [.save dottedFunction]).save dottedMethod).1.getAll := by
    decide +kernel
  exact ⟨⟨_, rfl, rfl⟩, ⟨_, rfl, rfl⟩, by decide +kernel, hgone, by decide +kernel⟩

end CodeAtlas.Store.SymbolStore
