import CodeAtlas.Text.Tabs
import Mathlib.Data.List.Induction

/-!
# Layout of tabs

Expanding tabs puts between one and eight blanks in place of each tab, so that the next character
stands at a tab stop. How many blanks that takes depends on the column behind what was put before,
which counts from the last line feed; so each line is laid out on its own. The columns are read off
the result here, not off a counter.

Main results:

- Theorem `expandTabsFrom_append`: what stands behind is laid out from the column that is reached.
- Theorem `laidOut_iff`: the text with expanded tabs is the only one that is laid out like this.
- Theorem `expandTabs_layout`: layout, independent lines and idempotence.
-/

namespace CodeAtlas.Text

/-- The column behind a text: the number of characters since the last line feed. -/
def column (text : List Char) : Nat := (text.reverse.takeWhile (· ≠ '\n')).length

/-- A text is laid out if each tab gives way to one to eight blanks, behind which the next character
stands at a tab stop, and every other character is kept. -/
inductive LaidOut : List Char → List Char → Prop where
  | nil : LaidOut [] []
  | tab {text out : List Char} {k : Nat} (h : LaidOut text out) (hk : 1 ≤ k ∧ k ≤ 8)
      (hstop : 8 ∣ column (out ++ List.replicate k ' ')) :
      LaidOut (text ++ ['\t']) (out ++ List.replicate k ' ')
  | keep {text out : List Char} {c : Char} (h : LaidOut text out) (hc : c ≠ '\t') :
      LaidOut (text ++ [c]) (out ++ [c])

/-! ## Columns -/

theorem column_concat (text : List Char) (c : Char) :
    column (text ++ [c]) = if c = '\n' then 0 else column text + 1 := by
  rw [column, List.reverse_append, List.reverse_singleton, List.singleton_append,
    List.takeWhile_cons]
  by_cases hc : c = '\n'
  · simp [hc]
  · simp [hc, column]

theorem column_append_newline (text : List Char) : column (text ++ ['\n']) = 0 := by
  rw [column_concat, if_pos rfl]

/-- Blanks lead as many columns on. -/
theorem column_append_blanks (text : List Char) (k : Nat) :
    column (text ++ List.replicate k ' ') = column text + k := by
  induction k with
  | zero => rw [List.replicate_zero, List.append_nil, Nat.add_zero]
  | succ k ih =>
    rw [List.replicate_succ', ← List.append_assoc, column_concat, if_neg (by decide), ih,
      Nat.add_assoc]

/-! ## Expanding from a column on -/

/-- What is put in place of a character at a column. -/
def expansion (column : Nat) (c : Char) : List Char :=
  if c = '\t' then List.replicate (tabWidth - column % tabWidth) ' ' else [c]

theorem expansion_tab (column : Nat) :
    expansion column '\t' = List.replicate (tabWidth - column % tabWidth) ' ' :=
  if_pos rfl

theorem expansion_of_ne (column : Nat) {c : Char} (hc : c ≠ '\t') : expansion column c = [c] :=
  if_neg hc

/-- The column that is counted is the one behind what was put so far. -/
theorem expandTabsFrom_cons (before : List Char) (c : Char) (rest : List Char) :
    expandTabsFrom (column before) (c :: rest) =
      expansion (column before) c ++
        expandTabsFrom (column (before ++ expansion (column before) c)) rest := by
  rw [expandTabsFrom]
  by_cases htab : c = '\t'
  · rw [if_pos htab, htab, expansion_tab, column_append_blanks]
  · rw [if_neg htab, expansion_of_ne _ htab, column_concat, List.singleton_append]
    by_cases hnewline : c = '\n'
    · rw [if_pos hnewline, if_pos hnewline]
    · rw [if_neg hnewline, if_neg hnewline]

/-- What stands behind a text is expanded from the column on that is reached there. -/
theorem expandTabsFrom_append (before text rest : List Char) :
    expandTabsFrom (column before) (text ++ rest) =
      expandTabsFrom (column before) text ++
        expandTabsFrom (column (before ++ expandTabsFrom (column before) text)) rest := by
  induction text generalizing before with
  | nil => simp [expandTabsFrom]
  | cons c text ih =>
    rw [List.cons_append, expandTabsFrom_cons, expandTabsFrom_cons before c text, ih,
      List.append_assoc, List.append_assoc]

theorem expandTabs_append (text rest : List Char) :
    expandTabs (text ++ rest) = expandTabs text ++ expandTabsFrom (column (expandTabs text)) rest :=
  expandTabsFrom_append [] text rest

/-- One more character adds what is put in its place. -/
theorem expandTabs_concat (text : List Char) (c : Char) :
    expandTabs (text ++ [c]) = expandTabs text ++ expansion (column (expandTabs text)) c := by
  rw [expandTabs_append, expandTabsFrom_cons, expandTabsFrom, List.append_nil]

/-- Each line is expanded on its own. -/
theorem expandTabs_append_newline (text rest : List Char) :
    expandTabs (text ++ '\n' :: rest) = expandTabs text ++ '\n' :: expandTabs rest := by
  rw [expandTabs_append, expandTabsFrom_cons, expansion_of_ne _ (by decide),
    column_append_newline, List.singleton_append]
  rfl

/-- A text without tabs stays as it is. -/
theorem expandTabsFrom_of_not_mem (column : Nat) {text : List Char} (h : '\t' ∉ text) :
    expandTabsFrom column text = text := by
  induction text generalizing column with
  | nil => rfl
  | cons c rest ih =>
    obtain ⟨hc, hrest⟩ := not_or.1 (mt List.mem_cons.2 h)
    rw [expandTabsFrom, if_neg (Ne.symm hc)]
    split <;> rw [ih _ hrest]

/-! ## Layout -/

/-- The number of blanks for a tab is the only one from one to eight that leads to a tab stop. -/
theorem blanks_eq_iff {column k : Nat} :
    k = tabWidth - column % tabWidth ↔ (1 ≤ k ∧ k ≤ 8) ∧ 8 ∣ column + k := by
  rw [tabWidth]
  omega

/-- The text with expanded tabs is the only one that is laid out. -/
theorem laidOut_iff {text out : List Char} : LaidOut text out ↔ out = expandTabs text := by
  constructor
  · intro h
    induction h with
    | nil => rfl
    | @tab text out k _ hk hstop ih =>
      rw [column_append_blanks] at hstop
      rw [expandTabs_concat, ← ih, expansion_tab, ← blanks_eq_iff.2 ⟨hk, hstop⟩]
    | keep _ hc ih => rw [expandTabs_concat, ← ih, expansion_of_ne _ hc]
  · rintro rfl
    induction text using List.reverseRecOn with
    | nil => exact LaidOut.nil
    | append_singleton text c ih =>
      rw [expandTabs_concat]
      by_cases hc : c = '\t'
      · obtain ⟨hk, hstop⟩ := blanks_eq_iff.1
          (Eq.refl (tabWidth - column (expandTabs text) % tabWidth))
        rw [← column_append_blanks] at hstop
        rw [hc, expansion_tab]
        exact LaidOut.tab ih hk hstop
      · rw [expansion_of_ne _ hc]
        exact LaidOut.keep ih hc

/-- Expanding tabs leaves no tab and lays the text out: the other characters are kept in order, and
each tab gives way to one to eight blanks up to the next tab stop, in one way only. Lines are
expanded on their own, and expanding twice is expanding once. -/
theorem expandTabs_layout (text : List Char) :
    '\t' ∉ expandTabs text ∧ (∀ out, LaidOut text out ↔ out = expandTabs text) ∧
      (∀ rest, expandTabs (text ++ '\n' :: rest) = expandTabs text ++ '\n' :: expandTabs rest) ∧
      expandTabs (expandTabs text) = expandTabs text :=
  ⟨tab_not_mem_expandTabs text, fun _ => laidOut_iff, expandTabs_append_newline text,
    expandTabsFrom_of_not_mem 0 (tab_not_mem_expandTabs text)⟩

/-- Two tabs in a row, a tab at a tab stop and one behind a line feed. -/
example : expandTabs "ab\t\tc\n12345678\td\n\te".toList =
    "ab              c\n12345678        d\n        e".toList := by
  decide +kernel

end CodeAtlas.Text
