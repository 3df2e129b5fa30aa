/-!
# Tab stops

Expanding tabs to the next column that is a multiple of eight. Columns are counted in
characters from the start of the line.

Main statement: `tab_not_mem_expandTabs`, the result holds no tab.
-/

namespace CodeAtlas.Text

/-- Columns between two tab stops. -/
def tabWidth : Nat := 8

/-- Expands tabs in a text that starts at `column`. -/
def expandTabsFrom (column : Nat) : List Char → List Char
  | [] => []
  | c :: rest =>
    if c = '\t' then
      let pad := tabWidth - column % tabWidth
      List.replicate pad ' ' ++ expandTabsFrom (column + pad) rest
    else if c = '\n' then c :: expandTabsFrom 0 rest
    else c :: expandTabsFrom (column + 1) rest

/-- The text with every tab replaced by blanks up to the next tab stop. -/
def expandTabs (text : List Char) : List Char := expandTabsFrom 0 text

theorem tab_not_mem_expandTabsFrom (column : Nat) (text : List Char) :
    '\t' ∉ expandTabsFrom column text := by
  induction text generalizing column with
  | nil => simp [expandTabsFrom]
  | cons c rest ih =>
    simp only [expandTabsFrom]
    split
    · simp only [List.mem_append, List.mem_replicate, not_or]
      exact ⟨fun h => absurd h.2 (by decide), ih _⟩
    · next hc =>
      split
      · next hn =>
        subst hn
        simp [ih]
      · simp only [List.mem_cons, not_or]
        exact ⟨fun h => hc h.symm, ih _⟩

theorem tab_not_mem_expandTabs (text : List Char) : '\t' ∉ expandTabs text :=
  tab_not_mem_expandTabsFrom 0 text

end CodeAtlas.Text
