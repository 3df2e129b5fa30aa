import CodeAtlas.Text.Blank
import CodeAtlas.Text.Lines
import CodeAtlas.Text.Tabs
import Mathlib.Data.List.DropRight
import Mathlib.Data.List.TakeWhile

/-!
# Lines and visible characters

Cutting a text into lines and putting lines together again lose no more than line ends, and what is
visible of a text, its characters that are not blank, is what is visible of its lines.

Main results:

- Theorem `splitOn_joinLines`: lines that were put together are found again.
- Theorem `flatMap_visible_lines`: the lines of a text show what the text shows.
- Theorem `visible_joinLines`: lines that are put together show what they show one by one.
- Theorem `visible_expandTabs`: expanding tabs changes nothing visible.
-/

namespace CodeAtlas.Text

variable {text line : List Char} {ls : List (List Char)}

/-! ## Pieces and lines -/

/-- Lines that were put together are found again. -/
theorem splitOn_joinLines (hne : ls ≠ []) (h : ∀ l ∈ ls, '\n' ∉ l) :
    (joinLines ls).splitOn '\n' = ls :=
  List.splitOn_intercalate '\n' h hne

/-- The pieces of a text are put together to the text. -/
theorem joinLines_splitOn (text : List Char) : joinLines (text.splitOn '\n') = text :=
  List.intercalate_splitOn '\n'

/-- There is no line feed in a piece. -/
theorem newline_not_mem_of_mem_splitOn (h : line ∈ text.splitOn '\n') : '\n' ∉ line := by
  induction text generalizing line with
  | nil => simp_all
  | cons c rest ih =>
    rw [List.splitOn_cons_eq_if_modifyHead] at h
    split at h
    · rcases List.mem_cons.1 h with rfl | h
      · exact List.not_mem_nil
      · exact ih h
    · next hc =>
      obtain ⟨piece, pieces, hrest⟩ := List.exists_cons_of_ne_nil (List.splitOn_ne_nil '\n' rest)
      rw [hrest] at ih h
      rcases List.mem_cons.1 h with rfl | h
      · intro hmem
        rcases List.mem_cons.1 hmem with hfirst | hmem
        · exact hc (beq_iff_eq.2 hfirst.symm)
        · exact ih List.mem_cons_self hmem
      · exact ih (List.mem_cons_of_mem piece h)

/-- A line is a piece, but for a carriage return at its end. -/
theorem exists_piece_of_mem_lines (h : line ∈ lines text) :
    ∃ piece ∈ text.splitOn '\n', line <+: piece := by
  have hpieces : ∀ pieces : List (List Char), line ∈ linesOfPieces pieces →
      ∃ piece ∈ pieces, line <+: piece := by
    intro pieces hline
    fun_induction linesOfPieces pieces with
    | case1 => exact absurd hline List.not_mem_nil
    | case2 last hempty => exact absurd hline List.not_mem_nil
    | case3 last hempty => exact ⟨line, hline, List.prefix_refl line⟩
    | case4 piece next rest ih =>
      rcases List.mem_cons.1 hline with rfl | hline
      · refine ⟨piece, List.mem_cons_self, ?_⟩
        unfold dropReturn
        split
        · exact List.dropLast_prefix piece
        · exact List.prefix_refl piece
      · obtain ⟨found, hfound, hstart⟩ := ih hline
        exact ⟨found, List.mem_cons_of_mem piece hfound, hstart⟩
  exact hpieces _ h

/-- There is no line feed in a line. -/
theorem newline_not_mem_of_mem_lines (h : line ∈ lines text) : '\n' ∉ line := by
  obtain ⟨piece, hpiece, hstart⟩ := exists_piece_of_mem_lines h
  exact fun hmem => newline_not_mem_of_mem_splitOn hpiece (hstart.subset hmem)

theorem joinLines_cons_cons (first next : List Char) (rest : List (List Char)) :
    joinLines (first :: next :: rest) = first ++ '\n' :: joinLines (next :: rest) := by
  simp [joinLines, List.intercalate_cons_cons]

/-- Lines that are put together have their characters, and line feeds between them. -/
theorem mem_joinLines_iff {c : Char} :
    c ∈ joinLines ls ↔ (∃ l ∈ ls, c ∈ l) ∨ (c = '\n' ∧ 1 < ls.length) := by
  induction ls with
  | nil => simp [joinLines]
  | cons first rest ih =>
    cases rest with
    | nil => simp [joinLines]
    | cons next rest =>
      rw [joinLines_cons_cons, List.mem_append, List.mem_cons, ih]
      constructor
      · rintro (h | h | ⟨l, hl, h⟩ | ⟨h, -⟩)
        · exact Or.inl ⟨first, List.mem_cons_self, h⟩
        · exact Or.inr ⟨h, by simp⟩
        · exact Or.inl ⟨l, List.mem_cons_of_mem first hl, h⟩
        · exact Or.inr ⟨h, by simp⟩
      · rintro (⟨l, hl, h⟩ | ⟨h, -⟩)
        · rcases List.mem_cons.1 hl with rfl | hl
          · exact Or.inl h
          · exact Or.inr (Or.inr (Or.inl ⟨l, hl, h⟩))
        · exact Or.inr (Or.inl h)

/-- The characters of a line are in the text. -/
theorem mem_of_mem_lines {c : Char} (h : line ∈ lines text) (hc : c ∈ line) : c ∈ text := by
  obtain ⟨piece, hpiece, hstart⟩ := exists_piece_of_mem_lines h
  rw [← joinLines_splitOn text, mem_joinLines_iff]
  exact Or.inl ⟨piece, hpiece, hstart.subset hc⟩

/-! ## What is visible -/

/-- The characters of a text that are not blank. -/
def visible (cs : List Char) : List Char := cs.filter (fun c => !isBlank c)

@[simp]
theorem visible_nil : visible [] = [] :=
  rfl

@[simp]
theorem visible_append (xs ys : List Char) : visible (xs ++ ys) = visible xs ++ visible ys :=
  List.filter_append xs ys

@[simp]
theorem visible_cons_of_blank {c : Char} (h : isBlank c = true) (cs : List Char) :
    visible (c :: cs) = visible cs := by
  simp [visible, h]

/-- Nothing is visible of a blank line, and of no other. -/
theorem visible_eq_nil_iff {cs : List Char} : visible cs = [] ↔ isBlankLine cs = true := by
  simp [visible, isBlankLine]

/-- Dropping blanks from the start changes nothing visible. -/
theorem visible_trimStart (cs : List Char) : visible (trimStart cs) = visible cs := by
  induction cs with
  | nil => rfl
  | cons c rest ih =>
    by_cases hc : isBlank c
    · rw [trimStart, List.dropWhile_cons_of_pos hc, visible_cons_of_blank hc]
      exact ih
    · rw [trimStart, List.dropWhile_cons_of_neg hc]

theorem dropEndWhile_eq_rdropWhile {α : Type} (p : α → Bool) (xs : List α) :
    dropEndWhile p xs = xs.rdropWhile p :=
  rfl

/-- Dropping blanks of some sort from the end changes nothing visible. -/
theorem visible_dropEndWhile {p : Char → Bool} (hp : ∀ c, p c = true → isBlank c = true)
    (cs : List Char) : visible (dropEndWhile p cs) = visible cs := by
  have hdropped : visible (cs.rtakeWhile p) = [] := by
    rw [visible_eq_nil_iff, isBlankLine, List.all_eq_true]
    exact fun c hc => hp c (List.mem_rtakeWhile_imp hc)
  calc visible (dropEndWhile p cs)
      = visible (cs.rdropWhile p ++ cs.rtakeWhile p) := by
        rw [dropEndWhile_eq_rdropWhile, visible_append, hdropped, List.append_nil]
    _ = visible cs := by rw [List.rdropWhile_append_rtakeWhile]

theorem visible_dropReturn (cs : List Char) : visible (dropReturn cs) = visible cs := by
  unfold dropReturn
  split
  · next hlast =>
    obtain ⟨front, rfl⟩ := List.getLast?_eq_some_iff.1 hlast
    rw [List.dropLast_concat, visible_append, visible_cons_of_blank (by decide), visible_nil,
      List.append_nil]
  · rfl

/-- Lines that are put together show what they show one by one. -/
theorem visible_joinLines (ls : List (List Char)) :
    visible (joinLines ls) = ls.flatMap visible := by
  induction ls with
  | nil => rfl
  | cons first rest ih =>
    cases rest with
    | nil => simp [joinLines]
    | cons next rest =>
      rw [joinLines_cons_cons, visible_append, visible_cons_of_blank (by decide), ih]
      rfl

/-- The lines of a text show what the text shows. -/
theorem flatMap_visible_lines (text : List Char) : (lines text).flatMap visible = visible text := by
  have hpieces : ∀ pieces : List (List Char),
      (linesOfPieces pieces).flatMap visible = pieces.flatMap visible := by
    intro pieces
    fun_induction linesOfPieces pieces with
    | case1 => rfl
    | case2 last hempty => simp [List.isEmpty_iff.1 hempty]
    | case3 last hempty => rfl
    | case4 piece next rest ih =>
      rw [List.flatMap_cons, visible_dropReturn, ih]
      rfl
  rw [lines, hpieces, ← visible_joinLines, joinLines_splitOn]

/-- Expanding tabs changes nothing visible. -/
theorem visible_expandTabs (text : List Char) : visible (expandTabs text) = visible text := by
  have hfrom : ∀ column, visible (expandTabsFrom column text) = visible text := by
    induction text with
    | nil => intro column; rfl
    | cons c rest ih =>
      intro column
      rw [expandTabsFrom]
      split
      · next hc =>
        have hpad : visible (List.replicate (tabWidth - column % tabWidth) ' ') = [] := by
          rw [visible_eq_nil_iff, isBlankLine, List.all_eq_true]
          intro d hd
          rw [List.eq_of_mem_replicate hd]
          decide
        rw [visible_append, hpad, ih, List.nil_append, visible_cons_of_blank (by rw [hc]; decide)]
      · have htail : ∀ k, visible (c :: expandTabsFrom k rest) = visible (c :: rest) := by
          intro k
          rw [← List.singleton_append, visible_append, ih, ← visible_append, List.singleton_append]
        split <;> exact htail _
  exact hfrom 0

end CodeAtlas.Text
