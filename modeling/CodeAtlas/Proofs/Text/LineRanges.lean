import CodeAtlas.Proofs.Text.Lines

/-!
# Ranges of lines

The lines of a text are said twice: `lines` cuts them out, and `HasLines` describes a text that is
made of them. A range of lines, counted from 1 and with both ends, may begin at line 0, end before it
begins or run past the last line; it covers the lines that there are.

Main results:

- Theorem `hasLines_iff`: a text is made of the lines that are cut out of it, and of no others.
- Theorem `splitOn_selectLines`: a text that was selected falls apart into the lines that
  its range covers, unless the range covers none.
- Theorem `selectLines_eq_nil_iff`: when nothing is selected.
- Theorem `lineRange_append`: two ranges in a row cover what one range from the first to the last
  line covers.
-/

namespace CodeAtlas.Text

variable {text line : List Char} {ls : List (List Char)}

/-! ## Texts made of lines -/

/-- A text is made of some lines. Each line is ended by a line feed, which may follow a carriage
return; what stands behind the last line feed is a line unless it is empty. -/
inductive HasLines : List Char → List (List Char) → Prop where
  | empty : HasLines [] []
  | last {line : List Char} (hne : line ≠ []) (hline : '\n' ∉ line) : HasLines line [line]
  | feed {line rest : List Char} {ls : List (List Char)} (hline : '\n' ∉ line)
      (hreturn : line.getLast? ≠ some '\r') (hrest : HasLines rest ls) :
      HasLines (line ++ '\n' :: rest) (line :: ls)
  | returnFeed {line rest : List Char} {ls : List (List Char)} (hline : '\n' ∉ line)
      (hrest : HasLines rest ls) : HasLines (line ++ '\r' :: '\n' :: rest) (line :: ls)

/-- Pieces with line feeds between them make a text of the lines among them. -/
theorem hasLines_joinLines (pieces : List (List Char)) (h : ∀ piece ∈ pieces, '\n' ∉ piece) :
    HasLines (joinLines pieces) (linesOfPieces pieces) := by
  fun_induction linesOfPieces pieces with
  | case1 => exact HasLines.empty
  | case2 last hempty =>
    rw [List.isEmpty_iff.1 hempty]
    exact HasLines.empty
  | case3 last hempty =>
    have hne : last ≠ [] := fun hnil => hempty (List.isEmpty_iff.2 hnil)
    have hlast : joinLines [last] = last := by simp [joinLines]
    rw [hlast]
    exact HasLines.last hne (h last List.mem_cons_self)
  | case4 piece next rest ih =>
    have hpiece : '\n' ∉ piece := h piece List.mem_cons_self
    have hrest := ih (fun p hp => h p (List.mem_cons_of_mem piece hp))
    rw [joinLines_cons_cons]
    unfold dropReturn
    split
    · next hlast =>
      obtain ⟨front, rfl⟩ := List.getLast?_eq_some_iff.1 hlast
      rw [List.dropLast_concat, List.append_assoc, List.singleton_append]
      exact HasLines.returnFeed (fun hmem => hpiece (List.mem_append_left _ hmem)) hrest
    · next hlast => exact HasLines.feed hpiece hlast hrest

/-- The first line feed ends the first line. -/
theorem lines_append_newline (h : '\n' ∉ line) (rest : List Char) :
    lines (line ++ '\n' :: rest) = dropReturn line :: lines rest := by
  rw [lines, lines, List.splitOn_append_cons_self_of_not_mem h]
  cases hrest : rest.splitOn '\n' with
  | nil => exact absurd hrest (List.splitOn_ne_nil '\n' rest)
  | cons piece pieces => rfl

/-- A text is made of the lines that are cut out of it, and of no others. -/
theorem hasLines_iff : HasLines text ls ↔ lines text = ls := by
  constructor
  · intro h
    induction h with
    | empty => rfl
    | last hne hline =>
      have hfull : ¬(List.isEmpty _ = true) := fun hempty => hne (List.isEmpty_iff.1 hempty)
      rw [lines, List.splitOn_eq_singleton hline, linesOfPieces, if_neg hfull]
    | feed hline hreturn _ ih =>
      rw [lines_append_newline hline, ih, dropReturn, if_neg hreturn]
    | @returnFeed line rest ls hline _ ih =>
      have hpiece : '\n' ∉ line ++ ['\r'] := by simp [hline]
      have hsplit : line ++ '\r' :: '\n' :: rest = (line ++ ['\r']) ++ '\n' :: rest := by simp
      rw [hsplit, lines_append_newline hpiece, ih, dropReturn, if_pos List.getLast?_concat,
        List.dropLast_concat]
  · rintro rfl
    have hpieces := hasLines_joinLines (text.splitOn '\n')
      (fun piece hpiece => newline_not_mem_of_mem_splitOn hpiece)
    rwa [joinLines_splitOn] at hpieces

/-! ## Ranges -/

/-- The lines that a range covers. -/
def lineRange (ls : List (List Char)) (start stop : Nat) : List (List Char) :=
  if start = 0 then [] else (ls.drop (start - 1)).take (stop + 1 - start)

variable {a b c start stop : Nat}

theorem lineRange_eq (h : 1 ≤ start) :
    lineRange ls start stop = (ls.drop (start - 1)).take (stop + 1 - start) :=
  if_neg (by omega)

theorem selectLines_eq_joinLines (text : List Char) (start stop : Nat) :
    selectLines text start stop = joinLines (lineRange (lines text) start stop) := by
  by_cases hempty : start = 0 ∨ stop < start
  · have hnone : lineRange (lines text) start stop = [] := by
      rcases hempty with hzero | hlt
      · rw [lineRange, if_pos hzero]
      · have hlength : stop + 1 - start = 0 := by omega
        rw [lineRange, hlength, List.take_zero, ite_self]
    rw [selectLines, if_pos hempty, hnone]
    rfl
  · have hlength : stop - start + 1 = stop + 1 - start := by omega
    rw [selectLines, if_neg hempty, hlength, lineRange_eq (by omega)]

/-- The `k`-th line of a range that begins at line `start` is line `start + k`. -/
theorem getElem?_lineRange (h : 1 ≤ start) (k : Nat) :
    (lineRange ls start stop)[k]? = if start + k ≤ stop then ls[start + k - 1]? else none := by
  have hindex : start - 1 + k = start + k - 1 := by omega
  rw [lineRange_eq h, List.getElem?_take, List.getElem?_drop, hindex]
  by_cases hk : start + k ≤ stop
  · rw [if_pos hk, if_pos (by omega)]
  · rw [if_neg hk, if_neg (by omega)]

theorem length_lineRange (h : 1 ≤ start) :
    (lineRange ls start stop).length = min (stop + 1) (ls.length + 1) - start := by
  rw [lineRange_eq h, List.length_take, List.length_drop]
  omega

/-- A range covers nothing if it begins at line 0, ends before it begins, or begins behind the last
line. -/
theorem lineRange_eq_nil_iff :
    lineRange ls start stop = [] ↔ start = 0 ∨ stop < start ∨ ls.length < start := by
  by_cases hzero : start = 0
  · simp [lineRange, hzero]
  · rw [← List.length_eq_zero_iff, length_lineRange (by omega)]
    omega

/-- A range from the first line to the last one or further covers all lines. -/
theorem lineRange_one (h : ls.length ≤ stop) : lineRange ls 1 stop = ls := by
  rw [lineRange_eq (Nat.le_refl 1), Nat.sub_self, List.drop_zero, Nat.add_sub_cancel,
    List.take_of_length_le h]

theorem mem_of_mem_lineRange (h : line ∈ lineRange ls start stop) : line ∈ ls := by
  unfold lineRange at h
  split at h
  · exact absurd h List.not_mem_nil
  · exact List.mem_of_mem_drop (List.mem_of_mem_take h)

/-- Two ranges in a row cover what the range from the first to the last line covers. -/
theorem lineRange_append (h : 1 ≤ a) (hab : a ≤ b + 1) (hbc : b ≤ c) :
    lineRange ls a b ++ lineRange ls (b + 1) c = lineRange ls a c := by
  have hskip : a - 1 + (b + 1 - a) = b := by omega
  have hcount : b + 1 - a + (c + 1 - (b + 1)) = c + 1 - a := by omega
  rw [lineRange_eq h, lineRange_eq h, lineRange_eq (by omega : 1 ≤ b + 1), Nat.add_sub_cancel,
    ← hcount, List.take_add, List.drop_drop, hskip]

/-- A range within another one covers some of its lines, in their order. -/
theorem lineRange_sublist {a' b' : Nat} (h : 1 ≤ a) (ha : a ≤ a') (hb : b' ≤ b) :
    (lineRange ls a' b').Sublist (lineRange ls a b) := by
  by_cases hempty : b' < a'
  · rw [lineRange_eq_nil_iff.2 (Or.inr (Or.inl hempty))]
    exact List.nil_sublist _
  · have hfirst : a' - 1 + 1 = a' := by omega
    have hsplit : lineRange ls a b =
        lineRange ls a (a' - 1) ++ (lineRange ls a' b' ++ lineRange ls (b' + 1) b) := by
      rw [lineRange_append (by omega) (by omega) hb,
        ← lineRange_append h (by omega) (by omega : a' - 1 ≤ b), hfirst]
    rw [hsplit]
    exact (List.sublist_append_left _ _).trans (List.sublist_append_right _ _)

/-! ## Texts of ranges -/

/-- A text that was selected falls apart into the lines that its range covers, if there are any. -/
theorem splitOn_selectLines (h : lineRange (lines text) start stop ≠ []) :
    (selectLines text start stop).splitOn '\n' = lineRange (lines text) start stop := by
  rw [selectLines_eq_joinLines]
  exact splitOn_joinLines h
    (fun _ hline => newline_not_mem_of_mem_lines (mem_of_mem_lineRange hline))

/-- Lines are put together to nothing if there are none, or a single one that is empty. -/
theorem joinLines_eq_nil_iff : joinLines ls = [] ↔ ls = [] ∨ ls = [[]] := by
  cases ls with
  | nil => simp [joinLines]
  | cons first rest =>
    cases rest with
    | nil => simp [joinLines]
    | cons next rest => simp [joinLines_cons_cons]

/-- A range covers one empty line only: its first one is empty, and the range or the text ends with
it. -/
def CoversOneEmptyLine (ls : List (List Char)) (start stop : Nat) : Prop :=
  ls[start - 1]? = some [] ∧ (stop = start ∨ start = ls.length)

theorem lineRange_eq_singleton_iff (h : 1 ≤ start) (hle : start ≤ stop) :
    lineRange ls start stop = [[]] ↔ CoversOneEmptyLine ls start stop := by
  have hfirst : (lineRange ls start stop)[0]? = ls[start - 1]? := by
    rw [getElem?_lineRange h, if_pos (by omega), Nat.add_zero]
  have hlength : (lineRange ls start stop).length = min (stop + 1) (ls.length + 1) - start :=
    length_lineRange h
  constructor
  · intro hrange
    rw [hrange] at hfirst hlength
    refine ⟨hfirst.symm, ?_⟩
    have hone : 1 = min (stop + 1) (ls.length + 1) - start := hlength
    omega
  · rintro ⟨hempty, hend⟩
    obtain ⟨hlt, -⟩ := List.getElem?_eq_some_iff.1 hempty
    obtain ⟨only, honly⟩ := List.length_eq_one_iff.1 (hlength.trans (by omega))
    rw [honly] at hfirst ⊢
    have honly : some only = some [] := hfirst.trans hempty
    rw [Option.some.inj honly]

/-- Nothing is selected by a range that covers no line, or one empty line only. -/
theorem selectLines_eq_nil_iff :
    selectLines text start stop = [] ↔ start = 0 ∨ stop < start ∨ (lines text).length < start ∨
      CoversOneEmptyLine (lines text) start stop := by
  rw [selectLines_eq_joinLines, joinLines_eq_nil_iff, lineRange_eq_nil_iff, or_assoc, or_assoc]
  by_cases hnone : start = 0 ∨ stop < start
  · rcases hnone with hzero | hlt
    · simp [hzero]
    · simp [hlt]
  · rw [lineRange_eq_singleton_iff (by omega) (by omega)]

end CodeAtlas.Text
