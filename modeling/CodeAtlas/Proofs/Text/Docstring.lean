import CodeAtlas.Proofs.Text.Lines
import CodeAtlas.Text.Docstring
import Mathlib.Data.List.Flatten
import Mathlib.Data.List.Infix

/-!
# What cleaning a docstring keeps

Cleaning moves the text of a docstring to the left and drops blank lines around it. It drops more
than that in one case: the margin is counted in bytes, and a line on which a wide blank straddles
the margin becomes empty, together with its text. Whatever else is visible stays, in its order.

Main results:

- Theorem `dropBytes_eq_some_iff`: what is left behind a number of bytes.
- Theorem `visible_dedentLine`: a line below the first keeps its text if it can be cut at the margin,
  and loses all of it otherwise.
- Theorem `visible_clean`: what is visible of a cleaned docstring.
- Theorem `clean_eq_nil_or_hasTextAtEnds`: a cleaned docstring starts and ends with text.
- Theorem `clean_keeps_text`: these together, with the exact condition for keeping all text.
-/

namespace CodeAtlas.Text

/-! ## Bytes of a text -/

theorem byteLength_cons (c : Char) (cs : List Char) :
    byteLength (c :: cs) = c.utf8Size + byteLength cs := by
  have hfrom : ∀ (n : Nat) (ds : List Char),
      ds.foldl (fun n c => n + c.utf8Size) n = n + byteLength ds := by
    intro n ds
    induction ds generalizing n with
    | nil => rfl
    | cons d rest ih =>
      rw [byteLength, List.foldl_cons, List.foldl_cons, ih, ih, Nat.zero_add, Nat.add_assoc]
  rw [byteLength, List.foldl_cons, hfrom, Nat.zero_add]

@[simp]
theorem byteLength_nil : byteLength [] = 0 :=
  rfl

/-- Every character takes at least one byte. -/
theorem eq_nil_of_byteLength {cs : List Char} (h : byteLength cs = 0) : cs = [] := by
  cases cs with
  | nil => rfl
  | cons c rest =>
    have hc := c.utf8Size_pos
    rw [byteLength_cons] at h
    omega

theorem byteLength_append (xs ys : List Char) :
    byteLength (xs ++ ys) = byteLength xs + byteLength ys := by
  induction xs with
  | nil => simp
  | cons c rest ih => rw [List.cons_append, byteLength_cons, byteLength_cons, ih, Nat.add_assoc]

/-- What is left behind a number of bytes, if these are whole characters. -/
theorem dropBytes_eq_some_iff {n : Nat} {cs rest : List Char} :
    dropBytes n cs = some rest ↔ ∃ front, front ++ rest = cs ∧ byteLength front = n := by
  fun_induction dropBytes n cs with
  | case1 cs =>
    rw [Option.some.injEq]
    constructor
    · rintro rfl
      exact ⟨[], rfl, rfl⟩
    · rintro ⟨front, rfl, hfront⟩
      rw [eq_nil_of_byteLength hfront, List.nil_append]
  | case2 n =>
    simp only [reduceCtorEq, List.append_eq_nil_iff, false_iff, not_exists, not_and]
    rintro front ⟨rfl, -⟩
    simp
  | case3 n c cs hle ih =>
    rw [ih]
    constructor
    · rintro ⟨front, rfl, hfront⟩
      refine ⟨c :: front, rfl, ?_⟩
      rw [byteLength_cons, hfront, Nat.add_sub_cancel' hle]
    · rintro ⟨front, hsplit, hfront⟩
      cases front with
      | nil => simp at hfront
      | cons d front =>
        rw [List.cons_append, List.cons.injEq] at hsplit
        obtain ⟨rfl, rfl⟩ := hsplit
        rw [byteLength_cons] at hfront
        exact ⟨front, rfl, by omega⟩
  | case4 n c cs hlt =>
    simp only [reduceCtorEq, false_iff, not_exists, not_and]
    intro front hsplit hfront
    cases front with
    | nil => simp at hfront
    | cons d front =>
      rw [List.cons_append, List.cons.injEq] at hsplit
      obtain ⟨rfl, -⟩ := hsplit
      rw [byteLength_cons] at hfront
      omega

/-- Of two pieces that a text starts with, the one with fewer bytes is the start of the other. -/
theorem prefix_of_byteLength_le {xs ys cs : List Char} (hx : xs <+: cs) (hy : ys <+: cs)
    (h : byteLength xs ≤ byteLength ys) : xs <+: ys := by
  rcases List.prefix_or_prefix_of_prefix hx hy with hxy | ⟨more, rfl⟩
  · exact hxy
  · rw [byteLength_append] at h
    have hmore : byteLength more = 0 := by omega
    rw [eq_nil_of_byteLength hmore, List.append_nil]

namespace Docstring

variable {ls : List (List Char)} {line : List Char}

/-! ## Cutting at the margin -/

/-- The line starts with whole characters that take a number of bytes. -/
def CutsAt (n : Nat) (line : List Char) : Prop := ∃ front, front <+: line ∧ byteLength front = n

theorem isSome_dropBytes_iff {n : Nat} : (dropBytes n line).isSome ↔ CutsAt n line := by
  simp only [Option.isSome_iff_exists, dropBytes_eq_some_iff]
  constructor
  · rintro ⟨rest, front, hsplit, hfront⟩
    exact ⟨front, ⟨rest, hsplit⟩, hfront⟩
  · rintro ⟨front, ⟨rest, hsplit⟩, hfront⟩
    exact ⟨rest, front, hsplit, hfront⟩

instance (n : Nat) (line : List Char) : Decidable (CutsAt n line) :=
  decidable_of_iff _ isSome_dropBytes_iff

/-- The margin is no more than the indentation of any line with text. -/
theorem margin_le (hline : line ∈ ls) (htext : isBlankLine line = false) :
    margin ls ≤ indentWidth line := by
  have hmem : indentWidth line ∈ (ls.filter (fun l => !isBlankLine l)).map indentWidth :=
    List.mem_map_of_mem (List.mem_filter.2 ⟨hline, by simp [htext]⟩)
  unfold margin
  split
  · exact Nat.zero_le _
  · next width hmin => exact (List.min?_eq_some_iff.1 hmin).2 _ hmem

/-- A line that can be cut inside its indentation keeps its text, and a line that cannot be cut loses
it. -/
theorem visible_dedentLine {width : Nat}
    (h : isBlankLine line = true ∨ width ≤ indentWidth line) :
    visible (dedentLine width line) = if CutsAt width line then visible line else [] := by
  have hreturns : ∀ cs, visible (dropEndWhile (· = '\r') cs) = visible cs := by
    refine visible_dropEndWhile (fun c hc => ?_)
    rw [of_decide_eq_true hc]
    decide
  rw [dedentLine, hreturns]
  cases hdrop : dropBytes width line with
  | none =>
    rw [if_neg (by rw [← isSome_dropBytes_iff, hdrop]; exact Bool.false_ne_true)]
    rfl
  | some rest =>
    rw [if_pos (isSome_dropBytes_iff.1 (by rw [hdrop]; rfl))]
    obtain ⟨front, rfl, hfront⟩ := dropBytes_eq_some_iff.1 hdrop
    have hblank : isBlankLine front = true := by
      rw [isBlankLine, List.all_eq_true]
      rcases h with h | h
      · rw [isBlankLine, List.all_append, Bool.and_eq_true] at h
        exact List.all_eq_true.1 h.1
      · have hindent : front <+: (front ++ rest).takeWhile isBlank :=
          prefix_of_byteLength_le (List.prefix_append front rest) (List.takeWhile_prefix isBlank)
            (hfront ▸ h)
        exact fun c hc => List.mem_takeWhile_imp (hindent.subset hc)
    rw [visible_append, visible_eq_nil_iff.2 hblank, List.nil_append]
    rfl

/-- The lines below the first show what is on those that can be cut at their margin. -/
theorem flatMap_visible_dedent (ls : List (List Char)) :
    (ls.map (dedentLine (margin ls))).flatMap visible =
      (ls.filter (CutsAt (margin ls))).flatMap visible := by
  have hall : ∀ line ∈ ls, isBlankLine line = true ∨ margin ls ≤ indentWidth line := by
    intro line hline
    cases htext : isBlankLine line with
    | true => exact Or.inl rfl
    | false => exact Or.inr (margin_le hline htext)
  generalize margin ls = width at hall
  induction ls with
  | nil => rfl
  | cons line rest ih =>
    obtain ⟨hline, hrest⟩ := List.forall_mem_cons.1 hall
    rw [List.map_cons, List.flatMap_cons, visible_dedentLine hline, ih hrest, List.filter_cons]
    by_cases hcut : CutsAt width line <;> simp [hcut]

/-! ## Blank lines at the ends -/

/-- What is left are the lines between some blank ones. -/
theorem exists_dropBlankEnds_split (ls : List (List Char)) :
    ∃ before behind, before ++ (dropBlankEnds ls ++ behind) = ls ∧
      (∀ l ∈ before, isBlankLine l = true) ∧ ∀ l ∈ behind, isBlankLine l = true := by
  refine ⟨ls.takeWhile isBlankLine, (ls.dropWhile isBlankLine).rtakeWhile isBlankLine, ?_, ?_, ?_⟩
  · rw [dropBlankEnds, dropEndWhile_eq_rdropWhile, List.rdropWhile_append_rtakeWhile,
      List.takeWhile_append_dropWhile]
  · exact fun l hl => List.mem_takeWhile_imp hl
  · exact fun l hl => List.mem_rtakeWhile_imp hl

/-- Blank lines at the ends show nothing. -/
theorem flatMap_visible_dropBlankEnds (ls : List (List Char)) :
    (dropBlankEnds ls).flatMap visible = ls.flatMap visible := by
  have hnone : ∀ blanks : List (List Char), (∀ l ∈ blanks, isBlankLine l = true) →
      blanks.flatMap visible = [] :=
    fun blanks h => List.flatMap_eq_nil_iff.2 (fun l hl => visible_eq_nil_iff.2 (h l hl))
  obtain ⟨before, behind, hsplit, hbefore, hbehind⟩ := exists_dropBlankEnds_split ls
  calc (dropBlankEnds ls).flatMap visible
      = (before ++ (dropBlankEnds ls ++ behind)).flatMap visible := by
        rw [List.flatMap_append, List.flatMap_append, hnone before hbefore, hnone behind hbehind,
          List.nil_append, List.append_nil]
    _ = ls.flatMap visible := by rw [hsplit]

/-- A line that is left is one of the lines. -/
theorem mem_of_mem_dropBlankEnds (h : line ∈ dropBlankEnds ls) : line ∈ ls := by
  obtain ⟨before, behind, hsplit, -, -⟩ := exists_dropBlankEnds_split ls
  rw [← hsplit]
  exact List.mem_append_right before (List.mem_append_left behind h)

/-- The first and the last line that are left have text. -/
theorem exists_ends_dropBlankEnds (hne : dropBlankEnds ls ≠ []) :
    ∃ first last, (dropBlankEnds ls).head? = some first ∧
      (dropBlankEnds ls).getLast? = some last ∧ isBlankLine first = false ∧
      isBlankLine last = false := by
  have hlast := List.rdropWhile_last_not isBlankLine (ls.dropWhile isBlankLine) hne
  -- what is left starts where the blank lines at the start end
  have hstart : dropBlankEnds ls <+: ls.dropWhile isBlankLine :=
    List.rdropWhile_prefix isBlankLine _
  have hfront : ls.dropWhile isBlankLine ≠ [] := by
    intro hnil
    rw [hnil, List.prefix_nil] at hstart
    exact hne hstart
  have hfirst := List.head_dropWhile_not isBlankLine hfront
  refine ⟨(dropBlankEnds ls).head hne, (dropBlankEnds ls).getLast hne,
    List.head?_eq_some_head hne, List.getLast?_eq_some_getLast hne, ?_, ?_⟩
  · rwa [hstart.head hne]
  · exact Bool.eq_false_iff.2 hlast

/-! ## The whole docstring -/

/-- The lines of a docstring below the first, with tabs expanded. -/
def body (raw : List Char) : List (List Char) := (lines (expandTabs raw)).tail

/-- The text, cut at its line feeds, has a first and a last line that are not blank. -/
def HasTextAtEnds (text : List Char) : Prop :=
  ∃ first last, (text.splitOn '\n').head? = some first ∧
    (text.splitOn '\n').getLast? = some last ∧ isBlankLine first = false ∧
    isBlankLine last = false

/-- A line is moved to the left, and may lose carriage returns at its end. -/
theorem exists_line_of_mem_dedentLines (h : line ∈ dedentLines ls) :
    ∃ full ∈ ls, line <:+: full := by
  cases ls with
  | nil => exact absurd h List.not_mem_nil
  | cons first rest =>
    rcases List.mem_cons.1 h with rfl | h
    · exact ⟨first, List.mem_cons_self, (List.dropWhile_suffix isBlank).isInfix⟩
    · obtain ⟨full, hfull, rfl⟩ := List.mem_map.1 h
      refine ⟨full, List.mem_cons_of_mem first hfull, ?_⟩
      have hcut : (dropBytes (margin rest) full).getD [] <:+: full := by
        cases hdrop : dropBytes (margin rest) full with
        | none => exact List.nil_infix
        | some behind =>
          obtain ⟨front, hsplit, -⟩ := dropBytes_eq_some_iff.1 hdrop
          exact ⟨front, [], by rw [List.append_nil, ← hsplit]; rfl⟩
      have hends : dedentLine (margin rest) full <+: (dropBytes (margin rest) full).getD [] :=
        List.rdropWhile_prefix _ _
      exact hends.isInfix.trans hcut

/-- The lines of a cleaned docstring are pieces of the lines of the docstring. -/
theorem exists_line_of_mem_cleaned {raw : List Char}
    (h : line ∈ dropBlankEnds (dedentLines (lines (expandTabs raw)))) :
    ∃ full ∈ lines (expandTabs raw), line <:+: full :=
  exists_line_of_mem_dedentLines (mem_of_mem_dropBlankEnds h)

/-- A cleaned docstring shows what is on its first line and on those lines below that can be cut at
their margin. -/
theorem visible_clean (raw : List Char) :
    visible (clean raw) = visible ((lines (expandTabs raw)).headD []) ++
      ((body raw).filter (CutsAt (margin (body raw)))).flatMap visible := by
  rw [clean, visible_joinLines, flatMap_visible_dropBlankEnds, body]
  cases lines (expandTabs raw) with
  | nil => rfl
  | cons first rest =>
    rw [dedentLines, List.flatMap_cons, visible_trimStart, flatMap_visible_dedent]
    rfl

/-- A docstring shows what is on its first line and on those below. -/
theorem visible_raw (raw : List Char) :
    visible raw = visible ((lines (expandTabs raw)).headD []) ++ (body raw).flatMap visible := by
  rw [← visible_expandTabs raw, ← flatMap_visible_lines, body]
  cases lines (expandTabs raw) <;> rfl

/-- Of some lines those with a property show everything exactly if the others are blank. -/
theorem flatMap_visible_filter_iff {p : List Char → Bool} :
    (ls.filter p).flatMap visible = ls.flatMap visible ↔
      ∀ line ∈ ls, isBlankLine line = false → p line = true := by
  induction ls with
  | nil => simp
  | cons first rest ih =>
    rw [List.forall_mem_cons, List.flatMap_cons]
    by_cases hp : p first = true
    · rw [List.filter_cons_of_pos hp, List.flatMap_cons, List.append_cancel_left_eq, ih]
      simp [hp]
    · rw [List.filter_cons_of_neg hp]
      constructor
      · -- the rest shows no more without some lines, so the first line shows nothing
        intro heq
        have hsub : ((rest.filter p).flatMap visible).Sublist (rest.flatMap visible) :=
          List.filter_sublist.flatMap visible
        have hlength := hsub.length_le
        rw [heq, List.length_append] at hlength
        have hfirst : visible first = [] := List.eq_nil_of_length_eq_zero (by omega)
        rw [hfirst, List.nil_append] at heq
        exact ⟨fun htext => absurd (visible_eq_nil_iff.1 hfirst) (by simp [htext]), ih.1 heq⟩
      · rintro ⟨hfirst, hrest⟩
        have hblank : isBlankLine first = true := by
          cases htext : isBlankLine first with
          | true => rfl
          | false => exact absurd (hfirst htext) hp
        rw [visible_eq_nil_iff.2 hblank, List.nil_append, ih.2 hrest]

/-- Cleaning keeps all text exactly if every line with text below the first can be cut at the
margin. -/
theorem visible_clean_eq_iff (raw : List Char) :
    visible (clean raw) = visible raw ↔
      ∀ line ∈ body raw, isBlankLine line = false → CutsAt (margin (body raw)) line := by
  rw [visible_clean, visible_raw raw, List.append_cancel_left_eq, flatMap_visible_filter_iff]
  simp only [decide_eq_true_eq]

/-- There is no tab in a cleaned docstring. -/
theorem tab_not_mem_clean (raw : List Char) : '\t' ∉ clean raw := by
  intro htab
  rcases mem_joinLines_iff.1 htab with ⟨line, hline, hmem⟩ | ⟨heq, -⟩
  · obtain ⟨full, hfull, hpiece⟩ := exists_line_of_mem_cleaned hline
    exact tab_not_mem_expandTabs raw (mem_of_mem_lines hfull (hpiece.subset hmem))
  · exact absurd heq (by decide)

/-- A cleaned docstring is empty, or has text on its first line and on its last. -/
theorem clean_eq_nil_or_hasTextAtEnds (raw : List Char) :
    clean raw = [] ∨ HasTextAtEnds (clean raw) := by
  by_cases hne : dropBlankEnds (dedentLines (lines (expandTabs raw))) = []
  · exact Or.inl (by rw [clean, hne]; rfl)
  · have hpieces : (clean raw).splitOn '\n' =
        dropBlankEnds (dedentLines (lines (expandTabs raw))) := by
      refine splitOn_joinLines hne (fun l hl hmem => ?_)
      obtain ⟨full, hfull, hpiece⟩ := exists_line_of_mem_cleaned hl
      exact newline_not_mem_of_mem_lines hfull (hpiece.subset hmem)
    exact Or.inr (by rw [HasTextAtEnds, hpieces]; exact exists_ends_dropBlankEnds hne)

/-! ## What is kept -/

/-- A cleaned docstring has no tab and no blank line at either end. It shows what is on the first
line and on those below that can be cut at their common margin, and so it keeps all text exactly if
every line with text below the first can be cut there. -/
theorem clean_keeps_text (raw : String) :
    (visible (cleanDocstring raw).toList = visible raw.toList ↔
        ∀ line ∈ body raw.toList, isBlankLine line = false →
          CutsAt (margin (body raw.toList)) line) ∧
      visible (cleanDocstring raw).toList =
        visible ((lines (expandTabs raw.toList)).headD []) ++
          ((body raw.toList).filter (CutsAt (margin (body raw.toList)))).flatMap visible ∧
      '\t' ∉ (cleanDocstring raw).toList ∧
      (cleanDocstring raw = "" ∨ HasTextAtEnds (cleanDocstring raw).toList) := by
  have htext : (cleanDocstring raw).toList = clean raw.toList := String.toList_ofList
  rw [htext]
  refine ⟨visible_clean_eq_iff raw.toList, visible_clean raw.toList, tab_not_mem_clean raw.toList,
    ?_⟩
  refine (clean_eq_nil_or_hasTextAtEnds raw.toList).imp (fun hnil => ?_) id
  rw [cleanDocstring, hnil]

/-- A blank of two bytes sets the margin here, and a blank of three bytes straddles it: the line
behind it is lost. -/
theorem loses_text_at_wide_blank :
    visible (cleanDocstring "a\n\u00a0b\n\u3000c").toList ≠
      visible "a\n\u00a0b\n\u3000c".toList := by
  decide +kernel

end Docstring

end CodeAtlas.Text
