import CodeAtlas.Proofs.Chunk.Contents

/-!
# Complexity and ranges of lines

The complexity of a content counts the pieces between line feeds that hold a decision. A content that
was selected from a source has the lines of its range as pieces, unless the range covers none; then
it is a single empty piece, in which a keyword that is not empty does not occur. So the complexity of
a range counts lines of the source: ranges in a row add up, and a range within another one has no
more.

Main results:

- Theorem `decisionLines_textForLines`: the lines with a decision in a range of a source.
- Theorem `complexity_of_structuralChunk`: the complexity of the chunk of a definition.
- Theorem `complexityScore_le_of_subset`: fewer keywords find no more.
- Theorem `scoresAddUp`: how the scores of a file go together.
-/

namespace CodeAtlas.Chunking

open CodeAtlas.Syntax
open CodeAtlas.Text (lines lineRange)

variable {keywords fewer : List String} {config : ChunkerConfig} {file : SourceFile} {n : Node}
  {c : Chunk}

/-! ## Keywords -/

/-- The lines of a range that hold a decision. -/
def decisionsInRange (keywords : List String) (ls : List (List Char)) (start stop : Nat) : Nat :=
  (lineRange ls start stop).countP (isDecisionLine keywords)

/-- No decision is in an empty line. -/
theorem isDecisionLine_nil (h : ∀ k ∈ keywords, k ≠ "") : isDecisionLine keywords [] = false := by
  rw [isDecisionLine, List.any_eq_false]
  intro k hk hoccurs
  have hnil : k.toList = [] := List.isEmpty_iff.1 hoccurs
  exact h k hk (String.toList_eq_nil_iff.1 hnil)

/-- A line in which one of fewer keywords occurs holds a decision. -/
theorem isDecisionLine_of_subset (h : fewer ⊆ keywords) {line : List Char}
    (hline : isDecisionLine fewer line = true) : isDecisionLine keywords line = true := by
  obtain ⟨k, hk, hoccurs⟩ := List.any_eq_true.1 hline
  exact List.any_eq_true.2 ⟨k, h hk, hoccurs⟩

/-- Fewer keywords find no more. -/
theorem complexityScore_le_of_subset (h : fewer ⊆ keywords) (content : String) :
    complexityScore fewer content ≤ complexityScore keywords content := by
  have hcount : decisionLines fewer content.toList ≤ decisionLines keywords content.toList :=
    List.countP_mono_left (fun _ _ hline => isDecisionLine_of_subset h hline)
  unfold complexityScore
  omega

/-! ## Ranges -/

/-- The lines with a decision in a text that was selected are those of its range. A range that covers
nothing selects a single empty piece, which counts for nothing either. -/
theorem decisionLines_textForLines (h : ∀ k ∈ keywords, k ≠ "") (t : Tree) (start stop : Nat) :
    decisionLines keywords (t.textForLines start stop).toList =
      decisionsInRange keywords (lines t.source.toList) start stop := by
  rw [decisionLines, decisionsInRange, Tree.textForLines, String.toList_ofList]
  by_cases hnone : lineRange (lines t.source.toList) start stop = []
  · have htext : Text.selectLines t.source.toList start stop = [] := by
      rw [Text.selectLines_eq_joinLines, hnone]
      rfl
    have hpieces : ([] : List Char).splitOn '\n' = [[]] := rfl
    rw [hnone, htext, hpieces, List.countP_cons_of_neg (by simp [isDecisionLine_nil h])]
  · rw [Text.splitOn_selectLines hnone]

/-- Ranges in a row have their decisions together. -/
theorem decisionsInRange_add {ls : List (List Char)} {a b c : Nat} (ha : 1 ≤ a) (hab : a ≤ b)
    (hbc : b < c) : decisionsInRange keywords ls a c =
      decisionsInRange keywords ls a b + decisionsInRange keywords ls (b + 1) c := by
  unfold decisionsInRange
  rw [← List.countP_append, Text.lineRange_append ha (by omega) (by omega)]

/-- A range within another one has no more decisions. -/
theorem decisionsInRange_le {ls : List (List Char)} {a b a' b' : Nat} (ha : 1 ≤ a) (hstart : a ≤ a')
    (hstop : b' ≤ b) : decisionsInRange keywords ls a' b' ≤ decisionsInRange keywords ls a b :=
  (Text.lineRange_sublist ha hstart hstop).countP_le

/-! ## Definitions -/

/-- The complexity of a structural chunk counts the lines of its definition. -/
theorem complexity_of_structuralChunk (hc : structuralChunk config file n = .ok c) :
    1 ≤ n.span.startLine ∧ c.complexity =
      some (min (decisionsInRange config.complexityKeywords (lines file.tree.source.toList)
        n.span.startLine n.span.endLine) maxScore) := by
  obtain ⟨d, hd, metadata, rfl⟩ := exists_of_structuralChunk hc
  obtain ⟨hfirst, hpieces⟩ := splitOn_content (Text.hasLines_iff.2 rfl) hd
  have hscore : d.complexity = some (complexityScore config.complexityKeywords d.content) := by
    rw [eq_of_definitionChunk hd]
  refine ⟨hfirst, hscore.trans ?_⟩
  rw [complexityScore, decisionLines, hpieces, decisionsInRange]

/-- How the scores of a file go together. -/
structure ScoresAddUp (config : ChunkerConfig) (file : SourceFile) : Prop where
  /-- The lines with a decision add up, also where ranges run past the end of the source. -/
  decisionLines_add : ∀ a b c, 1 ≤ a → a ≤ b → b < c →
    decisionLines config.complexityKeywords (file.tree.textForLines a c).toList =
      decisionLines config.complexityKeywords (file.tree.textForLines a b).toList +
        decisionLines config.complexityKeywords (file.tree.textForLines (b + 1) c).toList
  /-- So do the scores, up to the largest one. -/
  score_add : ∀ a b c, 1 ≤ a → a ≤ b → b < c →
    complexityScore config.complexityKeywords (file.tree.textForLines a c) =
      min (complexityScore config.complexityKeywords (file.tree.textForLines a b) +
        complexityScore config.complexityKeywords (file.tree.textForLines (b + 1) c)) maxScore
  /-- A definition whose span is within that of another one is not more complex. -/
  nested : ∀ chunks, structuralPass config file = .ok chunks →
    ∀ m c n d, (m, c) ∈ file.tree.definitionNodes.zip chunks →
      (n, d) ∈ file.tree.definitionNodes.zip chunks →
      m.span.startLine ≤ n.span.startLine → n.span.endLine ≤ m.span.endLine →
      ∃ outer inner, c.complexity = some outer ∧ d.complexity = some inner ∧ inner ≤ outer
  /-- Without some of the keywords no content has a higher score. -/
  fewer : ∀ keywords ⊆ config.complexityKeywords, ∀ content,
    complexityScore keywords content ≤ complexityScore config.complexityKeywords content

/-- Where no keyword is empty, the scores of ranges in a row add up, and those of definitions follow
their nesting. -/
theorem scoresAddUp (config : ChunkerConfig) (file : SourceFile)
    (h : ∀ k ∈ config.complexityKeywords, k ≠ "") : ScoresAddUp config file := by
  have hadd : ∀ a b c, 1 ≤ a → a ≤ b → b < c →
      decisionLines config.complexityKeywords (file.tree.textForLines a c).toList =
        decisionLines config.complexityKeywords (file.tree.textForLines a b).toList +
          decisionLines config.complexityKeywords (file.tree.textForLines (b + 1) c).toList := by
    intro a b c ha hab hbc
    rw [decisionLines_textForLines h, decisionLines_textForLines h, decisionLines_textForLines h]
    exact decisionsInRange_add ha hab hbc
  refine ⟨hadd, ?score_add, ?nested, fun _ hsubset content =>
    complexityScore_le_of_subset hsubset content⟩
  case score_add =>
    intro a b c ha hab hbc
    unfold complexityScore
    rw [hadd a b c ha hab hbc]
    omega
  case nested =>
    intro chunks hchunks m c n d hm hn hstart hstop
    have hside := structuralPass_eq_ok_iff.1 hchunks
    obtain ⟨hfirst, houter⟩ := complexity_of_structuralChunk (List.forall₂_zip hside hm)
    obtain ⟨-, hinner⟩ := complexity_of_structuralChunk (List.forall₂_zip hside hn)
    refine ⟨_, _, houter, hinner, ?_⟩
    have hle : decisionsInRange config.complexityKeywords (lines file.tree.source.toList)
        n.span.startLine n.span.endLine ≤ decisionsInRange config.complexityKeywords
          (lines file.tree.source.toList) m.span.startLine m.span.endLine :=
      decisionsInRange_le hfirst hstart hstop
    omega

/-- Settings with two keywords. -/
def loopsOnly : ChunkerConfig := { complexityKeywords := ["for ", "while "] }

/-- A class with a method. The third line is blank, and the one behind it ends with a keyword, whose
blank does not belong to the line. -/
def counterFile : SourceFile where
  tree := {
    root := ⟨.file, ⟨1, 5, 0⟩, [
      ⟨.classDef { name := "C" }, ⟨1, 5, 0⟩, [⟨.function { name := "f" }, ⟨2, 5, 4⟩, []⟩]⟩]⟩
    source := "class C:\r\n    def f(n): # for n\r\n\r\n     # for \n     while n: pass\n" }
  filePath := "counter.py"
  modulePath := "counter"

/-- The first two lines and all others, with some that the file does not have, have one line with a
decision each. -/
theorem scoresAddUp_counter :
    (∀ k ∈ loopsOnly.complexityKeywords, k ≠ "") ∧ ScoresAddUp loopsOnly counterFile ∧
      complexityScore loopsOnly.complexityKeywords (counterFile.tree.textForLines 1 9) = 2 := by
  have hkeywords : ∀ k ∈ loopsOnly.complexityKeywords, k ≠ "" := by decide +kernel
  have hfile := scoresAddUp loopsOnly counterFile hkeywords
  have hfirst : complexityScore loopsOnly.complexityKeywords
      (counterFile.tree.textForLines 1 2) = 1 := by decide +kernel
  have hothers : complexityScore loopsOnly.complexityKeywords
      (counterFile.tree.textForLines 3 9) = 1 := by decide +kernel
  have hadd := hfile.score_add 1 2 9 (by decide) (by decide) (by decide)
  rw [hfirst, hothers] at hadd
  exact ⟨hkeywords, hfile, hadd.trans (by simp [maxScore])⟩

end CodeAtlas.Chunking
