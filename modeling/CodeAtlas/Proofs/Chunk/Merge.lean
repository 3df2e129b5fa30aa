import CodeAtlas.Proofs.Chunk.Hybrid

/-!
# Merging settles

Merging keeps all semantic chunks and drops the structural ones whose name and first line are those
of a semantic chunk. What was merged can be taken apart again by the flag of the semantic pass, and
merging the parts changes nothing, as nothing is left to drop.

Main results:

- Theorem `flagged_of_passes`: the flag tells the chunks of the two passes apart.
- Theorem `partition_merge`: a merged list falls apart into the semantic chunks and the structural
  ones that were kept.
- Theorem `merge_settled`: what merging gives, and that doing it again changes nothing.
-/

namespace CodeAtlas.Chunking

open CodeAtlas.Syntax

/-- The flag of the semantic pass tells the chunks of two lists apart. -/
structure Flagged (semantic structural : List Chunk) : Prop where
  isSemantic : ∀ c ∈ semantic, c.isSemantic = true
  not_isSemantic : ∀ c ∈ structural, c.isSemantic = false

/-- Merging the semantic and the other chunks of a list gives the list again, and no chunk of one
kind has the name and the first line of one of the other. -/
structure Settled (merged : List Chunk) : Prop where
  merge_partition : let parts := merged.partition Chunk.isSemantic
    merge parts.1 parts.2 = merged
  disjoint : ∀ c ∈ merged, ∀ d ∈ merged, c.isSemantic = true → d.isSemantic = false →
    ¬(c.symbolName = d.symbolName ∧ c.startLine = d.startLine)

variable {semantic structural : List Chunk}

/-- The passes flag their chunks. -/
theorem flagged_of_passes {isMatch : Regex → List Char → Bool} {config : ChunkerConfig}
    {library : PatternLibrary} {file : SourceFile}
    (hsemantic : semanticPass isMatch config library file = .ok semantic)
    (hstructural : structuralPass config file = .ok structural) : Flagged semantic structural where
  isSemantic := by
    intro c hc
    obtain ⟨found, -, hchunk⟩ := exists_of_mem_right (mapM_eq_ok_iff.1 hsemantic) hc
    exact (semanticChunk_spec hchunk).2.2
  not_isSemantic c hc := (flags_of_structural (structuralPass_eq_ok_iff.1 hstructural) c hc).1

/-- A chunk is shadowed if a semantic chunk has its name and its first line. -/
theorem isShadowed_eq_false_iff {c : Chunk} :
    isShadowed semantic c = false ↔
      ∀ s ∈ semantic, ¬(s.symbolName = c.symbolName ∧ s.startLine = c.startLine) := by
  simp [isShadowed]

/-- The chunks behind the semantic ones are those that none of them shadows, in their order. -/
theorem merge_eq (semantic structural : List Chunk) :
    merge semantic structural = semantic ++ structural.filter (fun c =>
      ∀ s ∈ semantic, ¬(s.symbolName = c.symbolName ∧ s.startLine = c.startLine)) := by
  refine congrArg (semantic ++ ·) (List.filter_congr (fun c _ => ?_))
  rw [Bool.eq_iff_iff, Bool.not_eq_true', isShadowed_eq_false_iff, decide_eq_true_iff]

/-- A merged list falls apart into the semantic chunks and the structural ones that were kept. -/
theorem partition_merge (h : Flagged semantic structural) :
    (merge semantic structural).partition Chunk.isSemantic =
      (semantic, structural.filter (fun c => !isShadowed semantic c)) := by
  have hkept : ∀ c ∈ structural.filter (fun c => !isShadowed semantic c), c.isSemantic = false :=
    fun c hc => h.not_isSemantic c (List.mem_filter.1 hc).1
  rw [List.partition_eq_filter_filter, merge, List.filter_append, List.filter_append,
    List.filter_eq_self.2 h.isSemantic,
    List.filter_eq_nil_iff.2 (fun c hc => by simp [hkept c hc]), List.append_nil,
    List.filter_eq_nil_iff.2 (fun c hc => by simp [h.isSemantic c hc]),
    List.filter_eq_self.2 (fun c hc => by simp [hkept c hc]), List.nil_append]

/-- What was merged is settled. -/
theorem Flagged.settled (h : Flagged semantic structural) : Settled (merge semantic structural) where
  merge_partition := by
    rw [partition_merge h]
    simp only [merge, List.filter_filter, Bool.and_self]
  disjoint := by
    intro c hc d hd hsemantic hstructural
    have hparts := partition_merge h
    rw [List.partition_eq_filter_filter, Prod.mk.injEq] at hparts
    have hleft : c ∈ semantic := hparts.1 ▸ List.mem_filter.2 ⟨hc, hsemantic⟩
    have hright : d ∈ structural.filter (fun c => !isShadowed semantic c) :=
      hparts.2 ▸ List.mem_filter.2 ⟨hd, by simp [hstructural]⟩
    have hkept := (List.mem_filter.1 hright).2
    rw [Bool.not_eq_true', isShadowed_eq_false_iff] at hkept
    exact hkept c hleft

/-- Merging gives the semantic chunks and then the structural ones that have the name and the first
line of none of them. Where the flag tells both apart, as it does for what the passes make, merging
the parts of the merged list changes nothing. -/
theorem merge_settled :
    (∀ semantic structural, merge semantic structural = semantic ++ structural.filter (fun c =>
      ∀ s ∈ semantic, ¬(s.symbolName = c.symbolName ∧ s.startLine = c.startLine))) ∧
    (∀ semantic structural, Flagged semantic structural → Settled (merge semantic structural)) ∧
    ∀ isMatch config library file semantic structural,
      semanticPass isMatch config library file = .ok semantic →
      structuralPass config file = .ok structural → Flagged semantic structural :=
  ⟨merge_eq, fun _ _ h => h.settled, fun _ _ _ _ _ _ h h' => flagged_of_passes h h'⟩

/-- A chunk of one line with the flag of a pass. -/
def lineChunk (key : MetadataKey) (symbolName : Option String) (line : Nat) : Chunk :=
  let bare : Chunk :=
    { content := "pass", kind := .function, filePath := "a.py", modulePath := "a",
      startLine := line, endLine := line, symbolName }
  bare.note key (.bool true)

/-- Of four structural chunks those go whose name and line a semantic chunk has, where a missing name
is a name like any other; and both passes succeed on a class with a method that is marked. -/
theorem merge_settled_nameless :
    let semantic := [lineChunk .isSemantic (some "load") 3, lineChunk .isSemantic none 7]
    let structural := [lineChunk .isStructural (some "load") 3,
      lineChunk .isStructural (some "load") 9, lineChunk .isStructural (some "save") 3,
      lineChunk .isStructural none 7]
    (Flagged semantic structural ∧ Settled (merge semantic structural) ∧
      (merge semantic structural).map Chunk.place =
        [(some "load", 3), (none, 7), (some "load", 9), (some "save", 3)]) ∧
    ∃ library semantic structural,
      semanticPass Regex.isMatch loadingOnly library loaderFile = .ok semantic ∧
      structuralPass loadingOnly loaderFile = .ok structural ∧ Flagged semantic structural := by
  intro semantic structural
  have hflagged : Flagged semantic structural := ⟨by decide +kernel, by decide +kernel⟩
  refine ⟨⟨hflagged, merge_settled.2.1 semantic structural hflagged, by decide +kernel⟩, ?_⟩
  have hvalid : loadingOnly.validate = .ok () := by decide +kernel
  obtain ⟨library, -⟩ := PatternLibrary.exists_compile_of_validate (validate_patterns hvalid)
  obtain ⟨chunks, hchunks⟩ := exists_structuralPass_loader
  obtain ⟨found, hfound⟩ := exists_semanticPass Regex.isMatch library hchunks
  exact ⟨library, found, chunks, hfound, hchunks, merge_settled.2.2 _ _ _ _ _ _ hfound hchunks⟩

end CodeAtlas.Chunking
