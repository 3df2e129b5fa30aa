import CodeAtlas.Proofs.Chunk.Passes
import CodeAtlas.Proofs.Text.LineRanges

/-!
# What chunks hold

The content of a chunk is the lines of its definition, put together with line feeds, so it falls
apart into these lines again. A definition whose range covers no line, or one empty line only, has no
text, and no chunk can be made of it; nor can a chunk be made without a path. The missing text counts
first, and since a range that ends before it begins covers nothing, a pass never complains about the
boundaries of a chunk.

Main results:

- Theorem `definitionChunk_eq_error_iff`: when no chunk can be made of a definition, and why.
- Theorem `Pass.run_eq_error_iff`: a pass fails with the fault of its first faulty definition.
- Theorem `holdsLines_of_definitionChunk`: what the chunk of a definition holds.
- Theorem `cutsLines`: both passes, at every file.
-/

namespace CodeAtlas.Chunking

open CodeAtlas.Syntax
open CodeAtlas.Text (HasLines CoversOneEmptyLine lines lineRange)

/-! ## The passes -/

/-- One of the passes; the semantic one goes by a library of patterns and how they are matched. -/
inductive Pass where
  | structural
  | semantic (isMatch : Regex → List Char → Bool) (library : PatternLibrary)

namespace Pass

/-- What a pass makes of a file. -/
def run (config : ChunkerConfig) (file : SourceFile) : Pass → Except ChunkError (List Chunk)
  | structural => structuralPass config file
  | semantic isMatch library => semanticPass isMatch config library file

/-- Whether a pass makes a chunk of a definition. -/
def takes : Pass → Node → Bool
  | structural, _ => true
  | semantic isMatch library, n =>
    (library.classifyWith isMatch (n.name?.getD "") n.docComment?).semanticType.isSome

/-- The definitions that a pass makes chunks of, in pre-order. -/
def definitions (pass : Pass) (file : SourceFile) : List Node :=
  file.tree.definitionNodes.filter pass.takes

theorem definitions_structural (file : SourceFile) :
    structural.definitions file = file.tree.definitionNodes :=
  List.filter_eq_self.2 (fun _ _ => rfl)

theorem definitions_semantic (isMatch : Regex → List Char → Bool) (library : PatternLibrary)
    (file : SourceFile) :
    (semantic isMatch library).definitions file =
      (matchedDefinitions isMatch library file.tree).map Prod.fst := by
  rw [definitions, matchedDefinitions, List.map_filterMap]
  induction file.tree.definitionNodes with
  | nil => rfl
  | cons n rest ih =>
    cases hfound : (library.classifyWith isMatch (n.name?.getD "") n.docComment?).semanticType with
    | none => simp [takes, hfound, ih]
    | some semanticType => simp [takes, hfound, ih]

end Pass

/-! ## Faults of definitions -/

/-- No line of a source belongs to a definition, or one empty line only. -/
def HasNoText (ls : List (List Char)) (n : Node) : Prop :=
  n.span.startLine = 0 ∨ n.span.endLine < n.span.startLine ∨ ls.length < n.span.startLine ∨
    CoversOneEmptyLine ls n.span.startLine n.span.endLine

instance (ls : List (List Char)) (n : Node) : Decidable (HasNoText ls n) :=
  inferInstanceAs (Decidable (_ ∨ _ ∨ _ ∨ (_ ∧ (_ ∨ _))))

/-- Why no chunk can be made of a definition. -/
def fault? (ls : List (List Char)) (filePath : String) (n : Node) : Option ChunkError :=
  if HasNoText ls n then some .emptyContent
  else if filePath.isEmpty then some .emptyFilePath
  else none

theorem isSome_fault?_iff {ls : List (List Char)} {filePath : String} {n : Node} :
    (fault? ls filePath n).isSome = true ↔ HasNoText ls n ∨ filePath.isEmpty = true := by
  unfold fault?
  split
  · simp_all
  · split <;> simp_all

variable {config : ChunkerConfig} {file : SourceFile} {n : Node} {ls : List (List Char)}
  {c d : Chunk} {e : ChunkError}

/-- A definition has no text exactly if nothing is selected by its span. -/
theorem isEmpty_textForLines_iff (h : HasLines file.tree.source.toList ls) :
    (file.tree.textForLines n.span.startLine n.span.endLine).isEmpty = true ↔ HasNoText ls n := by
  obtain rfl := Text.hasLines_iff.1 h
  rw [Tree.textForLines, String.isEmpty_iff, String.ofList_eq_empty_iff, Text.selectLines_eq_nil_iff]
  rfl

/-- A definition fails with its fault. The check of the boundaries comes second, behind that of the
text, and is never reached by a span that would fail it. -/
theorem definitionChunk_eq_error_iff (h : HasLines file.tree.source.toList ls) :
    definitionChunk config file n = .error e ↔ fault? ls file.filePath n = some e := by
  have hcreate : definitionChunk config file n = .error e ↔
      Chunk.create (file.tree.textForLines n.span.startLine n.span.endLine) (chunkKind n)
        file.filePath file.modulePath n.span.startLine n.span.endLine = .error e := by
    unfold definitionChunk
    simp only [bind, Except.bind, pure, Except.pure]
    split
    · next he => rw [he]
    · next c hc => simp [hc]
  rw [hcreate, Chunk.create, fault?]
  by_cases hempty : HasNoText ls n
  · rw [if_pos ((isEmpty_textForLines_iff h).2 hempty), if_pos hempty, Except.error.injEq,
      Option.some.injEq]
  · have hspan : ¬n.span.endLine < n.span.startLine := fun hlt => hempty (Or.inr (Or.inl hlt))
    rw [if_neg (fun htext => hempty ((isEmpty_textForLines_iff h).1 htext)), if_neg hspan,
      if_neg hempty]
    by_cases hpath : file.filePath.isEmpty
    · rw [if_pos hpath, if_pos hpath, Except.error.injEq, Option.some.injEq]
    · simp [hpath]

/-- Notes do not fail. -/
theorem structuralChunk_eq_error_iff :
    structuralChunk config file n = .error e ↔ definitionChunk config file n = .error e := by
  unfold structuralChunk
  cases definitionChunk config file n <;> simp [bind, Except.bind, pure, Except.pure]

/-- Nor do the notes of the other pass. -/
theorem semanticChunk_eq_error_iff {semanticType : String} {phrases : List String} :
    semanticChunk config file n semanticType phrases = .error e ↔
      definitionChunk config file n = .error e := by
  unfold semanticChunk
  cases definitionChunk config file n <;> simp [bind, Except.bind, pure, Except.pure]

/-- A pass fails with the fault of its first faulty definition. -/
theorem Pass.run_eq_error_iff (pass : Pass) (h : HasLines file.tree.source.toList ls) :
    pass.run config file = .error e ↔
      (pass.definitions file).findSome? (fault? ls file.filePath) = some e := by
  cases pass with
  | structural =>
    rw [definitions_structural]
    exact mapM_eq_error_iff (fun n e =>
      structuralChunk_eq_error_iff.trans (definitionChunk_eq_error_iff h))
  | semantic isMatch library =>
    rw [definitions_semantic, List.findSome?_map]
    exact mapM_eq_error_iff (fun found e =>
      semanticChunk_eq_error_iff.trans (definitionChunk_eq_error_iff h))

/-! ## Contents -/

/-- A chunk holds the lines of its definition. -/
structure HoldsLines (ls : List (List Char)) (n : Node) (c : Chunk) : Prop where
  startLine : c.startLine = n.span.startLine
  endLine : c.endLine = n.span.endLine
  /-- The pieces of the content are the lines from the first to the last one, as far as the source
  goes. -/
  pieces : ∀ k, (c.content.toList.splitOn '\n')[k]? =
    if c.startLine + k ≤ c.endLine then ls[c.startLine + k - 1]? else none
  /-- Within the source there are as many as the chunk has lines. -/
  lineCount : c.endLine ≤ ls.length → (c.content.toList.splitOn '\n').length = c.lineCount

/-- The level of a semantic chunk is that of the number of its lines. -/
def HasLevel (config : ChunkerConfig) (c : Chunk) : Prop :=
  c.metadata? MetadataKey.complexityLevel.label =
    some (.str (complexityLevel config c.lineCount).label)

/-- A chunk is made only of a definition that has text. -/
theorem not_hasNoText_of_definitionChunk (h : HasLines file.tree.source.toList ls)
    (hd : definitionChunk config file n = .ok d) : ¬HasNoText ls n := by
  intro hempty
  have hfault : fault? ls file.filePath n = some .emptyContent := if_pos hempty
  exact nomatch hd.symm.trans ((definitionChunk_eq_error_iff h).2 hfault)

/-- The content falls apart into the lines of the definition, of which there are some. -/
theorem splitOn_content (h : HasLines file.tree.source.toList ls)
    (hd : definitionChunk config file n = .ok d) : 1 ≤ n.span.startLine ∧
      d.content.toList.splitOn '\n' = lineRange ls n.span.startLine n.span.endLine := by
  have htext := not_hasNoText_of_definitionChunk h hd
  simp only [HasNoText, not_or] at htext
  obtain ⟨hzero, hinverted, hpast, -⟩ := htext
  have hcovers : lineRange ls n.span.startLine n.span.endLine ≠ [] := by
    intro hnil
    rcases Text.lineRange_eq_nil_iff.1 hnil with hnone | hnone | hnone <;> contradiction
  refine ⟨by omega, ?_⟩
  obtain rfl := Text.hasLines_iff.1 h
  rw [eq_of_definitionChunk hd]
  simp only [Tree.textForLines, String.toList_ofList]
  exact Text.splitOn_selectLines hcovers

/-- The chunk of a definition holds its lines. -/
theorem holdsLines_of_definitionChunk (h : HasLines file.tree.source.toList ls)
    (hd : definitionChunk config file n = .ok d) : HoldsLines ls n d := by
  obtain ⟨hfirst, hcontent⟩ := splitOn_content h hd
  have hstart : d.startLine = n.span.startLine := by rw [eq_of_definitionChunk hd]
  have hend : d.endLine = n.span.endLine := by rw [eq_of_definitionChunk hd]
  have hinverted : ¬n.span.endLine < n.span.startLine :=
    fun hlt => not_hasNoText_of_definitionChunk h hd (Or.inr (Or.inl hlt))
  refine ⟨hstart, hend, ?pieces, ?lineCount⟩
  case pieces =>
    intro k
    rw [hcontent, hstart, hend]
    exact Text.getElem?_lineRange hfirst k
  case lineCount =>
    intro hle
    rw [hend] at hle
    rw [hcontent, Text.length_lineRange hfirst, Chunk.lineCount, hstart, hend]
    omega

/-- The metadata do not matter to the lines of a chunk. -/
theorem HoldsLines.withMetadata (h : HoldsLines ls n d) (metadata : Table String Json) :
    HoldsLines ls n { d with metadata } :=
  ⟨h.startLine, h.endLine, h.pieces, h.lineCount⟩

theorem holdsLines_of_structuralChunk (h : HasLines file.tree.source.toList ls)
    (hc : structuralChunk config file n = .ok c) : HoldsLines ls n c := by
  obtain ⟨d, hd, metadata, rfl⟩ := exists_of_structuralChunk hc
  exact (holdsLines_of_definitionChunk h hd).withMetadata metadata

/-- The semantic chunk of a definition is its chunk, but for the metadata, in which the level is that
of the number of pieces. -/
theorem exists_of_semanticChunk {semanticType : String} {phrases : List String}
    (h : semanticChunk config file n semanticType phrases = .ok c) :
    ∃ d, definitionChunk config file n = .ok d ∧ DiffersInMetadata d c ∧
      c.metadata? MetadataKey.complexityLevel.label =
        some (.str (complexityLevel config (d.content.toList.splitOn '\n').length).label) := by
  unfold semanticChunk at h
  simp only [bind_eq_ok_iff, pure, Except.pure, Except.ok.injEq] at h
  obtain ⟨d, hd, rfl⟩ := h
  refine ⟨d, hd, ?same, ?level⟩
  case same => exact (((((differsInMetadata_self d).note _ _).note _ _).note _ _).note _ _).note _ _
  case level =>
    rw [metadata?_note, if_neg (by decide), metadata?_note, if_neg (by decide), metadata?_note,
      if_pos rfl]

/-- Within the source the number of pieces is the number of lines. -/
theorem holdsLines_of_semanticChunk {semanticType : String} {phrases : List String}
    (h : HasLines file.tree.source.toList ls)
    (hc : semanticChunk config file n semanticType phrases = .ok c) :
    HoldsLines ls n c ∧ (c.endLine ≤ ls.length → HasLevel config c) := by
  obtain ⟨d, hd, ⟨metadata, rfl⟩, hlevel⟩ := exists_of_semanticChunk hc
  have hlines := holdsLines_of_definitionChunk h hd
  refine ⟨hlines.withMetadata metadata, ?_⟩
  intro hle
  rw [HasLevel, hlevel, hlines.lineCount hle]
  rfl

/-! ## Both passes at a file -/

/-- What a pass makes of a file whose source has some lines. -/
structure CutsLines (pass : Pass) (config : ChunkerConfig) (file : SourceFile)
    (ls : List (List Char)) : Prop where
  /-- There is one chunk for each definition that the pass takes, in order, with its lines. -/
  chunks : ∀ chunks, pass.run config file = .ok chunks →
    List.Forall₂ (HoldsLines ls) (pass.definitions file) chunks
  /-- A semantic chunk within the source has the level of its lines. -/
  levels : ∀ isMatch library, pass = .semantic isMatch library →
    ∀ chunks, pass.run config file = .ok chunks →
    ∀ c ∈ chunks, c.endLine ≤ ls.length → HasLevel config c
  /-- The pass fails exactly if one of these definitions has no text, or there are any and the file
  has no path. -/
  fails_iff : (∃ e, pass.run config file = .error e) ↔
    (∃ n ∈ pass.definitions file, HasNoText ls n) ∨
      (pass.definitions file ≠ [] ∧ file.filePath.isEmpty = true)
  /-- The error is that of the first faulty definition, a missing text before a missing path. -/
  error_iff : ∀ e, pass.run config file = .error e ↔
    ∃ before n behind, pass.definitions file = before ++ n :: behind ∧
      fault? ls file.filePath n = some e ∧ ∀ m ∈ before, fault? ls file.filePath m = none
  /-- No pass complains about boundaries. -/
  boundaries : ∀ start stop, pass.run config file ≠ .error (.invalidBoundaries start stop)

/-- The chunks of a pass hold the lines of their definitions. -/
theorem Pass.forall₂_holdsLines (pass : Pass) (h : HasLines file.tree.source.toList ls)
    {chunks : List Chunk} (hrun : pass.run config file = .ok chunks) :
    List.Forall₂ (HoldsLines ls) (pass.definitions file) chunks := by
  cases pass with
  | structural =>
    rw [definitions_structural]
    exact (mapM_eq_ok_iff.1 hrun).imp (fun _ _ hc => holdsLines_of_structuralChunk h hc)
  | semantic isMatch library =>
    rw [definitions_semantic, List.forall₂_map_left_iff]
    exact (mapM_eq_ok_iff.1 hrun).imp (fun _ _ hc => (holdsLines_of_semanticChunk h hc).1)

/-- Every chunk of both passes holds the lines of its definition, and a pass fails exactly where a
definition has no text or the path is missing. -/
theorem cutsLines (pass : Pass) (config : ChunkerConfig) (file : SourceFile)
    (ls : List (List Char)) (h : HasLines file.tree.source.toList ls) :
    CutsLines pass config file ls := by
  have herror : ∀ e, pass.run config file = .error e ↔
      (pass.definitions file).findSome? (fault? ls file.filePath) = some e :=
    fun e => pass.run_eq_error_iff h
  refine ⟨fun chunks hrun => pass.forall₂_holdsLines h hrun, ?levels, ?fails_iff,
    fun e => (herror e).trans List.findSome?_eq_some_iff, ?boundaries⟩
  case levels =>
    rintro isMatch library rfl chunks hrun c hc hle
    obtain ⟨found, -, hchunk⟩ := exists_of_mem_right (mapM_eq_ok_iff.1 hrun) hc
    exact (holdsLines_of_semanticChunk h hchunk).2 hle
  case fails_iff =>
    simp only [herror, ← Option.isSome_iff_exists, List.findSome?_isSome_iff, isSome_fault?_iff]
    constructor
    · rintro ⟨n, hn, hempty | hpath⟩
      · exact Or.inl ⟨n, hn, hempty⟩
      · exact Or.inr ⟨List.ne_nil_of_mem hn, hpath⟩
    · rintro (⟨n, hn, hempty⟩ | ⟨hne, hpath⟩)
      · exact ⟨n, hn, Or.inl hempty⟩
      · obtain ⟨n, hn⟩ := List.exists_mem_of_ne_nil _ hne
        exact ⟨n, hn, Or.inr hpath⟩
  case boundaries =>
    intro start stop hrun
    obtain ⟨-, n, -, -, hn, -⟩ := List.findSome?_eq_some_iff.1 ((herror _).1 hrun)
    unfold fault? at hn
    split at hn
    · cases hn
    · split at hn <;> cases hn

/-- A file without a path. Its lines end with carriage returns, the third one is empty, and the first
definition is said to cover just that line. -/
def blankFile : SourceFile where
  tree := {
    root := ⟨.file, ⟨1, 6, 0⟩, [
      ⟨.classDef { name := "Gap" }, ⟨3, 3, 0⟩, []⟩,
      ⟨.function { name := "main" }, ⟨4, 5, 0⟩, []⟩]⟩
    source := "import io\r\n# gap\r\n\r\ndef main():\r\n    pass\r\n" }
  filePath := ""
  modulePath := ""

/-- The lines of that file. -/
def blankLines : List (List Char) :=
  ["import io", "# gap", "", "def main():", "    pass"].map String.toList

/-- The first definition has no text, which counts before the missing path. -/
theorem cutsLines_blank :
    HasLines blankFile.tree.source.toList blankLines ∧ CutsLines .structural {} blankFile blankLines ∧
      Pass.structural.run {} blankFile = .error .emptyContent := by
  have hlines : lines blankFile.tree.source.toList = blankLines := by decide +kernel
  have hsource : HasLines blankFile.tree.source.toList blankLines := Text.hasLines_iff.2 hlines
  have hcuts := cutsLines .structural {} blankFile blankLines hsource
  have hdefinitions : Pass.structural.definitions blankFile = [
      ⟨.classDef { name := "Gap" }, ⟨3, 3, 0⟩, []⟩,
      ⟨.function { name := "main" }, ⟨4, 5, 0⟩, []⟩] := by
    rw [Pass.definitions_structural, Tree.definitionNodes_eq]
    rfl
  refine ⟨hsource, hcuts, (hcuts.error_iff .emptyContent).2 ?_⟩
  exact ⟨[], _, _, hdefinitions, by decide +kernel, fun m hm => absurd hm List.not_mem_nil⟩

end CodeAtlas.Chunking
