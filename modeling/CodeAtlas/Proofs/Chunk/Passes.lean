import CodeAtlas.Proofs.Chunk.Classification
import CodeAtlas.Proofs.Chunk.Validation

/-!
# What the passes make

Both passes make the same chunk of a definition and differ in the metadata they write. A definition
is marked by the settings if its name or its docstring, in lowercase, matches one of their patterns;
the semantic pass goes over the marked definitions.

How patterns are read and matched is left open.

Main results:

- Theorem `isSome_classifyWith`: the patterns that were read find the definitions that the settings
  mark.
- Theorems `exists_structuralChunk_iff` and `exists_semanticChunk_iff`: a chunk fails in both passes
  or in none.
- Theorems `structuralPass_eq_ok_iff` and `semanticPass_eq_ok_iff`: one chunk for each definition,
  and one for each marked definition.
-/

namespace CodeAtlas.Chunking

open CodeAtlas.Syntax

/-! ## Marked definitions -/

variable {read : String → Option Regex} {isMatch : Regex → List Char → Bool}

/-- Whether the name or the docstring of a definition, in lowercase, matches a pattern. -/
def hits (isMatch : Regex → List Char → Bool) (n : Node) (r : Regex) : Bool :=
  isMatch r (Text.lowercase (n.name?.getD "").toList) ||
    isMatch r (Text.lowercase (n.docComment?.getD "").toList)

/-- Whether a definition matches some pattern of the settings. -/
def ChunkerConfig.marks (read : String → Option Regex) (isMatch : Regex → List Char → Bool)
    (config : ChunkerConfig) (n : Node) : Bool :=
  config.patterns.any (fun category =>
    category.patterns.any (fun text => (read text).any (hits isMatch n)))

namespace PatternLibrary

/-- A category that was read finds what its texts find. -/
theorem any_patterns_of_compile {c : PatternCategory} {d : CompiledCategory}
    (h : compileCategory read c = .ok d) (found : Regex → Bool) :
    d.patterns.any (fun p => found p.2) =
      c.patterns.any (fun text => (read text).any found) := by
  obtain ⟨ps, hps, rfl⟩ := compileCategory_eq_ok_iff.1 h
  refine any_eq_any_of_forall₂ (mapM_eq_ok_iff.1 hps) (fun text p hp => ?_)
  obtain ⟨r, hr, rfl⟩ := compilePattern_eq_ok_iff.1 hp
  rw [hr]
  rfl

/-- A definition gets a type if some pattern of some category finds it. -/
theorem isSome_classifyBy (found : Regex → Bool) (library : PatternLibrary) :
    (classifyBy found library).semanticType.isSome =
      library.categories.any (fun c => c.patterns.any (fun p => found p.2)) := by
  have hfound : ∀ r, found r = true ↔ found r = true := fun _ => Iff.rfl
  have hdescribes := describes_classifyBy hfound library.categories
  rw [Bool.eq_iff_iff]
  refine hdescribes.isSome_iff.trans ?_
  simp only [CompiledCategory.Matches, List.any_eq_true]

/-- The patterns that were read find the definitions that the settings mark. -/
theorem isSome_classifyWith {config : ChunkerConfig} {library : PatternLibrary}
    (h : compileWith read config.patterns = .ok library) (n : Node) :
    (library.classifyWith isMatch (n.name?.getD "") n.docComment?).semanticType.isSome =
      config.marks read isMatch n :=
  (isSome_classifyBy (hits isMatch n) library).trans
    (any_eq_any_of_forall₂ (mapM_eq_ok_iff.1 (compile_eq_ok_iff.1 h))
      (fun _ _ hc => any_patterns_of_compile hc (hits isMatch n)))

end PatternLibrary

/-! ## The chunk of a definition -/

/-- What tells definitions of a file apart: the name and the first line. -/
def Node.place (n : Node) : Option String × Nat := (n.name?, n.span.startLine)

/-- The name and the first line of a chunk. -/
def Chunk.place (c : Chunk) : Option String × Nat := (c.symbolName, c.startLine)

variable {config : ChunkerConfig} {file : SourceFile} {n : Node} {c d : Chunk}

/-- What the chunk of a definition is. -/
theorem eq_of_definitionChunk (h : definitionChunk config file n = .ok d) :
    let content := file.tree.textForLines n.span.startLine n.span.endLine
    d = {
      content
      kind := chunkKind n
      filePath := file.filePath
      modulePath := file.modulePath
      startLine := n.span.startLine
      endLine := n.span.endLine
      symbolName := n.name?
      complexity := some (complexityScore config.complexityKeywords content) } := by
  unfold definitionChunk Chunk.create at h
  simp only [bind_eq_ok_iff, pure, Except.pure, Except.ok.injEq] at h
  obtain ⟨c, hc, rfl⟩ := h
  split at hc
  · cases hc
  · split at hc
    · cases hc
    · split at hc
      · cases hc
      · cases hc
        rfl

/-- The chunk of a definition stands at its place and has no metadata yet. -/
theorem place_of_definitionChunk (h : definitionChunk config file n = .ok d) :
    d.place = Node.place n ∧ d.metadata = ∅ := by
  rw [eq_of_definitionChunk h]
  exact ⟨rfl, rfl⟩

/-- Noting something does not move a chunk. -/
@[simp]
theorem place_note (c : Chunk) (key : MetadataKey) (value : Json) :
    (c.note key value).place = c.place :=
  rfl

/-- A chunk is another one, but for the metadata. -/
def DiffersInMetadata (d c : Chunk) : Prop := ∃ metadata, c = { d with metadata }

theorem differsInMetadata_self (d : Chunk) : DiffersInMetadata d d :=
  ⟨d.metadata, rfl⟩

/-- Noting something changes the metadata only. -/
theorem DiffersInMetadata.note (h : DiffersInMetadata d c) (key : MetadataKey) (value : Json) :
    DiffersInMetadata d (c.note key value) := by
  obtain ⟨metadata, rfl⟩ := h
  exact ⟨metadata.insert key.label value, rfl⟩

/-- The names of the keys are different. -/
theorem MetadataKey.label_injective {k l : MetadataKey} (h : k.label = l.label) : k = l := by
  revert h
  cases k <;> cases l <;> decide

/-- Noting something keeps it under its key, and leaves what is under the other keys. -/
theorem metadata?_note (c : Chunk) (key other : MetadataKey) (value : Json) :
    (c.note key value).metadata? other.label =
      if other = key then some value else c.metadata? other.label := by
  unfold Chunk.metadata? Chunk.note Chunk.setMetadata
  split
  · next h => simp [h]
  · next h =>
    have hlabel : other.label ≠ key.label := fun heq => h (MetadataKey.label_injective heq)
    simp only [Table.get?_insert_of_ne _ _ hlabel]

/-- Noting something sets one flag and keeps the others. -/
theorem flag_note (c : Chunk) (key other : MetadataKey) (value : Json) :
    (c.note key value).flag other =
      if other = key then value.bool?.getD false else c.flag other := by
  rw [Chunk.flag, metadata?_note]
  split <;> rfl

/-- Without metadata no flag is set. -/
theorem flag_of_no_metadata (h : d.metadata = ∅) (key : MetadataKey) : d.flag key = false := by
  simp [Chunk.flag, Chunk.metadata?, h]

/-- The structural chunk of a definition is its chunk, but for the metadata. -/
theorem exists_of_structuralChunk (h : structuralChunk config file n = .ok c) :
    ∃ d, definitionChunk config file n = .ok d ∧ DiffersInMetadata d c := by
  unfold structuralChunk at h
  simp only [bind_eq_ok_iff, pure, Except.pure, Except.ok.injEq] at h
  obtain ⟨d, hd, rfl⟩ := h
  exact ⟨d, hd, ((((differsInMetadata_self d).note _ _).note _ _).note _ _).note _ _⟩

/-- The structural chunk of a definition is its chunk with some notes. -/
theorem structuralChunk_spec (h : structuralChunk config file n = .ok c) :
    c.place = Node.place n ∧ c.isStructural = true ∧ c.isSemantic = false := by
  unfold structuralChunk at h
  simp only [bind_eq_ok_iff, pure, Except.pure, Except.ok.injEq] at h
  obtain ⟨d, hd, rfl⟩ := h
  obtain ⟨hplace, hnone⟩ := place_of_definitionChunk hd
  refine ⟨by simpa only [place_note] using hplace, ?_, ?_⟩
  · simp [Chunk.isStructural, flag_note, Json.bool?]
  · simp [Chunk.isSemantic, flag_note, flag_of_no_metadata hnone]

/-- The semantic chunk of a definition is its chunk with some notes. -/
theorem semanticChunk_spec {semanticType : String} {phrases : List String}
    (h : semanticChunk config file n semanticType phrases = .ok c) :
    c.place = Node.place n ∧ c.isStructural = false ∧ c.isSemantic = true := by
  unfold semanticChunk at h
  simp only [bind_eq_ok_iff, pure, Except.pure, Except.ok.injEq] at h
  obtain ⟨d, hd, rfl⟩ := h
  obtain ⟨hplace, hnone⟩ := place_of_definitionChunk hd
  refine ⟨by simpa only [place_note] using hplace, ?_, ?_⟩
  · simp [Chunk.isStructural, flag_note, flag_of_no_metadata hnone]
  · simp [Chunk.isSemantic, flag_note, Json.bool?]

/-- A definition has a structural chunk if it has a chunk. -/
theorem exists_structuralChunk_iff :
    (∃ c, structuralChunk config file n = .ok c) ↔
      ∃ d, definitionChunk config file n = .ok d := by
  unfold structuralChunk
  cases definitionChunk config file n <;> simp [bind, Except.bind, pure, Except.pure]

/-- A definition has a semantic chunk if it has a chunk. -/
theorem exists_semanticChunk_iff {semanticType : String} {phrases : List String} :
    (∃ c, semanticChunk config file n semanticType phrases = .ok c) ↔
      ∃ d, definitionChunk config file n = .ok d := by
  unfold semanticChunk
  cases definitionChunk config file n <;> simp [bind, Except.bind, pure, Except.pure]

/-! ## The passes -/

/-- The chunk that the semantic pass makes of a definition that the library gives a type. -/
def IsSemanticChunk (isMatch : Regex → List Char → Bool) (config : ChunkerConfig)
    (library : PatternLibrary) (file : SourceFile) (n : Node) (c : Chunk) : Prop :=
  let found := library.classifyWith isMatch (n.name?.getD "") n.docComment?
  ∃ semanticType, found.semanticType = some semanticType ∧
    semanticChunk config file n semanticType found.keyPhrases = .ok c

/-- The chunk that the structural pass makes of a definition. -/
def IsStructuralChunk (config : ChunkerConfig) (file : SourceFile) (n : Node) (c : Chunk) : Prop :=
  structuralChunk config file n = .ok c

/-- The structural pass makes one chunk of each definition. -/
theorem structuralPass_eq_ok_iff {chunks : List Chunk} :
    structuralPass config file = .ok chunks ↔
      List.Forall₂ (IsStructuralChunk config file) file.tree.definitionNodes chunks :=
  mapM_eq_ok_iff

/-- The semantic pass makes one chunk of each marked definition. -/
theorem semanticPass_eq_ok_iff {library : PatternLibrary}
    (h : PatternLibrary.compileWith read config.patterns = .ok library) {chunks : List Chunk} :
    semanticPass isMatch config library file = .ok chunks ↔
      List.Forall₂ (IsSemanticChunk isMatch config library file)
        (file.tree.definitionNodes.filter (config.marks read isMatch)) chunks := by
  unfold semanticPass matchedDefinitions
  rw [mapM_eq_ok_iff, forall₂_filterMap_left_iff]
  simp only [Option.isSome_map, PatternLibrary.isSome_classifyWith h, Option.map_eq_some_iff,
    exists_exists_and_eq_and]
  rfl

end CodeAtlas.Chunking
