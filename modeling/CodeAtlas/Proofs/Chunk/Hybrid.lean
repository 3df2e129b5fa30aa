import CodeAtlas.Project.Config
import CodeAtlas.Proofs.Chunk.Passes
import Mathlib.Data.List.Nodup

/-!
# Both passes together

With both passes every definition of a file is cut out once: by the semantic pass if the settings
mark it, and by the structural pass otherwise. Merging compares chunks by name and first line, so
this needs definitions that differ in one of them. It makes no difference how patterns are read and
matched.

Main results:

- Theorem `isShadowed_iff`: the structural chunk of a definition is dropped exactly if the
  definition is marked.
- Theorem `Partitions.of_passes`: what both passes make is one chunk of each definition, and the
  flags tell the passes apart.
- Theorem `chunkFile_hybrid`: both passes succeed exactly if the structural one does, and give such
  chunks.
-/

namespace CodeAtlas.Chunking

open CodeAtlas.Syntax
open CodeAtlas.Project (ChunkFilter)

/-- Chunks of the marked definitions of a file and chunks of the others, each in pre-order, together
one of each definition. -/
structure Partitions (read : String → Option Regex) (isMatch : Regex → List Char → Bool)
    (config : ChunkerConfig) (library : PatternLibrary) (file : SourceFile)
    (semantic structural : List Chunk) : Prop where
  /-- The semantic chunks of the marked definitions. -/
  of_marked : List.Forall₂ (IsSemanticChunk isMatch config library file)
    (file.tree.definitionNodes.filter (config.marks read isMatch)) semantic
  /-- The structural chunks of the other definitions. -/
  of_others : List.Forall₂ (IsStructuralChunk config file)
    (file.tree.definitionNodes.filter (fun n => !config.marks read isMatch n)) structural
  /-- No definition is lost or cut out twice. -/
  places : ((semantic ++ structural).map Chunk.place).Perm
    (file.tree.definitionNodes.map Node.place)
  /-- Every chunk is of one of the passes. -/
  flags : ∀ c ∈ semantic ++ structural, c.isSemantic = !c.isStructural
  admits_semantic : (semantic ++ structural).filter ChunkFilter.semantic.admits = semantic
  admits_structural : (semantic ++ structural).filter ChunkFilter.structural.admits = structural

variable {read : String → Option Regex} {isMatch : Regex → List Char → Bool}
  {config : ChunkerConfig} {library : PatternLibrary} {file : SourceFile}
  {semantic structural : List Chunk}

/-! ## Merging -/

/-- A chunk is shadowed if a semantic chunk stands at its place. -/
theorem isShadowed_iff_mem {c : Chunk} :
    isShadowed semantic c = true ↔ c.place ∈ semantic.map Chunk.place := by
  simp [isShadowed, Chunk.place]

/-- The semantic chunks stand where the marked definitions do. -/
theorem map_place_semantic {nodes : List Node}
    (h : List.Forall₂ (IsSemanticChunk isMatch config library file) nodes semantic) :
    semantic.map Chunk.place = nodes.map Node.place :=
  map_eq_map_of_forall₂ h (fun _ _ ⟨_, _, hc⟩ => (semanticChunk_spec hc).1)

/-- The structural chunks stand where their definitions do. -/
theorem map_place_structural {nodes : List Node}
    (h : List.Forall₂ (IsStructuralChunk config file) nodes structural) :
    structural.map Chunk.place = nodes.map Node.place :=
  map_eq_map_of_forall₂ h (fun _ _ hc => (structuralChunk_spec hc).1)

/-- Where definitions have different places, the structural chunk of a definition is shadowed
exactly if the definition is marked. -/
theorem isShadowed_iff (hplaces : (file.tree.definitionNodes.map Node.place).Nodup)
    (hsemantic : List.Forall₂ (IsSemanticChunk isMatch config library file)
      (file.tree.definitionNodes.filter (config.marks read isMatch)) semantic) {n : Node}
    (hn : n ∈ file.tree.definitionNodes) {c : Chunk} (hc : IsStructuralChunk config file n c) :
    isShadowed semantic c = true ↔ config.marks read isMatch n = true := by
  rw [isShadowed_iff_mem, map_place_semantic hsemantic, (structuralChunk_spec hc).1]
  constructor
  · intro hmem
    obtain ⟨m, hm, heq⟩ := List.mem_map.1 hmem
    obtain ⟨hm, hmarks⟩ := List.mem_filter.1 hm
    exact List.inj_on_of_nodup_map hplaces hm hn heq ▸ hmarks
  · intro hmarks
    exact List.mem_map_of_mem (List.mem_filter.2 ⟨hn, hmarks⟩)

/-- Merging keeps the structural chunks of the definitions that are not marked. -/
theorem forall₂_unshadowed (hplaces : (file.tree.definitionNodes.map Node.place).Nodup)
    (hsemantic : List.Forall₂ (IsSemanticChunk isMatch config library file)
      (file.tree.definitionNodes.filter (config.marks read isMatch)) semantic)
    (hstructural : List.Forall₂ (IsStructuralChunk config file) file.tree.definitionNodes
      structural) :
    List.Forall₂ (IsStructuralChunk config file)
      (file.tree.definitionNodes.filter (fun n => !config.marks read isMatch n))
      (structural.filter (fun c => !isShadowed semantic c)) := by
  refine forall₂_filter hstructural (fun n hn c hc => congrArg not ?_)
  exact (Bool.eq_iff_iff.2 (isShadowed_iff hplaces hsemantic hn hc)).symm

/-! ## Flags -/

/-- A semantic chunk has the flag of its pass only. -/
theorem flags_of_semantic {nodes : List Node}
    (h : List.Forall₂ (IsSemanticChunk isMatch config library file) nodes semantic) :
    ∀ c ∈ semantic, c.isSemantic = true ∧ c.isStructural = false := by
  intro c hc
  obtain ⟨n, -, hn⟩ := exists_of_mem_right h hc
  obtain ⟨_, -, hchunk⟩ := hn
  exact ⟨(semanticChunk_spec hchunk).2.2, (semanticChunk_spec hchunk).2.1⟩

/-- A structural chunk has the flag of its pass only. -/
theorem flags_of_structural {nodes : List Node}
    (h : List.Forall₂ (IsStructuralChunk config file) nodes structural) :
    ∀ c ∈ structural, c.isSemantic = false ∧ c.isStructural = true := by
  intro c hc
  obtain ⟨n, -, hchunk⟩ := exists_of_mem_right h hc
  exact ⟨(structuralChunk_spec hchunk).2.2, (structuralChunk_spec hchunk).2.1⟩

/-- One chunk of each definition, by the pass that it is for. -/
theorem Partitions.of_passes
    (hsemantic : List.Forall₂ (IsSemanticChunk isMatch config library file)
      (file.tree.definitionNodes.filter (config.marks read isMatch)) semantic)
    (hstructural : List.Forall₂ (IsStructuralChunk config file)
      (file.tree.definitionNodes.filter (fun n => !config.marks read isMatch n)) structural) :
    Partitions read isMatch config library file semantic structural := by
  have hleft := flags_of_semantic hsemantic
  have hright := flags_of_structural hstructural
  exact {
    of_marked := hsemantic
    of_others := hstructural
    places := by
      rw [List.map_append, map_place_semantic hsemantic, map_place_structural hstructural,
        ← List.map_append]
      exact (List.filter_append_perm (config.marks read isMatch) file.tree.definitionNodes).map
        Node.place
    flags := by
      intro c hc
      rcases List.mem_append.1 hc with hc | hc
      · simp [hleft c hc]
      · simp [hright c hc]
    admits_semantic := by
      have hsome : semantic.filter ChunkFilter.semantic.admits = semantic :=
        List.filter_eq_self.2 (fun c hc => (hleft c hc).1)
      have hnone : structural.filter ChunkFilter.semantic.admits = [] :=
        List.filter_eq_nil_iff.2 (fun c hc => by simp [ChunkFilter.admits, hright c hc])
      rw [List.filter_append, hsome, hnone, List.append_nil]
    admits_structural := by
      have hnone : semantic.filter ChunkFilter.structural.admits = [] :=
        List.filter_eq_nil_iff.2 (fun c hc => by simp [ChunkFilter.admits, hleft c hc])
      have hsome : structural.filter ChunkFilter.structural.admits = structural :=
        List.filter_eq_self.2 (fun c hc => (hright c hc).2)
      rw [List.filter_append, hnone, hsome, List.nil_append] }

/-! ## Files -/

/-- Both passes give their chunks merged. -/
theorem chunkFile_eq_ok_iff (hmode : config.mode = .hybrid) {chunks : List Chunk} :
    Chunker.chunkFile ⟨config, library, isMatch⟩ file = .ok chunks ↔
      ∃ semantic, semanticPass isMatch config library file = .ok semantic ∧
        ∃ structural, structuralPass config file = .ok structural ∧
          merge semantic structural = chunks := by
  simp only [Chunker.chunkFile, Chunker.semanticChunks, hmode, bind_eq_ok_iff, pure, Except.pure,
    Except.ok.injEq]

/-- Where the structural pass succeeds, so does the semantic one. -/
theorem exists_semanticPass (isMatch : Regex → List Char → Bool) (library : PatternLibrary)
    {chunks : List Chunk} (hchunks : structuralPass config file = .ok chunks) :
    ∃ semantic, semanticPass isMatch config library file = .ok semantic := by
  unfold semanticPass
  rw [exists_mapM_eq_ok_iff]
  intro found hfound
  unfold matchedDefinitions at hfound
  obtain ⟨n, hn, hmatch⟩ := List.mem_filterMap.1 hfound
  obtain ⟨semanticType, -, rfl⟩ := Option.map_eq_some_iff.1 hmatch
  rw [exists_semanticChunk_iff, ← exists_structuralChunk_iff]
  exact exists_mapM_eq_ok_iff.1 ⟨chunks, hchunks⟩ n hn

/-- What both passes together do to a file, compared with the structural pass alone. -/
structure CutOnce (read : String → Option Regex) (isMatch : Regex → List Char → Bool)
    (config : ChunkerConfig) (library : PatternLibrary) (file : SourceFile) : Prop where
  created : Chunker.createWith read isMatch config = .ok ⟨config, library, isMatch⟩
  created_structural : Chunker.createWith read isMatch { config with mode := .structural } =
    .ok ⟨{ config with mode := .structural }, library, isMatch⟩
  /-- Both passes succeed exactly if the structural one does. -/
  succeeds_iff : (∃ chunks, Chunker.chunkFile ⟨config, library, isMatch⟩ file = .ok chunks) ↔
    ∃ chunks,
      Chunker.chunkFile ⟨{ config with mode := .structural }, library, isMatch⟩ file = .ok chunks
  /-- The chunks are the semantic ones of the marked definitions, then the structural ones of the
  others. -/
  partitions : ∀ chunks, Chunker.chunkFile ⟨config, library, isMatch⟩ file = .ok chunks →
    ∃ semantic structural, chunks = semantic ++ structural ∧
      Partitions read isMatch config library file semantic structural

/-- For valid settings with both passes, a file whose definitions differ in name or first line is
cut into one chunk of each definition, exactly if the structural pass can do it; and this however
patterns are read and matched. -/
theorem chunkFile_hybrid (read : String → Option Regex) (isMatch : Regex → List Char → Bool)
    (config : ChunkerConfig) (file : SourceFile) (hvalid : config.validateWith read = .ok ())
    (hmode : config.mode = .hybrid) (hplaces : (file.tree.definitionNodes.map Node.place).Nodup) :
    ∃ library, CutOnce read isMatch config library file := by
  obtain ⟨library, hlibrary⟩ := PatternLibrary.exists_compile_of_validate (validate_patterns hvalid)
  refine ⟨library, ?created, ?created_structural, ⟨fun ⟨chunks, hchunks⟩ => ?_,
    fun ⟨structural, hstructural⟩ => ?_⟩, fun chunks hchunks => ?partitions⟩
  case created => exact create_eq_ok_iff.2 ⟨hvalid, library, hlibrary, rfl⟩
  case created_structural => exact create_eq_ok_iff.2 ⟨hvalid, library, hlibrary, rfl⟩
  · obtain ⟨-, -, structural, hstructural, -⟩ := (chunkFile_eq_ok_iff hmode).1 hchunks
    exact ⟨structural, hstructural⟩
  · obtain ⟨semantic, hsemantic⟩ := exists_semanticPass isMatch library hstructural
    exact ⟨_, (chunkFile_eq_ok_iff hmode).2 ⟨semantic, hsemantic, structural, hstructural, rfl⟩⟩
  case partitions =>
    obtain ⟨semantic, hsemantic, structural, hstructural, rfl⟩ :=
      (chunkFile_eq_ok_iff hmode).1 hchunks
    have hsemantic := (semanticPass_eq_ok_iff hlibrary).1 hsemantic
    have hstructural := structuralPass_eq_ok_iff.1 hstructural
    exact ⟨semantic, _, rfl,
      Partitions.of_passes hsemantic (forall₂_unshadowed hplaces hsemantic hstructural)⟩

/-- Settings with one pattern. -/
def loadingOnly : ChunkerConfig := { patterns := [⟨"io", ["load"]⟩] }

/-- A class with a method that loads something, and a function. -/
def loaderFile : SourceFile where
  tree := {
    root := ⟨.file, ⟨1, 5, 0⟩, [
      ⟨.classDef { name := "Store" }, ⟨1, 3, 0⟩,
        [⟨.function { name := "load_all" }, ⟨2, 3, 4⟩, []⟩]⟩,
      ⟨.function { name := "main" }, ⟨4, 5, 0⟩, []⟩]⟩
    source := "class Store:\n    def load_all(self):\n        pass\ndef main():\n    pass\n" }
  filePath := "store.py"
  modulePath := "store"

/-- The structural pass makes a chunk of the class, its method and the function. -/
theorem exists_structuralPass_loader :
    ∃ chunks, structuralPass loadingOnly loaderFile = .ok chunks := by
  rw [structuralPass, Tree.definitionNodes_eq]
  exact exists_eq_ok_of_isSome (by decide +kernel)

/-- The method is marked and comes first, and then the others in their order. -/
theorem chunkFile_hybrid_loader :
    ∃ library, CutOnce Regex.parse Regex.isMatch loadingOnly library loaderFile ∧
      ∃ chunks, Chunker.chunkFile ⟨loadingOnly, library, Regex.isMatch⟩ loaderFile = .ok chunks ∧
        chunks.map Chunk.place = [(some "load_all", 2), (some "Store", 1), (some "main", 4)] := by
  have hplaces : (loaderFile.tree.definitionNodes.map Node.place).Nodup := by
    rw [Tree.definitionNodes_eq]
    decide +kernel
  obtain ⟨library, h⟩ := chunkFile_hybrid Regex.parse Regex.isMatch loadingOnly loaderFile
    (by decide +kernel) rfl hplaces
  obtain ⟨chunks, hchunks⟩ := h.succeeds_iff.2 exists_structuralPass_loader
  obtain ⟨semantic, structural, rfl, hparts⟩ := h.partitions chunks hchunks
  refine ⟨library, h, _, hchunks, ?_⟩
  rw [List.map_append, map_place_semantic hparts.of_marked,
    map_place_structural hparts.of_others, Tree.definitionNodes_eq]
  decide +kernel

end CodeAtlas.Chunking
