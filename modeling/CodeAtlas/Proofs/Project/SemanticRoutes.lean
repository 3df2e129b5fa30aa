import CodeAtlas.Proofs.Chunk.Hybrid
import CodeAtlas.Proofs.Project.Report

/-!
# Ways to the semantic chunks of a file

The semantic chunks of a file can be had from the semantic pass, from all chunks of the file by
their flag, from an analysis that wants no others, and from the stores after the file was analysed.
Wherever these ways lead to chunks, they lead to the same ones.

Main results:

- Theorem `filter_isSemantic_of_chunkFile`: the flag picks the chunks of the semantic pass.
- Theorem `exists_analyzeTree_iff`: whether the chunks can be had does not depend on the mode.
- Theorem `search_store`: searching the stores goes through what was found in the file.
- Theorem `semanticRoutes`: every way leads to the chunks of the semantic pass, and searching the
  stores is searching the file.
-/

namespace CodeAtlas.Chunking

/-! ## Passes and flags -/

variable {isMatch : Regex → List Char → Bool} {config : ChunkerConfig} {library : PatternLibrary}
  {file : SourceFile} {chunks : List Chunk}

/-- What the semantic pass makes has the flag of the pass. -/
theorem isSemantic_of_mem_semanticPass (h : semanticPass isMatch config library file = .ok chunks)
    {c : Chunk} (hc : c ∈ chunks) : c.isSemantic = true := by
  obtain ⟨d, -, hd⟩ := exists_of_mem_right (mapM_eq_ok_iff.1 h) hc
  exact (semanticChunk_spec hd).2.2

/-- What the structural pass makes does not have that flag. -/
theorem isSemantic_of_mem_structuralPass (h : structuralPass config file = .ok chunks)
    {c : Chunk} (hc : c ∈ chunks) : c.isSemantic = false :=
  (flags_of_structural (structuralPass_eq_ok_iff.1 h) c hc).1

/-- The mode says which pass is run. -/
def runsSemanticPass : ChunkingMode → Prop
  | .hybrid => True
  | .semantic => True
  | .structural => False

/-- Where the semantic pass is run, the flag picks the chunks that it makes. -/
theorem filter_isSemantic_of_chunkFile {c : Chunker} (hmode : runsSemanticPass c.config.mode)
    (h : c.chunkFile file = .ok chunks) :
    c.semanticChunks file = .ok (chunks.filter Chunk.isSemantic) := by
  cases hc : c.config.mode with
  | structural =>
    rw [hc] at hmode
    exact hmode.elim
  | semantic =>
    rw [Chunker.chunkFile, hc] at h
    rw [List.filter_eq_self.2 (fun _ hmem => isSemantic_of_mem_semanticPass h hmem)]
    exact h
  | hybrid =>
    obtain ⟨semantic, hsemantic, structural, hstructural, rfl⟩ := (chunkFile_eq_ok_iff hc).1 h
    have hkept : semantic.filter Chunk.isSemantic = semantic :=
      List.filter_eq_self.2 (fun _ hmem => isSemantic_of_mem_semanticPass hsemantic hmem)
    have hlost : (structural.filter (fun d => !isShadowed semantic d)).filter Chunk.isSemantic =
        [] := by
      refine List.filter_eq_nil_iff.2 (fun d hd => ?_)
      rw [isSemantic_of_mem_structuralPass hstructural (List.mem_filter.1 hd).1]
      exact Bool.false_ne_true
    rw [merge, List.filter_append, hkept, hlost, List.append_nil]
    exact hsemantic

end CodeAtlas.Chunking

namespace CodeAtlas.Project

open CodeAtlas.Analysis
open CodeAtlas.Chunking
open CodeAtlas.Files (Workspace)
open CodeAtlas.Store
open CodeAtlas.Syntax

variable {p : FileParser} {t : Tree} {path : String} {mode : AnalysisMode} {found : FileAnalysis}

/-! ## Analysis modes -/

/-- The file that a tree was read from. -/
def sourceFile (t : Tree) (path : String) : SourceFile := ⟨t, path, modulePathOf path⟩

/-- An analysis gives the symbols and the calls of a file, whatever the mode, and the chunks that
the mode asks for. -/
theorem analyzeTree_eq_ok_iff :
    p.analyzeTree t path mode = .ok found ↔
      Symbol.ofTree t path (modulePathOf path) = .ok found.symbols ∧
        Call.ofTree t (Imports.ofTree t) path = .ok found.calls ∧
        p.chunksFor (sourceFile t path) mode = .ok found.chunks ∧ found.lineCount = 0 := by
  simp only [FileParser.analyzeTree, bind_eq_ok_iff, mapError_eq_ok_iff, pure, Except.pure,
    Except.ok.injEq]
  constructor
  · rintro ⟨symbols, hsymbols, calls, hcalls, chunks, hchunks, rfl⟩
    exact ⟨hsymbols, hcalls, hchunks, rfl⟩
  · rintro ⟨hsymbols, hcalls, hchunks, hlines⟩
    obtain ⟨symbols, calls, chunks, lineCount⟩ := found
    obtain rfl : lineCount = 0 := hlines
    exact ⟨symbols, hsymbols, calls, hcalls, chunks, hchunks, rfl⟩

/-- Where chunks are asked for, the flag picks those of the semantic pass. -/
theorem semanticPass_of_chunksFor {file : SourceFile} {chunks : List Chunk}
    (hruns : runsSemanticPass p.chunker.config.mode) (hmode : mode ≠ .ast)
    (h : p.chunksFor file mode = .ok chunks) :
    p.chunker.semanticChunks file = .ok (chunks.filter Chunk.isSemantic) := by
  cases mode with
  | ast => exact absurd rfl hmode
  | hybrid => exact filter_isSemantic_of_chunkFile hruns h
  | semantic =>
    obtain ⟨all, hall, rfl⟩ := map_eq_ok_iff.1 h
    rw [List.filter_filter, filter_isSemantic_of_chunkFile hruns hall]
    simp only [Bool.and_self]

/-! ## Stores -/

/-- Cleared stores give back the chunks that are stored. -/
theorem getAll_chunks_store (a : Analyzer) (found : FileAnalysis) :
    (a.clear.store found).chunks.getAll = found.chunks := by
  rw [chunks_store]
  exact (a.chunks.holds_saveAll found.chunks).values_eq

/-- Nothing changes what files are analysed with. -/
theorem parser_store (a : Analyzer) (found : FileAnalysis) :
    (a.clear.store found).parser = a.parser := by
  rw [Analyzer.store,
    foldl_eq_of_unchanged Analyzer.addChunk Analyzer.parser (fun _ _ => rfl),
    foldl_eq_of_unchanged Analyzer.addCall Analyzer.parser (fun _ _ => rfl),
    foldl_eq_of_unchanged Analyzer.addSymbol Analyzer.parser (fun _ _ => rfl)]
  rfl

/-- The empty query occurs in every chunk. -/
theorem matchesQuery_nil (c : Chunk) : Analyzer.matchesQuery (Text.lowercase "".toList) c = true := by
  have hcontent : Analyzer.occursIn (Text.lowercase "".toList) c.content = true :=
    Text.occursIn_iff.2 ⟨[], _, rfl⟩
  rw [Analyzer.matchesQuery, hcontent, Bool.or_true]

/-- A search picks the semantic chunks that match. -/
theorem search_store (a : Analyzer) (found : FileAnalysis) (query : String) :
    (a.clear.store found).search query =
      (found.chunks.filter Chunk.isSemantic).filter
        (Analyzer.matchesQuery (Text.lowercase query.toList)) := by
  rw [Analyzer.search, getAll_chunks_store, List.filter_filter]
  exact List.filter_congr (fun _ _ => Bool.and_comm _ _)

/-- A search for nothing gives all semantic chunks. -/
theorem search_store_empty (a : Analyzer) (found : FileAnalysis) :
    (a.clear.store found).search "" = found.chunks.filter Chunk.isSemantic := by
  rw [search_store]
  exact List.filter_eq_self.2 (fun c _ => matchesQuery_nil c)

/-! ## Files with an outline -/

/-- A path leads to a file whose text has an outline. -/
structure HasOutline (a : Analyzer) (w : Workspace) (path : String) (t : Tree) : Prop where
  isFile : w.isFile path = true
  outline : ∃ bytes, w.read path = .ok bytes ∧ a.parser.outlineBytes bytes = some t

variable {a : Analyzer} {w : Workspace}

/-- What comes of a file with an outline is what comes of the outline, with the number of lines. -/
theorem HasOutline.analyzeFile_eq (h : HasOutline a w path t) (mode : AnalysisMode) :
    ∃ lines, a.parser.analyzeFile w path mode =
      (a.parser.analyzeTree t path mode).map (fun found => { found with lineCount := lines }) := by
  obtain ⟨bytes, hread, houtline⟩ := h.outline
  refine ⟨Text.lineCount bytes, ?_⟩
  rw [FileParser.analyzeFile, hread]
  have hbytes : a.parser.analyzeBytes bytes path mode =
      (a.parser.analyzeTree t path mode).map
        (fun found => { found with lineCount := Text.lineCount bytes }) := by
    rw [FileParser.analyzeBytes, houtline]
    cases hfound : a.parser.analyzeTree t path mode <;>
      simp only [FileParser.analyzeOutline, hfound] <;> rfl
  exact hbytes

/-- The files that are asked for by their paths are analysed like those of a scan. -/
theorem HasOutline.fileOutcome_eq (h : HasOutline a w path t) (mode : AnalysisMode) :
    a.clear.fileOutcome w path mode = a.parser.analyzeFile w path mode := by
  rw [Analyzer.fileOutcome, Analyzer.ensureFile, h.isFile]
  rfl

/-- An analysis that asks for chunks succeeds in one mode exactly if it does in the other. -/
theorem exists_analyzeTree_iff (hmode : mode ≠ .ast) :
    (∃ found, p.analyzeTree t path mode = .ok found) ↔
      ∃ found, p.analyzeTree t path .hybrid = .ok found := by
  cases mode with
  | ast => exact absurd rfl hmode
  | hybrid => exact Iff.rfl
  | semantic =>
    simp only [analyzeTree_eq_ok_iff, FileParser.chunksFor, map_eq_ok_iff]
    constructor
    · rintro ⟨found, hsymbols, hcalls, ⟨chunks, hchunks, -⟩, hlines⟩
      exact ⟨{ found with chunks }, hsymbols, hcalls, hchunks, hlines⟩
    · rintro ⟨found, hsymbols, hcalls, hchunks, hlines⟩
      exact ⟨{ found with chunks := found.chunks.filter Chunk.isSemantic }, hsymbols, hcalls,
        ⟨found.chunks, hchunks, rfl⟩, hlines⟩

/-- The semantic chunks of a file are those of all its chunks that have the flag. -/
theorem HasOutline.chunksOfFile_eq_ok_iff (h : HasOutline a w path t) {chunks : List Chunk} :
    a.chunksOfFile w path (some .semantic) = .ok chunks ↔
      ∃ found, a.parser.analyzeTree t path .hybrid = .ok found ∧
        found.chunks.filter Chunk.isSemantic = chunks := by
  obtain ⟨lines, hlines⟩ := h.analyzeFile_eq .hybrid
  rw [Analyzer.chunksOfFile, Analyzer.ensureFile, h.isFile, if_pos rfl, hlines]
  cases a.parser.analyzeTree t path .hybrid <;>
    simp [bind, Except.bind, Except.map, pure, Except.pure, ChunkFilter.admits]

/-- A file is analysed and stored exactly if its outline can be analysed. -/
theorem HasOutline.run_eq_ok_iff (h : HasOutline a w path t) {b : Analyzer} :
    (Analyzer.fileAnalysis w path mode).run a.clear = .ok found b ↔
      b = a.clear.store found ∧ a.parser.analyzeFile w path mode = .ok found := by
  rw [Analyzer.run_fileAnalysis, h.fileOutcome_eq]
  cases a.parser.analyzeFile w path mode with
  | error e => simp
  | ok stored =>
    simp only [EStateM.Result.ok.injEq, Except.ok.injEq]
    constructor
    · rintro ⟨rfl, rfl⟩
      exact ⟨rfl, rfl⟩
    · rintro ⟨rfl, rfl⟩
      exact ⟨rfl, rfl⟩

/-! ## All ways -/

/-- All ways to the semantic chunks of a file lead to what the semantic pass makes. -/
structure SemanticRoutes (a : Analyzer) (w : Workspace) (path : String) (t : Tree) : Prop where
  /-- From all chunks of either chunking mode, by their flag. -/
  of_chunkFile : ∀ m, runsSemanticPass m → ∀ chunks,
    Chunker.chunkFile
        { a.parser.chunker with config := { a.parser.chunker.config with mode := m } }
        (sourceFile t path) = .ok chunks →
      a.parser.chunker.semanticChunks (sourceFile t path) = .ok (chunks.filter Chunk.isSemantic)
  /-- From an analysis that wants no other chunks. -/
  of_analyzeTree : ∀ found, a.parser.analyzeTree t path .semantic = .ok found →
    a.parser.chunker.semanticChunks (sourceFile t path) = .ok found.chunks
  /-- From the file. -/
  of_chunksOfFile : ∀ chunks, a.chunksOfFile w path (some .semantic) = .ok chunks →
    a.parser.chunker.semanticChunks (sourceFile t path) = .ok chunks
  /-- From cleared stores after the file was analysed; searching them is searching the file. -/
  of_search : ∀ mode, mode ≠ .ast → ∀ found b,
    (Analyzer.fileAnalysis w path mode).run a.clear = .ok found b →
      a.parser.chunker.semanticChunks (sourceFile t path) = .ok (b.search "") ∧
        ∀ query, b.searchFile w path query = .ok (b.search query)
  /-- All these ways are open, or none of them. -/
  open_iff : ∀ mode, mode ≠ .ast →
    ((∃ found b, (Analyzer.fileAnalysis w path mode).run a.clear = .ok found b) ↔
        ∃ found, a.parser.analyzeTree t path .semantic = .ok found) ∧
      ((∃ chunks, a.chunksOfFile w path (some .semantic) = .ok chunks) ↔
        ∃ found, a.parser.analyzeTree t path .semantic = .ok found)
  /-- Symbols and calls are the same in every mode. -/
  same_entities : ∀ mode found mode' found', a.parser.analyzeTree t path mode = .ok found →
    a.parser.analyzeTree t path mode' = .ok found' →
      found.symbols = found'.symbols ∧ found.calls = found'.calls

/-- For a chunker that runs the semantic pass, all ways to the semantic chunks of a file with an
outline lead to what that pass makes. -/
theorem semanticRoutes (hruns : runsSemanticPass a.parser.chunker.config.mode)
    (h : HasOutline a w path t) : SemanticRoutes a w path t := by
  have hhybrid : AnalysisMode.hybrid ≠ .ast := nofun
  have hsemantic : AnalysisMode.semantic ≠ .ast := nofun
  have hchunksOfFile : ∀ chunks, a.chunksOfFile w path (some .semantic) = .ok chunks →
      a.parser.chunker.semanticChunks (sourceFile t path) = .ok chunks := by
    intro chunks hchunks
    obtain ⟨found, hfound, rfl⟩ := h.chunksOfFile_eq_ok_iff.1 hchunks
    exact semanticPass_of_chunksFor hruns hhybrid (analyzeTree_eq_ok_iff.1 hfound).2.2.1
  have hanalyzed : ∀ mode found, a.parser.analyzeFile w path mode = .ok found →
      ∃ tree, a.parser.analyzeTree t path mode = .ok tree ∧ tree.chunks = found.chunks := by
    intro mode found hfound
    obtain ⟨lines, hlines⟩ := h.analyzeFile_eq mode
    obtain ⟨tree, htree, rfl⟩ := map_eq_ok_iff.1 (hlines.symm.trans hfound)
    exact ⟨tree, htree, rfl⟩
  exact {
    of_chunkFile := by
      intro m hm chunks hchunks
      let c : Chunker :=
        { a.parser.chunker with config := { a.parser.chunker.config with mode := m } }
      have hsemantic : c.semanticChunks (sourceFile t path) =
          .ok (chunks.filter Chunk.isSemantic) := filter_isSemantic_of_chunkFile hm hchunks
      exact hsemantic
    of_analyzeTree := by
      intro found hfound
      have hchunks := (analyzeTree_eq_ok_iff.1 hfound).2.2.1
      rw [semanticPass_of_chunksFor hruns hsemantic hchunks]
      obtain ⟨all, -, hall⟩ := map_eq_ok_iff.1 hchunks
      rw [← hall, List.filter_filter]
      simp only [Bool.and_self]
    of_chunksOfFile := hchunksOfFile
    of_search := by
      intro mode hmode found b hrun
      obtain ⟨rfl, hfound⟩ := h.run_eq_ok_iff.1 hrun
      obtain ⟨tree, htree, hchunks⟩ := hanalyzed mode found hfound
      have hpass := semanticPass_of_chunksFor hruns hmode (analyzeTree_eq_ok_iff.1 htree).2.2.1
      rw [hchunks] at hpass
      refine ⟨by rw [search_store_empty, hpass], fun query => ?_⟩
      obtain ⟨all, hall⟩ := (exists_analyzeTree_iff hmode).1 ⟨tree, htree⟩
      have hfile := h.chunksOfFile_eq_ok_iff.2 ⟨all, hall, rfl⟩
      have hsame := Except.ok.inj ((hchunksOfFile _ hfile).symm.trans hpass)
      rw [hsame] at hfile
      have hparser : (a.clear.store found).chunksOfFile w path (some .semantic) =
          a.chunksOfFile w path (some .semantic) := by
        rw [Analyzer.chunksOfFile, parser_store, Analyzer.chunksOfFile]
      rw [Analyzer.searchFile, hparser, hfile, search_store]
      rfl
    open_iff := by
      intro mode hmode
      rw [exists_analyzeTree_iff hsemantic, ← exists_analyzeTree_iff hmode]
      constructor
      · simp only [h.run_eq_ok_iff]
        obtain ⟨lines, hlines⟩ := h.analyzeFile_eq mode
        rw [hlines]
        simp [map_eq_ok_iff]
      · rw [exists_analyzeTree_iff hmode]
        simp [h.chunksOfFile_eq_ok_iff]
    same_entities := by
      intro mode found mode' found' hfound hfound'
      obtain ⟨hsymbols, hcalls, -⟩ := analyzeTree_eq_ok_iff.1 hfound
      obtain ⟨hsymbols', hcalls', -⟩ := analyzeTree_eq_ok_iff.1 hfound'
      exact ⟨Except.ok.inj (hsymbols.symm.trans hsymbols'),
        Except.ok.inj (hcalls.symm.trans hcalls')⟩ }

/-- A function that loads something, and one that does not. -/
def loadingTree : Tree where
  root := ⟨.file, ⟨1, 4, 0⟩, [
    ⟨.function { name := "load" }, ⟨1, 2, 0⟩, []⟩,
    ⟨.function { name := "main" }, ⟨3, 4, 0⟩, []⟩]⟩
  source := "def load():\n    pass\ndef main():\n    pass\n"

/-- An analyzer that takes every text for these functions, and marks those that load something. -/
def loadingAnalyzer : Analyzer where
  config := {}
  parser := ⟨fun _ => some loadingTree, (Chunker.create loadingOnly).toOption.getD default, .hybrid⟩

/-- A directory with one file. -/
def loadingWorkspace : Workspace where
  root := "/project"
  top := .directory [("store.py", .file (Text.Utf8.encode loadingTree.source))]

/-- Of the two functions the first is found, in the stores as in the file. -/
theorem semanticRoutes_loading :
    runsSemanticPass loadingAnalyzer.parser.chunker.config.mode ∧
      HasOutline loadingAnalyzer loadingWorkspace "store.py" loadingTree ∧
      ∃ found b,
        (Analyzer.fileAnalysis loadingWorkspace "store.py" .semantic).run loadingAnalyzer.clear =
            .ok found b ∧
          (b.search "").map Chunk.place = [(some "load", 1)] ∧
          b.searchFile loadingWorkspace "store.py" "load" = .ok (b.search "load") := by
  have hruns : runsSemanticPass loadingAnalyzer.parser.chunker.config.mode := trivial
  obtain ⟨text, htext⟩ : ∃ text,
      Text.Utf8.decode (Text.Utf8.encode loadingTree.source) = .ok text :=
    exists_eq_ok_of_isSome (by decide +kernel)
  have houtline : HasOutline loadingAnalyzer loadingWorkspace "store.py" loadingTree := by
    refine ⟨by decide +kernel, Text.Utf8.encode loadingTree.source, by decide +kernel, ?_⟩
    rw [FileParser.outlineBytes, htext]
    rfl
  have hroutes := semanticRoutes hruns houtline
  obtain ⟨symbols, hsymbols⟩ : ∃ symbols,
      Symbol.ofTree loadingTree "store.py" (modulePathOf "store.py") = .ok symbols :=
    exists_eq_ok_of_isSome (by decide +kernel)
  obtain ⟨calls, hcalls⟩ : ∃ calls,
      Call.ofTree loadingTree (Imports.ofTree loadingTree) "store.py" = .ok calls :=
    exists_eq_ok_of_isSome (by decide +kernel)
  obtain ⟨structural, hstructural⟩ : ∃ structural,
      structuralPass loadingAnalyzer.parser.chunker.config (sourceFile loadingTree "store.py") =
        .ok structural := by
    rw [structuralPass, Tree.definitionNodes_eq]
    exact exists_eq_ok_of_isSome (by decide +kernel)
  have hplaces : (loadingAnalyzer.parser.chunker.semanticChunks
      (sourceFile loadingTree "store.py")).toOption.map (List.map Chunk.place) =
        some [(some "load", 1)] := by
    rw [Chunker.semanticChunks, semanticPass, matchedDefinitions, Tree.definitionNodes_eq]
    decide +kernel
  obtain ⟨semantic, hsemantic⟩ := exists_semanticPass loadingAnalyzer.parser.chunker.isMatch
    loadingAnalyzer.parser.chunker.library hstructural
  have hchunks := (chunkFile_eq_ok_iff rfl).2 ⟨semantic, hsemantic, structural, hstructural, rfl⟩
  have hfound : ∃ found, loadingAnalyzer.parser.analyzeTree loadingTree "store.py" .semantic =
      .ok found :=
    ⟨⟨symbols, calls, _, 0⟩, analyzeTree_eq_ok_iff.2
      ⟨hsymbols, hcalls, map_eq_ok_iff.2 ⟨_, hchunks, rfl⟩, rfl⟩⟩
  have hmode : AnalysisMode.semantic ≠ .ast := by decide
  obtain ⟨found, b, hrun⟩ := (hroutes.open_iff .semantic hmode).1.2 hfound
  obtain ⟨hpass, hsearch⟩ := hroutes.of_search .semantic hmode found b hrun
  refine ⟨hruns, houtline, found, b, hrun, ?_, hsearch "load"⟩
  rw [hpass] at hplaces
  exact Option.some.inj hplaces

end CodeAtlas.Project
