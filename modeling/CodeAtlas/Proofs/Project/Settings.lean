import CodeAtlas.Project.Settings
import CodeAtlas.Proofs.Chunk.Settings

/-!
# Settings written and read back

All settings are read back as they were written. A document may leave out any of them, at the top
as well as inside the options of the scan and the settings of chunking, and may hold members that
are not known; then what it leaves out has its default value.

Main definitions:

- `KeptNames`: which settings a document has.
- `AnalyzerConfig.IsShown`: a document with these settings.
- `AnalyzerConfig.keepOnly`: these settings, and default values for all others.

Main results:

- Theorem `AnalyzerConfig.ofJson?_of_isShown`: what a document with some settings is read as.
- Theorem `AnalyzerConfig.readsBack`: so nothing is lost when all settings are there.
-/

namespace CodeAtlas.Project

open CodeAtlas.Chunking
open Json (IsPart)

theorem AnalysisMode.ofJson?_label (mode : AnalysisMode) :
    AnalysisMode.ofJson? (.str mode.label) = some mode := by
  cases mode <;> rfl

namespace ScanOptions

/-- The options whose names are kept, and default values for all others. -/
def keepOnly (kept : String → Bool) (o : ScanOptions) : ScanOptions :=
  let default : ScanOptions := {}
  { includeTests := if kept "include_tests" then o.includeTests else default.includeTests
    includeDocs := if kept "include_docs" then o.includeDocs else default.includeDocs
    maxFileSize := if kept "max_file_size" then o.maxFileSize else default.maxFileSize
    excludePatterns := if kept "exclude_patterns" then o.excludePatterns else default.excludePatterns
    respectGitignore :=
      if kept "respect_gitignore" then o.respectGitignore else default.respectGitignore }

/-- The limit, if there is one, is not larger than a setting can be. -/
def Fits (o : ScanOptions) : Prop := ∀ limit ∈ o.maxFileSize, limit ≤ Json.maxNat

/-- Options of which some are there have these, and default values otherwise. -/
theorem ofJson?_of_isPart {kept : String → Bool} {o : ScanOptions} {v : Json} (ho : o.Fits)
    (h : IsPart kept o.toJson v) : ofJson? v = some (o.keepOnly kept) := by
  obtain ⟨member, hrecord, hmember⟩ := Json.exists_record?_of_isPart h (by simp) memberNames
  simp only [List.forall_mem_cons] at hmember
  obtain ⟨htests, hdocs, hsize, hexclusions, hgitignore, -⟩ := hmember
  simp only [ofJson?, hrecord, Option.bind_eq_bind, Option.bind_some,
    Json.readOr_of_kept htests (Json.bool?_bool _),
    Json.readOr_of_kept hdocs (Json.bool?_bool _),
    Json.readOr_of_kept hsize (Json.nullable?_optNat ho),
    Json.readOr_of_kept hexclusions (Json.list?_strs _),
    Json.readOr_of_kept hgitignore (Json.bool?_bool _)]
  rfl

end ScanOptions

/-- Which settings are kept, by their names at the top, in the options of the scan and in the
settings of chunking. -/
structure KeptNames where
  top : String → Bool
  scan : String → Bool
  chunker : String → Bool

namespace AnalyzerConfig

/-- The settings whose names are kept, and default values for all others. -/
def keepOnly (kept : KeptNames) (c : AnalyzerConfig) : AnalyzerConfig :=
  let default : AnalyzerConfig := {}
  { mode := if kept.top "mode" then c.mode else default.mode
    scan := if kept.top "scan" then c.scan.keepOnly kept.scan else default.scan
    chunker := if kept.top "chunker" then c.chunker.keepOnly kept.chunker else default.chunker }

/-- A document has those of some settings whose names are kept, on each level in any order and
perhaps among members that are not known. -/
def IsShown (kept : KeptNames) (c : AnalyzerConfig) (v : Json) : Prop :=
  ∃ scan chunker, IsPart kept.scan c.scan.toJson scan ∧
    IsPart kept.chunker c.chunker.toJson chunker ∧
    IsPart kept.top
      (.obj [("mode", .str c.mode.label), ("scan", scan), ("chunker", chunker)]) v

/-- No number is larger than a setting can be. -/
structure Fits (c : AnalyzerConfig) : Prop where
  scan : c.scan.Fits
  chunker : c.chunker.Fits

variable {kept : KeptNames} {c : AnalyzerConfig} {v : Json}

/-- A document with some settings is read as these, with default values for all others. -/
theorem ofJson?_of_isShown (hc : c.Fits) (h : c.IsShown kept v) :
    ofJson? v = some (c.keepOnly kept) := by
  obtain ⟨scan, chunker, hscanPart, hchunkerPart, hpart⟩ := h
  obtain ⟨member, hrecord, hmember⟩ := Json.exists_record?_of_isPart hpart (by simp) memberNames
  simp only [List.forall_mem_cons] at hmember
  obtain ⟨hmode, hscan, hchunker, -⟩ := hmember
  simp only [ofJson?, hrecord, Option.bind_eq_bind, Option.bind_some,
    Json.readOr_of_kept hmode c.mode.ofJson?_label,
    Json.readOr_of_kept hscan (ScanOptions.ofJson?_of_isPart hc.scan hscanPart),
    Json.readOr_of_kept hchunker (ChunkerConfig.ofJson?_of_isPart hc.chunker hchunkerPart)]
  rfl

/-- The document that settings are written as has all of them. -/
theorem isShown_toJson (c : AnalyzerConfig) :
    c.IsShown ⟨fun _ => true, fun _ => true, fun _ => true⟩ c.toJson :=
  ⟨c.scan.toJson, c.chunker.toJson, Json.isPart_all _, Json.isPart_all _, Json.isPart_all _⟩

/-- Settings are read back as they were written, and a document with some of them is read as these
with default values for all others. -/
theorem readsBack (hc : c.Fits) :
    ofJson? c.toJson = some c ∧
      ∀ kept v, c.IsShown kept v → ofJson? v = some (c.keepOnly kept) :=
  ⟨ofJson?_of_isShown hc c.isShown_toJson, fun _ _ h => ofJson?_of_isShown hc h⟩

/-- Settings with the largest limit there is, and with a category of their own. -/
def largestLimit : AnalyzerConfig where
  mode := .ast
  scan := { includeTests := false, maxFileSize := some Json.maxNat, excludePatterns := ["build/"] }
  chunker := { mode := .semantic, patterns := [⟨"io", ["read.*", "write"]⟩], mediumLineThreshold := 3 }

/-- The options of the scan in a document, with one that is not known. -/
def limitScan : Json := .obj [
  ("exclude_patterns", .strs ["build/"]), ("max_file_size", .nat Json.maxNat),
  ("colors", .bool true)]

/-- The settings of chunking in the document, with one that is not known. -/
def limitChunker : Json := .obj [
  ("medium_line_threshold", .nat 3), ("mood", .null), ("mode", .str "semantic")]

/-- A document with some of the settings, among members that are not known. -/
def limitDocument : Json := .obj [
  ("owner", .str "me"), ("chunker", limitChunker), ("scan", limitScan)]

/-- The names of the settings in that document. -/
def limitNames : KeptNames where
  top := ["scan", "chunker"].contains
  scan := ["exclude_patterns", "max_file_size"].contains
  chunker := ["mode", "medium_line_threshold"].contains

theorem readsBack_largestLimit :
    largestLimit.Fits ∧ largestLimit.IsShown limitNames limitDocument ∧
      ofJson? largestLimit.toJson = some largestLimit ∧
      ofJson? limitDocument = some {
        scan := { maxFileSize := some Json.maxNat, excludePatterns := ["build/"] }
        chunker := { mode := .semantic, mediumLineThreshold := 3 } } := by
  have hfits : largestLimit.Fits := ⟨by simp [ScanOptions.Fits, largestLimit], by decide, by decide⟩
  have hscan : IsPart limitNames.scan largestLimit.scan.toJson limitScan := List.Perm.swap _ _ _
  have hchunker : IsPart limitNames.chunker largestLimit.chunker.toJson limitChunker :=
    List.Perm.swap _ _ _
  have hshown : largestLimit.IsShown limitNames limitDocument :=
    ⟨limitScan, limitChunker, hscan, hchunker, List.Perm.swap _ _ _⟩
  exact ⟨hfits, hshown, (readsBack hfits).1, (readsBack hfits).2 limitNames limitDocument hshown⟩

end AnalyzerConfig

end CodeAtlas.Project
