import CodeAtlas.Project.Analyzer
import CodeAtlas.Proofs.Chunk.Validation

/-!
# Which settings make sense

The faults of all settings are those of the scan options, followed by those of chunking, and the
validator gives the verdict on them. Settings without a fault can be used: their patterns can be
read, with or without the shared library, and a chunker and an analyzer can be made of them. All of
this holds for every way to read texts as patterns.

Main results:

- Theorem `AnalyzerConfig.validateWith_eq_verdict`: the order in which all settings are checked.
- Theorem `AnalyzerConfig.validateWith_decides`: which settings pass, which fault the others are
  refused with, and what can be made of those that pass.
-/

namespace CodeAtlas.Project

open CodeAtlas.Chunking
open CodeAtlas.Syntax

variable {read : String → Option Regex}

/-! ## Faults -/

/-- The faults of scan options: a limit of zero bytes, and an empty exclusion. -/
def ScanOptions.faults (o : ScanOptions) : List ProjectError :=
  faultIf (o.maxFileSize = some 0) (.invalidScan .zeroFileSize) ++
    faultIf ("" ∈ o.excludePatterns) (.invalidScan .emptyExclusion)

/-- Scan options are checked for their limit and then for their exclusions. -/
theorem ScanOptions.validate_eq_verdict (o : ScanOptions) : o.validate = verdict o.faults := by
  rw [faults, verdict_faultIf_append, verdict_faultIf, validate]
  exact if_congr Iff.rfl rfl (if_congr any_isEmpty_iff rfl rfl)

namespace AnalyzerConfig

/-- The faults of all settings: those of the scan options, and those of chunking. -/
def faults (read : String → Option Regex) (c : AnalyzerConfig) : List ProjectError :=
  c.scan.faults ++ (c.chunker.faults read).map ProjectError.chunking

/-- All settings are checked from the outside in. -/
theorem validateWith_eq_verdict (read : String → Option Regex) (c : AnalyzerConfig) :
    c.validateWith read = verdict (c.faults read) := by
  rw [faults, verdict_append, verdict_map, ← ScanOptions.validate_eq_verdict,
    ← ChunkerConfig.validateWith_eq_verdict]
  rfl

/-- All settings are valid if those of the scan and those of chunking are. -/
theorem validateWith_eq_ok_iff {c : AnalyzerConfig} :
    c.validateWith read = .ok () ↔
      c.scan.validate = .ok () ∧ c.chunker.validateWith read = .ok () := by
  simp only [validateWith, bind_eq_ok_iff, mapError_eq_ok_iff]
  constructor
  · rintro ⟨_, hscan, hchunker⟩
    exact ⟨hscan, hchunker⟩
  · rintro ⟨hscan, hchunker⟩
    exact ⟨(), hscan, hchunker⟩

/-- Settings that make sense. -/
structure Sound (read : String → Option Regex) (c : AnalyzerConfig) : Prop where
  maxFileSize : c.scan.maxFileSize ≠ some 0
  exclusions : "" ∉ c.scan.excludePatterns
  thresholds : c.chunker.mediumLineThreshold ≤ c.chunker.complexLineThreshold
  keywords : "" ∉ c.chunker.complexityKeywords
  names : ∀ category ∈ c.chunker.patterns, category.name ≠ ""
  patterns : ∀ category ∈ c.chunker.patterns, ∀ text ∈ category.patterns, (read text).isSome = true

/-- Settings without a fault are those that make sense. -/
theorem faults_eq_nil_iff {c : AnalyzerConfig} : c.faults read = [] ↔ c.Sound read := by
  simp only [faults, ScanOptions.faults, List.append_eq_nil_iff, List.map_eq_nil_iff,
    faultIf_eq_nil_iff, ChunkerConfig.faults_eq_nil_iff]
  constructor
  · rintro ⟨⟨hsize, hexclusions⟩, hthresholds, hkeywords, hcategories⟩
    exact ⟨hsize, hexclusions, hthresholds, hkeywords,
      fun category hc => (hcategories category hc).1,
      fun category hc => (hcategories category hc).2⟩
  · intro h
    exact ⟨⟨h.maxFileSize, h.exclusions⟩, h.thresholds, h.keywords,
      fun category hc => ⟨h.names category hc, h.patterns category hc⟩⟩

/-! ## What is made of settings -/

/-- The patterns of some settings can be read, with or without the shared library, and a chunker and
an analyzer can be made of them, however patterns are matched and whatever gives the outline of a
text. -/
structure Builds (read : String → Option Regex) (c : AnalyzerConfig) : Prop where
  library : ∃ library, PatternLibrary.compileWith read c.chunker.patterns = .ok library ∧
    PatternLibrary.ofConfigWith read c.chunker = .ok library
  chunker : ∀ isMatch, ∃ chunker, Chunker.createWith read isMatch c.chunker = .ok chunker
  analyzer : ∀ isMatch outline,
    ∃ analyzer, Analyzer.createWith read isMatch outline c = .ok analyzer

/-- An analyzer is made of valid settings. -/
theorem exists_createWith_iff {c : AnalyzerConfig} {isMatch : Regex → List Char → Bool}
    {outline : String → Option Tree} :
    (∃ analyzer, Analyzer.createWith read isMatch outline c = .ok analyzer) ↔
      c.validateWith read = .ok () := by
  simp only [Analyzer.createWith, FileParser.createWith, bind_eq_ok_iff, map_eq_ok_iff,
    mapError_eq_ok_iff, pure, Except.pure]
  constructor
  · rintro ⟨analyzer, _, hvalid, -⟩
    exact hvalid
  · intro hvalid
    obtain ⟨-, hchunker⟩ := validateWith_eq_ok_iff.1 hvalid
    obtain ⟨chunker, hcreated⟩ := exists_create_of_validate hchunker
    exact ⟨_, (), hvalid, _, ⟨chunker, hcreated, rfl⟩, rfl⟩

/-- Settings can be used exactly if they are valid. -/
theorem builds_iff {c : AnalyzerConfig} : c.Builds read ↔ c.validateWith read = .ok () := by
  constructor
  · intro h
    exact exists_createWith_iff.1 (h.analyzer Regex.isMatch (fun _ => none))
  · intro hvalid
    obtain ⟨-, hchunker⟩ := validateWith_eq_ok_iff.1 hvalid
    obtain ⟨library, hlibrary⟩ := PatternLibrary.exists_compile_of_validate
      (validate_patterns hchunker)
    refine ⟨⟨library, hlibrary, ?_⟩, fun isMatch => exists_create_of_validate hchunker,
      fun isMatch outline => exists_createWith_iff.2 hvalid⟩
    rw [PatternLibrary.ofConfigWith_eq_compileWith, hlibrary]

/-- The validator refuses settings with the first of their faults, and passes those that make sense.
These are the ones whose patterns can be read and of which a chunker and an analyzer can be made. -/
theorem validateWith_decides (read : String → Option Regex) (c : AnalyzerConfig) :
    c.validateWith read = verdict (c.faults read) ∧
      (c.validateWith read = .ok () ↔ c.Sound read) ∧
      (c.validateWith read = .ok () ↔ c.Builds read) := by
  refine ⟨validateWith_eq_verdict read c, ?sound, builds_iff.symm⟩
  case sound =>
    rw [validateWith_eq_verdict, verdict_eq_ok_iff, faults_eq_nil_iff]

/-- An empty exclusion counts before an empty keyword and before a category without a name. -/
example :
    validate {
      scan := { excludePatterns := ["build", ""] }
      chunker := { complexityKeywords := [""], patterns := [⟨"", ["("]⟩] } } =
    .error (.invalidScan .emptyExclusion) :=
  rfl

end AnalyzerConfig

end CodeAtlas.Project
