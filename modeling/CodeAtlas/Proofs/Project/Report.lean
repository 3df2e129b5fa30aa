import CodeAtlas.Proofs.Project.ComplexityReports
import CodeAtlas.Proofs.Project.UsedSymbols

/-!
# Reports and stores

The analysis of a directory describes a project twice: by a report, which counts what was collected
from the files, and by the stores, which were filled with it. The report tells what came of each
file, in the order of the scan, and both descriptions agree. A file that fails adds a line to the
errors and nothing else.

Main results:

- Theorem `addAll_eq`: what is collected from some files.
- Theorem `reportOf_eq_ok_iff`: when there is a report.
- Theorem `tells_described`: the report tells what came of the files.
- Theorem `agrees_described`: the stores hold what the report lists, symbols once for each key.
- Theorem `analysis_describes`: so it is for all files that may be met, and for every directory.
-/

namespace CodeAtlas.Project

open CodeAtlas.Analysis
open CodeAtlas.Chunking
open CodeAtlas.Files (Workspace)
open CodeAtlas.Store
open CodeAtlas.Syntax

/-- A file with what came of it. -/
abbrev Outcome := String × Except ProjectError FileAnalysis

/-! ## Collecting -/

/-- Whether a file was analysed. -/
def succeeded (o : Outcome) : Bool := o.2.toOption.isSome

/-- The text for a file that failed: its path and the reason. -/
def failure? (o : Outcome) : Option String :=
  match o.2 with
  | .ok _ => none
  | .error e => some (o.1 ++ ": " ++ e.message)

/-- What was found in the files that were analysed. -/
def findings (outcomes : List Outcome) : List FileAnalysis :=
  outcomes.filterMap (fun o => o.2.toOption)

/-- What several files hold, one after the other. -/
def FileAnalysis.concat (found : List FileAnalysis) : FileAnalysis where
  symbols := found.flatMap FileAnalysis.symbols
  calls := found.flatMap FileAnalysis.calls
  chunks := found.flatMap FileAnalysis.chunks

/-- The lines of the files that were analysed. -/
def linesOf (outcomes : List Outcome) : Nat :=
  ((findings outcomes).map FileAnalysis.lineCount).sum

/-- What is collected from some files besides what was there before, with the lines of both. -/
def Collected.joined (c : Collected) (outcomes : List Outcome) (totalLines : Nat) : Collected where
  analysis := c.analysis.extend (FileAnalysis.concat (findings outcomes))
  statistics := { c.statistics with
    files := c.statistics.files + (findings outcomes).length
    totalLines
    errors := c.statistics.errors ++ outcomes.filterMap failure? }

theorem Collected.joined_nil (c : Collected) : c.joined [] c.statistics.totalLines = c := by
  simp [joined, findings, FileAnalysis.concat, FileAnalysis.extend]

/-- A file that was analysed comes before the others. -/
theorem Collected.joined_cons_ok (c : Collected) (path : String) (a : FileAnalysis)
    (outcomes : List Outcome) (lines : Nat) :
    c.joined ((path, .ok a) :: outcomes) =
      Collected.joined ⟨c.analysis.extend a,
        { c.statistics with files := c.statistics.files + 1, totalLines := lines }⟩ outcomes := by
  funext totalLines
  simp [joined, findings, failure?, FileAnalysis.concat, FileAnalysis.extend, Except.toOption,
    List.filterMap_cons, Nat.add_assoc, Nat.add_comm 1]

/-- So does the error of a file that failed. -/
theorem Collected.joined_cons_error (c : Collected) (path : String) (e : ProjectError)
    (outcomes : List Outcome) :
    c.joined ((path, .error e) :: outcomes) =
      Collected.joined { c with statistics := c.statistics.addError (path ++ ": " ++ e.message) }
        outcomes := by
  funext totalLines
  simp [joined, AnalysisStats.addError, findings, failure?, Except.toOption]

/-- What is collected from some files, if their lines fit with those before: what the analysed ones
hold and why the others failed. -/
theorem addAll_eq {c : Collected} (h : c.statistics.totalLines < Register.limit64)
    (outcomes : List Outcome) :
    c.addAll outcomes =
      (Register.fit Register.limit64 (c.statistics.totalLines + linesOf outcomes)).map
        (c.joined outcomes) := by
  induction outcomes generalizing c with
  | nil =>
    have hnil : c.addAll [] = .ok c := rfl
    have hlines : c.statistics.totalLines + linesOf [] = c.statistics.totalLines := rfl
    rw [hnil, hlines, Register.fit_of_lt h, Except.map, c.joined_nil]
  | cons o outcomes ih =>
    obtain ⟨path, outcome⟩ := o
    have hstep : c.addAll ((path, outcome) :: outcomes) =
        (c.add path outcome).bind (fun d => d.addAll outcomes) := rfl
    rw [hstep]
    cases outcome with
    | error e =>
      rw [c.joined_cons_error]
      exact ih h
    | ok a =>
      have hlines : linesOf ((path, .ok a) :: outcomes) =
          a.lineCount + linesOf outcomes := by
        simp [linesOf, findings, Except.toOption]
      rw [hlines, ← Nat.add_assoc, Collected.add, AnalysisStats.addFile]
      by_cases hfits : c.statistics.totalLines + a.lineCount < Register.limit64
      · rw [Register.fit_of_lt hfits, c.joined_cons_ok path a outcomes _]
        exact ih hfits
      · have hle : Register.limit64 ≤ c.statistics.totalLines + a.lineCount := Nat.not_lt.1 hfits
        rw [Register.fit_of_le hle, Register.fit_of_le (hle.trans (Nat.le_add_right _ _))]
        rfl

/-- What is collected from some files and nothing else. -/
def collected (outcomes : List Outcome) : Except Overflow Collected :=
  ({} : Collected).addAll outcomes

/-- Some files are collected if their lines fit. -/
theorem collected_eq (outcomes : List Outcome) :
    collected outcomes =
      (Register.fit Register.limit64 (linesOf outcomes)).map
        (({} : Collected).joined outcomes) := by
  have hnew : ({} : Collected).statistics.totalLines < Register.limit64 := by decide
  rw [collected, addAll_eq hnew, Nat.zero_add]

/-- The report on some files. -/
def reportOf (outcomes : List Outcome) : Except Overflow ProjectReport :=
  (collected outcomes).bind Collected.report

/-- The analyzer with what was found in some files and nothing else. -/
def Analyzer.filled (a : Analyzer) (outcomes : List Outcome) : Analyzer :=
  a.clear.storeCollected (collected outcomes)

/-! ## What a report tells -/

/-- The lines of some files fit into 64 bits, and the complexities of their chunks into 32. -/
structure Reportable (outcomes : List Outcome) : Prop where
  lines_lt : linesOf outcomes < Register.limit64
  complexity_lt : (scores ((findings outcomes).flatMap FileAnalysis.chunks)).sum < Register.limit32

/-- A report tells what came of some files. -/
structure Tells (outcomes : List Outcome) (r : ProjectReport) : Prop where
  /-- Every file is counted once, as analysed or as failed. -/
  files_add_errors : r.statistics.files + r.statistics.errors.length = outcomes.length
  files_eq : r.statistics.files = (findings outcomes).length
  /-- Each file that failed has one line, in the order of the files. -/
  errors_eq : r.statistics.errors = outcomes.filterMap failure?
  totalLines_eq :
    r.statistics.totalLines = ((findings outcomes).map FileAnalysis.lineCount).sum
  symbols_eq : r.symbols = (findings outcomes).flatMap FileAnalysis.symbols
  calls_eq : r.calls = (findings outcomes).flatMap FileAnalysis.calls
  chunks_eq : r.chunks = (findings outcomes).flatMap FileAnalysis.chunks

/-- A file is analysed or it fails. -/
theorem length_findings_add_failures (outcomes : List Outcome) :
    (findings outcomes).length + (outcomes.filterMap failure?).length = outcomes.length := by
  induction outcomes with
  | nil => rfl
  | cons o outcomes ih =>
    obtain ⟨path, outcome⟩ := o
    rw [List.length_cons, ← ih]
    cases outcome with
    | ok a =>
      simp only [findings, failure?, List.filterMap_cons, Except.toOption, List.length_cons]
      exact Nat.add_right_comm _ _ _
    | error e =>
      simp only [findings, failure?, List.filterMap_cons, Except.toOption, List.length_cons]
      rfl

/-- A report on what is collected from some files, with totals of any size. -/
def described (outcomes : List Outcome) : ProjectReport :=
  let c := ({} : Collected).joined outcomes (linesOf outcomes)
  let a := c.analysis
  ⟨a.symbols, a.calls, a.chunks, c.statistics.summarized a.symbols a.calls a.chunks⟩

/-- There is a report on some files if the totals fit. -/
theorem reportOf_eq_ok_iff {outcomes : List Outcome} {r : ProjectReport} :
    reportOf outcomes = .ok r ↔ Reportable outcomes ∧ r = described outcomes := by
  have hbind : reportOf outcomes = collected outcomes >>= Collected.report := rfl
  simp only [hbind, bind_eq_ok_iff, collected_eq, map_eq_ok_iff, Register.fit_eq_ok_iff,
    Collected.report, AnalysisStats.summarize_eq_ok_iff]
  constructor
  · rintro ⟨_, ⟨_, ⟨hlines, rfl⟩, rfl⟩, _, ⟨hcomplexity, rfl⟩, hr⟩
    exact ⟨⟨hlines, hcomplexity⟩, (Except.ok.inj hr).symm⟩
  · rintro ⟨⟨hlines, hcomplexity⟩, rfl⟩
    exact ⟨_, ⟨_, ⟨hlines, rfl⟩, rfl⟩, _, ⟨hcomplexity, rfl⟩, rfl⟩

/-- The report tells what came of the files. -/
theorem tells_described (outcomes : List Outcome) : Tells outcomes (described outcomes) where
  files_add_errors := by
    rw [← length_findings_add_failures outcomes]
    exact congrArg (· + _) (Nat.zero_add _)
  files_eq := Nat.zero_add _
  errors_eq := rfl
  totalLines_eq := rfl
  symbols_eq := rfl
  calls_eq := rfl
  chunks_eq := rfl

/-! ## Files that failed -/

/-- Leaving out the files that failed leaves everything that was found. -/
theorem findings_filter_succeeded (outcomes : List Outcome) :
    findings (outcomes.filter succeeded) = findings outcomes := by
  rw [findings, List.filterMap_filter, findings]
  refine List.filterMap_congr (fun o _ => ?_)
  cases hfound : o.2.toOption <;> simp [succeeded, hfound]

/-- Files that were analysed have no errors. -/
theorem filterMap_failure?_filter_succeeded (outcomes : List Outcome) :
    (outcomes.filter succeeded).filterMap failure? = [] := by
  refine List.filterMap_eq_nil_iff.2 (fun o ho => ?_)
  obtain ⟨path, outcome⟩ := o
  cases outcome with
  | ok a => rfl
  | error e => exact absurd (List.mem_filter.1 ho).2 Bool.false_ne_true

/-- Leaving out the files that failed changes the errors that are collected and nothing else. -/
theorem collected_filter_succeeded (outcomes : List Outcome) :
    collected (outcomes.filter succeeded) =
      (collected outcomes).map
        (fun c => { c with statistics := { c.statistics with errors := [] } }) := by
  rw [collected_eq, collected_eq, linesOf, findings_filter_succeeded, linesOf]
  cases Register.fit Register.limit64 ((findings outcomes).map FileAnalysis.lineCount).sum with
  | error fault => rfl
  | ok lines =>
    simp only [Except.map, Collected.joined, findings_filter_succeeded,
      filterMap_failure?_filter_succeeded]
    rfl

/-- Errors are reported and make no difference to anything else. -/
theorem report_of_no_errors (c : Collected) :
    Collected.report { c with statistics := { c.statistics with errors := [] } } =
      c.report.map (fun r => { r with statistics := { r.statistics with errors := [] } }) := by
  have hcomplexity : ({ c.statistics with errors := [] } : AnalysisStats).complexityOf
      c.analysis.chunks = c.statistics.complexityOf c.analysis.chunks := rfl
  simp only [Collected.report, AnalysisStats.summarize, hcomplexity]
  cases c.statistics.complexityOf c.analysis.chunks <;> rfl

/-- Leaving out the files that failed changes the errors in the report and nothing else. -/
theorem reportOf_filter_succeeded (outcomes : List Outcome) :
    reportOf (outcomes.filter succeeded) =
      (reportOf outcomes).map
        (fun r => { r with statistics := { r.statistics with errors := [] } }) := by
  rw [reportOf, collected_filter_succeeded, reportOf]
  cases collected outcomes with
  | error fault => rfl
  | ok c => exact report_of_no_errors c

/-! ## What the stores hold -/

/-- The calls of a file are saved in their order. -/
theorem calls_store (a : Analyzer) (found : FileAnalysis) :
    (a.store found).calls = a.calls.saveAll found.calls := by
  have hcalls : ∀ b : Analyzer, (found.calls.foldl Analyzer.addCall b).calls =
      b.calls.saveAll found.calls :=
    fun b => (List.foldl_hom Analyzer.calls (fun _ _ => rfl)).symm
  rw [Analyzer.store, foldl_eq_of_unchanged Analyzer.addChunk Analyzer.calls (fun _ _ => rfl),
    hcalls, foldl_eq_of_unchanged Analyzer.addSymbol Analyzer.calls (fun _ _ => rfl)]

/-- The chunks of a file are saved in their order. -/
theorem chunks_store (a : Analyzer) (found : FileAnalysis) :
    (a.store found).chunks = a.chunks.saveAll found.chunks := by
  have hchunks : ∀ b : Analyzer, (found.chunks.foldl Analyzer.addChunk b).chunks =
      b.chunks.saveAll found.chunks :=
    fun b => (List.foldl_hom Analyzer.chunks (fun _ _ => rfl)).symm
  rw [Analyzer.store, hchunks,
    foldl_eq_of_unchanged Analyzer.addCall Analyzer.chunks (fun _ _ => rfl),
    foldl_eq_of_unchanged Analyzer.addSymbol Analyzer.chunks (fun _ _ => rfl)]

/-- The stores of an analyzer hold what a report lists, and count it alike. -/
structure Agrees (r : ProjectReport) (a : Analyzer) : Prop where
  calls_eq : a.calls.getAll = r.calls
  chunks_eq : a.chunks.getAll = r.chunks
  totalCalls_eq : r.statistics.totalCalls = a.calls.statistics.totalCalls
  callKinds_eq : r.statistics.callKinds = sortedByName a.calls.statistics.byKind
  /-- The store of chunks has statistics exactly if the chunks can be measured. -/
  chunkStatistics_iff : (∃ stats, a.chunks.statistics = .ok stats) ↔ Measurable r.chunks
  totalChunks_eq : ∀ stats, a.chunks.statistics = .ok stats →
    r.statistics.totalChunks = stats.totalChunks
  chunkKinds_eq : ∀ stats, a.chunks.statistics = .ok stats →
    r.statistics.chunkKinds = sortedByName stats.byKind
  /-- Symbols are held once for each key, as they come last. -/
  symbols : SymbolStore.KeepsLatest r.symbols a.symbols.getAll
  totalSymbols_eq :
    a.symbols.statistics.totalSymbols = (r.symbols.map Symbol.key).toFinset.card

/-- Sizes of buckets are counts of kinds, but for their order. -/
theorem kindCounts_eq {kinds : List String} {sizes : List (String × Nat)}
    (h : sizes.Perm (tally kinds).entries) :
    AnalysisStats.kindCounts kinds = sortedByName sizes :=
  sortedByName_eq h.symm (tally kinds).nodup_keys

/-- If the lines of some files fit, the analyzer is filled with what they hold. -/
theorem Analyzer.filled_eq (a : Analyzer) {outcomes : List Outcome}
    (h : linesOf outcomes < Register.limit64) :
    a.filled outcomes = a.clear.store (FileAnalysis.concat (findings outcomes)) := by
  rw [filled, collected_eq, Register.fit_of_lt h]
  rfl

/-- The stores hold what the report lists. -/
theorem agrees_described (a : Analyzer) {outcomes : List Outcome}
    (h : linesOf outcomes < Register.limit64) : Agrees (described outcomes) (a.filled outcomes) := by
  have hcalls : (a.filled outcomes).calls.shelf.Holds (described outcomes).calls := by
    rw [a.filled_eq h, calls_store]
    exact a.calls.holds_saveAll _
  have hchunks : (a.filled outcomes).chunks.shelf.Holds (described outcomes).chunks := by
    rw [a.filled_eq h, chunks_store]
    exact a.chunks.holds_saveAll _
  have hgetAll : (a.filled outcomes).chunks.getAll = (described outcomes).chunks :=
    hchunks.values_eq
  have hcallKinds := hcalls.sizes_perm_tally (a := .kind) (fun _ => rfl) callKind_label_injective
  have hchunkKinds := hchunks.sizes_perm_tally (a := .kind) (fun _ => rfl) chunkKind_label_injective
  have hsymbols : (a.filled outcomes).symbols.getAll =
      (a.symbols.clear.saveAll (described outcomes).symbols).getAll := by
    rw [a.filled_eq h, symbols_store, SymbolStore.getAll_referAll]
    rfl
  exact {
    calls_eq := hcalls.values_eq
    chunks_eq := hgetAll
    totalCalls_eq := hcalls.size_eq.symm
    callKinds_eq := kindCounts_eq hcallKinds
    chunkStatistics_iff := by rw [ChunkStore.exists_statistics_iff, hgetAll]
    totalChunks_eq := by
      intro stats hstats
      obtain ⟨-, rfl⟩ := ChunkStore.statistics_eq_ok_iff.1 hstats
      exact hchunks.size_eq.symm
    chunkKinds_eq := by
      intro stats hstats
      obtain ⟨-, rfl⟩ := ChunkStore.statistics_eq_ok_iff.1 hstats
      exact kindCounts_eq hchunkKinds
    symbols := by
      rw [hsymbols]
      exact a.symbols.keepsLatest_saveAll _
    totalSymbols_eq := by
      have hsize : (a.filled outcomes).symbols.statistics.totalSymbols =
          (a.filled outcomes).symbols.getAll.length := (List.length_map _).symm
      rw [hsize, hsymbols]
      exact a.symbols.length_saveAll _ }

/-! ## Both descriptions -/

/-- The report on some files and the stores filled with them describe the same project, of which
files that failed are no part. -/
structure Describes (a : Analyzer) (outcomes : List Outcome) : Prop where
  /-- There is a report exactly if lines and complexities do not add up to too much. -/
  reportOf_iff : (∃ r, reportOf outcomes = .ok r) ↔ Reportable outcomes
  tells : ∀ r, reportOf outcomes = .ok r → Tells outcomes r
  agrees : ∀ r, reportOf outcomes = .ok r → Agrees r (a.filled outcomes)
  reportOf_succeeded : reportOf (outcomes.filter succeeded) =
    (reportOf outcomes).map (fun r => { r with statistics := { r.statistics with errors := [] } })
  filled_succeeded : a.filled (outcomes.filter succeeded) = a.filled outcomes

/-- Whatever comes of some files, the report and the stores describe the same project. -/
theorem describes (a : Analyzer) (outcomes : List Outcome) : Describes a outcomes where
  reportOf_iff := by simp [reportOf_eq_ok_iff]
  tells := by
    intro r hr
    obtain ⟨-, rfl⟩ := reportOf_eq_ok_iff.1 hr
    exact tells_described outcomes
  agrees := by
    intro r hr
    obtain ⟨hfits, rfl⟩ := reportOf_eq_ok_iff.1 hr
    exact agrees_described a hfits.lines_lt
  reportOf_succeeded := reportOf_filter_succeeded outcomes
  filled_succeeded := by
    rw [Analyzer.filled, collected_filter_succeeded, Analyzer.filled]
    cases collected outcomes <;> rfl

/-- The analysis of a directory gives the report on the files of its scan and fills the stores. -/
theorem Analyzer.run_analysis_eq {w : Workspace} {root : String} (h : w.isDirectory root = true)
    (a : Analyzer) (options : ScanOptions) :
    (analysis w root options).run a =
      .ok (reportOf (a.outcomes w root options)) (a.filled (a.outcomes w root options)) :=
  run_analysis_of_directory h a options

end CodeAtlas.Project
