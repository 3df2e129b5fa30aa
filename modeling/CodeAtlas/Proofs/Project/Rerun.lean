import CodeAtlas.Project.Analyzer
import CodeAtlas.Proofs.Attempt
import CodeAtlas.Proofs.Store.ShiftedStores

/-!
# Analysing again

The analysis of a directory clears the stores first, so what an analyzer did before makes no
difference to it, but for the numbers of the handles. A root that is no directory is refused before
anything is cleared.

Main results:

- Theorem `Shifts.store`: what is stored goes along with shifting handles.
- Theorem `sameSettings_afterAll`: no history changes the settings.
- Theorem `IsNew.shifts_clear`: a cleared analyzer is a new one with shifted handles.
- Theorem `runsAlike_afterAll`: after every history the analysis of a directory gives the report that
  a new analyzer gives, and leaves stores that answer alike.
-/

namespace CodeAtlas.Project.Analyzer

open CodeAtlas.Analysis
open CodeAtlas.Chunking
open CodeAtlas.Files (Workspace)
open CodeAtlas.Graph (CycleDetector)
open CodeAtlas.Store
open CodeAtlas.Syntax

/-! ## Histories -/

/-- What an analyzer may be asked to do. -/
inductive Request where
  | analysis (w : Workspace) (root : String) (options : ScanOptions)
  | fileAnalysis (w : Workspace) (path : String) (mode : AnalysisMode)

/-- The analyzer after a task, whether that fails or not. -/
def left {α : Type} (a : Analyzer) (task : Task α) : Analyzer :=
  match task.run a with
  | .ok _ b => b
  | .error _ b => b

/-- The analyzer after a request. -/
def after (a : Analyzer) : Request → Analyzer
  | .analysis w root options => a.left (analysis w root options)
  | .fileAnalysis w path mode => a.left (fileAnalysis w path mode)

/-- The analyzer after some requests. -/
def afterAll (a : Analyzer) (requests : List Request) : Analyzer := requests.foldl after a

/-! ## Settings -/

/-- The settings of two analyzers are the same. -/
structure SameSettings (a b : Analyzer) : Prop where
  config : b.config = a.config
  parser : b.parser = a.parser
  detector : b.calls.detector = a.calls.detector

variable {a b fresh : Analyzer}

theorem SameSettings.refl (a : Analyzer) : SameSettings a a :=
  ⟨rfl, rfl, rfl⟩

theorem SameSettings.trans {c : Analyzer} (h : SameSettings a b) (h' : SameSettings b c) :
    SameSettings a c :=
  ⟨h'.config.trans h.config, h'.parser.trans h.parser, h'.detector.trans h.detector⟩

/-- What no step changes, all of them leave as it is. -/
theorem sameSettings_foldl {α : Type} {step : Analyzer → α → Analyzer}
    (hstep : ∀ a x, SameSettings a (step a x)) (a : Analyzer) (l : List α) :
    SameSettings a (l.foldl step a) := by
  induction l generalizing a with
  | nil => exact SameSettings.refl a
  | cons x rest ih => exact (hstep a x).trans (ih (step a x))

/-- Storing changes no settings. -/
theorem sameSettings_store (a : Analyzer) (found : FileAnalysis) :
    SameSettings a (a.store found) := by
  have hsymbols : ∀ (a : Analyzer) x, SameSettings a (a.addSymbol x) := fun _ _ => ⟨rfl, rfl, rfl⟩
  have hcalls : ∀ (a : Analyzer) c, SameSettings a (a.addCall c) := fun _ _ => ⟨rfl, rfl, rfl⟩
  have hchunks : ∀ (a : Analyzer) c, SameSettings a (a.addChunk c) := fun _ _ => ⟨rfl, rfl, rfl⟩
  exact ((sameSettings_foldl hsymbols a _).trans (sameSettings_foldl hcalls _ _)).trans
    (sameSettings_foldl hchunks _ _)

/-- Nor does storing what was collected, if it was. -/
theorem sameSettings_storeCollected (a : Analyzer) (collected : Except Overflow Collected) :
    SameSettings a (a.storeCollected collected) := by
  cases collected with
  | error fault => exact SameSettings.refl a
  | ok c => exact sameSettings_store a c.analysis

/-- No request changes the settings. -/
theorem sameSettings_after (a : Analyzer) (request : Request) : SameSettings a (a.after request) := by
  cases request with
  | analysis w root options =>
    rw [after, left]
    cases hroot : w.isDirectory root with
    | false =>
      rw [run_analysis_of_not_directory hroot]
      exact SameSettings.refl a
    | true =>
      rw [run_analysis_of_directory hroot]
      exact (⟨rfl, rfl, rfl⟩ : SameSettings a a.clear).trans (sameSettings_storeCollected _ _)
  | fileAnalysis w path mode =>
    rw [after, left, run_fileAnalysis]
    cases a.fileOutcome w path mode with
    | error e => exact SameSettings.refl a
    | ok found => exact sameSettings_store a found

/-- No history changes the settings. -/
theorem sameSettings_afterAll (a : Analyzer) (requests : List Request) :
    SameSettings a (a.afterAll requests) :=
  sameSettings_foldl sameSettings_after a requests

/-! ## Analyzers whose handles start later -/

/-- How many handles each store has issued; they are numbered from zero on. -/
structure Issued where
  symbols : Nat
  calls : Nat
  chunks : Nat
  deriving DecidableEq

/-- How many handles the stores of an analyzer have issued. -/
def issued (a : Analyzer) : Issued :=
  ⟨a.symbols.nextNumber, a.calls.nextNumber, a.chunks.nextNumber⟩

/-- One analyzer has the settings of the other, and its stores have what those have, under shifted
handles. -/
structure Shifts (n : Issued) (a b : Analyzer) : Prop where
  parser : b.parser = a.parser
  symbols : a.symbols.Shifts n.symbols b.symbols
  calls : a.calls.Shifts n.calls b.calls
  chunks : a.chunks.Shifts n.chunks b.chunks

variable {n : Issued}

theorem Shifts.addSymbol (h : a.Shifts n b) (x : Symbol) : (a.addSymbol x).Shifts n (b.addSymbol x) :=
  { h with symbols := (h.symbols.save x).1 }

/-- The callee leads to the same symbol, so the same key is referred to. -/
theorem Shifts.addCall (h : a.Shifts n b) (c : Call) : (a.addCall c).Shifts n (b.addCall c) := by
  simp only [Analyzer.addCall, h.symbols.findByName]
  refine { h with symbols := ?_, calls := h.calls.save c }
  cases a.symbols.findByName c.callee with
  | none => exact h.symbols
  | some x => exact h.symbols.addReference x.key c.caller

theorem Shifts.addChunk (h : a.Shifts n b) (c : Chunk) : (a.addChunk c).Shifts n (b.addChunk c) :=
  { h with chunks := h.chunks.save c }

/-- What is stored goes along with shifting handles. -/
theorem Shifts.store (h : a.Shifts n b) (found : FileAnalysis) :
    (a.store found).Shifts n (b.store found) := by
  have hsymbols : (found.symbols.foldl Analyzer.addSymbol a).Shifts n
      (found.symbols.foldl Analyzer.addSymbol b) :=
    List.foldl_rel h (fun x _ _ _ h => h.addSymbol x)
  have hcalls := List.foldl_rel (l := found.calls) hsymbols (fun c _ _ _ h => Shifts.addCall h c)
  exact List.foldl_rel hcalls (fun c _ _ _ h => Shifts.addChunk h c)

theorem Shifts.storeCollected (h : a.Shifts n b) (collected : Except Overflow Collected) :
    (a.storeCollected collected).Shifts n (b.storeCollected collected) := by
  cases collected with
  | error fault => exact h
  | ok c => exact h.store c.analysis

/-- Every question has the same answer from both analyzers, where handles are shifted. -/
structure AnswersAlike (n : Issued) (a b : Analyzer) : Prop where
  symbols : a.symbols.AnswersAlike n.symbols b.symbols
  calls : a.calls.AnswersAlike n.calls b.calls
  chunks : a.chunks.AnswersAlike n.chunks b.chunks
  search : ∀ query, b.search query = a.search query
  chunksOfFile : ∀ w path filter, b.chunksOfFile w path filter = a.chunksOfFile w path filter
  searchFile : ∀ w path query, b.searchFile w path query = a.searchFile w path query

theorem Shifts.chunksOfFile (h : a.Shifts n b) (w : Workspace) (path : String)
    (filter : Option ChunkFilter) :
    b.chunksOfFile w path filter = a.chunksOfFile w path filter := by
  rw [Analyzer.chunksOfFile, h.parser, Analyzer.chunksOfFile]

/-- No question tells an analyzer with shifted handles from the other. -/
theorem Shifts.answersAlike (h : a.Shifts n b) : a.AnswersAlike n b where
  symbols := h.symbols.answersAlike
  calls := h.calls.answersAlike
  chunks := h.chunks.answersAlike
  search query := by rw [Analyzer.search, h.chunks.getAll, Analyzer.search]
  chunksOfFile := h.chunksOfFile
  searchFile w path query := by rw [Analyzer.searchFile, h.chunksOfFile, Analyzer.searchFile]

/-! ## New analyzers -/

/-- Nothing was ever stored. -/
structure IsNew (a : Analyzer) : Prop where
  symbols : a.symbols = .empty
  calls : a.calls = CallStore.empty.setDetector a.calls.detector
  chunks : a.chunks = .empty

/-- An analyzer is new when it is made. -/
theorem isNew_setDetector {read : String → Option Regex} {isMatch : Regex → List Char → Bool}
    {outline : String → Option Tree} {config : AnalyzerConfig}
    (h : createWith read isMatch outline config = .ok a) (detector : CycleDetector) :
    (a.setDetector detector).IsNew := by
  simp only [createWith, bind_eq_ok_iff, pure, Except.pure, Except.ok.injEq] at h
  obtain ⟨-, -, parser, -, rfl⟩ := h
  exact ⟨rfl, rfl, rfl⟩

/-- Clearing a new analyzer changes nothing. -/
theorem IsNew.clear_eq (h : fresh.IsNew) : fresh.clear = fresh := by
  obtain ⟨config, parser, symbols, calls, chunks⟩ := fresh
  obtain ⟨rfl, hcalls, rfl⟩ := h
  dsimp only at hcalls
  rw [hcalls]
  rfl

/-- A cleared analyzer is a new one with shifted handles. -/
theorem IsNew.shifts_clear (h : fresh.IsNew) (hsettings : SameSettings fresh a) :
    fresh.Shifts a.issued a.clear where
  parser := hsettings.parser
  symbols := by
    rw [h.symbols]
    exact a.symbols.shifts_clear
  calls := by
    rw [h.calls, ← hsettings.detector]
    exact a.calls.shifts_clear
  chunks := by
    rw [h.chunks]
    exact a.chunks.shifts_clear

/-! ## Analysing again -/

/-- An analyzer runs like a new one. -/
structure RunsAlike (fresh a : Analyzer) : Prop where
  /-- A directory gives the same report, and then every question has the same answer, where handles
  are shifted by what was issued before. -/
  of_directory : ∀ w root options, w.isDirectory root = true → ∃ report first again,
    (analysis w root options).run fresh = .ok report first ∧
      (analysis w root options).run a = .ok report again ∧ first.AnswersAlike a.issued again
  /-- A root that is no directory is an error and leaves everything as it was. -/
  of_not_directory : ∀ w root options, w.isDirectory root = false →
    (analysis w root options).run a = .error (.invalidPath (.notDirectory root)) a

/-- With the settings of a new analyzer it runs like that one, whatever is in store. -/
theorem IsNew.runsAlike (h : fresh.IsNew) (hsettings : SameSettings fresh a) :
    RunsAlike fresh a where
  of_directory w root options hroot := by
    have houtcomes : a.outcomes w root options = fresh.outcomes w root options := by
      rw [outcomes, hsettings.parser, outcomes]
    rw [run_analysis_of_directory hroot, run_analysis_of_directory hroot, houtcomes, h.clear_eq]
    exact ⟨_, _, _, rfl, rfl,
      ((h.shifts_clear hsettings).storeCollected _).answersAlike⟩
  of_not_directory _ _ options hroot := run_analysis_of_not_directory hroot a options

/-- After every history an analyzer runs like a new one with the same settings, however patterns are
read and matched. -/
theorem runsAlike_afterAll {read : String → Option Regex} {isMatch : Regex → List Char → Bool}
    {outline : String → Option Tree} {config : AnalyzerConfig}
    (h : createWith read isMatch outline config = .ok a) (detector : CycleDetector)
    (requests : List Request) :
    RunsAlike (a.setDetector detector) ((a.setDetector detector).afterAll requests) :=
  (isNew_setDetector h detector).runsAlike (sameSettings_afterAll _ requests)

/-- A function that calls another one. -/
def callingTree : Tree where
  root := ⟨.file, ⟨1, 2, 0⟩, [
    ⟨.function { name := "main" }, ⟨1, 2, 0⟩, [⟨.call { callee := .name "run" }, ⟨2, 2, 4⟩, []⟩]⟩]⟩
  source := "def main():\n    run()\n"

/-- A directory with one file. -/
def callingWorkspace : Workspace where
  root := "/project"
  top := .directory [("main.py", .file (Text.Utf8.encode callingTree.source))]

/-- An analyzer of symbols and calls that takes every text for that function. -/
def callingAnalyzer : Analyzer :=
  let config : AnalyzerConfig := { mode := .ast, chunker := { patterns := [] } }
  { config, parser := ⟨fun _ => some callingTree, ⟨config.chunker, ⟨[]⟩, Regex.isMatch⟩, .ast⟩ }

/-- After a file was analysed, the handles of a new analysis of its directory are shifted by one. -/
theorem runsAlike_after_file :
    createWith Regex.parse Regex.isMatch callingAnalyzer.parser.outline callingAnalyzer.config =
        .ok callingAnalyzer ∧
      (let fresh := callingAnalyzer.setDetector .components
       let used := fresh.afterAll [.fileAnalysis callingWorkspace "main.py" .ast]
       callingWorkspace.isDirectory "/project" = true ∧ used.issued = ⟨1, 1, 0⟩ ∧
         RunsAlike fresh used) := by
  have hcreate : createWith Regex.parse Regex.isMatch callingAnalyzer.parser.outline
      callingAnalyzer.config = .ok callingAnalyzer := rfl
  exact ⟨hcreate, by decide +kernel, by decide +kernel, runsAlike_afterAll hcreate _ _⟩

end CodeAtlas.Project.Analyzer
