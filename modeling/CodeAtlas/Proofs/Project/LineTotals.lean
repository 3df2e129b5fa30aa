import CodeAtlas.Proofs.Chunk.Contents
import CodeAtlas.Proofs.Project.SemanticRoutes
import CodeAtlas.Proofs.Text.LineCounts
import CodeAtlas.Python.Reader

/-!
# Lines in numbers

Lines are counted in bytes, for the totals of a report, and numbered in texts, for the chunks of a
file. Both go by the same lines: the numbers of the lines of a source run up to the count of its
bytes, every chunk begins at a number that was counted, and the total of a report is the number of
lines of the files that were analysed.

Main results:

- Theorem `numbersLines`: the numbers of the lines of a source.
- Theorem `cutOut_of_mem_chunkFile`: how chunks are cut out of a source.
- Theorem `readText_eq_ok_iff`: when a file is a text.
- Theorem `analyzeFile_of_readText`: a file that is a text is analysed as that text.
- Theorem `totalLines_of_run`: the lines in a report.
- Theorem `lineNumbers_agree`: counts and numbers of lines agree.
-/

namespace CodeAtlas.Syntax.Tree

open CodeAtlas.Text (HasLines lines lineCount)

/-- The lines of a source are numbered from 1 up to a count. -/
structure NumbersLines (t : Tree) (count : Nat) : Prop where
  count_eq : count = (lines t.source.toList).length
  /-- These are the lines that the source is made of. -/
  hasLines : HasLines t.source.toList (lines t.source.toList)
  /-- All numbers together select all lines. -/
  pieces : 1 ≤ count → (t.textForLines 1 count).toList.splitOn '\n' = lines t.source.toList
  length_pieces : 1 ≤ count → ((t.textForLines 1 count).toList.splitOn '\n').length = count
  /-- Further numbers add nothing. -/
  further : ∀ stop, count ≤ stop → t.textForLines 1 stop = t.textForLines 1 count
  /-- There is nothing behind the last number. -/
  behind : ∀ start stop, count < start → t.textForLines start stop = ""

theorem textForLines_one (t : Tree) {stop : Nat} (h : (lines t.source.toList).length ≤ stop) :
    t.textForLines 1 stop = String.ofList (Text.joinLines (lines t.source.toList)) := by
  rw [textForLines, Text.selectLines_eq_joinLines, Text.lineRange_one h]

/-- The lines of a source are numbered up to the count of its bytes. -/
theorem numbersLines (t : Tree) : t.NumbersLines (lineCount (Text.Utf8.encode t.source)) := by
  rw [Text.lineCount_encode]
  have hpieces : 1 ≤ (lines t.source.toList).length →
      (t.textForLines 1 (lines t.source.toList).length).toList.splitOn '\n' =
        lines t.source.toList := by
    intro hpos
    rw [t.textForLines_one (Nat.le_refl _), String.toList_ofList]
    exact Text.splitOn_joinLines (List.ne_nil_of_length_pos hpos)
      (fun _ h => Text.newline_not_mem_of_mem_lines h)
  refine ⟨rfl, Text.hasLines_iff.2 rfl, hpieces, fun hpos => congrArg List.length (hpieces hpos),
    fun stop hle => ?further, fun start stop hlt => ?behind⟩
  case further => rw [t.textForLines_one hle, t.textForLines_one (Nat.le_refl _)]
  case behind =>
    rw [textForLines, Text.selectLines_eq_nil_iff.2 (Or.inr (Or.inr (Or.inl hlt)))]

end CodeAtlas.Syntax.Tree

namespace CodeAtlas.Chunking

open CodeAtlas.Syntax
open CodeAtlas.Text (lines lineRange selectLines)

/-- A chunk is cut out of a source by its line numbers, and begins at one of the lines. -/
structure CutOut (source : String) (c : Chunk) : Prop where
  one_le : 1 ≤ c.startLine
  startLine_le : c.startLine ≤ min c.endLine (lines source.toList).length
  content : c.content.toList = selectLines source.toList c.startLine c.endLine

variable {config : ChunkerConfig} {file : SourceFile} {n : Node} {source : String}
  {chunks : List Chunk} {c d : Chunk}

/-- There is a piece of the content for each number that a line has. -/
theorem CutOut.length_pieces (h : CutOut source c) :
    (c.content.toList.splitOn '\n').length =
      min c.endLine (lines source.toList).length + 1 - c.startLine := by
  have hstart := h.one_le
  have hle := h.startLine_le
  have hcovers : lineRange (lines source.toList) c.startLine c.endLine ≠ [] := by
    rw [Ne, Text.lineRange_eq_nil_iff]
    omega
  rw [h.content, Text.splitOn_selectLines hcovers,
    Text.length_lineRange hstart]
  omega

theorem cutOut_of_definitionChunk (hd : definitionChunk config file n = .ok d) :
    CutOut file.tree.source d := by
  have htext := not_hasNoText_of_definitionChunk (Text.hasLines_iff.2 rfl) hd
  simp only [HasNoText, not_or] at htext
  obtain ⟨hzero, hinverted, hpast, -⟩ := htext
  have hspan : 1 ≤ n.span.startLine ∧
      n.span.startLine ≤ min n.span.endLine (lines file.tree.source.toList).length := by omega
  rw [eq_of_definitionChunk hd]
  exact ⟨hspan.1, hspan.2, String.toList_ofList⟩

/-- The metadata do not matter to how a chunk is cut. -/
theorem CutOut.of_differsInMetadata (h : CutOut source d) (hc : DiffersInMetadata d c) :
    CutOut source c := by
  obtain ⟨metadata, rfl⟩ := hc
  exact ⟨h.one_le, h.startLine_le, h.content⟩

/-- A pass cuts all its chunks out of the source. -/
theorem Pass.cutOut (pass : Pass) (hrun : pass.run config file = .ok chunks) (hc : c ∈ chunks) :
    CutOut file.tree.source c := by
  cases pass with
  | structural =>
    obtain ⟨n, -, hchunk⟩ := exists_of_mem_right (mapM_eq_ok_iff.1 hrun) hc
    obtain ⟨d, hd, hdiffers⟩ := exists_of_structuralChunk hchunk
    exact (cutOut_of_definitionChunk hd).of_differsInMetadata hdiffers
  | semantic isMatch library =>
    obtain ⟨found, -, hchunk⟩ := exists_of_mem_right (mapM_eq_ok_iff.1 hrun) hc
    obtain ⟨d, hd, hdiffers, -⟩ := exists_of_semanticChunk hchunk
    exact (cutOut_of_definitionChunk hd).of_differsInMetadata hdiffers

/-- So do both passes together. -/
theorem cutOut_of_mem_chunkFile {chunker : Chunker} (h : chunker.chunkFile file = .ok chunks)
    (hc : c ∈ chunks) : CutOut file.tree.source c := by
  cases hmode : chunker.config.mode with
  | hybrid =>
    obtain ⟨semantic, hsemantic, structural, hstructural, rfl⟩ := (chunkFile_eq_ok_iff hmode).1 h
    rcases List.mem_append.1 hc with hc | hc
    · exact (Pass.semantic chunker.isMatch chunker.library).cutOut hsemantic hc
    · exact Pass.structural.cutOut hstructural (List.mem_of_mem_filter hc)
  | structural =>
    rw [Chunker.chunkFile, hmode] at h
    exact Pass.structural.cutOut h hc
  | semantic =>
    rw [Chunker.chunkFile, hmode] at h
    exact (Pass.semantic chunker.isMatch chunker.library).cutOut h hc

end CodeAtlas.Chunking

namespace CodeAtlas.Files.Workspace

/-- A file is a text if it holds the bytes of the text. -/
theorem readText_eq_ok_iff {w : Workspace} {path source : String} :
    w.readText path = .ok source ↔ w.read path = .ok (Text.Utf8.encode source) := by
  rw [readText, bind_eq_ok_iff]
  constructor
  · rintro ⟨bytes, hread, htext⟩
    cases hdecode : Text.Utf8.decode bytes with
    | error e => simp [hdecode] at htext
    | ok text =>
      rw [hdecode] at htext
      obtain rfl : String.ofList text = source := Except.ok.inj htext
      rw [hread, Text.Utf8.decode_eq_ok_iff.1 hdecode]
  · intro hread
    refine ⟨Text.Utf8.encode source, hread, ?_⟩
    simp only [Text.Utf8.decode_encode, String.ofList_toList]

end CodeAtlas.Files.Workspace

namespace CodeAtlas.Project

open CodeAtlas.Chunking
open CodeAtlas.Files (Workspace)
open CodeAtlas.Syntax
open CodeAtlas.Text (lines lineCount selectLines)

/-! ## Files -/

variable {p : FileParser} {t : Option Tree} {bytes : List UInt8} {source path : String}
  {mode : AnalysisMode} {found : FileAnalysis} {w : Workspace}

/-- What was found in a source is measured in its lines. -/
structure MeasuredIn (source : String) (found : FileAnalysis) : Prop where
  lineCount_eq : found.lineCount = (lines source.toList).length
  /-- Every chunk begins at a line that is counted. -/
  startLine : ∀ c ∈ found.chunks, 1 ≤ c.startLine ∧ c.startLine ≤ min c.endLine found.lineCount
  content : ∀ c ∈ found.chunks, c.content.toList = selectLines source.toList c.startLine c.endLine
  /-- Every chunk has the lines with its numbers, as far as there are lines. -/
  pieces : ∀ c ∈ found.chunks, (c.content.toList.splitOn '\n').length =
    min c.endLine found.lineCount + 1 - c.startLine

/-- The outline of a text goes with that text. -/
def KeepsSource (outline : String → Option Tree) : Prop :=
  ∀ source t, outline source = some t → t.source = source

/-- The chunks of every mode are cut out of the source. -/
theorem cutOut_of_chunksFor {file : SourceFile} {chunks : List Chunk}
    (h : p.chunksFor file mode = .ok chunks) {c : Chunk} (hc : c ∈ chunks) :
    CutOut file.tree.source c := by
  cases mode with
  | ast =>
    obtain rfl := Except.ok.inj h
    exact absurd hc List.not_mem_nil
  | hybrid => exact cutOut_of_mem_chunkFile h hc
  | semantic =>
    obtain ⟨all, hall, rfl⟩ := map_eq_ok_iff.1 h
    exact cutOut_of_mem_chunkFile hall (List.mem_of_mem_filter hc)

/-- The lines of bytes are counted, whether they have an outline or not; without one there are no
chunks. -/
theorem analyzeOutline_spec (h : p.analyzeOutline t bytes path mode = .ok found) :
    found.lineCount = lineCount bytes ∧
      ∀ c ∈ found.chunks, ∃ u, t = some u ∧ CutOut u.source c := by
  cases t with
  | none =>
    simp only [FileParser.analyzeOutline, bind_eq_ok_iff, Except.ok.injEq, pure, Except.pure] at h
    obtain ⟨_, rfl, rfl⟩ := h
    exact ⟨rfl, fun c hc => absurd hc List.not_mem_nil⟩
  | some u =>
    simp only [FileParser.analyzeOutline, bind_eq_ok_iff, Except.ok.injEq, pure, Except.pure] at h
    obtain ⟨inTree, htree, rfl⟩ := h
    obtain ⟨-, -, hchunks, -⟩ := analyzeTree_eq_ok_iff.1 htree
    exact ⟨rfl, fun c hc => ⟨u, rfl, cutOut_of_chunksFor hchunks hc⟩⟩

/-- What is found in a text is measured in its lines. -/
theorem measuredIn_of_analyzeText (houtline : KeepsSource p.outline)
    (h : p.analyzeText source path mode = .ok found) : MeasuredIn source found := by
  obtain ⟨hcount, hcut⟩ := analyzeOutline_spec h
  rw [Text.lineCount_encode] at hcount
  have hchunks : ∀ c ∈ found.chunks, CutOut source c := by
    intro c hc
    obtain ⟨u, hu, hchunk⟩ := hcut c hc
    rwa [houtline source u hu] at hchunk
  refine ⟨hcount, ?startLine, fun c hc => (hchunks c hc).content, ?pieces⟩
  case startLine =>
    intro c hc
    rw [hcount]
    exact ⟨(hchunks c hc).one_le, (hchunks c hc).startLine_le⟩
  case pieces =>
    intro c hc
    rw [hcount]
    exact (hchunks c hc).length_pieces

/-- A file that is a text is analysed as that text. -/
theorem analyzeFile_of_readText (h : w.readText path = .ok source) :
    p.analyzeFile w path mode = p.analyzeText source path mode := by
  have hbytes : p.analyzeFile w path mode = p.analyzeBytes (Text.Utf8.encode source) path mode := by
    rw [FileParser.analyzeFile, Workspace.readText_eq_ok_iff.1 h]
    rfl
  rw [hbytes, p.analyzeBytes_of_decode (Text.Utf8.decode_encode source)]
  rfl

/-! ## Reports -/

/-- What was found in the files that were analysed counts their lines, one by one. -/
theorem forall₂_lineCount_findings {a : Analyzer} {root : String} {options : ScanOptions}
    {sources : List String}
    (hsources : List.Forall₂ (fun o source => w.readText o.1 = .ok source)
      ((a.outcomes w root options).filter succeeded) sources) :
    List.Forall₂ (fun found source => found.lineCount = (lines source.toList).length)
      (findings (a.outcomes w root options)) sources := by
  have hanalysed : ∀ o ∈ (a.outcomes w root options).filter succeeded, ∃ found,
      o.2.toOption = some found ∧ a.parser.analyzeFile w o.1 a.parser.mode = .ok found := by
    intro o ho
    obtain ⟨hmem, hsucceeded⟩ := List.mem_filter.1 ho
    obtain ⟨path, -, rfl⟩ := List.mem_map.1 hmem
    obtain ⟨found, hfound⟩ := exists_eq_ok_of_isSome hsucceeded
    exact ⟨found, by rw [hfound]; rfl, hfound⟩
  refine forall₂_filterMap_left_iff.2 ?_
  refine ((List.forall₂_and_left _ _).2 ⟨hanalysed, hsources⟩).imp ?_
  rintro o source ⟨⟨found, hoption, hfound⟩, hsource⟩
  rw [analyzeFile_of_readText hsource] at hfound
  refine ⟨found, hoption, ?_⟩
  rw [(analyzeOutline_spec hfound).1, Text.lineCount_encode]

/-- The lines in a report are those of the files that were analysed. -/
theorem totalLines_of_run {a b : Analyzer} {root : String} {options : ScanOptions}
    {report : ProjectReport} (h : (Analyzer.analysis w root options).run a = .ok (.ok report) b)
    {sources : List String}
    (hsources : List.Forall₂ (fun o source => w.readText o.1 = .ok source)
      ((a.outcomes w root options).filter succeeded) sources) :
    report.statistics.totalLines = (sources.map (fun s => (lines s.toList).length)).sum := by
  cases hroot : w.isDirectory root with
  | false =>
    rw [Analyzer.run_analysis_of_not_directory hroot] at h
    cases h
  | true =>
    rw [a.run_analysis_eq hroot] at h
    obtain ⟨hreport, -⟩ := EStateM.Result.ok.inj h
    rw [((describes a (a.outcomes w root options)).tells report hreport).totalLines_eq,
      map_eq_map_of_forall₂ (forall₂_lineCount_findings hsources) (fun _ _ heq => heq.symm)]

/-! ## Counts and numbers -/

/-- Whatever is analysed is measured in lines of its text. -/
structure MeasuresLines (a : Analyzer) : Prop where
  ofText : ∀ source path mode found, a.parser.analyzeText source path mode = .ok found →
    MeasuredIn source found
  ofFile : ∀ w path source mode found, w.readText path = .ok source →
    a.parser.analyzeFile w path mode = .ok found → MeasuredIn source found
  ofDirectory : ∀ w root options report b,
    (Analyzer.analysis w root options).run a = .ok (.ok report) b →
      ∀ sources, List.Forall₂ (fun o source => w.readText o.1 = .ok source)
          ((a.outcomes w root options).filter succeeded) sources →
        report.statistics.totalLines = (sources.map (fun s => (lines s.toList).length)).sum

/-- The lines of a source are numbered up to the count of its bytes. The counts of two sources add
up exactly if the first does not break off in a line or the second is empty. What is found in a text
goes by these numbers, and the total of a report is the count of what was analysed. -/
theorem lineNumbers_agree :
    (∀ t : Tree, t.NumbersLines (lineCount (Text.Utf8.encode t.source))) ∧
    (∀ a b : String, lineCount (Text.Utf8.encode (a ++ b)) =
        lineCount (Text.Utf8.encode a) + lineCount (Text.Utf8.encode b) ↔
      a = "" ∨ a.toList.getLast? = some '\n' ∨ b = "") ∧
    ∀ a : Analyzer, KeepsSource a.parser.outline → MeasuresLines a := by
  refine ⟨Tree.numbersLines, fun a b => ?append, fun a houtline => ⟨?_, ?_, ?_⟩⟩
  case append =>
    rw [Text.Utf8.encode_append, Text.lineCount_append_eq_iff, Text.endsLine_encode_iff,
      Text.Utf8.encode_eq_nil_iff, or_assoc]
  · exact fun source path mode found h => measuredIn_of_analyzeText houtline h
  · intro w path source mode found hsource h
    rw [analyzeFile_of_readText hsource] at h
    exact measuredIn_of_analyzeText houtline h
  · exact fun w root options report b h sources hsources => totalLines_of_run h hsources

/-- An analyzer that reads texts and makes a chunk of every definition. -/
def countingAnalyzer : Analyzer where
  config := {}
  parser := ⟨Python.readTree, ⟨{ patterns := [] }, ⟨[]⟩, Regex.isMatch⟩, .hybrid⟩

/-- Four lines: one with a lone carriage return in it, one empty, and one that is not ended. -/
def mixedText : String := "# é\rx\r\n\r\ndef f():\r\n    pass"

/-- A text without an outline, an empty one and the one with mixed line ends. -/
def countingWorkspace : Workspace where
  root := "/project"
  top := .directory [("broken.py", .file (Text.Utf8.encode "def broken(:\n    pass\n")),
    ("empty.py", .file []), ("main.py", .file (Text.Utf8.encode mixedText))]

/-- Texts without an outline count as well; the last line counts although it is not ended, and the
lone carriage return does not end one. -/
theorem lineNumbers_agree_mixed :
    KeepsSource countingAnalyzer.parser.outline ∧ ∃ report b,
      (Analyzer.analysis countingWorkspace "/project" {}).run countingAnalyzer =
          .ok (.ok report) b ∧
        report.statistics.totalLines = 6 ∧
        report.chunks.map (fun c => (c.startLine, c.endLine)) = [(3, 4)] := by
  have hkeeps : KeepsSource countingAnalyzer.parser.outline :=
    fun _ _ h => Python.source_of_readTree h
  have hroot : countingWorkspace.isDirectory "/project" = true := by decide +kernel
  have hlocate : countingWorkspace.locate "/project" = .ok ([], countingWorkspace.top) := rfl
  have hscan : scan countingWorkspace "/project" {} =
      ["/project/broken.py", "/project/empty.py", "/project/main.py"] := by
    rw [scan_of_directory hlocate, found_directory, inNameOrder_of_pairwise (by decide +kernel)]
    decide +kernel
  have hfits : Reportable (countingAnalyzer.outcomes countingWorkspace "/project" {}) := by
    rw [Analyzer.outcomes, hscan]
    exact ⟨by decide +kernel, by decide +kernel⟩
  have hrun := countingAnalyzer.run_analysis_eq hroot {}
  rw [reportOf_eq_ok_iff.2 ⟨hfits, rfl⟩] at hrun
  have htotal := (lineNumbers_agree.2.2 countingAnalyzer hkeeps).ofDirectory _ _ _ _ _ hrun
    ["def broken(:\n    pass\n", "", mixedText] (by
      rw [Analyzer.outcomes, hscan, List.filter_eq_self.2 (by decide +kernel),
        List.forall₂_map_left_iff]
      refine .cons ?_ (.cons ?_ (.cons ?_ .nil)) <;>
        exact Workspace.readText_eq_ok_iff.2 (by decide +kernel))
  refine ⟨hkeeps, _, _, hrun, htotal.trans (by decide +kernel), ?_⟩
  rw [Analyzer.outcomes, hscan]
  decide +kernel

end CodeAtlas.Project
