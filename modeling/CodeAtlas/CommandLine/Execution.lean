import CodeAtlas.CommandLine.Request
import CodeAtlas.Json.Printer
import CodeAtlas.Project.Document
import CodeAtlas.Python.Reader
import CodeAtlas.Report.Project

/-!
# Carrying out requests

A request turns the files of a workspace into a report, or fails with what was to be done and what
stood in its way. The configuration is read before anything else.

Main statement: `Request.report_of_bad_config`, without its configuration no request is carried out.
-/

namespace CodeAtlas.CommandLine

open CodeAtlas.Files (FileFault Workspace)
open CodeAtlas.Project

/-- What was to be done when something stood in its way. -/
inductive CommandError where
  | loadingConfig (path : String) (cause : ProjectError)
  /-- The settings themselves are refused. -/
  | settings (cause : ProjectError)
  | findingProject (cause : FileFault)
  | analyzing (root : String) (cause : ProjectError)
  | parsing (file : String) (cause : ProjectError)
  | chunking (file : String) (cause : ProjectError)
  deriving DecidableEq, Repr

namespace CommandError

/-- What was to be done. -/
def message : CommandError → String
  | loadingConfig path _ => "Failed to load config " ++ path
  | settings cause => cause.message
  | findingProject _ => "Invalid project path"
  | analyzing root _ => "Failed to analyze " ++ root
  | parsing file _ => "Failed to parse " ++ file
  | chunking file _ => "Failed to chunk " ++ file

/-- What stood in its way, unless the message says so already. -/
def cause? : CommandError → Option String
  | settings _ => none
  | findingProject cause => some cause.message
  | loadingConfig _ cause | analyzing _ cause | parsing _ cause | chunking _ cause =>
    some cause.message

end CommandError

/-- The settings of a request. -/
def loadConfig (w : Workspace) : Option String → Except CommandError AnalyzerConfig
  | none => .ok {}
  | some path => (AnalyzerConfig.ofFile w path).mapError (CommandError.loadingConfig path)

/-- An analyzer for source files in Python. -/
def createAnalyzer (config : AnalyzerConfig) : Except CommandError Analyzer :=
  (Analyzer.create Python.readTree config).mapError CommandError.settings

/-- Analyses a project, whose absolute name comes with the result. -/
def analyzeProject (w : Workspace) (a : Analyzer) (path : String) :
    Except CommandError (String × Analyzer × Except Overflow ProjectReport) := do
  let root ← (w.absoluteName path).mapError CommandError.findingProject
  let result ← (a.analyze w root a.config.scan).mapError (CommandError.analyzing root)
  return (root, result)

/-- Carries out a command with an analyzer whose stores are empty. -/
def Command.report (w : Workspace) (a : Analyzer) :
    Command → Except CommandError (Except Overflow Json)
  | analyze path full => do
    let (root, a, result) ← analyzeProject w a path
    return result.bind (fun result => Report.analysis root a result full)
  | parse file mode => do
    let (_, found) ← (a.analyzeFile w file mode).mapError (CommandError.parsing file)
    return Report.file file mode found
  | cycles path detector => do
    let (_, a, result) ← analyzeProject w (a.setDetector detector) path
    return result.map (fun _ => Report.cycles a)
  | search path query => do
    let (_, a, result) ← analyzeProject w a path
    return result.bind (fun _ => Report.matching query (a.search query))
  | chunks file filter => do
    let chunks ← (a.chunksOfFile w file filter).mapError (CommandError.chunking file)
    return Report.fileChunks file filter chunks

/-- Carries out a request. -/
def Request.report (w : Workspace) (r : Request) : Except CommandError (Except Overflow Json) := do
  let config ← loadConfig w r.config
  let analyzer ← createAnalyzer config
  r.command.report w analyzer

theorem Request.report_of_bad_config {w : Workspace} {path : String} {cause : ProjectError}
    (h : AnalyzerConfig.ofFile w path = .error cause) (command : Command) :
    Request.report w ⟨command, some path⟩ = .error (.loadingConfig path cause) := by
  simp only [Request.report, loadConfig, h]
  rfl

/-! ## What is printed -/

/-- The text that tells the version. -/
def versionText : String := "codescope 0.1.1\n"

/-- What a command line leads to. -/
inductive Outcome where
  /-- The words are no command. -/
  | misused (error : UsageError)
  | failed (error : CommandError)
  /-- The program stops because a number leaves its register. -/
  | stopped (fault : Overflow)
  | reported (report : Json)
  | version

/-- What a command line leads to, once its words are read. -/
def outcomeOf (w : Workspace) : Except UsageError Invocation → Outcome
  | .error e => .misused e
  | .ok .version => .version
  | .ok (.run request) =>
    match request.report w with
    | .error e => .failed e
    | .ok (.error fault) => .stopped fault
    | .ok (.ok report) => .reported report

/-- What a command line leads to, with the files of a workspace. -/
def outcome (w : Workspace) (words : List String) : Outcome :=
  outcomeOf w (Invocation.ofWords words)

namespace Outcome

/-- The exit code. -/
def exitCode : Outcome → UInt32
  | reported _ | version => 0
  | failed _ => 1
  | misused _ => 2
  | stopped _ => 101

/-- What goes to the standard output. -/
def output : Outcome → String
  | reported report => report.pretty ++ "\n"
  | version => versionText
  | failed _ | misused _ | stopped _ => ""

/-- What goes to the standard error output. -/
def complaint : Outcome → String
  | reported _ | version => ""
  | failed e =>
    "Error: " ++ e.message ++ "\n" ++
      match e.cause? with
      | none => ""
      | some cause => "\nCaused by:\n    " ++ cause ++ "\n"
  | misused e => "error: " ++ e.message ++ "\n"
  | stopped fault => fault.message ++ "\n"

end Outcome

end CodeAtlas.CommandLine
