import CodeAtlas.CommandLine.Words
import CodeAtlas.Graph.Cycles
import CodeAtlas.Project.Config

/-!
# Requests on a command line

What a command line asks for. The options in front of a command and those behind it are read on their
own, and of two configuration files the one behind the command counts. How much is logged is
accepted everywhere and changes no report.

Main statement: `Invocation.ofWords_words`, a request is read back from its words.
-/

namespace CodeAtlas.CommandLine

open CodeAtlas.Graph (CycleDetector)
open CodeAtlas.Project (AnalysisMode ChunkFilter)

/-- What is to be done. -/
inductive Command where
  /-- Analyse a project, and list what was found if it is to be `full`. -/
  | analyze (path : String) (full : Bool)
  | parse (file : String) (mode : AnalysisMode)
  | cycles (path : String) (detector : CycleDetector)
  | search (path query : String)
  | chunks (file : String) (filter : Option ChunkFilter)
  deriving DecidableEq, Repr

/-- The file or directory that a command names. -/
def Command.path : Command → String
  | analyze path _ | parse path _ | cycles path _ | search path _ | chunks path _ => path

/-- Whether a command goes through all files of a project. -/
def Command.isProjectWide : Command → Bool
  | analyze _ _ | cycles _ _ | search _ _ => true
  | parse _ _ | chunks _ _ => false

/-- A command, and the file with the settings that it is carried out with. -/
structure Request where
  command : Command
  config : Option String := none
  deriving DecidableEq, Repr

/-- What a command line asks for. -/
inductive Invocation where
  | version
  | run (request : Request)
  deriving DecidableEq, Repr

/-! ## Forms of commands -/

/-- The name of the option for the configuration file. -/
def configOption : String := "config"

/-- The options that are understood in front of a command and behind it. -/
def commonOptions : List OptionForm := [
  { name := configOption, accepts := some (fun v => !v.isEmpty) },
  { name := "verbose", letter := some 'v' },
  { name := "quiet", letter := some 'q' }]

/-- The name of the option that asks for the version. -/
def versionOption : String := "version"

/-- The options that are understood in front of a command. -/
def leadingOptions : List OptionForm :=
  commonOptions ++ [{ name := versionOption, letter := some 'V', endsReading := true }]

/-- The operand of a command that has only one. -/
def Given.operand (g : Given) (name : String) : Except UsageError String :=
  match g.operands with
  | [] => .error (.missingOperand name)
  | [operand] => if operand.isEmpty then .error (.unfitOperand name) else .ok operand
  | _ :: further :: _ => .error (.furtherOperand further)

/-- The operands of a search: a path and what is searched for, which may be empty. -/
def Given.searchOperands (g : Given) : Except UsageError (String × String) :=
  match g.operands with
  | [] => .error (.missingOperand "path")
  | [_] => .error (.missingOperand "query")
  | [path, query] => if path.isEmpty then .error (.unfitOperand "path") else .ok (path, query)
  | _ :: _ :: further :: _ => .error (.furtherOperand further)

/-- The form of a command: its options besides the common ones, and what its words mean. -/
structure CommandForm where
  options : List OptionForm := []
  meaning : Given → Except UsageError Command

/-- The form of the command of a name. -/
def CommandForm.ofName? : String → Option CommandForm
  | "analyze" => some {
      options := [{ name := "full" }]
      meaning := fun g =>
        (g.operand "path").map (fun path => .analyze path (g.has "full")) }
  | "parse" => some {
      options := [{ name := "mode", accepts := some (fun v => (AnalysisMode.ofLabel? v).isSome) }]
      meaning := fun g =>
        let mode := (g.value? "mode").bind AnalysisMode.ofLabel?
        (g.operand "file").map (fun file => .parse file (mode.getD .hybrid)) }
  | "cycles" => some {
      options := [{ name := "tarjan" }]
      meaning := fun g =>
        let detector := if g.has "tarjan" then .components else .pathSearch
        (g.operand "path").map (fun path => .cycles path detector) }
  | "search" => some {
      meaning := fun g => g.searchOperands.map (fun (path, query) => .search path query) }
  | "chunks" => some {
      options := [{ name := "kind", accepts := some (fun v => (ChunkFilter.ofLabel? v).isSome) }]
      meaning := fun g =>
        let filter := (g.value? "kind").bind ChunkFilter.ofLabel?
        (g.operand "file").map (fun file => .chunks file filter) }
  | _ => none

/-- The request in the words behind the name of a command. -/
def CommandForm.request (form : CommandForm) (leading : Given) (words : List String) :
    Except UsageError Request := do
  let (given, _) ← readWords (form.options ++ commonOptions) false {} words
  let command ← form.meaning given
  return { command, config := given.value? configOption <|> leading.value? configOption }

namespace Invocation

/-- What a command line asks for. -/
def ofWords (words : List String) : Except UsageError Invocation := do
  let (leading, rest) ← readWords leadingOptions true {} words
  if leading.has versionOption then return .version
  match rest with
  | [] => .error .missingCommand
  | name :: rest =>
    match CommandForm.ofName? name with
    | none => .error (.unknownCommand name)
    | some form => return .run (← form.request leading rest)

end Invocation

/-! ## Words of requests -/

/-- The words of a command. Operands stand behind two dashes, so that they may start with one. -/
def Command.words : Command → List String
  | analyze path full => ["analyze"] ++ (if full then ["--full"] else []) ++ ["--", path]
  | parse file mode => ["parse", "--mode", mode.label, "--", file]
  | cycles path detector =>
    ["cycles"] ++ (if detector = .components then ["--tarjan"] else []) ++ ["--", path]
  | search path query => ["search", "--", path, query]
  | chunks file none => ["chunks", "--", file]
  | chunks file (some filter) => ["chunks", "--kind", filter.label, "--", file]

/-- The words of a request. -/
def Request.words (r : Request) : List String :=
  match r.config with
  | none => r.command.words
  | some path => ("--config=" ++ path) :: r.command.words

theorem ofString_config (path : String) :
    Word.ofString ("--config=" ++ path) = .option configOption (some path) := by
  simp [Word.ofString, configOption]

/-- What the words in front of a command give. -/
def leadingGiven : Option String → Given
  | none => {}
  | some path => { options := [(configOption, path)] }

theorem leadingGiven_version (config : Option String) :
    (leadingGiven config).has versionOption = false := by
  cases config <;> rfl

theorem leadingGiven_config (config : Option String) :
    (leadingGiven config).value? configOption = config := by
  cases config <;> rfl

theorem readWords_leading {r : Request} {name : String} {rest : List String}
    (hw : r.command.words = name :: rest) (hn : Word.ofString name = .operand name)
    (hr : r.config ≠ some "") :
    readWords leadingOptions true {} r.words = .ok (leadingGiven r.config, name :: rest) := by
  obtain ⟨command, config⟩ := r
  cases config with
  | none => simp_all [Request.words, readWords, leadingGiven]
  | some path =>
    have : path.isEmpty = false := by simpa using hr
    simp_all [Request.words, readWords, leadingGiven, ofString_config, leadingOptions,
      commonOptions, configOption, Given.addValue, Given.add, Given.has]
    rfl

theorem ofWords_of_form {command : Command} {config : Option String} {name : String}
    {rest : List String} {form : CommandForm} (given : Given) (hr : config ≠ some "")
    (hw : command.words = name :: rest) (hn : Word.ofString name = .operand name)
    (hf : CommandForm.ofName? name = some form)
    (hg : readWords (form.options ++ commonOptions) false {} rest = .ok (given, []))
    (ho : given.value? configOption = none) (hc : form.meaning given = .ok command) :
    Invocation.ofWords (Request.words ⟨command, config⟩) = .ok (.run ⟨command, config⟩) := by
  rw [Invocation.ofWords, readWords_leading hw hn hr]
  simp [bind, Except.bind, leadingGiven_version, leadingGiven_config, hf, CommandForm.request, hg,
    hc, ho, pure, Except.pure]

theorem operand_of_single {path : String} (h : path ≠ "") (options : List (String × String))
    (name : String) : Given.operand ⟨options, [path]⟩ name = .ok path := by
  simp [Given.operand, h]

theorem searchOperands_of_pair {path : String} (h : path ≠ "") (options : List (String × String))
    (query : String) : Given.searchOperands ⟨options, [path, query]⟩ = .ok (path, query) := by
  simp [Given.searchOperands, h]

/-- A request whose paths are not empty is read back from its words. -/
theorem Invocation.ofWords_words {r : Request} (hc : r.command.path ≠ "")
    (hr : r.config ≠ some "") : Invocation.ofWords r.words = .ok (.run r) := by
  obtain ⟨command, config⟩ := r
  cases command with
  | analyze path full =>
    cases full
    · exact ofWords_of_form ⟨[], [path]⟩ hr rfl rfl rfl rfl rfl
        (congrArg (Except.map _) (operand_of_single hc _ _))
    · exact ofWords_of_form ⟨[("full", "")], [path]⟩ hr rfl rfl rfl rfl rfl
        (congrArg (Except.map _) (operand_of_single hc _ _))
  | parse file mode =>
    cases mode <;>
      exact ofWords_of_form ⟨[("mode", _)], [file]⟩ hr rfl rfl rfl rfl rfl
        (congrArg (Except.map _) (operand_of_single hc _ _))
  | cycles path detector =>
    cases detector
    · exact ofWords_of_form ⟨[], [path]⟩ hr rfl rfl rfl rfl rfl
        (congrArg (Except.map _) (operand_of_single hc _ _))
    · exact ofWords_of_form ⟨[("tarjan", "")], [path]⟩ hr rfl rfl rfl rfl rfl
        (congrArg (Except.map _) (operand_of_single hc _ _))
  | search path query =>
    exact ofWords_of_form ⟨[], [path, query]⟩ hr rfl rfl rfl rfl rfl
      (congrArg (Except.map _) (searchOperands_of_pair hc _ _))
  | chunks file filter =>
    rcases filter with _ | _ | _
    · exact ofWords_of_form ⟨[], [file]⟩ hr rfl rfl rfl rfl rfl
        (congrArg (Except.map _) (operand_of_single hc _ _))
    · exact ofWords_of_form ⟨[("kind", "semantic")], [file]⟩ hr rfl rfl rfl rfl rfl
        (congrArg (Except.map _) (operand_of_single hc _ _))
    · exact ofWords_of_form ⟨[("kind", "structural")], [file]⟩ hr rfl rfl rfl rfl rfl
        (congrArg (Except.map _) (operand_of_single hc _ _))

end CodeAtlas.CommandLine
