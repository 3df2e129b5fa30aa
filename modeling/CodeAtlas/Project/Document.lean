import CodeAtlas.Project.Settings
import CodeAtlas.Toml.Reader

/-!
# Analysis settings as a document

The settings of an analysis in a TOML document. What is not there has its default value.
-/

namespace CodeAtlas.Project

/-- The name of an alternative, where a value is a record of that name only, without content. -/
def namedAlternative : Json → Json
  | .obj [(name, .obj [])] => .str name
  | .obj [(name, .arr [])] => .str name
  | v => v

/-- A record with a change in one member. -/
def changeMember (name : String) (change : Json → Json) : Json → Json
  | .obj fields => .obj (fields.map (fun e => (e.1, if e.1 == name then change e.2 else e.2)))
  | v => v

/-- The value of a document with its modes as strings, however they are written. -/
def plainModes (v : Json) : Json :=
  changeMember "chunker" (changeMember "mode" namedAlternative)
    (changeMember "mode" namedAlternative v)

namespace AnalyzerConfig

/-- The settings in a document, if they make sense. -/
def ofToml (text : String) : Except ProjectError AnalyzerConfig :=
  match (Toml.read? text).bind (fun v => ofJson? (plainModes v)) with
  | none => .error .configText
  | some config => config.validate.map (fun _ => config)

/-- The settings in a file. -/
def ofFile (w : Files.Workspace) (path : String) : Except ProjectError AnalyzerConfig := do
  ofToml (← (w.readText path).mapError ProjectError.unreadable)

end AnalyzerConfig

end CodeAtlas.Project
