import CodeAtlas.CommandLine.Execution

/-!
# The command line

Loads the part of the file system that a request may depend on, carries the request out on it, and
prints what comes of it.
-/

namespace CodeAtlas.CommandLine

open CodeAtlas.Files (Entry Workspace)
open CodeAtlas.Project (countsForScan)

/-- Runs an action on files that may not be there or not be readable. -/
def attempt {α : Type} (action : IO α) : IO (Option α) :=
  try some <$> action catch _ => pure none

/-- The path of the place that names lead to from the top of the file system. -/
def systemPath (place : List String) : String := "/" ++ "/".intercalate place

/-- What is at a place. -/
def kindAt (place : List String) : IO (Option IO.FS.FileType) := do
  let here ← IO.currentDir
  return (← attempt (here.join (systemPath place)).metadata).map (fun m => m.type)

/-- The file at a place. -/
def loadFile (place : List String) : IO (Option Entry) :=
  attempt (return .file (← IO.FS.readBinFile (systemPath place)).toList)

/-- What is at an entry of the file system. The bytes of files that no scan depends on are left out,
and links are passed over. -/
partial def loadTree (d : IO.FS.DirEntry) : IO (Option Entry) := do
  let kind : Option IO.FS.FileType := (← attempt d.path.symlinkMetadata).map (fun m => m.type)
  match kind with
  | some .dir =>
    let inside ← attempt d.path.readDir
    let entries ← (inside.getD #[]).toList.filterMapM (fun c => do
      return (← loadTree c).map (fun e => (c.fileName, e)))
    return some (.directory entries)
  | some .file =>
    if countsForScan d.fileName then
      attempt (return .file (← IO.FS.readBinFile d.path).toList)
    else return some (.file [])
  | _ => return none

/-- The tree with the file at a place, if there is one. -/
def addFile (top : Entry) (place : List String) : IO Entry := do
  match ← loadFile place with
  | some e => return top.insert e place
  | none => return top

/-- The tree with what is at a place, if there is anything. A directory comes with the rules for what
is below it. -/
def addPlace (top : Entry) (place : List String) : IO Entry := do
  match ← kindAt place with
  | some .dir =>
    let top := top.insert (.directory []) place
    let isRepository := (← kindAt (place ++ [".git"])).isSome
    let top := if isRepository then top.insert (.directory []) (place ++ [".git"]) else top
    Files.rulePlaces.foldlM (fun top names => addFile top (place ++ names)) top
  | some _ => addFile top place
  | none => return top

/-- The tree with everything at a place that a scan may depend on. -/
def addTree (top : Entry) (place : List String) : IO Entry := do
  let here ← IO.currentDir
  match ← attempt (here.join (systemPath place)).readDir with
  | none => return top
  | some inside =>
    inside.foldlM (fun top c => do
      match ← loadTree c with
      | some e => return top.insert e (place ++ [c.fileName])
      | none => return top) (top.insert (.directory []) place)

/-- The part of the file system that a request may depend on. -/
def loadWorkspace (r : Request) : IO Workspace := do
  let home := Files.Path.components (← IO.currentDir).toString
  let places (path : String) :=
    Files.Path.placesOver []
      ((if Files.Path.isAbsolute path then [] else home) ++ Files.Path.components path)
  let target := (places r.command.path).getLastD []
  let top ← if r.command.isProjectWide then addTree (.directory []) target
    else pure (.directory [])
  let top ← (places r.command.path ++ r.config.toList.flatMap places).foldlM addPlace top
  return ⟨"/", top, home⟩

end CodeAtlas.CommandLine

open CodeAtlas.CommandLine in
/-- Runs the program on the words of its command line. -/
def main (words : List String) : IO UInt32 := do
  let invocation := Invocation.ofWords words
  let w ← match invocation with
    | .ok (.run request) => loadWorkspace request
    | _ => pure default
  let o := outcomeOf w invocation
  IO.print o.output
  IO.eprint o.complaint
  return o.exitCode
