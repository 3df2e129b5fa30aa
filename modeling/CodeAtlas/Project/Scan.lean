import CodeAtlas.Files.Ignore
import CodeAtlas.Project.Config
import CodeAtlas.Text.Search

/-!
# Scanning a directory

The source files below a directory, in the order of the names on the way to them. Hidden names are
passed over unless an ignore file keeps them, and so are the directories of tools and of installed
packages, whatever is in them. The scan options leave out more files.

Main statement: `found_directory`, what is found in a directory is what is found among its entries,
in the order of their names.
-/

namespace CodeAtlas.Project

open CodeAtlas.Files

/-! ## Names -/

/-- The names, in small letters, of directories that hold no sources of a project. -/
def ignoredScopes : List String := [
  ".git", ".hg", ".svn", "__pycache__", ".venv", "venv", ".tox", ".nox", ".mypy_cache",
  ".pytest_cache", ".ruff_cache", "site-packages", "node_modules"]

/-- Whether a name is that of a directory without sources. -/
def isIgnoredScope (name : String) : Bool :=
  ignoredScopes.contains (String.ofList (Text.lowercase name.toList))

/-- Whether a name is hidden. -/
def isHidden (name : String) : Bool := ['.'].isPrefixOf name.toList

/-- Whether a path ends in the name of a source file. -/
def isSourceFile (path : String) : Bool :=
  (Path.extension path).any (fun e => Text.asciiLowercase e.toList == ['p', 'y'])

/-- Whether a scan may depend on the bytes of a file of some name. -/
def countsForScan (name : String) : Bool := isSourceFile name || ignoreFileNames.contains name

/-- The texts that are part of the paths of tests. -/
def testMarks : List String := ["test_", "_test.py", "tests/"]

/-- The texts that are part of the paths of documentation. -/
def docMarks : List String := ["docs/", "documentation/", "README"]

namespace ScanOptions

/-- Whether a file is wanted, by its path below the root of the scan and its size. -/
def admits (o : ScanOptions) (relative : String) (size : Nat) : Bool :=
  o.maxFileSize.all (fun limit => size ≤ limit) &&
    !o.excludePatterns.any (Text.contains relative) &&
    (o.includeTests || !testMarks.any (Text.contains relative)) &&
    (o.includeDocs || !docMarks.any (Text.contains relative))

end ScanOptions

/-! ## Walking -/

/-- Where a walk is: the rules of the directories above, deepest first, the names from the top, and
the names from the root of the scan. -/
structure WalkPlace where
  levels : List IgnoreLevel
  fromTop : List String
  fromRoot : List String

/-- The place of an entry. -/
def WalkPlace.enter (p : WalkPlace) (name : String) : WalkPlace :=
  { p with fromTop := p.fromTop ++ [name], fromRoot := p.fromRoot ++ [name] }

/-- Whether an entry is passed over: an ignore file says so, or none says anything and its name is
hidden, or it is a directory without sources. -/
def isSkipped (p : WalkPlace) (name : String) (isDirectory : Bool) : Bool :=
  isIgnoredScope name ||
    match judge p.levels p.fromTop isDirectory with
    | some .ignore => true
    | some .keep => false
    | none => isHidden name

/-- What is found at each name, in the order of the names. -/
def inNameOrder (found : List (String × List (List String))) : List (List String) :=
  (found.mergeSort (fun a b => decide (a.1 ≤ b.1))).flatMap Prod.snd

mutual

/-- The names from the root of the scan to each file that is found in an entry. -/
def found (o : ScanOptions) (p : WalkPlace) : Entry → List (List String)
  | .file bytes =>
    let relative := "/".intercalate p.fromRoot
    if isSourceFile relative && o.admits relative bytes.length then [p.fromRoot] else []
  | .directory entries =>
    let level := IgnoreLevel.ofDirectory o.respectGitignore p.fromTop.length (.directory entries)
    inNameOrder (foundAmong o { p with levels := level :: p.levels } entries)

/-- What is found at each name of a directory. -/
def foundAmong (o : ScanOptions) (p : WalkPlace) :
    List (String × Entry) → List (String × List (List String))
  | [] => []
  | (name, e) :: rest =>
    let inside := p.enter name
    (name, if isSkipped inside name e.isDirectory then [] else found o inside e) ::
      foundAmong o p rest

end

/-- The rules of the directories on the way to a place, deepest first. -/
def levelsAbove (o : ScanOptions) (depth : Nat) (levels : List IgnoreLevel) (e : Entry) :
    List String → List IgnoreLevel
  | [] => levels
  | name :: rest =>
    let level := IgnoreLevel.ofDirectory o.respectGitignore depth e
    levelsAbove o (depth + 1) (level :: levels) ((e.child? name).getD (.directory [])) rest

/-- The paths of the source files below a directory, in the order of their names. A file is visited
itself. -/
def scan (w : Workspace) (root : String) (o : ScanOptions) : List String :=
  match w.locate root with
  | .error _ => []
  | .ok (_, .file bytes) => if isSourceFile root && o.admits "" bytes.length then [root] else []
  | .ok (place, .directory entries) =>
    (found o ⟨levelsAbove o 0 [] w.top place, place, []⟩ (.directory entries)).map
      (fun names => names.foldl Path.join root)

/-! ## Laws -/

theorem found_directory (o : ScanOptions) (p : WalkPlace) (entries : List (String × Entry)) :
    found o p (.directory entries) =
      inNameOrder (foundAmong o
        { p with
          levels := IgnoreLevel.ofDirectory o.respectGitignore p.fromTop.length
            (.directory entries) :: p.levels } entries) := by
  simp [found]

/-- What is found in the order of the names stays in that order. -/
theorem inNameOrder_of_pairwise {found : List (String × List (List String))}
    (h : found.Pairwise (fun a b => a.1 ≤ b.1)) : inNameOrder found = found.flatMap Prod.snd := by
  rw [inNameOrder, List.mergeSort_of_pairwise]
  exact h.imp (fun hle => decide_eq_true hle)

theorem scan_of_directory {w : Workspace} {root : String} {place : List String}
    {entries : List (String × Entry)} (h : w.locate root = .ok (place, .directory entries))
    (o : ScanOptions) :
    scan w root o =
      (found o ⟨levelsAbove o 0 [] w.top place, place, []⟩ (.directory entries)).map
        (fun names => names.foldl Path.join root) := by
  simp [scan, h]

end CodeAtlas.Project
