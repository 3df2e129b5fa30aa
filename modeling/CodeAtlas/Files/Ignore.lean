import CodeAtlas.Files.Glob
import CodeAtlas.Files.Tree
import CodeAtlas.Text.Blank
import CodeAtlas.Text.Lines

/-!
# Ignore files

Files that say which entries of the directories below are passed over. A line is a glob; an
exclamation mark in front keeps what it matches, and a slash at the end confines it to directories.
A glob with a slash elsewhere stands for the whole path below its directory, and any other one for
the last name. Of several lines that match the last one counts.

Entries are judged by the ignore files of their own directory and of all directories above. A
general ignore file always counts and wins over those of a repository, which count only inside one;
otherwise the deepest file with a line that matches wins.
-/

namespace CodeAtlas.Files

/-! ## Lines -/

/-- A line of an ignore file. -/
structure IgnoreRule where
  glob : Regex
  /-- Whether it keeps what it matches. -/
  keeps : Bool
  onlyDirectories : Bool
  deriving DecidableEq, Repr, Inhabited

/-- What is to be done with an entry. -/
inductive Verdict where
  | ignore
  | keep
  deriving DecidableEq, Repr, Inhabited

namespace IgnoreRule

/-- A line without the blanks at its end; a blank behind a backslash stays. -/
def trimmed (line : List Char) : List Char :=
  if ['\\', ' '].isSuffixOf line then line else Text.trimEnd line

/-- The glob of a line for whole paths: one without slashes may stand below any directories, and
two stars at the end do not stand for the directory itself. -/
def wholePath (isAnchored : Bool) (line : List Char) : List Char :=
  let anywhere := !isAnchored && !line.contains '/' && line != ['*', '*']
  let line := if anywhere then ['*', '*', '/'] ++ line else line
  if ['/', '*', '*'].isSuffixOf line then line ++ ['/', '*'] else line

/-- The rule of a glob, behind the marks at the start of a line. -/
def ofGlob? (keeps isAnchored : Bool) (line : List Char) : Option IgnoreRule :=
  let onlyDirectories := ['/'].isSuffixOf line
  let line := if onlyDirectories then line.dropLast else line
  let line := if onlyDirectories && ['\\'].isSuffixOf line then line.dropLast else line
  (Glob.ofText? (wholePath isAnchored line)).map (fun glob => ⟨glob, keeps, onlyDirectories⟩)

/-- The rule of a line. Comments, empty lines and malformed globs have none. -/
def ofLine? (line : List Char) : Option IgnoreRule :=
  if line.head? = some '#' then none
  else
    match trimmed line with
    | [] => none
    | '\\' :: '!' :: rest => ofGlob? false false ('!' :: rest)
    | '\\' :: '#' :: rest => ofGlob? false false ('#' :: rest)
    | '!' :: '/' :: rest => ofGlob? true true rest
    | '!' :: rest => ofGlob? true false rest
    | '/' :: rest => ofGlob? false true rest
    | line => ofGlob? false false line

/-- Whether the rule matches an entry by its path below the directory of the rule. -/
def matchesEntry (r : IgnoreRule) (path : String) (isDirectory : Bool) : Bool :=
  (isDirectory || !r.onlyDirectories) && Glob.isMatch r.glob path

/-- What the rule does with an entry that it matches. -/
def verdict (r : IgnoreRule) : Verdict := if r.keeps then .keep else .ignore

end IgnoreRule

/-! ## Files of rules -/

/-- The lines of a file up to the first one that is no text. -/
def textLines (bytes : List UInt8) : List (List Char) :=
  match Text.Utf8.decode bytes with
  | .ok text => Text.lines text
  | .error e =>
    match Text.Utf8.decode (bytes.take e.validBytes) with
    | .ok text => ((text.splitOn '\n').dropLast).map Text.dropReturn
    | .error _ => []

/-- The lines without a mark of the byte order in front. -/
def withoutOrderMark : List (List Char) → List (List Char)
  | [] => []
  | first :: rest => first.dropWhile (· == '\ufeff') :: rest

/-- The rules in the bytes of an ignore file. -/
def rulesOf (bytes : List UInt8) : List IgnoreRule :=
  (withoutOrderMark (textLines bytes)).filterMap IgnoreRule.ofLine?

/-- What rules say about an entry: what the last one that matches does. -/
def decideEntry (rules : List IgnoreRule) (path : String) (isDirectory : Bool) : Option Verdict :=
  (rules.reverse.find? (fun r => r.matchesEntry path isDirectory)).map IgnoreRule.verdict

/-! ## Directories with rules -/

/-- The rules of a directory. -/
structure IgnoreLevel where
  /-- The number of names that lead to the directory from the top. -/
  depth : Nat
  general : List IgnoreRule := []
  /-- The rules of the directory in a repository. -/
  shared : List IgnoreRule := []
  /-- The rules of a repository that are not shared. -/
  unshared : List IgnoreRule := []
  /-- Whether the directory is the top of a repository. -/
  isRepository : Bool := false
  deriving Inhabited

/-- The names, from a directory, of the files with its rules: those that always count, those of a
repository, and those of a repository that are not shared. -/
def rulePlaces : List (List String) := [[".ignore"], [".gitignore"], [".git", "info", "exclude"]]

/-- The last names of the files with rules. -/
def ignoreFileNames : List String := rulePlaces.filterMap List.getLast?

/-- The rules in a file that names lead to. -/
def rulesAt (e : Entry) (names : List String) : List IgnoreRule :=
  match follow [] [] e names with
  | .ok (_, .file bytes) => rulesOf bytes
  | _ => []

/-- The rules of a directory; those of repositories may be left out. -/
def IgnoreLevel.ofDirectory (withRepositories : Bool) (depth : Nat) (e : Entry) : IgnoreLevel :=
  let general := rulesAt e [".ignore"]
  if withRepositories then
    { depth, general
      shared := rulesAt e [".gitignore"]
      unshared := rulesAt e [".git", "info", "exclude"]
      isRepository := (e.child? ".git").isSome }
  else { depth, general }

/-- The path of an entry, by its names from the top, below the directory of some rules. -/
def IgnoreLevel.pathBelow (l : IgnoreLevel) (place : List String) : String :=
  "/".intercalate (place.drop l.depth)

/-- The first verdict of some kind of rules, from the deepest directory up. -/
def firstVerdict (rules : IgnoreLevel → List IgnoreRule) (place : List String)
    (isDirectory : Bool) (levels : List IgnoreLevel) : Option Verdict :=
  levels.findSome? (fun l => decideEntry (rules l) (l.pathBelow place) isDirectory)

/-- The directories up to the top of the innermost repository, if there is one. -/
def insideRepository (levels : List IgnoreLevel) : List IgnoreLevel :=
  if levels.any IgnoreLevel.isRepository then
    levels.takeWhile (fun l => !l.isRepository) ++ (levels.find? IgnoreLevel.isRepository).toList
  else []

/-- What the rules of all directories above say about an entry. The levels come deepest first. -/
def judge (levels : List IgnoreLevel) (place : List String) (isDirectory : Bool) :
    Option Verdict :=
  let inside := insideRepository levels
  (firstVerdict IgnoreLevel.general place isDirectory levels).or
    ((firstVerdict IgnoreLevel.shared place isDirectory inside).or
      (firstVerdict IgnoreLevel.unshared place isDirectory inside))

end CodeAtlas.Files
