import CodeAtlas.Files.Path
import CodeAtlas.Text.Utf8

/-!
# Trees of files

Files and directories below a top directory, and what paths lead to. A path is followed component by
component from the top or from the home directory; two dots lead to the directory above.

Main statements: `Entry.child?_setChild`, what is put under a name is found there; `follow_nil`, a
path without components leads to where it starts.
-/

namespace CodeAtlas.Files

/-- A file with its bytes, or a directory with what it holds. -/
inductive Entry where
  | file (bytes : List UInt8)
  | directory (entries : List (String × Entry))
  deriving Inhabited

/-- Why a file cannot be read. -/
inductive FileFault where
  | missing
  /-- A file stands where the path goes on. -/
  | belowFile
  /-- The path leads to a directory. -/
  | isDirectory
  | notText
  deriving DecidableEq, Repr, Inhabited

/-- The wording of the fault. -/
def FileFault.message : FileFault → String
  | missing => "No such file or directory (os error 2)"
  | belowFile => "Not a directory (os error 20)"
  | isDirectory => "Is a directory (os error 21)"
  | notText => "stream did not contain valid UTF-8"

namespace Entry

/-- The entries of a directory; a file holds none. -/
def entries : Entry → List (String × Entry)
  | file _ => []
  | directory es => es

/-- The entry of a name in a directory. -/
def child? (e : Entry) (name : String) : Option Entry :=
  (e.entries.find? (fun c => c.1 == name)).map Prod.snd

/-- Whether the entry is a directory. -/
def isDirectory : Entry → Bool
  | file _ => false
  | directory _ => true

/-- The directory with an entry under a name, in place of one that is there. -/
def setChild (e : Entry) (name : String) (child : Entry) : Entry :=
  if e.entries.any (fun c => c.1 == name) then
    directory (e.entries.map (fun c => if c.1 == name then (name, child) else c))
  else directory (e.entries ++ [(name, child)])

/-- The directory with the entries of another one as well. -/
def addEntries (e other : Entry) : Entry := other.entries.foldl (fun d c => d.setChild c.1 c.2) e

/-- The directory with an entry at the end of some names; directories on the way are made. A new
directory adds its entries to one that is there. -/
def insert (e : Entry) (new : Entry) : List String → Entry
  | [] => if new.isDirectory && e.isDirectory then e.addEntries new else new
  | name :: rest => e.setChild name (((e.child? name).getD (directory [])).insert new rest)

theorem find?_replaced (name : String) (child : Entry) {es : List (String × Entry)}
    (h : es.any (fun c => c.1 == name) = true) :
    (es.map (fun c => if c.1 == name then (name, child) else c)).find? (fun c => c.1 == name) =
      some (name, child) := by
  induction es with
  | nil => simp at h
  | cons c rest ih =>
    by_cases hc : c.1 = name
    · simp [hc]
    · have rest_has : rest.any (fun c => c.1 == name) = true := by simpa [hc] using h
      simpa [hc] using ih rest_has

theorem child?_setChild (e : Entry) (name : String) (child : Entry) :
    (e.setChild name child).child? name = some child := by
  unfold setChild
  split
  · next h => rw [child?, entries, find?_replaced name child h, Option.map_some]
  · next h =>
    have : e.entries.find? (fun c => c.1 == name) = none := by
      rw [List.find?_eq_none]
      intro c hc eq
      exact h (List.any_eq_true.mpr ⟨c, hc, eq⟩)
    rw [child?, entries, List.find?_append, this]
    simp

end Entry

/-- The entry that names lead to from an entry, with the names on the way to it from the top. The
names and the directories above come nearest first. -/
def follow (place : List String) (above : List Entry) (e : Entry) :
    List String → Except FileFault (List String × Entry)
  | [] => .ok (place.reverse, e)
  | name :: rest =>
    match e with
    | .file _ => .error .belowFile
    | .directory _ =>
      if name = ".." then
        match above with
        | [] => .error .missing
        | d :: ds => follow place.tail ds d rest
      else
        match e.child? name with
        | none => .error .missing
        | some child => follow (name :: place) (e :: above) child rest

theorem follow_nil (place : List String) (above : List Entry) (e : Entry) :
    follow place above e [] = .ok (place.reverse, e) :=
  rfl

/-- A tree of files with the directory that relative paths start from. -/
structure Workspace where
  /-- The absolute name of the top directory. -/
  root : String
  top : Entry
  /-- The names that lead to the home directory. -/
  home : List String := []
  deriving Inhabited

namespace Workspace

/-- The absolute name of the top directory with a slash behind it. -/
def rootSlash (w : Workspace) : List Char :=
  if w.root.toList.getLast? = some '/' then w.root.toList else w.root.toList ++ ['/']

/-- The names that a path goes over from the top; an absolute path may lie outside. -/
def namesFromTop (w : Workspace) (path : String) : Option (List String) :=
  if path = w.root then some []
  else if w.rootSlash.isPrefixOf path.toList then
    some (Path.components (String.ofList (path.toList.drop w.rootSlash.length)))
  else if Path.isAbsolute path then none
  else some (w.home ++ Path.components path)

/-- Whether a path says by its end that it leads to a directory. -/
def asksForDirectory (path : String) : Bool :=
  ['/'].isSuffixOf path.toList || ['/', '.'].isSuffixOf path.toList

/-- What a path leads to, with the names on the way to it from the top. -/
def locate (w : Workspace) (path : String) : Except FileFault (List String × Entry) :=
  if path.isEmpty then .error .missing
  else
    match w.namesFromTop path with
    | none => .error .missing
    | some names => do
      let (place, e) ← follow [] [] w.top names
      if asksForDirectory path && !e.isDirectory then .error .belowFile
      else .ok (place, e)

/-- Whether a path leads to a directory. -/
def isDirectory (w : Workspace) (path : String) : Bool :=
  match w.locate path with
  | .ok (_, e) => e.isDirectory
  | .error _ => false

/-- Whether a path leads to a file. -/
def isFile (w : Workspace) (path : String) : Bool :=
  match w.locate path with
  | .ok (_, e) => !e.isDirectory
  | .error _ => false

/-- The bytes of the file that a path leads to. -/
def read (w : Workspace) (path : String) : Except FileFault (List UInt8) := do
  let (_, e) ← w.locate path
  match e with
  | .file bytes => .ok bytes
  | .directory _ => .error .isDirectory

/-- The text of the file that a path leads to. -/
def readText (w : Workspace) (path : String) : Except FileFault String := do
  match Text.Utf8.decode (← w.read path) with
  | .ok source => .ok (String.ofList source)
  | .error _ => .error .notText

/-- The absolute name of what a path leads to, without dots. -/
def absoluteName (w : Workspace) (path : String) : Except FileFault String := do
  let (place, _) ← w.locate path
  if place.isEmpty then .ok w.root
  else .ok (String.ofList w.rootSlash ++ "/".intercalate place)

end Workspace

end CodeAtlas.Files
