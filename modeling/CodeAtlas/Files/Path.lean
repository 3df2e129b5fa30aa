/-!
# Paths

A path is a text whose components are separated by slashes. Empty components and single dots do
not count, except that a leading slash makes the path absolute. A path is looked up component by
component, where two dots lead to the directory above.
-/

namespace CodeAtlas.Files.Path

/-- The components that count. -/
def components (path : String) : List String :=
  ((path.toList.splitOn '/').filter (fun c => c ≠ [] ∧ c ≠ ['.'])).map String.ofList

/-- Whether a path starts at the root of all paths. -/
def isAbsolute (path : String) : Bool := path.toList.head? = some '/'

/-- A path below another one; an absolute one is taken as it is, and an empty one is the upper one
with a slash. -/
def join (base path : String) : String :=
  if isAbsolute path then path
  else if base.isEmpty then path
  else if base.toList.getLast? = some '/' then base ++ path
  else base ++ "/" ++ path

/-- The places that names lead over from a place, with the place itself in front. Two dots lead one
place up. -/
def placesOver (place : List String) : List String → List (List String)
  | [] => [place]
  | ".." :: rest => place :: placesOver place.dropLast rest
  | name :: rest => place :: placesOver (place ++ [name]) rest

/-- The name that a path ends in, unless it ends in two dots or has no components. -/
def fileName (path : String) : Option String :=
  match (components path).getLast? with
  | some ".." => none
  | name => name

/-- The part of a name in front of its last dot, and the part behind it. A dot at the start does not
count. -/
def splitExtension (name : String) : String × Option String :=
  let behind := (name.toList.reverse.takeWhile (· ≠ '.')).reverse
  let front := name.toList.take (name.toList.length - behind.length - 1)
  if front.isEmpty ∨ behind.length = name.toList.length then (name, none)
  else (String.ofList front, some (String.ofList behind))

/-- The name that a path ends in, without its extension. -/
def fileStem (path : String) : Option String := (fileName path).map (fun n => (splitExtension n).1)

/-- The extension of the name that a path ends in. -/
def extension (path : String) : Option String :=
  (fileName path).bind (fun n => (splitExtension n).2)

end CodeAtlas.Files.Path
