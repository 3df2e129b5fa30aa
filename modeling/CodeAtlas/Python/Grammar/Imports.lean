import CodeAtlas.Python.Grammar.Basic

/-!
# Imports

The three kinds of import statements: of modules, of names from a module, and of features of the
language to come.
-/

namespace CodeAtlas.Python.Grammar

open CodeAtlas.Parser (many)

/-- One more part of a dotted name, if there is one. -/
def dottedPart? : Reader (Option Concrete) := do
  match ← symbol? "." with
  | some _ => return some (← name)
  | none => return none

/-- A dotted name. -/
def dottedName (limit : Nat) : Reader Concrete := do
  let first ← name
  let rest ← many limit dottedPart?
  return node .dottedName (extentOf first rest) (first :: rest)

/-- An imported name, which may get another name. -/
def importedName (limit : Nat) : Reader Concrete := do
  let imported ← dottedName limit
  match ← word? "as" with
  | none => return imported.withRole .name
  | some _ =>
    let newName ← name
    return (node .aliasedImport (across imported.extent newName.extent)
      [imported.withRole .name, newName.withRole .newName]).withRole .name

/-- Imported names with the end of the last one, of the comma or of the bracket behind it. -/
structure ImportedNames where
  names : List Concrete
  stop : Extent

/-- Imported names in a row. -/
def importedNames (limit : Nat) : Reader ImportedNames := do
  let first ← importedName limit
  let rest ← many limit (itemAfterComma Token.isName (importedName limit))
  let last := (extentOf first rest)
  return ⟨first :: rest, ((← symbol? ",").map Token.extent).getD last⟩

/-- Imported names that may stand in round brackets. -/
def bracketedNames (limit : Nat) : Reader ImportedNames := do
  joinLine
  match ← symbol? "(" with
  | some _ =>
    let items ← importedNames limit
    let close ← symbol ")"
    return { items with stop := close.extent }
  | none => importedNames limit

/-- What is imported from a module: names, or all of it. -/
def importedItems (limit : Nat) : Reader ImportedNames := do
  joinLine
  match ← symbol? "*" with
  | some star => return ⟨[leaf .wildcardImport star], star.extent⟩
  | none => bracketedNames limit

/-- The import of modules. -/
def importStatement (limit : Nat) : Reader Concrete := do
  let start ← word "import"
  let items ← importedNames limit
  return node .importStatement (across start.extent items.stop) items.names

/-- Leading dots, of which there may be three in one symbol. -/
def leadingDots? : Reader (Option Token) := token? (fun t => t.isSymbol "." || t.isSymbol "...")

/-- The module that names are imported from. -/
def importSource (limit : Nat) : Reader Concrete := do
  match ← many limit leadingDots? with
  | [] => dottedName limit
  | first :: rest =>
    let dots := across first.extent (rest.getLast?.getD first).extent
    if ← atWord "import" then return node .relativeImport dots []
    else
      let base ← dottedName limit
      return node .relativeImport (across dots base.extent) [base]

/-- The import of names from a module. The module that holds features of the language to come has
a construct of its own, and not all of it can be imported. -/
def importFromStatement (limit : Nat) : Reader Concrete := do
  let start ← word "from"
  match ← joiningLines (word? "__future__") with
  | some _ =>
    let _ ← word "import"
    let items ← bracketedNames limit
    return node .futureImportStatement (across start.extent items.stop) items.names
  | none =>
    let source ← joiningLines (importSource limit)
    let _ ← word "import"
    let items ← importedItems limit
    return node .importFromStatement (across start.extent items.stop)
      (source.withRole .moduleName :: items.names)

end CodeAtlas.Python.Grammar
