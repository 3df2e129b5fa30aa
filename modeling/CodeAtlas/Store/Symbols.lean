import CodeAtlas.Analysis.Symbol
import CodeAtlas.Store.Handle
import CodeAtlas.Store.Index
import CodeAtlas.Store.Task

/-!
# The symbol store

Symbols by key. Saving a symbol under a key that is taken replaces the symbol and keeps its handle.
Beside the symbols the store keeps who refers to which key; these references outlive the symbols
and go only when the store is cleared.
-/

namespace CodeAtlas.Store

open CodeAtlas.Analysis

/-- A handle of the symbol store. -/
abbrev SymbolHandle := Handle .symbol

/-- Symbols with their handles, indices and references. -/
structure SymbolStore where
  symbols : Table SymbolHandle Symbol := ∅
  handles : Table String SymbolHandle := ∅
  byName : Index String SymbolHandle := {}
  byKind : Index SymbolKind SymbolHandle := {}
  byModule : Index String SymbolHandle := {}
  byFile : Index String SymbolHandle := {}
  references : Table String (List String) := ∅
  nextNumber : Nat := 0
  deriving Inhabited

/-- Counts of the symbols in a store. -/
structure SymbolStatistics where
  totalSymbols : Nat
  byKind : List (String × Nat)
  byModule : List (String × Nat)
  byFile : List (String × Nat)
  unusedCount : Nat
  deriving DecidableEq, Repr, Inhabited

namespace SymbolStore

/-- The store without symbols. -/
def empty : SymbolStore := {}

/-- Adds a symbol to all indices. -/
def index (s : SymbolStore) (h : SymbolHandle) (x : Symbol) : SymbolStore :=
  { s with
    byName := s.byName.add x.name h
    byKind := s.byKind.add x.kind h
    byModule := s.byModule.add x.modulePath h
    byFile := s.byFile.add x.filePath h }

/-- Removes a symbol from all indices. -/
def unindex (s : SymbolStore) (h : SymbolHandle) (x : Symbol) : SymbolStore :=
  { s with
    byName := s.byName.remove x.name h
    byKind := s.byKind.remove x.kind h
    byModule := s.byModule.remove x.modulePath h
    byFile := s.byFile.remove x.filePath h }

/-- The handle for a key, which is new if the key is, and the store ready to take the symbol. -/
def prepare (s : SymbolStore) (key : String) : SymbolStore × SymbolHandle :=
  match s.handles.get? key with
  | some h =>
    match s.symbols.get? h with
    | some old => (s.unindex h old, h)
    | none => (s, h)
  | none =>
    let h : SymbolHandle := ⟨s.nextNumber⟩
    ({ s with handles := s.handles.insert key h, nextNumber := s.nextNumber + 1 }, h)

/-- Keeps a symbol in place of the one with the same key, if there is one. -/
def save (s : SymbolStore) (x : Symbol) : SymbolStore × SymbolHandle :=
  let (s, h) := s.prepare x.key
  let s := s.index h x
  ({ s with symbols := s.symbols.insert h x }, h)

/-- The symbol of a handle. -/
def get? (s : SymbolStore) (h : SymbolHandle) : Option Symbol := s.symbols.get? h

/-- The symbols of some handles. -/
def resolve (s : SymbolStore) (hs : List SymbolHandle) : List Symbol := hs.filterMap s.get?

/-- The part of a dotted name behind its last dot. -/
def lastSegment (name : String) : String :=
  String.ofList (name.toList.reverse.takeWhile (· ≠ '.')).reverse

/-- Whether a symbol is called by a name: the name is its own, or its key ends with it behind a
dot. -/
def answersTo (name : String) (x : Symbol) : Bool :=
  x.name == name || ('.' :: name.toList).isSuffixOf x.key.toList

/-- The handle with the smaller number. -/
def earlier (best : Option SymbolHandle) (h : SymbolHandle) : Option SymbolHandle :=
  match best with
  | none => some h
  | some b => if h.number < b.number then some h else some b

/-- The symbol with that key, or else the first one that answers to the name. -/
def findByName (s : SymbolStore) (name : String) : Option Symbol :=
  match (s.handles.get? name).bind s.get? with
  | some x => some x
  | none =>
    let candidates := (s.byName.find (lastSegment name)).filter
      (fun h => (s.get? h).any (answersTo name))
    (candidates.foldl earlier none).bind s.get?

/-- The symbols of a kind, in the order in which they were last saved. -/
def findByKind (s : SymbolStore) (kind : SymbolKind) : List Symbol :=
  s.resolve (s.byKind.find kind)

/-- The symbols of a module, in the order in which they were last saved. -/
def findByModule (s : SymbolStore) (modulePath : String) : List Symbol :=
  s.resolve (s.byModule.find modulePath)

/-- The symbols of a file, in the order in which they were last saved. -/
def findByFile (s : SymbolStore) (filePath : String) : List Symbol :=
  s.resolve (s.byFile.find filePath)

/-- All symbols, in the order in which their keys were first saved. -/
def getAll (s : SymbolStore) : List Symbol := s.symbols.values

/-- Takes a key out of the table of keys first, then the symbol that it leads to out of the table of
symbols, and that symbol out of the indices. A key that leads to no symbol is lost. -/
def deletion (key : String) : Task SymbolStore Symbol := do
  let h ← takeOut handles (fun s handles => { s with handles }) key (.unknownSymbol key)
  let x ← takeOut symbols (fun s symbols => { s with symbols }) h (.unknownHandle .symbol h.number)
  modify (fun s => s.unindex h x)
  return x

/-- Removes the symbol of a key. -/
def delete (s : SymbolStore) (key : String) : Except StoreError (SymbolStore × Symbol) :=
  perform (deletion key) s

/-- Removes everything; numbers that were issued are not issued again. -/
def clear (s : SymbolStore) : SymbolStore := { nextNumber := s.nextNumber }

/-- Notes that something refers to the symbol of a key. -/
def addReference (s : SymbolStore) (key user : String) : SymbolStore :=
  { s with references := s.references.alter key (fun users => some (users.getD [] ++ [user])) }

/-- What refers to the symbol of a key. -/
def referencesTo (s : SymbolStore) (key : String) : List String :=
  (s.references.get? key).getD []

/-- The symbols that nothing refers to. -/
def findUnused (s : SymbolStore) : List Symbol :=
  s.getAll.filter (fun x => !s.references.contains x.key)

/-- The number of symbols. -/
def size (s : SymbolStore) : Nat := s.symbols.size

/-- Whether there are no symbols. -/
def isEmpty (s : SymbolStore) : Bool := s.symbols.isEmpty

/-- Counts of the symbols. -/
def statistics (s : SymbolStore) : SymbolStatistics :=
  { totalSymbols := s.size
    byKind := s.byKind.sizes SymbolKind.label
    byModule := s.byModule.sizes id
    byFile := s.byFile.sizes id
    unusedCount := s.findUnused.length }

end SymbolStore

end CodeAtlas.Store
