/-!
# Handles

Stores hand out a handle for what they keep. Handles are numbered in the order in which they are
issued, and no number is issued twice.
-/

namespace CodeAtlas.Store

/-- What a store keeps. -/
inductive EntityKind where
  | symbol
  | call
  | chunk
  deriving DecidableEq, Repr, Inhabited

/-- The name of a kind of entity. -/
def EntityKind.label : EntityKind → String
  | symbol => "symbol"
  | call => "call"
  | chunk => "chunk"

/-- A number that stands for something that is kept. -/
structure Handle (kind : EntityKind) where
  number : Nat
  deriving DecidableEq, Repr, Inhabited

/-- The text of a handle. -/
def Handle.text {kind : EntityKind} (h : Handle kind) : String := s!"{kind.label}#{h.number}"

/-- Why something that is kept cannot be removed. -/
inductive StoreError where
  | unknownHandle (kind : EntityKind) (number : Nat)
  | unknownSymbol (key : String)
  deriving DecidableEq, Repr

/-- The wording of the error. -/
def StoreError.message : StoreError → String
  | unknownHandle kind number => s!"Unknown {kind.label} handle: {number}"
  | unknownSymbol key => "Symbol not found: " ++ key

end CodeAtlas.Store
