import CodeAtlas.Python.Grammar.Elements

/-!
# Strings and templates

Strings in a row are one. A template holds its fields; a field holds expressions and, behind a
colon, a format that may hold fields again.
-/

namespace CodeAtlas.Python.Grammar

open CodeAtlas.Parser (many)

/-- The format of a field behind its colon, with a reader of the fields in it. -/
def formatOf (r : Rules) (field : Reader Concrete) : Reader (List Concrete) := do
  match ← token? (fun t => t.kind == .formatStart) with
  | none => return []
  | some colon =>
    let fields ← many r.limit do
      if ← nextIs (fun t => t.kind == .fieldStart) then return some (← field) else return none
    match ← peek? with
    | none => failure
    | some t => return [node .formatSpecifier ⟨colon.extent.start, t.extent.start⟩ fields]

/-- A field of a template, or of a format. The number bounds how deep formats are nested. -/
def field (r : Rules) : Nat → Construct → Reader Concrete
  | 0, _ => failure
  | depth + 1, construct => do
    let start ← ofKind .fieldStart
    let content ← yieldedOrExpressions r
    let _ ← symbol? "="
    let _ ← token? (fun t => t.kind == .conversion)
    let format ← formatOf r (field r depth .formatExpression)
    let stop ← ofKind .fieldStop
    return node construct (across start.extent stop.extent) (content :: format)

/-- One string or template, if there is one. -/
def stringPart? (r : Rules) : Reader (Option Concrete) := do
  match ← token? (fun t => t.kind == .string) with
  | some t => return some (leaf .string t)
  | none =>
    match ← token? (fun t => t.kind == .templateStart) with
    | none => return none
    | some start =>
      let fields ← many r.limit do
        if ← nextIs (fun t => t.kind == .fieldStart) then
          return some (← field r r.limit .interpolation)
        else return none
      let stop ← ofKind .templateStop
      return some ⟨.string, none, across start.extent stop.extent, start.text, fields⟩

/-- Strings in a row. -/
def strings (r : Rules) : Reader Concrete := do
  match ← many r.limit (stringPart? r) with
  | [] => failure
  | [part] => return part
  | first :: rest => return node .concatenatedString (extentOf first rest) (first :: rest)

end CodeAtlas.Python.Grammar
