import CodeAtlas.Python.Grammar.Basic

/-!
# Blocks

A block stands on the line of its colon, or on deeper lines below it, or it is empty. A deeper block
ends in front of the first line that is indented less; the comments before that line belong to the
block as long as each of them is indented as much as the block.

A reader of statements leaves the end of its last line to the block around it.
-/

namespace CodeAtlas.Python.Grammar

/-- Comments and the end of what they belong to: the comments at the front that are indented as
much as a block belong to it. -/
def peelComments (indent : Nat) (stop : Position) :
    List LineComment → Position × List LineComment
  | [] => (stop, [])
  | c :: rest =>
    if indent ≤ c.indent then peelComments indent c.extent.stop rest else (stop, c :: rest)

/-- Puts a token in front. -/
def putBack (t : Token) : Reader Unit := fun _ ts => some ((), t :: ts)

/-- Statements in a block, and where the block ends. -/
structure BlockBody where
  statements : List Concrete
  stop : Position

/-- The end of the last of some statements. -/
def lastStop (start : Position) (statements : List Concrete) : Position :=
  (statements.getLast?.map (fun c => c.extent.stop)).getD start

/-- The statements of a block of some indentation. The number bounds the lines. -/
def blockBody (indent : Nat) (statements : Reader (List Concrete)) : Nat → Reader BlockBody
  | 0 => failure
  | lines + 1 => do
    let first ← statements
    let t ← lineEnd
    match t.kind with
    | .lineEnd next comments =>
      if indent ≤ next then
        let rest ← blockBody indent statements lines
        return { rest with statements := first ++ rest.statements }
      else
        let (stop, others) := peelComments indent (lastStop t.extent.start first) comments
        putBack { t with kind := .lineEnd next others }
        return ⟨first, stop⟩
    | _ => failure

/-- A node that starts with its first part. -/
def blockNode (start : Position) (statements : List Concrete) (stop : Position) : Concrete :=
  let first := (statements.head?.map (fun c => c.extent.start)).getD start
  { node .block ⟨first, stop⟩ statements with role := some .body }

/-- The block behind a colon. The readers are those of the statements on a line and of the
statements of a deeper block. -/
def blockAfter (limit : Nat) (onLine below : Reader (List Concrete)) : Reader Concrete := do
  let colon ← symbol ":"
  let start := colon.extent.stop
  match ← peek? with
  | none => failure
  | some t =>
    match t.kind with
    | .lineEnd next _ =>
      if (← read).indent < next then
        let _ ← lineEnd
        let body ← inBlock next (blockBody next below limit)
        return blockNode start body.statements body.stop
      else return blockNode start [] start
    | _ =>
      let statements ← onLine
      return blockNode start statements (lastStop start statements)

/-- Whether a line end is next, the line behind it belongs to the block, and it starts with a token
that satisfies a condition. -/
def atLineStart (p : Token → Bool) : Reader Bool := do
  let place ← read
  let indented ← nextIs (fun t =>
    match t.kind with
    | .lineEnd next _ => place.indent ≤ next
    | _ => false)
  let starts ← secondIs p
  return indented && starts

end CodeAtlas.Python.Grammar
