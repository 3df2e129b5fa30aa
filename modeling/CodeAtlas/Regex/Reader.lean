import CodeAtlas.Regex.Basic
import CodeAtlas.Regex.Property
import CodeAtlas.Text.Digit

/-!
# Reading patterns

The notation of patterns: literals, `.`, classes in brackets with nesting and set operations,
escapes, anchors and word boundaries, groups with names or flags, alternatives, and repetitions.
There are no look-around groups and no back-references. A pattern that breaks a rule of the
notation has no reading.

Groups and nested classes are kept on a list of open ones, so every step consumes a character of
the pattern.
-/

namespace CodeAtlas.Regex

/-- The options that a pattern may switch. -/
structure Flags where
  /-- `i`: letters match in any case. -/
  anyCase : Bool := false
  /-- `m`: the anchors match at lines. -/
  multiLine : Bool := false
  /-- `s`: the dot matches line feeds. -/
  dotAll : Bool := false
  /-- `R`: lines may end with a carriage return and a line feed. -/
  crlf : Bool := false
  /-- `x`: blanks and comments in the pattern do not count. -/
  verbose : Bool := false
  /-- `u`: classes are those of all Unicode characters. -/
  unicode : Bool := true
  deriving DecidableEq, Repr, Inhabited

/-- Drops blanks and comments in front, if they do not count. -/
def skipVerbose (f : Flags) : List Char → List Char
  | [] => []
  | c :: rest =>
    if !f.verbose then c :: rest
    else if Text.isBlank c then skipVerbose f rest
    else if c = '#' then skipComment rest
    else c :: rest
where
  /-- Drops the rest of a comment and what does not count behind it. -/
  skipComment : List Char → List Char
    | [] => []
    | c :: rest => if c = '\n' then skipBlanks rest else skipComment rest
  /-- Drops the blanks behind a comment. -/
  skipBlanks : List Char → List Char
    | [] => []
    | c :: rest =>
      if Text.isBlank c then skipBlanks rest else if c = '#' then skipComment rest else c :: rest

/-- The set with the case option applied. -/
def Flags.withCase (f : Flags) (s : CharSet) : CharSet := if f.anyCase then .anyCase s else s

/-- What an escape stands for. -/
inductive Escape where
  | literal (c : Char)
  | set (s : CharSet)
  | look (l : Look)

/-- The character with a code point. -/
def charOfCode (n : Nat) : Option Char := if n.isValidChar then some (Char.ofNat n) else none

/-- The part of a text in front of a character, and the part behind it. -/
def cutAt (stop : Char) : List Char → Option (List Char × List Char)
  | [] => none
  | c :: rest =>
    if c = stop then some ([], rest) else (cutAt stop rest).map (fun p => (c :: p.1, p.2))

/-- A character by its code point, in braces or with a fixed number of digits. -/
def hexEscape (digits : Nat) : List Char → Option (Escape × List Char)
  | '\x7b' :: rest => do
    let (ds, rest) ← cutAt '\x7d' rest
    let c ← charOfCode (← Text.digits? 16 ds)
    return (.literal c, rest)
  | cs => do
    guard (digits ≤ cs.length)
    let c ← charOfCode (← Text.digits? 16 (cs.take digits))
    return (.literal c, cs.drop digits)

/-- The two parts of a text around the first occurrence of a separator. -/
def splitAtText (separator : List Char) : List Char → Option (List Char × List Char)
  | [] => none
  | c :: rest =>
    if separator.isPrefixOf (c :: rest) then some ([], (c :: rest).drop separator.length)
    else (splitAtText separator rest).map (fun p => (c :: p.1, p.2))

/-- The set of a property that is written out, with a value or without. -/
def propertySet (text : List Char) : Option CharSet :=
  match splitAtText ['!', '='] text with
  | some (p, v) => (valueSet p v).map CharSet.compl
  | none =>
    match (splitAtText [':'] text).or (splitAtText ['='] text) with
    | some (p, v) => valueSet p v
    | none => namedSet text

/-- A set of the standard by name, behind the letter `p`. -/
def propertyEscape (f : Flags) (negated : Bool) : List Char → Option (Escape × List Char)
  | [] => none
  | c :: rest => do
    guard f.unicode
    let (s, rest) ←
      if c = '\x7b' then do
        let (text, rest) ← cutAt '\x7d' rest
        let s ← propertySet text
        pure (s, rest)
      else do
        guard (c != '\\')
        let s ← namedSet [c]
        pure (s, rest)
    let s := f.withCase s
    return (.set (if negated then .compl s else s), rest)

/-- A class of characters by letter; outside Unicode only ASCII characters are in it, and its
complement is refused because it holds broken characters. -/
def letterClass (f : Flags) (negated : Bool) (unicode ascii : CharSet) : Option Escape :=
  if f.unicode then some (.set (if negated then .compl unicode else unicode))
  else if negated then none
  else some (.set ascii)

/-- The word characters under the flags. -/
def Flags.wordSet (f : Flags) : CharSet := if f.unicode then .word else asciiWord

/-- A word boundary, with the kind of boundary in braces or without. -/
def boundaryEscape (f : Flags) (rest : List Char) : Option (Escape × List Char) :=
  let plain : Option (Escape × List Char) := some (.look (.wordBoundary f.wordSet), rest)
  match rest with
  | '\x7b' :: behind =>
    match cutAt '\x7d' behind with
    | some (kind, rest) =>
      match String.ofList kind with
      | "start" => some (.look (.wordStart f.wordSet), rest)
      | "end" => some (.look (.wordEnd f.wordSet), rest)
      | "start-half" => some (.look (.wordStartHalf f.wordSet), rest)
      | "end-half" => some (.look (.wordEndHalf f.wordSet), rest)
      | _ =>
        if kind.isEmpty || !kind.all (fun c => c.isAlpha || c == '-') then plain else none
    | none => plain
  | _ => plain

/-- Whether a character stands for itself behind a backslash. -/
def isEscapable (c : Char) : Bool :=
  c.toNat < 128 && !c.isAlphanum && c != '<' && c != '>'

/-- Reads what stands behind a backslash. -/
def readEscape (f : Flags) : List Char → Option (Escape × List Char)
  | [] => none
  | c :: rest =>
    match c with
    | 'x' => hexEscape 2 rest
    | 'u' => hexEscape 4 rest
    | 'U' => hexEscape 8 rest
    | 'p' => propertyEscape f false rest
    | 'P' => propertyEscape f true rest
    | 'd' => (letterClass f false .digit (.range 48 57)).map (·, rest)
    | 'D' => (letterClass f true .digit (.range 48 57)).map (·, rest)
    | 's' => (letterClass f false .blank (.runs [(9, 13), (32, 32)])).map (·, rest)
    | 'S' => (letterClass f true .blank (.runs [(9, 13), (32, 32)])).map (·, rest)
    | 'w' => (letterClass f false .word asciiWord).map (·, rest)
    | 'W' => (letterClass f true .word asciiWord).map (·, rest)
    | 'a' => some (.literal '\x07', rest)
    | 'f' => some (.literal '\x0c', rest)
    | 't' => some (.literal '\t', rest)
    | 'n' => some (.literal '\n', rest)
    | 'r' => some (.literal '\r', rest)
    | 'v' => some (.literal '\x0b', rest)
    | 'A' => some (.look .textStart, rest)
    | 'z' => some (.look .textEnd, rest)
    | 'b' => boundaryEscape f rest
    | 'B' => some (.look (.notWordBoundary f.wordSet), rest)
    | '<' => some (.look (.wordStart f.wordSet), rest)
    | '>' => some (.look (.wordEnd f.wordSet), rest)
    | c => if isEscapable c then some (.literal c, rest) else none

/-! ## Classes in brackets -/

/-- The operations on sets in a class. -/
inductive SetOp where
  | inter
  | diff
  | symmDiff

/-- A class that is not closed yet. -/
structure OpenClass where
  negated : Bool
  /-- What stands left of the last operation. -/
  left : Option (SetOp × CharSet) := none
  /-- What was read since then. -/
  items : CharSet := .none

namespace OpenClass

/-- The class with one more item. -/
def add (o : OpenClass) (s : CharSet) : OpenClass := { o with items := .union o.items s }

/-- What was read so far as one set. -/
def value (f : Flags) (o : OpenClass) : CharSet :=
  match o.left with
  | none => f.withCase o.items
  | some (.inter, l) => .inter l (f.withCase o.items)
  | some (.diff, l) => .diff l (f.withCase o.items)
  | some (.symmDiff, l) => .symmDiff l (f.withCase o.items)

/-- The class with an operation behind what was read so far. -/
def operate (f : Flags) (o : OpenClass) (op : SetOp) : OpenClass :=
  { o with left := some (op, o.value f), items := .none }

/-- The set of the class when it is closed. -/
def close (f : Flags) (o : OpenClass) : CharSet :=
  let s := f.withCase (o.value f)
  if o.negated then .compl s else s

end OpenClass

/-- Reads hyphens that stand for themselves. -/
def readHyphens : OpenClass → Bool → List Char → OpenClass × Bool × List Char
  | o, _, '-' :: rest => readHyphens (o.add (.single '-')) true rest
  | o, found, rest => (o, found, rest)

/-- Reads the start of a class behind its bracket: a negation, hyphens, or a closing bracket that
stands for itself. -/
def openClass (f : Flags) (cs : List Char) : OpenClass × List Char :=
  let cs := skipVerbose f cs
  let (negated, cs) :=
    match cs with
    | '^' :: rest => (true, skipVerbose f rest)
    | cs => (false, cs)
  match readHyphens { negated } false cs with
  | (o, false, ']' :: rest) => (o.add (.single ']'), rest)
  | (o, _, rest) => (o, rest)

/-- Reads a class of ASCII characters by name, such as `[:alpha:]`. -/
def readAsciiClass : List Char → Option (CharSet × List Char)
  | '[' :: ':' :: rest => do
    let (negated, rest) :=
      match rest with
      | '^' :: rest => (true, rest)
      | rest => (false, rest)
    let (name, rest) ← cutAt ':' rest
    match rest with
    | ']' :: rest =>
      let s ← lookupName name asciiByName
      return (if negated then .compl s else s, rest)
    | _ => none
  | _ => none

/-- Reads one item of a class: a character or an escaped set. -/
def readClassItem (f : Flags) : List Char → Option (Escape × List Char)
  | [] => none
  | '\\' :: rest => do
    let (e, rest) ← readEscape f rest
    match e with
    | .look _ => none
    | e => return (e, rest)
  | c :: rest => some (.literal c, rest)

/-- The set of an item. -/
def Escape.toSet : Escape → CharSet
  | literal c => .single c
  | set s => s
  | look _ => .none

/-- Reads an item of a class or a range of characters. -/
def readClassRange (f : Flags) (cs : List Char) : Option (CharSet × List Char) := do
  let (first, rest) ← readClassItem f cs
  let rest := skipVerbose f rest
  match rest with
  | '-' :: behind =>
    match skipVerbose f behind with
    | ']' :: _ => return (first.toSet, rest)
    | '-' :: _ => return (first.toSet, rest)
    | behind =>
      let (last, behind) ← readClassItem f behind
      match first, last with
      | .literal a, .literal b =>
        if a.toNat ≤ b.toNat then return (.range a.toNat b.toNat, behind) else none
      | _, _ => none
  | _ => return (first.toSet, rest)

/-- Reads a class up to its last bracket; `outer` holds the classes around it. -/
def readClass (f : Flags) : Nat → List OpenClass → OpenClass → List Char →
    Option (CharSet × List Char)
  | 0, _, _, _ => none
  | fuel + 1, outer, o, cs =>
    match skipVerbose f cs with
    | [] => none
    | ']' :: rest =>
      match outer with
      | [] => if o.negated && !f.unicode then none else some (o.close f, rest)
      | parent :: outer => readClass f fuel outer (parent.add (o.close f)) rest
    | '[' :: rest =>
      match readAsciiClass ('[' :: rest) with
      | some (s, rest) => readClass f fuel outer (o.add s) rest
      | none =>
        let (inner, rest) := openClass f rest
        readClass f fuel (o :: outer) inner rest
    | '&' :: '&' :: rest => readClass f fuel outer (o.operate f .inter) rest
    | '-' :: '-' :: rest => readClass f fuel outer (o.operate f .diff) rest
    | '~' :: '~' :: rest => readClass f fuel outer (o.operate f .symmDiff) rest
    | cs => do
      let (s, rest) ← readClassRange f cs
      readClass f fuel outer (o.add s) rest

/-! ## Flags and groups -/

/-- Sets one flag. -/
def Flags.assign (f : Flags) (letter : Char) (value : Bool) : Option Flags :=
  match letter with
  | 'i' => some { f with anyCase := value }
  | 'm' => some { f with multiLine := value }
  | 's' => some { f with dotAll := value }
  | 'R' => some { f with crlf := value }
  | 'x' => some { f with verbose := value }
  | 'u' => some { f with unicode := value }
  | 'U' => some f
  | _ => none

/-- Reads the letters of a group's flags up to the colon or bracket behind them. Letters behind a
minus are switched off; no letter and no minus may come twice, and a minus needs a letter. -/
def readFlags : Flags → List Char → Bool → List Char → Option (Flags × Bool × List Char)
  | _, _, _, [] => none
  | f, used, negated, c :: rest =>
    if c = ':' ∨ c = ')' then
      if negated && used.head? = some '-' then none else some (f, used.isEmpty, c :: rest)
    else if used.contains c then none
    else if c = '-' then readFlags f (c :: used) true rest
    else do
      let f ← f.assign c (!negated)
      readFlags f (c :: used) negated rest

/-- Whether a group's name may hold `c`. -/
def isGroupNameChar (first : Bool) (c : Char) : Bool :=
  c == '_' || Text.isLetter c ||
    (!first && (Text.isDecimalDigit c || Text.hasCategory c .otherNumber || c == '.' || c == '[' ||
      c == ']'))

/-- Whether a text may be a group's name. -/
def isGroupName : List Char → Bool
  | [] => false
  | c :: rest => isGroupNameChar true c && rest.all (isGroupNameChar false)

/-- A group that is not closed yet, or the whole pattern. -/
structure OpenGroup where
  /-- The flags in force. -/
  flags : Flags
  /-- The alternatives that are complete, last one first. -/
  alternatives : List Regex := []
  /-- The parts of the current alternative, last one first; a change of flags is none. -/
  parts : List (Option Regex) := []

namespace OpenGroup

/-- The group with one more part. -/
def add (g : OpenGroup) (r : Regex) : OpenGroup := { g with parts := some r :: g.parts }

/-- The current alternative. -/
def current (g : OpenGroup) : Regex := sequence (g.parts.reverse.filterMap id)

/-- The group with a new alternative begun. -/
def next (g : OpenGroup) : OpenGroup :=
  { g with alternatives := g.current :: g.alternatives, parts := [] }

/-- The pattern of the group when it is closed. -/
def close (g : OpenGroup) : Regex := choice (g.current :: g.alternatives).reverse

/-- The group with a repetition of its last part; there must be one. -/
def repeatLast (g : OpenGroup) (f : Regex → Regex) : Option OpenGroup :=
  match g.parts with
  | some r :: rest => some { g with parts := some (f r) :: rest }
  | _ => none

end OpenGroup

/-- Drops the mark of a short repetition. -/
def dropLazy (f : Flags) (cs : List Char) : List Char :=
  match skipVerbose f cs with
  | '?' :: rest => rest
  | _ => cs

/-- Reads a number with blanks around it. -/
def readCount (cs : List Char) : Option (Nat × List Char) :=
  let cs := cs.dropWhile Text.isBlank
  let digits := cs.takeWhile Char.isDigit
  let value := digits.foldl (fun n d => n * 10 + (d.toNat - 48)) 0
  if digits.isEmpty || 4294967296 ≤ value then none
  else some (value, (cs.dropWhile Char.isDigit).dropWhile Text.isBlank)

/-- A pattern at least `low` times and, if there is a limit, at most that often. -/
def bounded (low : Nat) (high : Option Nat) (r : Regex) : Regex :=
  match high with
  | none => .seq (.exactly r low) (.star r)
  | some h => .seq (.exactly r low) (.upTo r (h - low))

/-- Reads the bounds of a repetition behind their brace. -/
def readBounds (f : Flags) (cs : List Char) : Option ((Regex → Regex) × List Char) := do
  let (low, rest) ← readCount cs
  match rest with
  | '\x7d' :: rest => return (bounded low (some low), dropLazy f rest)
  | ',' :: rest =>
    match skipVerbose f rest with
    | '\x7d' :: rest => return (bounded low none, dropLazy f rest)
    | rest =>
      let (high, rest) ← readCount rest
      match rest with
      | '\x7d' :: rest =>
        guard (low ≤ high)
        return (bounded low (some high), dropLazy f rest)
      | _ => none
  | _ => none

/-- The dot under the flags; outside Unicode it would match broken characters. -/
def Flags.dot (f : Flags) : Option CharSet :=
  if !f.unicode then none
  else if f.dotAll then some .all
  else if f.crlf then some (.compl (.union (.single '\n') (.single '\r')))
  else some (.compl (.single '\n'))

/-- What the start anchor demands under the flags. -/
def Flags.startLook (f : Flags) : Look :=
  if !f.multiLine then .textStart else if f.crlf then .crlfLineStart else .lineStart

/-- What the end anchor demands under the flags. -/
def Flags.endLook (f : Flags) : Look :=
  if !f.multiLine then .textEnd else if f.crlf then .crlfLineEnd else .lineEnd

/-- A pattern that is partly read. -/
structure Reading where
  /-- The innermost open group. -/
  group : OpenGroup
  /-- The groups around it. -/
  outer : List OpenGroup := []
  /-- The names of the groups so far. -/
  names : List (List Char) := []

namespace Reading

/-- The reading with one more part. -/
def add (s : Reading) (r : Regex) : Reading := { s with group := s.group.add r }

/-- The reading inside a new group. -/
def enter (s : Reading) (flags : Flags) : Reading :=
  { s with group := { flags }, outer := s.group :: s.outer }

/-- Reads the start of a group behind its bracket. -/
def openGroup (s : Reading) (cs : List Char) : Option (Reading × List Char) :=
  let named (rest : List Char) : Option (Reading × List Char) := do
    let (name, rest) ← cutAt '>' rest
    guard (isGroupName name && !s.names.contains name)
    return ({ s.enter s.group.flags with names := name :: s.names }, rest)
  match skipVerbose s.group.flags cs with
  | '?' :: '=' :: _ => none
  | '?' :: '!' :: _ => none
  | '?' :: '<' :: '=' :: _ => none
  | '?' :: '<' :: '!' :: _ => none
  | '?' :: 'P' :: '<' :: rest => named rest
  | '?' :: '<' :: rest => named rest
  | '?' :: rest => do
    let (flags, unset, rest) ← readFlags s.group.flags [] false rest
    match rest with
    | ')' :: rest =>
      guard !unset
      let g := { s.group with flags, parts := none :: s.group.parts }
      return ({ s with group := g }, rest)
    | _ :: rest => return (s.enter flags, rest)
    | [] => none
  | rest => some (s.enter s.group.flags, rest)

/-- Reads one part of a pattern that starts with `c`. -/
def step (s : Reading) (c : Char) (rest : List Char) : Option (Reading × List Char) :=
  let f := s.group.flags
  match c with
  | '(' => s.openGroup rest
  | ')' =>
    match s.outer with
    | [] => none
    | parent :: outer => some ({ s with group := parent.add s.group.close, outer }, rest)
  | '|' => some ({ s with group := s.group.next }, rest)
  | '[' => do
    let (o, rest) := openClass f rest
    let (chars, rest) ← readClass f (rest.length + 1) [] o rest
    return (s.add (.set chars), rest)
  | '*' => do
    let group ← s.group.repeatLast .star
    return ({ s with group }, dropLazy f rest)
  | '+' => do
    let group ← s.group.repeatLast (fun r => .seq r (.star r))
    return ({ s with group }, dropLazy f rest)
  | '?' => do
    let group ← s.group.repeatLast (fun r => .alt r .empty)
    return ({ s with group }, dropLazy f rest)
  | '\x7b' => do
    guard ((s.group.parts.head?.bind id).isSome)
    let (count, rest) ← readBounds f rest
    let group ← s.group.repeatLast count
    return ({ s with group }, rest)
  | '.' => do
    let chars ← f.dot
    return (s.add (.set chars), rest)
  | '^' => some (s.add (.look f.startLook), rest)
  | '$' => some (s.add (.look f.endLook), rest)
  | '\\' => do
    let (e, rest) ← readEscape f rest
    match e with
    | .literal c => return (s.add (.set (f.withCase (.single c))), rest)
    | .set chars => return (s.add (.set chars), rest)
    | .look l => return (s.add (.look l), rest)
  | c => some (s.add (.set (f.withCase (.single c))), rest)

/-- Reads the rest of a pattern. -/
def finish : Nat → Reading → List Char → Option Regex
  | 0, _, _ => none
  | fuel + 1, s, cs =>
    match skipVerbose s.group.flags cs with
    | [] => if s.outer.isEmpty then some s.group.close else none
    | c :: rest => do
      let (s, rest) ← s.step c rest
      finish fuel s rest

end Reading

/-- The pattern that a text denotes, if it keeps to the notation. -/
def parse (text : String) : Option Regex :=
  Reading.finish (text.toList.length + 1) { group := { flags := {} } } text.toList

end CodeAtlas.Regex
