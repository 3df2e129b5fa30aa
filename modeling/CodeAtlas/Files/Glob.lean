import CodeAtlas.Parser
import CodeAtlas.Regex.Basic
import CodeAtlas.Text.Utf8

/-!
# Globs

Patterns of paths: `?` and `*` stand for bytes other than slashes, square brackets for one byte of a
set, braces for one of several alternatives, and two stars between slashes for any directories. A
backslash takes away the meaning of the character behind it.

A glob looks at the bytes of a path. For the regular expression that it becomes, a byte is the
character of the same number.
-/

namespace CodeAtlas.Files

open CodeAtlas.Parser (satisfy? satisfy nextIs repeatWhile)
open Regex (CharSet)

/-- A path as a text with a character for each byte. -/
def byteText (path : String) : List Char :=
  (Text.Utf8.encode path).map (fun b => Char.ofNat b.toNat)

namespace Glob

/-! ## Pieces of patterns -/

/-- One byte. -/
def byte (b : UInt8) : Regex := .set (.range b.toNat b.toNat)

/-- The bytes of a character. -/
def literal (c : Char) : Regex := Regex.sequence ((Text.Utf8.encode c.toString).map byte)

/-- A slash. -/
def slash : Regex := byte 47

/-- A byte other than a slash. -/
def notSlash : Regex := .set (.compl (.range 47 47))

/-- Any bytes. -/
def anything : Regex := .star (.set .all)

/-- The bytes of a range of characters: those of the two characters, and between the last byte of
the first one and the first byte of the last one all bytes. -/
def rangeSets (first last : Char) : List CharSet :=
  let single (b : UInt8) : CharSet := .range b.toNat b.toNat
  let a := Text.Utf8.encode first.toString
  let z := Text.Utf8.encode last.toString
  if first = last then a.map single
  else
    a.dropLast.map single ++ z.tail.map single ++
      [.range ((a.getLast?.getD 0).toNat) ((z.head?.getD 0).toNat)]

/-- One byte of some ranges, or one outside of them. -/
def oneOf (isNegated : Bool) (ranges : List (Char × Char)) : Regex :=
  let set := CharSet.unions (ranges.flatMap (fun r => rangeSets r.1 r.2))
  .set (if isNegated then .compl set else set)

/-- A part of a glob. Two stars at the start or the end of a glob are kept apart, because more stars
may follow. -/
inductive Part where
  | plain (r : Regex)
  /-- Any directories in front. -/
  | leading
  /-- Anything below. -/
  | trailing
  deriving DecidableEq, Repr, Inhabited

/-- The regular expression of a part. -/
def Part.regex : Part → Regex
  | plain r => r
  | leading => Regex.choice [.upTo slash 1, .seq anything slash]
  | trailing => .seq slash anything

/-- The regular expression of parts in a row. -/
def inRow (parts : List Part) : Regex := Regex.sequence (parts.map Part.regex)

/-- The regular expression of a whole glob. Two stars alone stand for everything. -/
def wholeRegex : List Part → Regex
  | [.leading] => anything
  | parts => inRow parts

/-- Any directories between two slashes. -/
def between : Regex := .alt slash (Regex.sequence [slash, anything, slash])

/-! ## Reading -/

/-- An open brace: the parts in front of it, and the alternatives behind it that are complete. -/
structure Brace where
  front : List Part
  alternatives : List Regex

/-- What was read of a glob. -/
structure Reading where
  /-- The character in front. -/
  previous : Option Char := none
  /-- The parts since the last brace or comma, the last one first. -/
  parts : List Part := []
  /-- The open braces, the innermost first. -/
  braces : List Brace := []

namespace Reading

/-- The reading with one more part. -/
def push (g : Reading) (r : Regex) : Reading := { g with parts := .plain r :: g.parts }

/-- The regular expressions of the parts since the last brace or comma; none if there are no
parts. -/
def alternative (g : Reading) : List Regex :=
  if g.parts.isEmpty then [] else [inRow g.parts.reverse]

/-- Opens a brace. -/
def openBrace (g : Reading) : Reading :=
  { g with parts := [], braces := ⟨g.parts, []⟩ :: g.braces }

/-- Ends an alternative at a comma, which outside braces stands for itself. -/
def comma (g : Reading) : Reading :=
  match g.braces with
  | [] => g.push (literal ',')
  | b :: rest =>
    { g with parts := [], braces := { b with alternatives := b.alternatives ++ g.alternative } :: rest }

/-- Closes a brace, if one is open. -/
def closeBrace (g : Reading) : Option Reading :=
  match g.braces with
  | [] => none
  | b :: rest =>
    some { g with
      parts := .plain (Regex.choice (b.alternatives ++ g.alternative)) :: b.front
      braces := rest }

/-- Two stars behind a slash, which is taken back, in the middle or at the end of a glob. -/
def manyDirectories (g : Reading) (atEnd : Bool) : Reading :=
  match g.parts with
  | .leading :: _ | .trailing :: _ => g
  | parts => { g with parts := (if atEnd then .trailing else .plain between) :: parts.tail }

end Reading

/-- One star, or two that stand for no more than one. -/
def star : Regex := .star notSlash

/-- What two stars stand for. -/
def twoStars (g : Reading) : Parser Char Reading := do
  let plainStar := { g.push star with previous := some '*' }
  let ended := (← Parser.peek?).isNone
  let atSlash ← nextIs (· == '/')
  let closing ← nextIs (fun c => !g.braces.isEmpty && (c == ',' || c == '\x7d'))
  if g.parts.isEmpty then
    if ended || atSlash then
      let skipped ← satisfy? (· == '/')
      return { g with parts := [.leading], previous := skipped.or (some '*') }
    else return plainStar
  else if g.previous != some '/' then return plainStar
  else if atSlash then
    let _ ← satisfy (· == '/')
    return { g.manyDirectories false with previous := some '/' }
  else if ended || closing then
    return { g.manyDirectories true with previous := some '*' }
  else return plainStar

/-- The ranges in square brackets up to the closing bracket. The flags say whether nothing was read
yet, and whether a hyphen waits for the end of a range; the ranges come last first. -/
def bracketRanges (isFirst inRange : Bool) (ranges : List (Char × Char)) :
    List Char → Option (List (Char × Char) × List Char)
  | [] => none
  | c :: rest =>
    if c = ']' && !isFirst then
      some ((if inRange then ('-', '-') :: ranges else ranges).reverse, rest)
    else if c = '-' && !isFirst && !inRange then bracketRanges false true ranges rest
    else if inRange then
      match ranges with
      | [] => none
      | (first, _) :: others =>
        if c < first then none else bracketRanges false false ((first, c) :: others) rest
    else bracketRanges false false ((c, c) :: ranges) rest

/-- What square brackets stand for, behind the opening one. -/
def bracket : Parser Char Regex := do
  let negation ← satisfy? (fun c => c == '!' || c == '^')
  let ranges ← bracketRanges true false []
  return oneOf negation.isSome ranges

/-- One more part of a glob, unless it ends. -/
def part? (g : Reading) : Parser Char (Option Reading) := do
  match ← satisfy? (fun _ => true) with
  | none => return none
  | some c =>
    let next ←
      if c = '?' then pure (g.push notSlash)
      else if c = '*' then
        match ← satisfy? (· == '*') with
        | none => pure (g.push star)
        | some _ => return some (← twoStars g)
      else if c = '[' then return some { g.push (← bracket) with previous := some ']' }
      else if c = '\x7b' then pure g.openBrace
      else if c = ',' then pure g.comma
      else if c = '\x7d' then
        match g.closeBrace with
        | some g => pure g
        | none => failure
      else if c = '\\' then
        let escaped ← satisfy (fun _ => true)
        return some { g.push (literal escaped) with previous := some escaped }
      else pure (g.push (literal c))
    return some { next with previous := some c }

/-- The regular expression of a glob that stands for whole paths, unless it is malformed. -/
def ofText? (text : List Char) : Option Regex :=
  match repeatWhile part? text.length {} text with
  | some (g, []) =>
    if g.braces.isEmpty then
      some (Regex.sequence [.look .textStart, wholeRegex g.parts.reverse, .look .textEnd])
    else none
  | _ => none

/-- Whether a regular expression of a glob matches a path. -/
def isMatch (r : Regex) (path : String) : Bool := r.isMatch (byteText path)

/-- Stars stop at slashes, unless there are two of them. -/
example :
    (ofText? "a*.p?".toList).map (fun r => [isMatch r "ab.py", isMatch r "a/b.py"]) =
        some [true, false] ∧
      (ofText? "**/[a-c]".toList).map (fun r => [isMatch r "x/y/b", isMatch r "b", isMatch r "d"]) =
        some [true, true, false] ∧
      (ofText? "a/**/b".toList).map (fun r => [isMatch r "a/b", isMatch r "a/x/b"]) =
        some [true, true] := by
  decide +kernel

end Glob

end CodeAtlas.Files
