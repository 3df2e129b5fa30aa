import CodeAtlas.Text.Case

/-!
# String literals

The value of a string literal: a prefix, a quote or three of them, the characters between, and the
same quotes again. Bytes and templates have no value of this kind. Unless the literal is raw, the
usual escapes are resolved and all others stay as they are written.

Main statement: `unescape_append_of_plain`, characters other than backslashes stand for themselves.
-/

namespace CodeAtlas.Python.Literal

/-- Whether a character opens a string. -/
def isQuote (c : Char) : Bool := c = '"' || c = '\''

/-- The character that an escape stands for; an escaped line feed stands for nothing. -/
def escapeValue? : Char → Option (List Char)
  | 'n' => some ['\n']
  | 't' => some ['\t']
  | 'r' => some ['\r']
  | '0' => some ['\x00']
  | '\\' => some ['\\']
  | '\'' => some ['\'']
  | '"' => some ['"']
  | '\n' => some []
  | _ => none

/-- The text with its escapes resolved; an unknown one keeps its backslash. -/
def unescape : List Char → List Char
  | [] => []
  | '\\' :: c :: rest =>
    match escapeValue? c with
    | some cs => cs ++ unescape rest
    | none => '\\' :: c :: unescape rest
  | c :: rest => c :: unescape rest

/-- The quotes that a text starts with: three equal ones, or else one. -/
def delimiter : List Char → List Char
  | '"' :: '"' :: '"' :: _ => ['"', '"', '"']
  | '\'' :: '\'' :: '\'' :: _ => ['\'', '\'', '\'']
  | c :: _ => [c]
  | [] => []

/-- What stands between a delimiter and the same delimiter at the end. -/
def inner? (body : List Char) : Option (List Char) :=
  let d := delimiter body
  let rest := body.drop d.length
  if d.isSuffixOf rest then some (rest.take (rest.length - d.length)) else none

/-- The value of a string literal from its source text. -/
def value? (literal : List Char) : Option (List Char) :=
  if !literal.any isQuote then none
  else
    let kind := Text.asciiLowercase (literal.takeWhile (fun c => !isQuote c))
    let body := literal.dropWhile (fun c => !isQuote c)
    if kind.contains 'b' || kind.contains 'f' then none
    else if kind.contains 'r' then inner? body
    else (inner? body).map unescape

/-- The value of a string literal from its source text. -/
def stringValue? (literal : String) : Option String := (value? literal.toList).map String.ofList

/-- Characters other than backslashes stand for themselves. -/
theorem unescape_append_of_plain (plain rest : List Char) (h : '\\' ∉ plain) :
    unescape (plain ++ rest) = plain ++ unescape rest := by
  induction plain with
  | nil => rfl
  | cons c cs ih =>
    simp only [List.mem_cons, not_or] at h
    obtain ⟨hc, hcs⟩ := h
    have hne : c ≠ '\\' := fun e => hc e.symm
    rw [List.cons_append, unescape]
    · rw [ih hcs, List.cons_append]
    · intro d e he
      exact absurd he hne

/-- An unknown escape keeps its backslash, and a raw literal keeps all of them. -/
example : stringValue? "'a\\n\\d'" = some "a\n\\d" ∧ stringValue? "R'\\n'" = some "\\n" := by
  decide +kernel

end CodeAtlas.Python.Literal
