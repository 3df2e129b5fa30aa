import CodeAtlas.Python.Literal.Text

/-!
# Quoting

A text is quoted by writing backslashes, quotes and some control characters as escapes, and by
putting the same delimiter before and behind it. The value of such a literal is the text, whatever it
begins and ends with: a quote of the text stands behind a backslash, so it is never taken for a part
of the delimiter. A raw literal has no escapes; its value is what is written, as long as that has no
quotes.

Main results:

- Theorem `unescape_escape`: resolving escapes undoes writing them.
- Theorem `delimiter_delimited`: the delimiter that was put around a text is the one that is found.
- Theorem `value?_delimited`: the value of a literal is read off what stands between the delimiters.
- Theorem `stringValue?_quoted`: quoting is undone by reading, for every kind of literal.
-/

namespace CodeAtlas.Python.Literal

/-! ## Escapes -/

/-- A character as it is written between quotes. -/
def escapeChar : Char → List Char
  | '\\' => ['\\', '\\']
  | '\'' => ['\\', '\'']
  | '"' => ['\\', '"']
  | '\n' => ['\\', 'n']
  | '\t' => ['\\', 't']
  | '\r' => ['\\', 'r']
  | '\x00' => ['\\', '0']
  | c => [c]

/-- A text as it is written between quotes. -/
def escape (text : List Char) : List Char := text.flatMap escapeChar

/-- A character is written as itself, or as a backslash with a character that stands for it. -/
theorem escapeChar_cases (c : Char) :
    (escapeChar c = [c] ∧ c ≠ '\\' ∧ isQuote c = false) ∨
      ∃ e, escapeChar c = ['\\', e] ∧ escapeValue? e = some [c] := by
  unfold escapeChar
  split
  case h_8 hbackslash hsingle hdouble _ _ _ _ =>
    exact Or.inl ⟨rfl, hbackslash, by simpa [isQuote] using ⟨hdouble, hsingle⟩⟩
  all_goals exact Or.inr ⟨_, rfl, rfl⟩

/-- Resolving an escaped character gives the character back. -/
theorem unescape_escapeChar_append (c : Char) (rest : List Char) :
    unescape (escapeChar c ++ rest) = c :: unescape rest := by
  rcases escapeChar_cases c with ⟨hself, hne, -⟩ | ⟨e, hescape, hvalue⟩
  · rw [hself]
    exact unescape_append_of_plain [c] rest (by simpa using hne.symm)
  · rw [hescape, List.cons_append, List.singleton_append, unescape, hvalue]
    rfl

/-- Resolving escapes undoes writing them. -/
theorem unescape_escape (text : List Char) : unescape (escape text) = text := by
  induction text with
  | nil => rfl
  | cons c text ih =>
    rw [escape, List.flatMap_cons, unescape_escapeChar_append]
    exact congrArg (c :: ·) ih

/-- An escaped text does not begin with a quote. -/
theorem isQuote_head?_escape (text : List Char) : (escape text).head?.any isQuote = false := by
  cases text with
  | nil => rfl
  | cons c text =>
    rcases escapeChar_cases c with ⟨hself, -, hquote⟩ | ⟨e, hescape, -⟩
    · simp [escape, hself, hquote]
    · simp [escape, hescape, isQuote]

/-! ## Delimiters -/

/-- What stands around a text: a quote of either kind, or three of them. -/
inductive Delimiter where
  | single
  | double
  | tripleSingle
  | tripleDouble
  deriving DecidableEq, Repr

/-- The quotes of a delimiter. -/
def Delimiter.quotes : Delimiter → List Char
  | single => ['\'']
  | double => ['"']
  | tripleSingle => ['\'', '\'', '\'']
  | tripleDouble => ['"', '"', '"']

variable {body : List Char}

/-- The delimiter that was put around a text is the one that is found, if the text does not begin
with a quote. -/
theorem delimiter_delimited (d : Delimiter) (hbody : body.head?.any isQuote = false) :
    delimiter (d.quotes ++ (body ++ d.quotes)) = d.quotes := by
  cases body with
  | nil => cases d <;> rfl
  | cons c body =>
    -- only a quote could make three quotes of a single one
    have hquote : c ≠ '"' ∧ c ≠ '\'' := by simpa [isQuote] using hbody
    cases d <;> simp [Delimiter.quotes, delimiter, hquote]

/-- What was put between two delimiters is what is found there. -/
theorem inner?_delimited (d : Delimiter) (hbody : body.head?.any isQuote = false) :
    inner? (d.quotes ++ (body ++ d.quotes)) = some body := by
  have hsuffix : d.quotes.isSuffixOf (body ++ d.quotes) = true :=
    List.isSuffixOf_iff_suffix.2 (List.suffix_append body d.quotes)
  simp only [inner?, delimiter_delimited d hbody, List.drop_left, hsuffix, if_true,
    List.length_append, Nat.add_sub_cancel, List.take_left]

/-- The value of a literal is read off what stands between its delimiters, as its marker says. -/
theorem value?_delimited {marker : List Char} (hmarker : marker.any isQuote = false)
    (d : Delimiter) (hbody : body.head?.any isQuote = false) :
    value? (marker ++ (d.quotes ++ (body ++ d.quotes))) =
      let kind := Text.asciiLowercase marker
      if kind.contains 'b' || kind.contains 'f' then none
      else if kind.contains 'r' then some body
      else some (unescape body) := by
  obtain ⟨q, rest, hd, hq⟩ : ∃ q rest, d.quotes = q :: rest ∧ isQuote q = true := by
    cases d <;> exact ⟨_, _, rfl, rfl⟩
  have hany : (marker ++ (d.quotes ++ (body ++ d.quotes))).any isQuote = true := by
    simp [hd, hq]
  have hplain : ∀ c ∈ marker, (!isQuote c) = true := by simpa using hmarker
  have htake : (marker ++ (d.quotes ++ (body ++ d.quotes))).takeWhile (fun c => !isQuote c) =
      marker := by
    rw [List.takeWhile_append_of_pos hplain, hd, List.cons_append,
      List.takeWhile_cons_of_neg (by simp [hq]), List.append_nil]
  have hdrop : (marker ++ (d.quotes ++ (body ++ d.quotes))).dropWhile (fun c => !isQuote c) =
      d.quotes ++ (body ++ d.quotes) := by
    rw [List.dropWhile_append_of_pos hplain, hd, List.cons_append,
      List.dropWhile_cons_of_neg (by simp [hq])]
  simp only [value?, hany, htake, hdrop, inner?_delimited d hbody, Bool.not_true,
    Bool.false_eq_true, if_false, Option.map_some]

/-! ## Literals -/

/-- The quotes of a delimiter as a text. -/
def Delimiter.text (d : Delimiter) : String := String.ofList d.quotes

/-- A text as it is written between quotes. -/
def escaped (text : String) : String := String.ofList (escape text.toList)

/-- What may stand before a literal with escapes. -/
def plainMarkers : List String := ["", "u", "U"]

/-- What may stand before a literal without escapes. -/
def rawMarkers : List String := ["r", "R"]

/-- A marker has no quote and does not stand for bytes or a template, and the raw ones say so. -/
theorem marker_spec (raw : Bool) :
    ∀ marker ∈ (if raw then rawMarkers else plainMarkers),
      marker.toList.any isQuote = false ∧
        let kind := Text.asciiLowercase marker.toList
        (kind.contains 'b' || kind.contains 'f') = false ∧ kind.contains 'r' = raw := by
  revert raw
  decide

/-- The value of a literal with one of the markers. -/
theorem stringValue?_delimited (raw : Bool) {marker : String}
    (hmarker : marker ∈ (if raw then rawMarkers else plainMarkers)) (d : Delimiter) {text : String}
    (htext : text.toList.head?.any isQuote = false) :
    stringValue? (marker ++ d.text ++ text ++ d.text) =
      some (if raw then text else String.ofList (unescape text.toList)) := by
  obtain ⟨hplain, hkind, hraw⟩ := marker_spec raw marker hmarker
  have hvalue := value?_delimited hplain d htext
  simp only [hkind, hraw, Bool.false_eq_true, if_false] at hvalue
  simp only [stringValue?, Delimiter.text, String.toList_append, String.toList_ofList,
    List.append_assoc, hvalue]
  cases raw <;> simp

/-- Reading undoes quoting. With each delimiter and each marker, a literal with escapes gives every
text back, and a raw one every text without quotes, with its backslashes. -/
theorem stringValue?_quoted (d : Delimiter) :
    (∀ marker ∈ plainMarkers, ∀ text : String,
      stringValue? (marker ++ d.text ++ escaped text ++ d.text) = some text) ∧
    ∀ marker ∈ rawMarkers, ∀ text : String, (∀ c ∈ text.toList, isQuote c = false) →
      stringValue? (marker ++ d.text ++ text ++ d.text) = some text := by
  constructor
  · intro marker hmarker text
    have hhead : (escaped text).toList.head?.any isQuote = false := by
      rw [escaped, String.toList_ofList]
      exact isQuote_head?_escape text.toList
    rw [stringValue?_delimited false hmarker d hhead]
    simp [escaped, unescape_escape]
  · intro marker hmarker text htext
    have hhead : text.toList.head?.any isQuote = false := by
      cases hchars : text.toList with
      | nil => rfl
      | cons c rest => exact htext c (hchars ▸ List.mem_cons_self)
    exact stringValue?_delimited true hmarker d hhead

/-- A text that begins and ends with quotes, and a raw one that ends with a backslash. -/
theorem stringValue?_quoted_quotes :
    "u" ∈ plainMarkers ∧ "R" ∈ rawMarkers ∧ (∀ c ∈ "\\d+\\".toList, isQuote c = false) ∧
      stringValue? "u\"\"\"\\\"it\\'s\\\"\"\"\"" = some "\"it's\"" ∧
      stringValue? "R'\\d+\\'" = some "\\d+\\" := by
  have hplain : "u" ∈ plainMarkers := by decide
  have hraw : "R" ∈ rawMarkers := by decide
  have hquotes : ∀ c ∈ "\\d+\\".toList, isQuote c = false := by simp [isQuote]
  exact ⟨hplain, hraw, hquotes, (stringValue?_quoted .tripleDouble).1 "u" hplain "\"it's\"",
    (stringValue?_quoted .single).2 "R" hraw "\\d+\\" hquotes⟩

end CodeAtlas.Python.Literal
