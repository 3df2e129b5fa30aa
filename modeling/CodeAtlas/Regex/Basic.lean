import CodeAtlas.Regex.CharSet

/-!
# Regular expressions

The syntax of patterns and what they match.

A pattern is run over a text for all starting places at once. The places of a text, one before each
character and one at the end, carry marks, and a pattern moves the marks: from every marked place
to all places where a match that starts there may end. A text matches if some mark is left when
every place was marked before.

Main statement: `length_advance`, marks stay one for each place.
-/

namespace CodeAtlas

namespace Regex

/-- A condition on a place in a text. -/
inductive Look where
  | textStart
  | textEnd
  | lineStart
  | lineEnd
  /-- The start of a line that may end with a carriage return and a line feed. -/
  | crlfLineStart
  /-- The end of a line that may end with a carriage return and a line feed. -/
  | crlfLineEnd
  | wordBoundary (chars : CharSet)
  | notWordBoundary (chars : CharSet)
  | wordStart (chars : CharSet)
  | wordEnd (chars : CharSet)
  | wordStartHalf (chars : CharSet)
  | wordEndHalf (chars : CharSet)
  deriving DecidableEq, Repr, Inhabited

/-- Whether there is a character of the set. -/
def isIn (set : CharSet) : Option Char → Bool
  | none => false
  | some c => set.contains c

/-- Whether the condition holds between two characters, where the text may start or end. -/
def Look.holds (look : Look) (before behind : Option Char) : Bool :=
  match look with
  | textStart => before.isNone
  | textEnd => behind.isNone
  | lineStart => before.isNone || before == some '\n'
  | lineEnd => behind.isNone || behind == some '\n'
  | crlfLineStart =>
    before.isNone || before == some '\n' || (before == some '\r' && behind != some '\n')
  | crlfLineEnd =>
    behind.isNone || behind == some '\r' || (behind == some '\n' && before != some '\r')
  | wordBoundary w => isIn w before != isIn w behind
  | notWordBoundary w => isIn w before == isIn w behind
  | wordStart w => !isIn w before && isIn w behind
  | wordEnd w => isIn w before && !isIn w behind
  | wordStartHalf w => !isIn w before
  | wordEndHalf w => !isIn w behind

end Regex

/-- A pattern. Groups leave no trace, and neither does the preference for long or short
repetitions, because only the existence of a match is asked for. -/
inductive Regex where
  | empty
  | set (chars : Regex.CharSet)
  | look (condition : Regex.Look)
  | seq (r s : Regex)
  | alt (r s : Regex)
  | star (r : Regex)
  /-- The pattern `n` times. -/
  | exactly (r : Regex) (n : Nat)
  /-- The pattern at most `n` times. -/
  | upTo (r : Regex) (n : Nat)
  deriving DecidableEq, Repr, Inhabited

namespace Regex

/-- Marks of the places of a text: one before each character and one at the end. -/
abbrev Marks := List Bool

/-- The marks of two sets together. -/
def orMarks (a b : Marks) : Marks := List.zipWith (· || ·) a b

/-- The marks of the places that satisfy a condition; `before` is the character in front. -/
def lookMarks (look : Look) (before : Option Char) : List Char → Marks → Marks
  | _, [] => []
  | [], m :: _ => [m && look.holds before none]
  | c :: rest, m :: marks => (m && look.holds before (some c)) :: lookMarks look (some c) rest marks

/-- The marks moved over one character of the set. -/
def setMarks (set : CharSet) (text : List Char) (marks : Marks) : Marks :=
  false :: List.zipWith (fun m c => m && set.contains c) marks text

/-- The marks spread over characters of the set; `spread` says whether the place in front is
marked and its character is in the set. -/
def sweepMarks (set : CharSet) (spread : Bool) : List Char → Marks → Marks
  | _, [] => []
  | [], m :: _ => [m || spread]
  | c :: rest, m :: marks =>
    (m || spread) :: sweepMarks set ((m || spread) && set.contains c) rest marks

/-- Adds what `f` makes of the marks, again and again, until nothing new comes or `n` turns are
over. -/
def spreadMarks (f : Marks → Marks) : Nat → Marks → Marks
  | 0, marks => marks
  | n + 1, marks =>
    let more := orMarks marks (f marks)
    if more = marks then marks else spreadMarks f n more

/-- Applies `f` to the marks `n` times; without marks there is nothing to do. -/
def repeatMarks (f : Marks → Marks) : Nat → Marks → Marks
  | 0, marks => marks
  | n + 1, marks => if marks.all (fun m => !m) then marks else repeatMarks f n (f marks)

/-- Moves the marks of a text's places over the pattern. -/
def advance (text : List Char) : Regex → Marks → Marks
  | empty, marks => marks
  | set chars, marks => setMarks chars text marks
  | look condition, marks => lookMarks condition none text marks
  | seq r s, marks => advance text s (advance text r marks)
  | alt r s, marks => orMarks (advance text r marks) (advance text s marks)
  | star (set chars), marks => sweepMarks chars false text marks
  | star r, marks => spreadMarks (advance text r) (text.length + 1) marks
  | exactly r n, marks => repeatMarks (advance text r) n marks
  | upTo r n, marks => spreadMarks (advance text r) n marks

/-- Whether the pattern matches somewhere in the text. -/
def isMatch (r : Regex) (text : List Char) : Bool :=
  (advance text r (List.replicate (text.length + 1) true)).any id

/-- A sequence of patterns. -/
def sequence : List Regex → Regex
  | [] => empty
  | [r] => r
  | r :: rest => seq r (sequence rest)

/-- A choice between patterns. -/
def choice : List Regex → Regex
  | [] => empty
  | [r] => r
  | r :: rest => alt r (choice rest)

theorem length_orMarks {a b : Marks} (h : a.length = b.length) :
    (orMarks a b).length = a.length := by
  simp [orMarks, h]

theorem length_lookMarks (look : Look) (before : Option Char) (text : List Char) (marks : Marks)
    (h : marks.length = text.length + 1) :
    (lookMarks look before text marks).length = text.length + 1 := by
  induction text generalizing before marks with
  | nil =>
    cases marks with
    | nil => simp at h
    | cons m rest => simp [lookMarks]
  | cons c rest ih =>
    cases marks with
    | nil => simp at h
    | cons m marks =>
      simp only [lookMarks, List.length_cons]
      rw [ih (some c) marks (by simpa using h)]

theorem length_sweepMarks (set : CharSet) (spread : Bool) (text : List Char) (marks : Marks)
    (h : marks.length = text.length + 1) :
    (sweepMarks set spread text marks).length = text.length + 1 := by
  induction text generalizing spread marks with
  | nil =>
    cases marks with
    | nil => simp at h
    | cons m rest => simp [sweepMarks]
  | cons c rest ih =>
    cases marks with
    | nil => simp at h
    | cons m marks =>
      simp only [sweepMarks, List.length_cons]
      rw [ih _ marks (by simpa using h)]

theorem length_spreadMarks {f : Marks → Marks} {k : Nat}
    (hf : ∀ m : Marks, m.length = k → (f m).length = k) (n : Nat) (marks : Marks)
    (h : marks.length = k) : (spreadMarks f n marks).length = k := by
  induction n generalizing marks with
  | zero => simpa [spreadMarks] using h
  | succ n ih =>
    have hm : (orMarks marks (f marks)).length = k := by
      rw [length_orMarks (h.trans (hf marks h).symm), h]
    simp only [spreadMarks]
    split
    · exact h
    · exact ih _ hm

theorem length_repeatMarks {f : Marks → Marks} {k : Nat}
    (hf : ∀ m : Marks, m.length = k → (f m).length = k) (n : Nat) (marks : Marks)
    (h : marks.length = k) : (repeatMarks f n marks).length = k := by
  induction n generalizing marks with
  | zero => simpa [repeatMarks] using h
  | succ n ih =>
    simp only [repeatMarks]
    split
    · exact h
    · exact ih _ (hf marks h)

/-- A pattern keeps one mark for each place. -/
theorem length_advance (text : List Char) (r : Regex) (marks : Marks)
    (h : marks.length = text.length + 1) : (advance text r marks).length = text.length + 1 := by
  induction r generalizing marks with
  | empty => exact h
  | set chars => simp [advance, setMarks, h]
  | look condition => exact length_lookMarks _ _ _ _ h
  | seq r s ihr ihs => exact ihs _ (ihr _ h)
  | alt r s ihr ihs =>
    simp only [advance]
    rw [length_orMarks ((ihr _ h).trans (ihs _ h).symm), ihr _ h]
  | star r ih =>
    cases r with
    | set chars => exact length_sweepMarks _ _ _ _ h
    | _ => exact length_spreadMarks ih _ _ h
  | exactly r n ih => exact length_repeatMarks ih _ _ h
  | upTo r n ih => exact length_spreadMarks ih _ _ h

end Regex

end CodeAtlas
