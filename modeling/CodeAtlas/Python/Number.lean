import CodeAtlas.Text.Digit

/-!
# Numerals

How far a numeral reaches at the start of a text. Integers may have a base, a mark of length or an
imaginary unit; a number with a point or an exponent is a floating-point number. Underscores may
stand between digits. The longest reading counts.

Main statement: `numeral?_pos`, a numeral is never empty.
-/

namespace CodeAtlas.Python

/-- The length of a sequence of digits, each run of which may end in an underscore. -/
def digitRun : List Char → Nat
  | [] => 0
  | c :: rest =>
    if c.isDigit then
      match rest with
      | '_' :: _ => digitRun.afterUnderscore rest
      | _ => digitRun rest + 1
    else 0
where
  /-- The length of the digit before an underscore, the underscore and what follows. -/
  afterUnderscore : List Char → Nat
    | [] => 1
    | _ :: rest => digitRun rest + 2

/-- The length of a sequence of digits of a base, each run of which may start with an
underscore. -/
def basedRun (isDigit : Char → Bool) : List Char → Nat
  | [] => 0
  | '_' :: c :: rest => if isDigit c then basedRun isDigit rest + 2 else 0
  | c :: rest => if isDigit c then basedRun isDigit rest + 1 else 0

/-- The length of an optional letter at the start of a text. -/
def suffixLength (letters : List Char) : List Char → Nat
  | [] => 0
  | c :: _ => if letters.contains c then 1 else 0

/-- The length of digits with a base, whose mark has two characters. -/
def basedLength (isDigit : Char → Bool) (cs : List Char) : Option Nat :=
  let n := basedRun isDigit (cs.drop 2)
  if n = 0 then none else some (n + 2 + suffixLength ['l', 'L'] (cs.drop (n + 2)))

/-- The length of an integer with a base. -/
def basedInteger : List Char → Option Nat
  | cs@('0' :: mark :: _) =>
    if mark = 'x' ∨ mark = 'X' then basedLength (Text.isDigitOf 16) cs
    else if mark = 'o' ∨ mark = 'O' then basedLength (Text.isDigitOf 8) cs
    else if mark = 'b' ∨ mark = 'B' then basedLength (Text.isDigitOf 2) cs
    else none
  | _ => none

/-- The length of an integer; zero if there is none. -/
def integerLength (cs : List Char) : Nat :=
  match basedInteger cs with
  | some n => n
  | none =>
    let n := digitRun cs
    if n = 0 then 0 else n + suffixLength ['l', 'L', 'j', 'J'] (cs.drop n)

/-- The length of an exponent; zero if there is none. -/
def exponentLength : List Char → Nat
  | e :: rest =>
    if e = 'e' ∨ e = 'E' then
      let sign := suffixLength ['+', '-'] rest
      let n := digitRun (rest.drop sign)
      if n = 0 then 0 else n + sign + 1
    else 0
  | [] => 0

/-- The length of a floating-point number; zero if there is none. -/
def floatLength (cs : List Char) : Nat :=
  let whole := digitRun cs
  let pointed :=
    match cs.drop whole with
    | '.' :: rest =>
      let part := digitRun rest
      if whole = 0 ∧ part = 0 then 0
      else whole + 1 + part + exponentLength (rest.drop part)
    | rest =>
      let e := exponentLength rest
      if whole = 0 ∨ e = 0 then 0 else whole + e
  if pointed = 0 then 0 else pointed + suffixLength ['j', 'J'] (cs.drop pointed)

/-- The kinds of numerals. -/
inductive NumeralKind where
  | integer
  | float
  deriving DecidableEq, Repr

/-- The numeral that a text starts with: its kind and its length. -/
def numeral? (cs : List Char) : Option (NumeralKind × Nat) :=
  let i := integerLength cs
  let f := floatLength cs
  if i < f then some (.float, f)
  else if i = 0 then none
  else some (.integer, i)

theorem numeral?_pos {cs : List Char} {kind : NumeralKind} {n : Nat}
    (h : numeral? cs = some (kind, n)) : 0 < n := by
  simp only [numeral?] at h
  split at h
  · simp only [Option.some.injEq, Prod.mk.injEq] at h
    omega
  · split at h
    · cases h
    · simp only [Option.some.injEq, Prod.mk.injEq] at h
      omega

/-- An exponent needs digits, and a point needs a digit on one side. -/
example : numeral? "1e5j+".toList = some (.float, 4) ∧ numeral? "1e".toList = some (.integer, 1) ∧
    numeral? "0x_fL".toList = some (.integer, 5) ∧ numeral? ".".toList = none ∧
    numeral? "1_0.".toList = some (.float, 4) ∧ numeral? "1__0".toList = some (.integer, 2) := by
  decide +kernel

end CodeAtlas.Python
