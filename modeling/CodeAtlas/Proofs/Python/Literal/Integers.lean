import CodeAtlas.Python.Literal.Integer
import Mathlib.Data.Nat.Digits.Defs

/-!
# Integers in their notations

An integer is written in one of four bases, with letters of either case and with underscores
between its digits. Its value is that of the digits by their positions. Underscores and case are
dropped before a literal is read, and what is left is the mark of the base with one character for
each digit, so literals of the same value are shown by the same decimal numeral.

Main results:

- Theorem `canonicalDecimal_toString`: the numeral of a number has no leading zeros.
- Theorem `digitsFrom_map_digitChar`: reading digits from the left gives their value by positions.
- Theorem `Denotes.baseAndDigits_spelled`: what is left of a literal without underscores and case.
- Theorem `integerText_canonical`: how the literals of a value are shown, with and without a suffix.
-/

namespace CodeAtlas.Python.Literal

/-! ## Notations -/

/-- Digits of a base as they are written, from the first one on: in either case, with single
underscores between some of them. -/
inductive Grouped (base : Nat) : List Char → List Nat → Prop where
  | last {c : Char} {d : Nat} (hd : d < base) (hc : c.toLower = Nat.digitChar d) :
      Grouped base [c] [d]
  | next {c : Char} {d : Nat} {cs : List Char} {ds : List Nat} (hd : d < base)
      (hc : c.toLower = Nat.digitChar d) (hrest : Grouped base cs ds) :
      Grouped base (c :: cs) (d :: ds)
  | underscore {c : Char} {d : Nat} {cs : List Char} {ds : List Nat} (hd : d < base)
      (hc : c.toLower = Nat.digitChar d) (hrest : Grouped base cs ds) :
      Grouped base (c :: '_' :: cs) (d :: ds)

/-- A letter behind a leading zero, in either case, is the mark of a base. -/
inductive Marks : Char → Nat → Prop where
  | hexadecimal {mark : Char} (h : mark = 'x' ∨ mark = 'X') : Marks mark 16
  | octal {mark : Char} (h : mark = 'o' ∨ mark = 'O') : Marks mark 8
  | binary {mark : Char} (h : mark = 'b' ∨ mark = 'B') : Marks mark 2

/-- The number that digits of a base stand for by their positions, the last one for the units. -/
def positional (base : Nat) (ds : List Nat) : Nat := Nat.ofDigits base ds.reverse

/-- An integer literal without a suffix, and its value. -/
inductive Denotes : List Char → Nat → Prop where
  /-- Without a mark the digits are decimal, also behind leading zeros. -/
  | decimal {cs : List Char} {ds : List Nat} (h : Grouped 10 cs ds) :
      Denotes cs (positional 10 ds)
  | based {mark : Char} {base : Nat} {cs : List Char} {ds : List Nat} (hmark : Marks mark base)
      (h : Grouped base cs ds) : Denotes ('0' :: mark :: cs) (positional base ds)
  /-- An underscore may stand between the mark and the digits too. -/
  | spaced {mark : Char} {base : Nat} {cs : List Char} {ds : List Nat} (hmark : Marks mark base)
      (h : Grouped base cs ds) : Denotes ('0' :: mark :: '_' :: cs) (positional base ds)

/-- The decimal numeral of a number: digits alone, without leading zeros. -/
structure CanonicalDecimal (n : Nat) (numeral : List Char) : Prop where
  digits : ∀ c ∈ numeral, c.isDigit = true
  nonempty : numeral ≠ []
  noLeadingZero : numeral.head? = some '0' → numeral = ['0']
  value : Nat.ofDigitChars 10 numeral 0 = n

/-! ## Decimal numerals -/

/-- The numeral of a positive number does not start with a zero. -/
theorem head?_toDigits_ne_zero {n : Nat} (hn : 0 < n) :
    (Nat.toDigits 10 n).head? ≠ some '0' := by
  induction n using Nat.strong_induction_on with
  | h n ih =>
    by_cases hlt : n < 10
    · rw [Nat.toDigits_of_lt_base hlt, List.head?_cons, ne_eq, Option.some.injEq,
        Nat.digitChar_eq_zero]
      omega
    · have hquotient : 0 < n / 10 := by omega
      have hhead := ih (n / 10) (by omega) hquotient
      rw [Nat.toDigits_of_base_le (by decide) (by omega)]
      cases hdigits : Nat.toDigits 10 (n / 10) with
      | nil => exact absurd hdigits Nat.toDigits_ne_nil
      | cons c rest => rwa [hdigits] at hhead

/-- The numeral of a number has no leading zeros. -/
theorem canonicalDecimal_toString (n : Nat) : CanonicalDecimal n (toString n).toList := by
  rw [Nat.toString_eq_ofList_toDigits, String.toList_ofList]
  refine ⟨fun c hc => Nat.isDigit_of_mem_toDigits (by decide) (by decide) hc,
    Nat.toDigits_ne_nil, ?_, Nat.ofDigitChars_ten_toDigits⟩
  intro hhead
  by_cases hn : n = 0
  · rw [hn, Nat.toDigits_zero]
  · exact absurd hhead (head?_toDigits_ne_zero (Nat.pos_of_ne_zero hn))

/-! ## Digits -/

/-- The character of a digit is read as that digit. -/
theorem digitValue_digitChar {d : Nat} (hd : d < 16) :
    Text.digitValue (Nat.digitChar d) = some d := by
  have hall : ∀ d < 16, Text.digitValue (Nat.digitChar d) = some d := by decide
  exact hall d hd

theorem digitBelow_digitChar {base d : Nat} (hbase : base ≤ 16) (hd : d < base) :
    Text.digitBelow base (Nat.digitChar d) = some d := by
  rw [Text.digitBelow, digitValue_digitChar (Nat.lt_of_lt_of_le hd hbase), Option.filter_some,
    if_pos (decide_eq_true hd)]

/-- Reading digits from the left gives the number that they stand for by their positions. -/
theorem digitsFrom_map_digitChar {base : Nat} (hbase : base ≤ 16) (value : Nat) {ds : List Nat}
    (hds : ∀ d ∈ ds, d < base) :
    Text.digitsFrom base value (ds.map Nat.digitChar) =
      some (value * base ^ ds.length + positional base ds) := by
  induction ds generalizing value with
  | nil => simp [Text.digitsFrom, positional]
  | cons d ds ih =>
    obtain ⟨hd, hds⟩ := List.forall_mem_cons.1 hds
    have hpositional : positional base (d :: ds) = positional base ds + base ^ ds.length * d := by
      simp [positional, Nat.ofDigits_append]
    rw [List.map_cons, Text.digitsFrom, digitBelow_digitChar hbase hd]
    simp only [ih (value * base + d) hds, hpositional, List.length_cons, Option.some.injEq]
    ring

theorem digits?_map_digitChar {base : Nat} (hbase : base ≤ 16) {ds : List Nat} (hne : ds ≠ [])
    (hds : ∀ d ∈ ds, d < base) :
    Text.digits? base (ds.map Nat.digitChar) = some (positional base ds) := by
  have hempty : (ds.map Nat.digitChar).isEmpty = false := by simp [hne]
  rw [Text.digits?, hempty, if_neg Bool.false_ne_true, digitsFrom_map_digitChar hbase 0 hds,
    Nat.zero_mul, Nat.zero_add]

/-- A character that stands for a larger number is no digit of a base. -/
theorem digitBelow_of_le {base v : Nat} {c : Char} (hvalue : Text.digitValue c = some v)
    (hle : base ≤ v) : Text.digitBelow base c = none := by
  rw [Text.digitBelow, hvalue, Option.filter_some, if_neg (by simpa using hle)]

/-- A suffix is no digit of any base. -/
theorem digits?_append_suffix {base : Nat} (hbase : base ≤ 16) {ds : List Nat}
    (hds : ∀ d ∈ ds, d < base) {suffix : Char} (hsuffix : suffix = 'j' ∨ suffix = 'l') :
    Text.digits? base (ds.map Nat.digitChar ++ [suffix]) = none := by
  have hvalue : Text.digitBelow base suffix = none := by
    rcases hsuffix with rfl | rfl
    · exact digitBelow_of_le (by decide : Text.digitValue 'j' = some 19) (by omega)
    · exact digitBelow_of_le (by decide : Text.digitValue 'l' = some 21) (by omega)
  rw [Text.digits?, Text.digitsFrom_append, digitsFrom_map_digitChar hbase 0 hds,
    Option.bind_some, Text.digitsFrom, hvalue]
  simp

/-! ## Literals without underscores and case -/

/-- What is left of a text without its underscores and the case of its letters. -/
def spelled (cs : List Char) : List Char := Text.asciiLowercase (cs.filter (· ≠ '_'))

theorem spelled_cons {c : Char} (hc : c ≠ '_') (cs : List Char) :
    spelled (c :: cs) = c.toLower :: spelled cs := by
  simp [spelled, Text.asciiLowercase, hc]

theorem spelled_underscore (cs : List Char) : spelled ('_' :: cs) = spelled cs := by
  simp [spelled]

theorem spelled_append (cs ds : List Char) : spelled (cs ++ ds) = spelled cs ++ spelled ds := by
  simp [spelled, Text.asciiLowercase]

/-- A suffix is `j` or `l` when case is dropped, and never an underscore. -/
theorem spelled_suffix {suffix : Char} (h : suffix ∈ ['j', 'J', 'l', 'L']) :
    spelled [suffix] = [suffix.toLower] ∧ (suffix.toLower = 'j' ∨ suffix.toLower = 'l') := by
  simp only [List.mem_cons, List.not_mem_nil, or_false] at h
  rcases h with rfl | rfl | rfl | rfl <;> decide

/-- No digit is written as an underscore. -/
theorem ne_underscore {c : Char} {d : Nat} (hd : d < 16) (hc : c.toLower = Nat.digitChar d) :
    c ≠ '_' := by
  rintro rfl
  have hall : ∀ d < 16, Char.toLower '_' ≠ Nat.digitChar d := by decide
  exact hall d hd hc

/-- Of grouped digits one character is left for each digit. -/
theorem Grouped.spelled_eq {base : Nat} (hbase : base ≤ 16) {cs : List Char} {ds : List Nat}
    (h : Grouped base cs ds) :
    spelled cs = ds.map Nat.digitChar ∧ ds ≠ [] ∧ ∀ d ∈ ds, d < base := by
  induction h with
  | last hd hc =>
    refine ⟨?_, List.cons_ne_nil _ _, by simpa using hd⟩
    rw [spelled_cons (ne_underscore (by omega) hc), hc]
    rfl
  | next hd hc _ ih =>
    refine ⟨?_, List.cons_ne_nil _ _, List.forall_mem_cons.2 ⟨hd, ih.2.2⟩⟩
    rw [spelled_cons (ne_underscore (by omega) hc), ih.1, hc, List.map_cons]
  | underscore hd hc _ ih =>
    refine ⟨?_, List.cons_ne_nil _ _, List.forall_mem_cons.2 ⟨hd, ih.2.2⟩⟩
    rw [spelled_cons (ne_underscore (by omega) hc), spelled_underscore, ih.1, hc, List.map_cons]

/-- A mark is no underscore, and its lowercase form is the one that is looked for. -/
theorem Marks.baseAndDigits_cons {mark : Char} {base : Nat} (h : Marks mark base)
    (rest : List Char) :
    base ≤ 16 ∧ mark ≠ '_' ∧ baseAndDigits ('0' :: mark.toLower :: rest) = (base, rest) := by
  cases h with
  | hexadecimal h => rcases h with rfl | rfl <;> exact ⟨by decide, by decide, rfl⟩
  | octal h => rcases h with rfl | rfl <;> exact ⟨by decide, by decide, rfl⟩
  | binary h => rcases h with rfl | rfl <;> exact ⟨by decide, by decide, rfl⟩

/-- Behind a mark the base is known, and what is left of the rest are its digits. -/
theorem Marks.baseAndDigits_spelled {mark : Char} {base : Nat} (h : Marks mark base)
    (cs behind : List Char) :
    baseAndDigits (spelled ('0' :: mark :: cs) ++ behind) = (base, spelled cs ++ behind) := by
  obtain ⟨-, hmark, hread⟩ := h.baseAndDigits_cons (spelled cs ++ behind)
  have hzero : Char.toLower '0' = '0' := by decide
  rw [spelled_cons (by decide), spelled_cons hmark, hzero]
  exact hread

/-- Decimal digits have no mark behind the first one, with or without a suffix. -/
theorem baseAndDigits_decimal {ds : List Nat} (hne : ds ≠ []) (hds : ∀ d ∈ ds, d < 10)
    {behind : List Char} (hbehind : ∀ c ∈ behind.head?, c ≠ 'x' ∧ c ≠ 'o' ∧ c ≠ 'b') :
    baseAndDigits (ds.map Nat.digitChar ++ behind) = (10, ds.map Nat.digitChar ++ behind) := by
  have hsecond : ∀ c ∈ ((ds.map Nat.digitChar ++ behind).drop 1).head?,
      c ≠ 'x' ∧ c ≠ 'o' ∧ c ≠ 'b' := by
    match ds with
    | [] => contradiction
    | [d] => exact hbehind
    | d :: e :: rest =>
      have he : e < 10 := hds e (by simp)
      intro c hc
      obtain rfl : Nat.digitChar e = c := by simpa using hc
      have hall : ∀ e < 10, Nat.digitChar e ≠ 'x' ∧ Nat.digitChar e ≠ 'o' ∧
        Nat.digitChar e ≠ 'b' := by decide
      exact hall e he
  generalize ds.map Nat.digitChar ++ behind = cs at hsecond ⊢
  unfold baseAndDigits
  split
  · exact absurd rfl (hsecond 'x' rfl).1
  · exact absurd rfl (hsecond 'o' rfl).2.1
  · exact absurd rfl (hsecond 'b' rfl).2.2
  · rfl

/-- Without underscores and case a literal is the mark of its base and one character for each digit,
and what stands behind it leaves base and digits as they are. -/
theorem Denotes.baseAndDigits_spelled {cs : List Char} {value : Nat} (h : Denotes cs value) :
    ∃ base ds, base ≤ 16 ∧ ds ≠ [] ∧ (∀ d ∈ ds, d < base) ∧ value = positional base ds ∧
      ∀ behind, (∀ c ∈ behind.head?, c ≠ 'x' ∧ c ≠ 'o' ∧ c ≠ 'b') →
        baseAndDigits (spelled cs ++ behind) = (base, ds.map Nat.digitChar ++ behind) := by
  cases h with
  | @decimal _ ds h =>
    obtain ⟨hspelled, hne, hds⟩ := h.spelled_eq (by decide)
    refine ⟨10, ds, by decide, hne, hds, rfl, ?_⟩
    intro behind hbehind
    rw [hspelled]
    exact baseAndDigits_decimal hne hds hbehind
  | @based mark base rest ds hmark h =>
    have hbase := (hmark.baseAndDigits_cons []).1
    obtain ⟨hspelled, hne, hds⟩ := h.spelled_eq hbase
    refine ⟨base, ds, hbase, hne, hds, rfl, ?_⟩
    intro behind _
    rw [hmark.baseAndDigits_spelled, hspelled]
  | @spaced mark base rest ds hmark h =>
    have hbase := (hmark.baseAndDigits_cons []).1
    obtain ⟨hspelled, hne, hds⟩ := h.spelled_eq hbase
    refine ⟨base, ds, hbase, hne, hds, rfl, ?_⟩
    intro behind _
    rw [hmark.baseAndDigits_spelled, spelled_underscore, hspelled]

/-! ## How literals are shown -/

/-- The value of a literal is worked out if it is below the limit. -/
theorem Denotes.integerValue?_eq {cs : List Char} {value : Nat} (h : Denotes cs value) :
    integerValue? cs = if value < valueLimit then some value else none := by
  obtain ⟨base, ds, hbase, hne, hds, rfl, hread⟩ := h.baseAndDigits_spelled
  have hread := hread [] (by simp)
  rw [List.append_nil, List.append_nil, spelled] at hread
  simp only [integerValue?, hread, digits?_map_digitChar hbase hne hds,
    Option.filter_some, decide_eq_true_eq]

/-- The value of a literal with a suffix is not worked out. -/
theorem Denotes.integerValue?_suffix {cs : List Char} {value : Nat} (h : Denotes cs value)
    {suffix : Char} (hsuffix : suffix ∈ ['j', 'J', 'l', 'L']) :
    integerValue? (cs ++ [suffix]) = none := by
  obtain ⟨base, ds, hbase, -, hds, -, hread⟩ := h.baseAndDigits_spelled
  obtain ⟨hspelled, hcase⟩ := spelled_suffix hsuffix
  have hmarkless : suffix.toLower ≠ 'x' ∧ suffix.toLower ≠ 'o' ∧ suffix.toLower ≠ 'b' := by
    rcases hcase with hcase | hcase <;> rw [hcase] <;> decide
  have hread := hread [suffix.toLower] (by simpa using hmarkless)
  rw [← hspelled, ← spelled_append, hspelled, spelled] at hread
  simp only [integerValue?, hread, digits?_append_suffix hbase hds hcase,
    Option.filter_none]

/-- An integer literal below the limit is shown as the decimal numeral of its value, and so is every
other literal of this value, in whichever notation. One that is not below the limit is shown as it
is written, and so is any literal with a suffix. -/
theorem integerText_canonical {literal : String} {value : Nat}
    (h : Denotes literal.toList value) :
    (value < 2 ^ 127 → CanonicalDecimal value (integerText literal).toList ∧
      ∀ other : String, Denotes other.toList value → integerText other = integerText literal) ∧
    (2 ^ 127 ≤ value → integerText literal = literal) ∧
    ∀ suffix ∈ ['j', 'J', 'l', 'L'], integerText (literal.push suffix) = literal.push suffix := by
  have hshown : ∀ {other : String}, Denotes other.toList value → value < valueLimit →
      integerText other = toString value := by
    intro other hother hlt
    rw [integerText, hother.integerValue?_eq, if_pos hlt]
  refine ⟨?_, ?_, ?_⟩
  · intro hlt
    rw [hshown h hlt]
    exact ⟨canonicalDecimal_toString value, fun other hother => hshown hother hlt⟩
  · intro hle
    have hnot : ¬value < valueLimit := Nat.not_lt.2 hle
    rw [integerText, h.integerValue?_eq, if_neg hnot]
  · intro suffix hsuffix
    rw [integerText, String.toList_push, h.integerValue?_suffix hsuffix]

/-- The last value below the limit, and the first one that is not. -/
example : integerText "0X7fff_ffff_ffff_ffff_FFFF_FFFF_FFFF_FFFF" =
      "170141183460469231731687303715884105727" ∧
    integerText "0x8000_0000_0000_0000_0000_0000_0000_0000" =
      "0x8000_0000_0000_0000_0000_0000_0000_0000" := by
  decide +kernel

/-- The same value in hexadecimal notation and in decimal notation with an underscore. -/
theorem integerText_canonical_thirtyOne :
    Denotes "0X_1f".toList 31 ∧ Denotes "3_1".toList 31 ∧ 31 < 2 ^ 127 ∧
      CanonicalDecimal 31 (integerText "0X_1f").toList ∧
      integerText "3_1" = integerText "0X_1f" ∧ integerText "0X_1fL" = "0X_1fL" := by
  have hhexadecimal : Denotes "0X_1f".toList 31 :=
    Denotes.spaced (Marks.hexadecimal (Or.inr rfl))
      (Grouped.next (d := 1) (by decide) rfl (Grouped.last (d := 15) (by decide) rfl))
  have hdecimal : Denotes "3_1".toList 31 :=
    Denotes.decimal
      (Grouped.underscore (d := 3) (by decide) rfl (Grouped.last (d := 1) (by decide) rfl))
  obtain ⟨hbelow, -, hsuffix⟩ := integerText_canonical hhexadecimal
  obtain ⟨hcanonical, hother⟩ := hbelow (by decide)
  exact ⟨hhexadecimal, hdecimal, by decide, hcanonical, hother "3_1" hdecimal,
    hsuffix 'L' (by decide)⟩

end CodeAtlas.Python.Literal
