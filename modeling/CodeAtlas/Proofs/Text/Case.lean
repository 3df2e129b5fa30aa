import CodeAtlas.Text.Case
import Mathlib.Data.List.Infix

/-!
# Lowercase inside a text

Lowercasing looks at the neighbours of a capital sigma only. Any other part of a text becomes the
same in every place, and the same as on its own; a part with a capital sigma does so exactly where
the sigma ends a word of the text if and only if it ends a word of the part. The size of ASCII
letters makes no difference.

Main results:

- Theorem `lowercase_append_append`: what a part becomes stands in the lowercase text.
- Theorem `lowercaseBetween_eq_lowercase_iff`: where a part becomes the same as on its own.
- Theorem `lowercase_infix_of_keepsWordEnds`: there the lowercase part occurs in the lowercase text.
-/

namespace CodeAtlas.Text

/-! ## Words and sigmas -/

/-- A sigma between two texts ends a word: passing over what words may hold inside, a cased letter
stands right before it and none right behind it. -/
def EndsWord (before behind : List Char) : Prop :=
  casedFirst before.reverse = true ∧ casedFirst behind = false

instance (before behind : List Char) : Decidable (EndsWord before behind) :=
  inferInstanceAs (Decidable (_ ∧ _))

/-- Every capital sigma of a part ends a word of the text around it exactly if it ends a word of the
part on its own. -/
def KeepsWordEnds (before part behind : List Char) : Prop :=
  ∀ front back, part = front ++ 'Σ' :: back →
    (EndsWord (before ++ front) (back ++ behind) ↔ EndsWord front back)

/-- A cased letter comes first if it is the first character that is not passed over. -/
theorem casedFirst_cons (c : Char) (cs : List Char) :
    casedFirst (c :: cs) = if isCaseIgnorable c then casedFirst cs else isCased c := by
  by_cases hc : isCaseIgnorable c = true
  · simp [casedFirst, hc]
  · simp [casedFirst, hc]

/-- Behind a text that no cased letter follows, nothing changes what comes first in it. -/
theorem casedFirst_append {cs ds : List Char} (h : casedFirst ds = false) :
    casedFirst (cs ++ ds) = casedFirst cs := by
  induction cs with
  | nil => exact h
  | cons c cs ih => rw [List.cons_append, casedFirst_cons, casedFirst_cons, ih]

/-- A part without a capital sigma has no word end to keep. -/
theorem keepsWordEnds_of_not_mem {part : List Char} (h : 'Σ' ∉ part) (before behind : List Char) :
    KeepsWordEnds before part behind := by
  intro front back hpart
  exact absurd (hpart ▸ List.mem_append_right front List.mem_cons_self) h

/-- A part that does not stand inside of a word keeps its word ends. -/
theorem keepsWordEnds_of_apart {before behind : List Char}
    (hbefore : casedFirst before.reverse = false) (hbehind : casedFirst behind = false)
    (part : List Char) : KeepsWordEnds before part behind := by
  intro front back _
  rw [EndsWord, List.reverse_append, casedFirst_append hbefore, casedFirst_append hbehind, EndsWord]

/-! ## A character in its place -/

/-- What a character becomes between what stands before it, last character first, and what stands
behind it. -/
def lowerAt (before : List Char) (c : Char) (behind : List Char) : List Char :=
  if c.toNat = 0x3A3 then
    if casedFirst before && !casedFirst behind then [Char.ofNat 0x3C2] else [Char.ofNat 0x3C3]
  else lowerChar c

/-- A text is lowercased character by character. -/
theorem lowercaseFrom_cons (before : List Char) (c : Char) (rest : List Char) :
    lowercaseFrom before (c :: rest) = lowerAt before c rest ++ lowercaseFrom (c :: before) rest :=
  rfl

/-- A sigma that ends a word becomes the final one, any other sigma the usual one. -/
theorem lowerAt_sigma (before behind : List Char) :
    lowerAt before.reverse 'Σ' behind = if EndsWord before behind then ['ς'] else ['σ'] := by
  have hsigma : lowerAt before.reverse 'Σ' behind =
      if casedFirst before.reverse && !casedFirst behind then ['ς'] else ['σ'] := rfl
  have hends : EndsWord before behind ↔
      (casedFirst before.reverse && !casedFirst behind) = true := by
    rw [Bool.and_eq_true, Bool.not_eq_true', EndsWord]
  rw [hsigma, if_congr hends rfl rfl]

/-- Any other character becomes the same in every place. -/
theorem lowerAt_of_ne {c : Char} (h : c ≠ 'Σ') (before behind : List Char) :
    lowerAt before c behind = lowerChar c := by
  rw [lowerAt, if_neg]
  intro hnat
  exact h (Char.toNat_inj.1 hnat)

/-- How many characters a character becomes does not depend on its place. -/
theorem length_lowerAt (before before' : List Char) (c : Char) (behind behind' : List Char) :
    (lowerAt before c behind).length = (lowerAt before' c behind').length := by
  unfold lowerAt
  split
  · split <;> split <;> rfl
  · rfl

/-- A character becomes the same in two places exactly if it is no sigma or ends a word in both of
them or in none. -/
theorem lowerAt_eq_lowerAt_iff {before before' behind behind' : List Char} {c : Char} :
    lowerAt before.reverse c behind = lowerAt before'.reverse c behind' ↔
      (c = 'Σ' → (EndsWord before behind ↔ EndsWord before' behind')) := by
  by_cases hc : c = 'Σ'
  · subst hc
    rw [lowerAt_sigma, lowerAt_sigma]
    by_cases hend : EndsWord before behind <;> by_cases hend' : EndsWord before' behind' <;>
      simp [hend, hend']
  · rw [lowerAt_of_ne hc, lowerAt_of_ne hc]
    simp [hc]

/-! ## A part in its place -/

/-- What a part becomes between what stands before it, last character first, and what stands behind
it. -/
def lowercaseBetween (before : List Char) : List Char → List Char → List Char
  | [], _ => []
  | c :: rest, behind =>
    lowerAt before c (rest ++ behind) ++ lowercaseBetween (c :: before) rest behind

/-- Two parts in a row are lowercased one after the other, each in its place. -/
theorem lowercaseFrom_append (before part behind : List Char) :
    lowercaseFrom before (part ++ behind) =
      lowercaseBetween before part behind ++ lowercaseFrom (part.reverse ++ before) behind := by
  induction part generalizing before with
  | nil => rfl
  | cons c rest ih =>
    rw [List.cons_append, lowercaseFrom_cons, ih, lowercaseBetween, List.append_assoc,
      List.reverse_cons, List.append_assoc, List.singleton_append]

/-- Where nothing follows, the rest of a text is lowercased. -/
theorem lowercaseBetween_nil (before part : List Char) :
    lowercaseBetween before part [] = lowercaseFrom before part := by
  have happend := lowercaseFrom_append before part []
  rwa [List.append_nil, lowercaseFrom, List.append_nil, eq_comm] at happend

/-- What a part becomes stands in the lowercase text. -/
theorem lowercase_append_append (before part behind : List Char) :
    lowercase (before ++ part ++ behind) =
      lowercaseBetween [] before (part ++ behind) ++
        lowercaseBetween before.reverse part behind ++
          lowercaseFrom (part.reverse ++ before.reverse) behind := by
  rw [lowercase, List.append_assoc, lowercaseFrom_append, lowercaseFrom_append, List.append_nil,
    List.append_assoc]

/-- A part becomes the same behind two texts exactly if all its sigmas end words in both places
alike. -/
theorem lowercaseBetween_eq_iff (before front part behind : List Char) :
    lowercaseBetween (before ++ front).reverse part behind =
        lowercaseBetween front.reverse part [] ↔
      ∀ inner back, part = inner ++ 'Σ' :: back →
        (EndsWord (before ++ front ++ inner) (back ++ behind) ↔
          EndsWord (front ++ inner) back) := by
  induction part generalizing front with
  | nil => simp [lowercaseBetween]
  | cons c rest ih =>
    have hnext := ih (front ++ [c])
    rw [← List.append_assoc, List.reverse_concat, List.reverse_concat] at hnext
    rw [lowercaseBetween, lowercaseBetween]
    constructor
    · intro heq inner back hpart
      obtain ⟨hhead, htail⟩ := List.append_inj heq (length_lowerAt _ _ _ _ _)
      cases inner with
      | nil =>
        obtain ⟨rfl, rfl⟩ := List.cons.inj hpart
        simpa using lowerAt_eq_lowerAt_iff.1 hhead rfl
      | cons d inner =>
        obtain ⟨rfl, rfl⟩ := List.cons.inj hpart
        simpa using hnext.1 htail inner back rfl
    · intro hends
      have hhead : lowerAt (before ++ front).reverse c (rest ++ behind) =
          lowerAt front.reverse c (rest ++ []) := by
        refine lowerAt_eq_lowerAt_iff.2 (fun hc => ?_)
        simpa using hends [] rest (by rw [hc]; rfl)
      have htail := hnext.2 (fun inner back hrest => by
        simpa using hends (c :: inner) back (by rw [hrest]; rfl))
      rw [hhead, htail]

/-- A part becomes the same as on its own exactly where it keeps its word ends. -/
theorem lowercaseBetween_eq_lowercase_iff (before part behind : List Char) :
    lowercaseBetween before.reverse part behind = lowercase part ↔
      KeepsWordEnds before part behind := by
  have hiff := lowercaseBetween_eq_iff before [] part behind
  simp only [List.append_nil, List.nil_append, List.reverse_nil, lowercaseBetween_nil] at hiff
  exact hiff

/-! ## The size of ASCII letters -/

/-- An ASCII letter of either size, by its code point. -/
def IsAsciiLetter (n : Nat) : Prop := (65 ≤ n ∧ n ≤ 90) ∨ (97 ≤ n ∧ n ≤ 122)

instance (n : Nat) : Decidable (IsAsciiLetter n) := inferInstanceAs (Decidable (_ ∨ _))

/-- Whether no ASCII letter is in any of some runs. -/
def apartFromLetters (runs : List (Nat × Nat)) : Bool :=
  runs.all (fun run => run.2 < 65 || (90 < run.1 && run.2 < 97) || 122 < run.1)

theorem any_run_eq_false {runs : List (Nat × Nat)} (hruns : apartFromLetters runs = true) {n : Nat}
    (hn : IsAsciiLetter n) : runs.any (fun run => run.1 ≤ n && n ≤ run.2) = false := by
  rw [List.any_eq_false]
  intro run hrun
  have hapart := List.all_eq_true.1 hruns run hrun
  simp only [Bool.or_eq_true, Bool.and_eq_true, decide_eq_true_eq] at hapart ⊢
  rcases hn with hn | hn <;> omega

/-- Words do not pass over ASCII letters. -/
theorem isCaseIgnorable_of_letter {c : Char} (h : IsAsciiLetter c.toNat) :
    isCaseIgnorable c = false := by
  have hruns : ∀ runs ∈ [caseIgnorableRuns, Category.nonspacingMarkRuns, Category.enclosingMarkRuns,
      Category.formatRuns, Category.modifierLetterRuns, Category.modifierSymbolRuns],
      apartFromLetters runs = true := by
    decide +kernel
  simp only [List.forall_mem_cons] at hruns
  obtain ⟨hextra, hmark, henclosing, hformat, hletter, hsymbol, -⟩ := hruns
  simp only [isCaseIgnorable, hasCategory, Category.holds, Category.runs, Category.alternating,
    any_run_eq_false hextra h, any_run_eq_false hmark h, any_run_eq_false henclosing h,
    any_run_eq_false hformat h, any_run_eq_false hletter h, any_run_eq_false hsymbol h,
    List.any_nil, Bool.or_self]

/-- What lowercasing an ASCII letter makes of a character can be tried out on the ASCII characters, as
all others stay. -/
theorem toLower_cases {P : Char → Char → Prop}
    (hascii : ∀ n < 128, P (Char.ofNat n) (Char.ofNat n).toLower)
    (hother : ∀ c : Char, 128 ≤ c.toNat → P c c) (c : Char) : P c c.toLower := by
  by_cases hc : c.toNat < 128
  · simpa only [Char.ofNat_toNat] using hascii c.toNat hc
  · have hsame : c.toLower = c := by
      refine dif_neg (fun hupper => hc ?_)
      have hle : c.toNat ≤ 90 := hupper.2
      omega
    rw [hsame]
    exact hother c (Nat.le_of_not_lt hc)

/-- Lowercasing an ASCII letter changes its size only; any other character stays. -/
theorem toLower_eq_self_or_letters (c : Char) :
    c.toLower = c ∨ IsAsciiLetter c.toNat ∧ IsAsciiLetter c.toLower.toNat := by
  refine toLower_cases (P := fun c d => d = c ∨ IsAsciiLetter c.toNat ∧ IsAsciiLetter d.toNat) ?_
    (fun _ _ => Or.inl rfl) c
  decide +kernel

/-- The size of a letter makes no difference to words. -/
theorem isCaseIgnorable_toLower (c : Char) : isCaseIgnorable c.toLower = isCaseIgnorable c := by
  rcases toLower_eq_self_or_letters c with hsame | ⟨hletter, hlower⟩
  · rw [hsame]
  · rw [isCaseIgnorable_of_letter hletter, isCaseIgnorable_of_letter hlower]

/-- The size of a letter makes no difference to whether it is cased, and to what it becomes. -/
theorem case_toLower (c : Char) :
    isCased c.toLower = isCased c ∧ (c.toLower = 'Σ' ↔ c = 'Σ') ∧
      lowerChar c.toLower = lowerChar c := by
  refine toLower_cases (P := fun c d => isCased d = isCased c ∧ (d = 'Σ' ↔ c = 'Σ') ∧
    lowerChar d = lowerChar c) ?_ (fun _ _ => ⟨rfl, Iff.rfl, rfl⟩) c
  decide +kernel

/-- The size of the letters makes no difference to which one comes first. -/
theorem casedFirst_cons_toLower (c : Char) {cs ds : List Char} (h : casedFirst cs = casedFirst ds) :
    casedFirst (c.toLower :: cs) = casedFirst (c :: ds) := by
  rw [casedFirst_cons, casedFirst_cons, isCaseIgnorable_toLower, (case_toLower c).1, h]

/-- The size of the letters behind a part makes no difference to which one comes first there. -/
theorem casedFirst_asciiLowercase_append (cs ds : List Char) :
    casedFirst (asciiLowercase cs ++ ds) = casedFirst (cs ++ ds) := by
  induction cs with
  | nil => rfl
  | cons c cs ih => exact casedFirst_cons_toLower c ih

/-- A character becomes what its small form becomes. -/
theorem lowerAt_toLower (c : Char) {before before' behind behind' : List Char}
    (hbefore : casedFirst before = casedFirst before')
    (hbehind : casedFirst behind = casedFirst behind') :
    lowerAt before c.toLower behind = lowerAt before' c behind' := by
  obtain ⟨-, hsigma, hlower⟩ := case_toLower c
  by_cases hc : c = 'Σ'
  · rw [hsigma.2 hc, hc, lowerAt, lowerAt, hbefore, hbehind]
  · rw [lowerAt_of_ne hc, lowerAt_of_ne (fun h => hc (hsigma.1 h)), hlower]

/-- A part becomes the same in either size of its ASCII letters. -/
theorem lowercaseBetween_asciiLowercase (part behind : List Char) {before before' : List Char}
    (h : casedFirst before = casedFirst before') :
    lowercaseBetween before (asciiLowercase part) behind =
      lowercaseBetween before' part behind := by
  induction part generalizing before before' with
  | nil => rfl
  | cons c rest ih =>
    have hbehind := casedFirst_asciiLowercase_append rest behind
    have hhead := lowerAt_toLower c h hbehind
    have htail := ih (casedFirst_cons_toLower c h)
    have hsmall : asciiLowercase (c :: rest) = c.toLower :: asciiLowercase rest := rfl
    rw [hsmall, lowercaseBetween, lowercaseBetween, hhead, htail]

/-! ## Occurrences -/

/-- Where a part keeps its word ends and is the same but for the size of ASCII letters, the
lowercase part occurs in the lowercase text. -/
theorem lowercase_infix_of_keepsWordEnds {before found behind part : List Char}
    (hsame : asciiLowercase found = asciiLowercase part)
    (hends : KeepsWordEnds before part behind) :
    lowercase part <:+: lowercase (before ++ found ++ behind) := by
  have hfound : lowercaseBetween before.reverse found behind = lowercase part := by
    calc lowercaseBetween before.reverse found behind
        = lowercaseBetween before.reverse (asciiLowercase found) behind :=
          (lowercaseBetween_asciiLowercase found behind rfl).symm
      _ = lowercaseBetween before.reverse (asciiLowercase part) behind := by rw [hsame]
      _ = lowercaseBetween before.reverse part behind :=
          lowercaseBetween_asciiLowercase part behind rfl
      _ = lowercase part := (lowercaseBetween_eq_lowercase_iff before part behind).2 hends
  rw [lowercase_append_append, hfound]
  exact List.infix_append _ _ _

end CodeAtlas.Text
