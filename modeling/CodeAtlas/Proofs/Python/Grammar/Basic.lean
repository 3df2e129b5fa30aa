import CodeAtlas.Python.Grammar.Block
import Mathlib

/-!
# What readers give

Statements about all that a reader may give, wherever and from whatever tokens it reads. Readers
that fail give nothing. Such statements follow the way a reader is put together, and those about
small readers are the specifications by which larger ones are verified.

Main definition: `Reads`, everything that a reader gives has a property.

Main results:

- Theorems `reads_iff` and `Reads.of_eq_some`: what is read has the property.
- Theorems `reads_many`, `reads_separated` and `reads_bracketed`: items in a row have the properties
  of single items.
-/

namespace CodeAtlas.Python

open Std.Do
open CodeAtlas.Parser (many repeatWhile)

set_option mvcgen.warning false

variable {α : Type} {m : Reader α} {P : α → Prop}

/-- Everything that a reader gives has a property. -/
abbrev Reads (m : Reader α) (P : α → Prop) : Prop := ⦃⌜True⌝⦄ m ⦃⇓? a => ⌜P a⌝⦄

theorem reads_iff : Reads m P ↔ ∀ place ts a rest, m place ts = some (a, rest) → P a := by
  -- from some tokens at a place, what holds behind a reader is what holds of its result
  constructor
  · intro h place ts a rest hm
    have hwp := h place ts trivial
    change (wp⟦m place ts⟧ (_, _)).down at hwp
    rw [hm] at hwp
    exact hwp
  · intro h place ts _
    change (wp⟦m place ts⟧ (_, _)).down
    cases hm : m place ts with
    | none => trivial
    | some result => exact h place ts result.1 result.2 hm

theorem Reads.of_eq_some (h : Reads m P) {place : Place} {ts rest : List Token} {a : α}
    (hm : m place ts = some (a, rest)) : P a :=
  reads_iff.1 h place ts a rest hm

theorem reads_any (m : Reader α) : Reads m (fun _ => True) :=
  reads_iff.2 (fun _ _ _ _ _ => trivial)

@[spec]
theorem reads_failure : Reads (failure : Reader α) P :=
  reads_iff.2 (fun _ _ _ _ h => nomatch h)

/-! ## Repetition -/

/-- What a step keeps is kept by repeating it. -/
theorem reads_repeatWhile {step : α → Reader (Option α)} (rounds : Nat) {a : α}
    (hstep : ∀ a, P a → Reads (step a) (fun b? => ∀ b ∈ b?, P b)) (ha : P a) :
    Reads (repeatWhile step rounds a) P := by
  induction rounds generalizing a with
  | zero => mvcgen [repeatWhile]
  | succ rounds ih =>
    have hfirst := hstep a ha
    unfold repeatWhile
    mvcgen [hfirst]
    intro place ts hb
    exact ih (hb _ rfl) place ts trivial

/-- Items have the properties that one of them has. -/
theorem reads_many {item? : Reader (Option α)} (rounds : Nat)
    (hitem : Reads item? (fun a? => ∀ a ∈ a?, P a)) :
    Reads (many rounds item?) (fun as => ∀ a ∈ as, P a) := by
  have hstep : ∀ done : List α, (∀ a ∈ done, P a) →
      Reads (do return (← item?).map (fun a => a :: done) : Reader (Option (List α)))
        (fun done? => ∀ done ∈ done?, ∀ a ∈ done, P a) := by
    intro done hdone
    mvcgen [hitem]
    simp_all
  have hall := reads_repeatWhile rounds hstep (a := []) (by simp)
  unfold many
  mvcgen [hall]
  simp_all

namespace Grammar

/-! ## Tokens and places -/

@[spec]
theorem reads_token (p : Token → Bool) : Reads (token p) (fun _ => True) := reads_any _

@[spec]
theorem reads_token? (p : Token → Bool) : Reads (token? p) (fun _ => True) := reads_any _

@[spec]
theorem reads_nextIs (p : Token → Bool) : Reads (nextIs p) (fun _ => True) := reads_any _

@[spec]
theorem reads_secondIs (p : Token → Bool) : Reads (secondIs p) (fun _ => True) := reads_any _

@[spec]
theorem reads_peek? : Reads peek? (fun _ => True) := reads_any _

@[spec]
theorem reads_lineEnd : Reads lineEnd (fun _ => True) := reads_any _

@[spec]
theorem reads_joinLine : Reads joinLine (fun _ => True) := reads_any _

@[spec]
theorem reads_putBack (t : Token) : Reads (putBack t) (fun _ => True) := reads_any _

@[spec]
theorem reads_require (condition : Bool) :
    Reads (require condition) (fun _ => condition = true) := by
  refine reads_iff.2 (fun place ts _ rest h => ?_)
  unfold require Parser.require at h
  split at h
  · assumption
  · cases h

attribute [spec] symbol word ofKind symbol? word? atSymbol atWord

/-- What is read where line ends are blanks is the same. -/
@[spec]
theorem triple_joiningLines
    {post : PostCond α (.arg Place (.arg (List Token) (.except PUnit .pure)))} :
    ⦃fun place => wp⟦m⟧ (fun a _ => post.1 a place, post.2) { place with joinsLines := true }⦄
      joiningLines m ⦃post⦄ := by
  intro place ts h
  exact h

/-- Whichever of two readers counts, what it gives has the property. -/
theorem reads_orElse {n : Reader α} (hm : Reads m P) (hn : Reads n P) : Reads (orElse m n) P := by
  refine reads_iff.2 (fun place ts a rest h => ?_)
  cases hfirst : m place ts with
  | some result =>
    rw [orElse, Parser.orElse_of_some _ hfirst] at h
    exact hm.of_eq_some (hfirst.trans h)
  | none =>
    rw [orElse, Parser.orElse_of_none _ hfirst] at h
    exact hn.of_eq_some h

theorem reads_inBlock (indent : Nat) (hm : Reads m P) : Reads (inBlock indent m) P :=
  reads_iff.2 (fun _ ts a rest h => reads_iff.1 hm ⟨indent, false⟩ ts a rest h)

/-! ## Items in a row -/

theorem reads_itemBehindComma (hm : Reads m P) :
    Reads (itemBehindComma m) (fun a? => ∀ a ∈ a?, P a) := by
  mvcgen [itemBehindComma, hm] <;> simp_all

theorem reads_enumerated (rounds : Nat) (hm : Reads m P) :
    Reads (enumerated rounds m) (fun as => ∀ a ∈ as, P a) := by
  have hmany := reads_many rounds (reads_itemBehindComma hm)
  mvcgen [enumerated, hm, hmany]
  simp_all

theorem reads_itemAfterComma (starts : Token → Bool) (hm : Reads m P) :
    Reads (itemAfterComma starts m) (fun a? => ∀ a ∈ a?, P a) := by
  mvcgen [itemAfterComma, hm] <;> simp_all

theorem reads_separated (rounds : Nat) (starts : Token → Bool) (hm : Reads m P) :
    Reads (separated rounds starts m) (fun as => ∀ a ∈ as, P a) := by
  have hmany := reads_many rounds (reads_itemAfterComma starts hm)
  mvcgen [separated, hm, hmany]
  simp_all

theorem reads_bracketed (rounds : Nat) (hm : Reads m P) :
    Reads (bracketed rounds m) (fun as => ∀ a ∈ as, P a) := by
  have hitems := reads_separated rounds startsItem hm
  mvcgen [bracketed, hitems]
  simp_all

end Grammar

end CodeAtlas.Python
