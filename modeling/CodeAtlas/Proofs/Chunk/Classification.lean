import CodeAtlas.Chunk.Patterns
import Mathlib.Data.List.Forall2

/-!
# What a library says of a definition

Within a category the first pattern counts that finds the definition; among the categories the last
one counts that has such a pattern. All of this holds for every way to match patterns.

Main results:

- Theorems `firstHit_eq_some_iff` and `firstHit_eq_none_iff`: what one category contributes.
- Theorem `describes_classifyBy`: one key phrase for each category that matches, and the type of the
  last of them.
- Theorem `classifyWith_describes`: how classifying goes on with more categories, what one category
  gives, and what all of them give.
-/

namespace CodeAtlas.Chunking

/-! ## One category -/

/-- A pattern finds a definition if it matches its name or its docstring, both in lowercase. A
missing docstring is an empty one. -/
def Finds (isMatch : Regex → List Char → Bool) (name : String) (doc : Option String)
    (r : Regex) : Prop :=
  isMatch r (Text.lowercase name.toList) = true ∨
    isMatch r (Text.lowercase (doc.getD "").toList) = true

instance (isMatch : Regex → List Char → Bool) (name : String) (doc : Option String) :
    DecidablePred (Finds isMatch name doc) :=
  fun _ => inferInstanceAs (Decidable (_ ∨ _))

namespace CompiledCategory

/-- A category matches if one of its patterns finds the definition. -/
def Matches (finds : Regex → Prop) (c : CompiledCategory) : Prop := ∃ p ∈ c.patterns, finds p.2

instance (finds : Regex → Prop) [DecidablePred finds] : DecidablePred (Matches finds) :=
  fun c => inferInstanceAs (Decidable (∃ p ∈ c.patterns, finds p.2))

/-- A category contributes the text of the first of its patterns that finds the definition. -/
def Contributes (finds : Regex → Prop) (c : CompiledCategory) (phrase : String) : Prop :=
  ∃ before r behind, c.patterns = before ++ (phrase, r) :: behind ∧ finds r ∧
    ∀ p ∈ before, ¬ finds p.2

/-- A category that contributes matches. -/
theorem Contributes.matches {finds : Regex → Prop} {c : CompiledCategory} {phrase : String}
    (h : Contributes finds c phrase) : Matches finds c := by
  obtain ⟨before, r, behind, hsplit, hr, -⟩ := h
  refine ⟨(phrase, r), ?_, hr⟩
  rw [hsplit]
  exact List.mem_append_right before List.mem_cons_self

end CompiledCategory

open CompiledCategory

namespace PatternLibrary

section Categories

variable {hits : Regex → Bool} {finds : Regex → Prop}

/-- The pattern that is picked is the first one that finds the definition. -/
theorem firstHit_eq_some_iff (h : ∀ r, hits r = true ↔ finds r) {c : CompiledCategory}
    {phrase : String} : firstHit hits c = some phrase ↔ Contributes finds c phrase := by
  simp only [firstHit, Option.map_eq_some_iff, List.find?_eq_some_iff_append, Contributes, h,
    Bool.not_eq_true', ← Bool.not_eq_true]
  constructor
  · rintro ⟨⟨text, r⟩, ⟨hr, before, behind, hsplit, hbefore⟩, rfl⟩
    exact ⟨before, r, behind, hsplit, hr, hbefore⟩
  · rintro ⟨before, r, behind, hsplit, hr, hbefore⟩
    exact ⟨(phrase, r), ⟨hr, before, behind, hsplit, hbefore⟩, rfl⟩

/-- No pattern is picked if none finds the definition. -/
theorem firstHit_eq_none_iff (h : ∀ r, hits r = true ↔ finds r) {c : CompiledCategory} :
    firstHit hits c = none ↔ ¬ Matches finds c := by
  simp only [firstHit, Option.map_eq_none_iff, List.find?_eq_none, h, Matches, not_exists, not_and]

theorem classifyBy_singleton (hits : Regex → Bool) (c : CompiledCategory) :
    classifyBy hits ⟨[c]⟩ = (firstHit hits c).elim {} (fun phrase => ⟨some c.name, [phrase]⟩) := by
  simp only [classifyBy, List.foldl_cons, List.foldl_nil, consider]
  cases firstHit hits c with
  | none => rfl
  | some phrase => rfl

/-! ## Categories in a row -/

theorem classifyBy_cons (hits : Regex → Bool) (c : CompiledCategory)
    (cs : List CompiledCategory) :
    classifyBy hits ⟨c :: cs⟩ =
      ⟨(classifyBy hits ⟨cs⟩).semanticType.or (classifyBy hits ⟨[c]⟩).semanticType,
        (classifyBy hits ⟨[c]⟩).keyPhrases ++ (classifyBy hits ⟨cs⟩).keyPhrases⟩ :=
  classifyBy_append hits ⟨[c]⟩ ⟨cs⟩

variable [DecidablePred finds]

/-- What some categories say of a definition: one key phrase for each of them that matches, in their
order, and the last of these as the type. -/
structure Describes (finds : Regex → Prop) [DecidablePred finds] (cs : List CompiledCategory)
    (m : SemanticMatch) : Prop where
  keyPhrases : List.Forall₂ (Contributes finds) (cs.filter (Matches finds)) m.keyPhrases
  semanticType : m.semanticType = (cs.filter (Matches finds)).getLast?.map CompiledCategory.name

/-- A definition has a type exactly if some category matches. -/
theorem Describes.isSome_iff {cs : List CompiledCategory} {m : SemanticMatch}
    (h : Describes finds cs m) : m.semanticType.isSome = true ↔ ∃ c ∈ cs, Matches finds c := by
  rw [h.semanticType, Option.isSome_map, List.getLast?_isSome, ne_eq, List.filter_eq_nil_iff]
  simp

/-- A definition has a type exactly if it has a key phrase. -/
theorem Describes.isMatch_iff {cs : List CompiledCategory} {m : SemanticMatch}
    (h : Describes finds cs m) : m.isMatch = true ↔ m.keyPhrases ≠ [] := by
  have hlength := h.keyPhrases.length_eq
  rw [SemanticMatch.isMatch, h.semanticType, Option.isSome_map, List.getLast?_isSome, ne_eq, ne_eq,
    ← List.length_eq_zero_iff, ← List.length_eq_zero_iff, hlength]

/-- Classifying tells what the categories say. -/
theorem describes_classifyBy (h : ∀ r, hits r = true ↔ finds r) (cs : List CompiledCategory) :
    Describes finds cs (classifyBy hits ⟨cs⟩) := by
  -- The type of the first category only counts if none of the later ones matches.
  induction cs with
  | nil => exact ⟨List.Forall₂.nil, rfl⟩
  | cons c cs ih =>
    rw [classifyBy_cons, classifyBy_singleton]
    cases hfirst : firstHit hits c with
    | none =>
      have hno := (firstHit_eq_none_iff h).1 hfirst
      have hfilter : (c :: cs).filter (Matches finds) = cs.filter (Matches finds) :=
        List.filter_cons_of_neg (by simpa using hno)
      constructor
      · rw [hfilter]
        exact ih.keyPhrases
      · rw [hfilter, ← ih.semanticType]
        exact Option.or_none
    | some phrase =>
      have hphrase := (firstHit_eq_some_iff h).1 hfirst
      have hfilter : (c :: cs).filter (Matches finds) = c :: cs.filter (Matches finds) :=
        List.filter_cons_of_pos (by simpa using hphrase.matches)
      constructor
      · rw [hfilter]
        exact List.Forall₂.cons hphrase ih.keyPhrases
      · rw [hfilter, List.getLast?_cons, ih.semanticType]
        cases (cs.filter (Matches finds)).getLast? with
        | none => rfl
        | some last => rfl

end Categories

/-! ## Classifying -/

/-- Classifying with more categories joins the key phrases and takes the later type if there is one.
One category gives the first of its patterns that finds the definition, and nothing if none does.
All in all there is a type exactly if there is a key phrase, one key phrase for each category that
matches, and the type is the last of these categories. -/
theorem classifyWith_describes (isMatch : Regex → List Char → Bool) (name : String)
    (doc : Option String) :
    (∀ k l : PatternLibrary,
      let first := k.classifyWith isMatch name doc
      let second := l.classifyWith isMatch name doc
      classifyWith isMatch ⟨k.categories ++ l.categories⟩ name doc =
        ⟨if second.isMatch then second.semanticType else first.semanticType,
          first.keyPhrases ++ second.keyPhrases⟩) ∧
    (∀ c : CompiledCategory,
      (∀ phrase, classifyWith isMatch ⟨[c]⟩ name doc = ⟨some c.name, [phrase]⟩ ↔
        Contributes (Finds isMatch name doc) c phrase) ∧
      (classifyWith isMatch ⟨[c]⟩ name doc = {} ↔ ¬ Matches (Finds isMatch name doc) c)) ∧
    (∀ l : PatternLibrary,
      let found := l.classifyWith isMatch name doc
      (found.isMatch = true ↔ found.keyPhrases ≠ []) ∧
        Describes (Finds isMatch name doc) l.categories found) := by
  have hfinds : ∀ r, (isMatch r (Text.lowercase name.toList) ||
      isMatch r (Text.lowercase (doc.getD "").toList)) = true ↔ Finds isMatch name doc r :=
    fun r => Bool.or_eq_true_iff
  refine ⟨fun k l => ?append, fun c => ⟨fun phrase => ?some, ?none⟩, fun l => ?all⟩
  case append =>
    intro first second
    have happend : classifyWith isMatch ⟨k.categories ++ l.categories⟩ name doc =
        ⟨second.semanticType.or first.semanticType, first.keyPhrases ++ second.keyPhrases⟩ :=
      classifyBy_append _ k l
    rw [happend, SemanticMatch.isMatch]
    cases second.semanticType with
    | none => rfl
    | some type => rfl
  case some =>
    rw [← firstHit_eq_some_iff hfinds, classifyWith, classifyBy_singleton]
    cases firstHit _ c with
    | none => simp
    | some first => simp
  case none =>
    rw [← firstHit_eq_none_iff hfinds, classifyWith, classifyBy_singleton]
    cases firstHit _ c with
    | none => simp
    | some first => simp
  case all =>
    have hall := describes_classifyBy hfinds l.categories
    exact ⟨hall.isMatch_iff, hall⟩

end PatternLibrary

end CodeAtlas.Chunking
