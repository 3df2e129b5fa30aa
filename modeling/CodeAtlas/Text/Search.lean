/-!
# Finding one text in another

Main statement: `occursIn_iff`, a text occurs in another exactly when the other is the text with
something before and something behind it.
-/

namespace CodeAtlas.Text

/-- Whether `part` occurs in a text, without a gap. -/
def occursIn (part : List Char) : List Char → Bool
  | [] => part.isEmpty
  | c :: rest => part.isPrefixOf (c :: rest) || occursIn part rest

/-- Whether a string occurs in another one. -/
def contains (text part : String) : Bool := occursIn part.toList text.toList

theorem occursIn_iff {part text : List Char} :
    occursIn part text ↔ ∃ before behind, text = before ++ part ++ behind := by
  induction text with
  | nil =>
    simp only [occursIn, List.isEmpty_iff]
    constructor
    · rintro rfl
      exact ⟨[], [], rfl⟩
    · rintro ⟨a, b, h⟩
      simp at h
      exact h.2.1
  | cons c rest ih =>
    simp only [occursIn, Bool.or_eq_true, List.isPrefixOf_iff_prefix, ih]
    constructor
    · rintro (⟨b, h⟩ | ⟨a, b, h⟩)
      · exact ⟨[], b, by simpa using h.symm⟩
      · exact ⟨c :: a, b, by simp [h]⟩
    · rintro ⟨a, b, h⟩
      cases a with
      | nil => exact Or.inl ⟨b, by simpa using h.symm⟩
      | cons d a =>
        simp only [List.cons_append, List.cons.injEq] at h
        exact Or.inr ⟨a, b, h.2⟩

/-- The search for one text in another decides whether it occurs there. -/
theorem occursIn_iff_infix {part text : List Char} :
    occursIn part text = true ↔ part <:+: text := by
  rw [occursIn_iff]
  constructor
  · rintro ⟨before, behind, rfl⟩
    exact List.infix_append before part behind
  · rintro ⟨before, behind, h⟩
    exact ⟨before, behind, h.symm⟩

end CodeAtlas.Text
