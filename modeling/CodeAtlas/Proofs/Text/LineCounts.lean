import CodeAtlas.Proofs.Text.LineRanges
import CodeAtlas.Proofs.Text.Utf8

/-!
# Counting lines

Bytes are counted by their line feeds, and what stands behind the last one counts if there is
anything. Counting sees no characters, so that it agrees with the lines of a text rests on a line
feed being no part of another character.

Main results:

- Theorem `lineCount_append_eq_iff`: when the lines of two pieces of bytes add up.
- Theorem `endsLine_encode_iff`: how to tell from a text that its bytes do not break off in a line.
- Theorem `HasLines.lineCount_encode`: the bytes of a text have as many lines as the text.
-/

namespace CodeAtlas.Text

/-! ## Bytes -/

/-- Bytes do not break off in a line: there are none, or the last one is a line feed. -/
def EndsLine (bytes : List UInt8) : Prop := bytes = [] ∨ bytes.getLast? = some 10

instance (bytes : List UInt8) : Decidable (EndsLine bytes) :=
  inferInstanceAs (Decidable (_ ∨ _))

/-- There is one line for each line feed, and one that is not ended. -/
theorem lineCount_eq (bytes : List UInt8) :
    lineCount bytes = bytes.count 10 + if EndsLine bytes then 0 else 1 := by
  by_cases hends : EndsLine bytes
  · rw [if_pos hends, lineCount]
    rcases hends with rfl | hlast
    · rfl
    · simp [hlast, List.count]
  · rw [if_neg hends, lineCount]
    obtain ⟨hne, hfeed⟩ := not_or.1 hends
    cases hlast : bytes.getLast? with
    | none => exact absurd (List.getLast?_eq_none_iff.1 hlast) hne
    | some last =>
      have hlast' : last ≠ 10 := fun heq => hfeed (heq ▸ hlast)
      simp [hlast', List.count]

/-- Where there is more, it decides whether a line is ended. -/
theorem endsLine_append_iff {a b : List UInt8} (hb : b ≠ []) : EndsLine (a ++ b) ↔ EndsLine b := by
  simp [EndsLine, hb, List.getLast?_append_of_ne_nil a hb]

/-- The lines of two pieces add up unless one line stands in both of them. -/
theorem lineCount_append_eq_iff {a b : List UInt8} :
    lineCount (a ++ b) = lineCount a + lineCount b ↔ EndsLine a ∨ b = [] := by
  by_cases hb : b = []
  · simp [hb, lineCount]
  · rw [lineCount_eq, lineCount_eq a, lineCount_eq b, List.count_append]
    simp only [endsLine_append_iff hb, hb, or_false]
    by_cases ha : EndsLine a
    · simp only [ha, if_true, iff_true]
      omega
    · simp only [ha, if_false, iff_false]
      omega

/-- Bytes without a line feed are one line. -/
theorem lineCount_of_not_mem {bytes : List UInt8} (hne : bytes ≠ []) (h : 10 ∉ bytes) :
    lineCount bytes = 1 := by
  have hopen : ¬EndsLine bytes := by
    rintro (hnil | hlast)
    · exact hne hnil
    · exact h (List.mem_of_getLast? hlast)
  rw [lineCount_eq, if_neg hopen, List.count_eq_zero_of_not_mem h]

/-- The first line feed ends one line. -/
theorem lineCount_append_feed {bytes : List UInt8} (h : 10 ∉ bytes) (rest : List UInt8) :
    lineCount (bytes ++ 10 :: rest) = lineCount rest + 1 := by
  have hsplit : bytes ++ 10 :: rest = (bytes ++ [10]) ++ rest := by simp
  have hends : EndsLine (bytes ++ [10]) := Or.inr List.getLast?_concat
  have hone : lineCount (bytes ++ [10]) = 1 := by
    rw [lineCount_eq, if_pos hends, List.count_append, List.count_eq_zero_of_not_mem h]
    rfl
  rw [hsplit, lineCount_append_eq_iff.2 (Or.inl hends), hone, Nat.add_comm]

/-! ## Texts -/

variable {text line : List Char} {ls : List (List Char)}

/-- A line feed among the bytes is one in the text. -/
theorem feed_mem_encode_iff : 10 ∈ Utf8.encode (String.ofList text) ↔ '\n' ∈ text :=
  Utf8.mem_encode_iff (by decide)

theorem lineCount_encode_append_newline (h : '\n' ∉ line) (rest : List Char) :
    lineCount (Utf8.encode (String.ofList (line ++ '\n' :: rest))) =
      lineCount (Utf8.encode (String.ofList rest)) + 1 := by
  have hbytes : Utf8.encode (String.ofList (line ++ '\n' :: rest)) =
      Utf8.encode (String.ofList line) ++ 10 :: Utf8.encode (String.ofList rest) := by
    rw [Utf8.encode_ofList, Utf8.encode_ofList, Utf8.encode_ofList, List.flatMap_append]
    rfl
  rw [hbytes, lineCount_append_feed (mt feed_mem_encode_iff.1 h)]

/-- The bytes of a text have as many lines as the text. -/
theorem HasLines.lineCount_encode (h : HasLines text ls) :
    lineCount (Utf8.encode (String.ofList text)) = ls.length := by
  induction h with
  | empty =>
    rw [String.ofList_nil, Utf8.encode_eq_nil_iff.2 rfl]
    rfl
  | last hne hline =>
    have hbytes : Utf8.encode (String.ofList _) ≠ [] :=
      fun hnil => hne (String.ofList_eq_empty_iff.1 (Utf8.encode_eq_nil_iff.1 hnil))
    exact lineCount_of_not_mem hbytes (mt feed_mem_encode_iff.1 hline)
  | feed hline _ _ ih => rw [lineCount_encode_append_newline hline, ih, List.length_cons]
  | @returnFeed line rest ls hline _ ih =>
    have hpiece : '\n' ∉ line ++ ['\r'] := by simp [hline]
    have hsplit : line ++ '\r' :: '\n' :: rest = (line ++ ['\r']) ++ '\n' :: rest := by simp
    rw [hsplit, lineCount_encode_append_newline hpiece, ih, List.length_cons]

theorem lineCount_encode (source : String) :
    lineCount (Utf8.encode source) = (lines source.toList).length := by
  have hlines := (hasLines_iff.2 (Eq.refl (lines source.toList))).lineCount_encode
  rwa [String.ofList_toList] at hlines

/-- A character ends a line if it is a line feed. -/
theorem endsLine_encodeChar_iff {c : Char} : EndsLine (String.utf8EncodeChar c) ↔ c = '\n' := by
  constructor
  · rintro (hnil | hlast)
    · exact absurd hnil String.utf8EncodeChar_ne_nil
    · exact ((Utf8.mem_encodeChar_iff (by decide)).1 (List.mem_of_getLast? hlast)).symm
  · rintro rfl
    exact Or.inr rfl

/-- Bytes break off in a line exactly if the text does. -/
theorem endsLine_encode_iff {source : String} :
    EndsLine (Utf8.encode source) ↔ source = "" ∨ source.toList.getLast? = some '\n' := by
  obtain ⟨text, rfl⟩ := source.exists_eq_ofList
  rw [Utf8.encode_ofList, String.toList_ofList, String.ofList_eq_empty_iff]
  rcases List.eq_nil_or_concat text with rfl | ⟨front, c, rfl⟩
  · simp [EndsLine]
  · rw [List.concat_eq_append, List.flatMap_append, List.flatMap_singleton,
      endsLine_append_iff String.utf8EncodeChar_ne_nil, endsLine_encodeChar_iff]
    simp

end CodeAtlas.Text
