import CodeAtlas.Proofs.Store.SymbolRows
import Mathlib.Data.List.TakeWhile

/-!
# Looking symbols up by name

A name leads to the symbol with that key, or else to the first symbol that answers to it. The store
does not scan its symbols for that: it asks the index for those that are named like the last part of
the name and takes the one with the smallest handle. A symbol that answers is among them if its name
is plain, that is, holds no dot.

Main results:

- Theorem `name_eq_lastSegment`: a plainly named symbol that answers to a name is named like the
  last part of it.
- Theorem `foldl_earlier_spec`: going through handles one by one gives the smallest.
- Theorem `Rows.findByName_eq`: looking a name up is a scan for the key and then a scan for a symbol
  that answers.
- Theorems `Rows.exists_findByName` and `Rows.findByName_of_free`: a name to which a plainly named
  symbol answers leads to some symbol, and to that one unless another one is in its way.
-/

namespace CodeAtlas.Store.SymbolStore

open CodeAtlas.Analysis

/-! ## Parts of names -/

/-- A name without dots. -/
def PlainName (name : String) : Prop := '.' ∉ name.toList

instance (name : String) : Decidable (PlainName name) :=
  inferInstanceAs (Decidable ('.' ∉ name.toList))

/-- What stands behind a dot has the last part of the whole. -/
theorem lastSegment_of_append {name rest : String} {front : List Char}
    (h : name.toList = front ++ '.' :: rest.toList) : lastSegment name = lastSegment rest := by
  have hparts : name.toList.reverse.takeWhile (· ≠ '.') =
      rest.toList.reverse.takeWhile (· ≠ '.') := by
    rw [h, List.reverse_append, List.reverse_cons, List.append_assoc, List.takeWhile_append]
    split
    · next hall =>
      have hstop : (['.'] ++ front.reverse).takeWhile (· ≠ '.') = [] := by simp
      rw [hstop, List.append_nil]
      exact ((List.takeWhile_sublist _).eq_of_length hall).symm
    · rfl
  rw [lastSegment, lastSegment, hparts]

/-- A plain name is its own last part. -/
theorem lastSegment_of_plain {name : String} (h : PlainName name) : lastSegment name = name := by
  have hall : name.toList.reverse.takeWhile (· ≠ '.') = name.toList.reverse := by
    refine List.takeWhile_eq_self_iff.2 (fun c hc => decide_eq_true ?_)
    rintro rfl
    exact h (List.mem_reverse.1 hc)
  rw [lastSegment, hall, List.reverse_reverse, String.ofList_toList]

/-- The last part of a key is that of the qualified name, and so the name if that is plain. -/
theorem lastSegment_key {x : Symbol} (h : PlainName x.name) : lastSegment x.key = x.name := by
  have hqualified : lastSegment x.qualifiedName = x.name := by
    unfold Symbol.qualifiedName
    cases x.parentClass with
    | none => exact lastSegment_of_plain h
    | some className =>
      have hsplit : (className ++ "." ++ x.name).toList =
          className.toList ++ '.' :: x.name.toList := by simp
      exact (lastSegment_of_append hsplit).trans (lastSegment_of_plain h)
  have hsplit : x.key.toList = x.modulePath.toList ++ '.' :: x.qualifiedName.toList := by
    simp [Symbol.key]
  exact (lastSegment_of_append hsplit).trans hqualified

/-- A plainly named symbol that answers to a name is named like the last part of it. -/
theorem name_eq_lastSegment {x : Symbol} {name : String} (hx : PlainName x.name)
    (h : answersTo name x = true) : x.name = lastSegment name := by
  rcases Bool.or_eq_true_iff.1 h with hname | hkey
  · have heq : x.name = name := by simpa using hname
    rw [← heq, lastSegment_of_plain hx]
  · obtain ⟨front, hfront⟩ := List.isSuffixOf_iff_suffix.1 hkey
    rw [← lastSegment_key hx, lastSegment_of_append hfront.symm]

/-! ## The smallest handle -/

/-- One more handle leaves the smaller of the two. -/
theorem earlier_spec (best : Option SymbolHandle) (j : SymbolHandle) :
    ∃ b, earlier best j = some b ∧ (b = j ∨ best = some b) ∧ b.number ≤ j.number ∧
      ∀ a, best = some a → b.number ≤ a.number := by
  cases best with
  | none => exact ⟨j, rfl, Or.inl rfl, Nat.le_refl _, nofun⟩
  | some a =>
    by_cases hlt : j.number < a.number
    · refine ⟨j, by simp [earlier, hlt], Or.inl rfl, Nat.le_refl _, ?_⟩
      rintro _ ⟨⟩
      exact Nat.le_of_lt hlt
    · refine ⟨a, by simp [earlier, hlt], Or.inr rfl, Nat.le_of_not_lt hlt, ?_⟩
      rintro _ ⟨⟩
      exact Nat.le_refl _

/-- Going through handles one by one gives the smallest. -/
theorem foldl_earlier_spec {hs : List SymbolHandle} {best : Option SymbolHandle}
    {i : SymbolHandle} (h : hs.foldl earlier best = some i) :
    (i ∈ hs ∨ best = some i) ∧ (∀ j ∈ hs, i.number ≤ j.number) ∧
      ∀ a, best = some a → i.number ≤ a.number := by
  induction hs generalizing best with
  | nil =>
    obtain rfl : best = some i := h
    simp
  | cons j hs ih =>
    obtain ⟨hmem, hle, hbest⟩ := ih h
    obtain ⟨b, hb, hfrom, hbj, hba⟩ := earlier_spec best j
    have hib := hbest b hb
    refine ⟨?_, ?_, fun a ha => Nat.le_trans hib (hba a ha)⟩
    · rcases hmem with hmem | heq
      · exact Or.inl (List.mem_cons_of_mem _ hmem)
      · obtain rfl := Option.some.inj (hb.symm.trans heq)
        rcases hfrom with rfl | hfrom
        · exact Or.inl List.mem_cons_self
        · exact Or.inr hfrom
    · intro k hk
      rcases List.mem_cons.1 hk with rfl | hk
      · exact Nat.le_trans hib hbj
      · exact hle k hk

/-- Handles have a smallest one unless there are none. -/
theorem foldl_earlier_eq_none {hs : List SymbolHandle} {best : Option SymbolHandle}
    (h : hs.foldl earlier best = none) : hs = [] := by
  induction hs generalizing best with
  | nil => rfl
  | cons j hs ih =>
    obtain ⟨b, hb, -⟩ := earlier_spec best j
    obtain rfl := ih h
    rw [List.foldl_cons, hb] at h
    cases h

/-! ## Looking up -/

variable {s : SymbolStore} {rows : List (SymbolHandle × Symbol)}

/-- A scan for a key finds the symbol with it. -/
theorem Rows.find?_key_iff (h : s.Rows rows) {key : String} {x : Symbol} :
    s.getAll.find? (fun x => x.key = key) = some x ↔ x ∈ s.getAll ∧ x.key = key := by
  have hkeys : (s.getAll.map Symbol.key).Nodup := h.map_key ▸ s.handles.nodup_keys
  constructor
  · intro hfind
    exact ⟨List.mem_of_find?_eq_some hfind, by simpa using List.find?_some hfind⟩
  · rintro ⟨hx, hkey⟩
    cases hfind : s.getAll.find? (fun x => x.key = key) with
    | none => exact absurd hkey (by simpa using List.find?_eq_none.1 hfind x hx)
    | some y =>
      have hy : y.key = key := by simpa using List.find?_some hfind
      have hmem := List.mem_of_find?_eq_some hfind
      exact congrArg some (List.inj_on_of_nodup_map hkeys hmem hx (hy.trans hkey.symm))

/-- Going from a key to its handle and from there to the symbol is a scan for the key. -/
theorem Rows.get?_of_key (h : s.Rows rows) (key : String) :
    (s.handles.get? key).bind s.get? = s.getAll.find? (fun x => x.key = key) := by
  refine Option.ext (fun x => ?_)
  rw [h.find?_key_iff, h.mem_getAll_iff, Option.bind_eq_some_iff]
  constructor
  · rintro ⟨i, hi, hx⟩
    obtain ⟨y, hrow, hkey⟩ := h.handle_iff.1 hi
    obtain rfl : y = x := Option.some.inj ((h.mem_iff.1 hrow).symm.trans hx)
    exact ⟨List.mem_map_of_mem hrow, hkey⟩
  · rintro ⟨hx, hkey⟩
    obtain ⟨⟨i, y⟩, hrow, rfl⟩ := List.mem_map.1 hx
    exact ⟨i, h.handle_iff.2 ⟨y, hrow, hkey⟩, h.mem_iff.1 hrow⟩

/-- The symbol of the smallest handle is the first symbol. -/
theorem Rows.find?_of_least (h : s.Rows rows) {p : Symbol → Bool} {i : SymbolHandle} {x : Symbol}
    (hx : s.symbols.get? i = some x) (hp : p x = true)
    (hleast : ∀ e ∈ s.symbols.entries, p e.2 = true → i.number ≤ e.1.number) :
    s.getAll.find? p = some x := by
  have hmem : (i, x) ∈ s.symbols.entries := s.symbols.mem_entries_iff.2 hx
  have hascending := List.pairwise_map.1 h.shelved.ascending
  rw [getAll, Table.values, List.find?_map]
  cases hfind : s.symbols.entries.find? (p ∘ Prod.snd) with
  | none => exact absurd hp (by simpa using List.find?_eq_none.1 hfind _ hmem)
  | some e =>
    obtain ⟨hpe, front, behind, hsplit, hfront⟩ := List.find?_eq_some_iff_append.1 hfind
    have hle := hleast e (List.mem_of_find?_eq_some hfind) hpe
    rw [hsplit] at hmem hascending
    rcases List.mem_append.1 hmem with hmem | hmem
    · exact absurd hp (by simpa using hfront _ hmem)
    · rcases List.mem_cons.1 hmem with heq | hmem
      · rw [← heq]
        rfl
      · -- what stands behind has a larger handle
        have hlt := (List.pairwise_cons.1 (List.pairwise_append.1 hascending).2.1).1 _ hmem
        exact absurd hlt (Nat.not_lt.2 hle)

/-- The handles that a look-up compares are those of the symbols that answer and are named like the
last part. -/
theorem Rows.mem_candidates_iff (h : s.Rows rows) {name : String} {j : SymbolHandle} :
    j ∈ (s.byName.find (lastSegment name)).filter (fun j => (s.get? j).any (answersTo name)) ↔
      ∃ x, s.symbols.get? j = some x ∧
        (x.name == lastSegment name && answersTo name x) = true := by
  simp only [List.mem_filter, h.byName.mem_find_iff, h.mem_iff, Option.any_eq_true,
    Option.some.injEq, Bool.and_eq_true, beq_iff_eq]
  constructor
  · rintro ⟨⟨x, hx, hname⟩, y, hy, hanswers⟩
    obtain rfl := Option.some.inj (hx.symm.trans hy)
    exact ⟨x, hx, hname, hanswers⟩
  · rintro ⟨x, hx, hname, hanswers⟩
    exact ⟨⟨x, hx, hname⟩, x, hx, hanswers⟩

/-- Looking a name up is a scan for the key and then a scan for a symbol that answers. -/
theorem Rows.findByName_eq (h : s.Rows rows) (name : String) :
    s.findByName name = (s.getAll.find? (fun x => x.key = name)).or
      (s.getAll.find? (fun x => x.name == lastSegment name && answersTo name x)) := by
  unfold findByName
  rw [h.get?_of_key]
  cases s.getAll.find? (fun x => x.key = name) with
  | some x => rfl
  | none =>
    rw [Option.none_or]
    dsimp only
    cases hleast : ((s.byName.find (lastSegment name)).filter
        (fun j => (s.get? j).any (answersTo name))).foldl earlier none with
    | none =>
      have hnone := foldl_earlier_eq_none hleast
      refine (List.find?_eq_none.2 (fun x hx hanswers => ?_)).symm
      obtain ⟨⟨j, y⟩, hrow, rfl⟩ := List.mem_map.1 (h.mem_getAll_iff.1 hx)
      have hj := h.mem_candidates_iff.2 ⟨y, h.mem_iff.1 hrow, hanswers⟩
      rw [hnone] at hj
      exact absurd hj List.not_mem_nil
    | some i =>
      obtain ⟨hi, hle, -⟩ := foldl_earlier_spec hleast
      obtain ⟨x, hx, hanswers⟩ := h.mem_candidates_iff.1 (hi.resolve_right nofun)
      refine hx.trans (h.find?_of_least hx hanswers (fun e he hp => hle e.1 ?_)).symm
      exact h.mem_candidates_iff.2 ⟨e.2, s.symbols.mem_entries_iff.1 he, hp⟩

/-- The symbols that stand before a symbol. -/
def before (s : SymbolStore) (x : Symbol) : List Symbol := s.getAll.takeWhile (· ≠ x)

/-- Another symbol is in the way when a name is looked up: it has the name as its key, or it answers
to the name and stands before. -/
def Displaced (s : SymbolStore) (name : String) (x : Symbol) : Prop :=
  (∃ w ∈ s.getAll, w.key = name) ∨ ∃ w ∈ s.before x, answersTo name w = true

instance (s : SymbolStore) (name : String) (x : Symbol) : Decidable (s.Displaced name x) :=
  inferInstanceAs (Decidable ((∃ w ∈ s.getAll, w.key = name) ∨
    ∃ w ∈ s.before x, answersTo name w = true))

/-- What stands before a symbol and what stands behind it. -/
theorem exists_split {x : Symbol} (hx : x ∈ s.getAll) :
    ∃ behind, s.getAll = s.before x ++ x :: behind := by
  obtain ⟨front, behind, hsplit, hfront⟩ := List.eq_append_cons_of_mem hx
  have hbefore : s.before x = front := by
    rw [before, hsplit, List.takeWhile_append_of_pos, List.takeWhile_cons_of_neg (by simp),
      List.append_nil]
    intro w hw
    exact decide_eq_true (ne_of_mem_of_not_mem hw hfront)
  exact ⟨behind, hbefore ▸ hsplit⟩

variable {name : String} {x : Symbol}

/-- A name to which a plainly named symbol answers leads to some symbol. -/
theorem Rows.exists_findByName (h : s.Rows rows) (hx : x ∈ s.getAll) (hplain : PlainName x.name)
    (hanswers : answersTo name x = true) : ∃ y ∈ s.getAll, s.findByName name = some y := by
  have hfound : (s.getAll.find?
      (fun x => x.name == lastSegment name && answersTo name x)).isSome := by
    rw [List.find?_isSome]
    exact ⟨x, hx, by simp [name_eq_lastSegment hplain hanswers, hanswers]⟩
  obtain ⟨y, hy⟩ := Option.isSome_iff_exists.1 hfound
  rw [h.findByName_eq, hy]
  cases hscan : s.getAll.find? (fun x => x.key = name) with
  | none => exact ⟨y, List.mem_of_find?_eq_some hy, rfl⟩
  | some w => exact ⟨w, List.mem_of_find?_eq_some hscan, rfl⟩

/-- A plainly named symbol that answers to a name is found by it unless another one is in its
way. -/
theorem Rows.findByName_of_free (h : s.Rows rows) (hx : x ∈ s.getAll) (hplain : PlainName x.name)
    (hanswers : answersTo name x = true) (hfree : ¬s.Displaced name x) :
    s.findByName name = some x := by
  have hscan : s.getAll.find? (fun y => y.key = name) = none := by
    refine List.find?_eq_none.2 (fun w hw hkey => hfree (Or.inl ⟨w, hw, ?_⟩))
    exact of_decide_eq_true hkey
  obtain ⟨behind, hsplit⟩ := exists_split hx
  rw [h.findByName_eq, hscan, Option.none_or, List.find?_eq_some_iff_append]
  refine ⟨by simp [name_eq_lastSegment hplain hanswers, hanswers], s.before x, behind, hsplit, ?_⟩
  intro w hw
  have hnot : answersTo name w ≠ true := fun hw' => hfree (Or.inr ⟨w, hw, hw'⟩)
  simp [hnot]

end CodeAtlas.Store.SymbolStore
