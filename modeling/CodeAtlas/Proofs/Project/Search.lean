import CodeAtlas.Project.Analyzer
import CodeAtlas.Proofs.Store.Lookups
import CodeAtlas.Proofs.Text.Case

/-!
# Searching

A search compares the lowercase query with every text of every semantic chunk in lowercase: with the
content, with the strings of the metadata and with those of arrays there, such as key phrases. What
it finds stands in the order of saving. A query that occurs in a text, in letters of either size, is
found there wherever its capital sigmas end words of the text exactly if they end words of the query
on its own; so a query without a capital sigma is found wherever it occurs. At other places the
sigma becomes another character in the text than in the query, and the occurrence may be missed.

Main results:

- Theorem `matchesQuery_iff`: which chunks match a query.
- Theorem `occursInLowercase_of_occursBetween`: where an occurrence is found.
- Theorem `search_finds`: what a search gives after every history of the store.
- Theorem `search_misses_occurrence`: an occurrence that is not found.
-/

namespace CodeAtlas

open CodeAtlas.Chunking
open CodeAtlas.Store

/-! ## The order of saving -/

namespace Store.ChunkStore

/-- The chunk that an operation saves. -/
def Operation.saved? : Operation → Option Chunk
  | .save c => some c
  | _ => none

/-- Handles are given out for the chunks that are saved, in their order. -/
theorem map_snd_given (s : ChunkStore) (ops : List Operation) :
    (given apply handed s ops).map Prod.snd = ops.filterMap Operation.saved? := by
  induction ops generalizing s with
  | nil => rfl
  | cons op ops ih =>
    rw [given, List.map_append, ih]
    cases op <;> rfl

/-- Stored chunks stand in the order of saving. -/
theorem getAll_sublist_saved (ops : List Operation) :
    (run ops).getAll.Sublist (ops.filterMap Operation.saved?) := by
  have hsub : (run ops).getAll.Sublist ((given apply handed empty ops).map Prod.snd) :=
    (view.fresh rfl ops).sublist.map Prod.snd
  rwa [map_snd_given] at hsub

end Store.ChunkStore

namespace Project

/-! ## Texts of a chunk -/

/-- A chunk holds the texts that are searched: its content, the strings of its metadata, and the
strings of arrays there, such as key phrases. -/
inductive HoldsText (c : Chunk) : String → Prop where
  | content : HoldsText c c.content
  | string {key text : String} (hvalue : c.metadata? key = some (.str text)) : HoldsText c text
  | item {key text : String} {items : List Json} (hvalue : c.metadata? key = some (.arr items))
      (hitem : .str text ∈ items) : HoldsText c text

/-- A query occurs in a text between what stands before it and behind it, but for the size of ASCII
letters. -/
def OccursBetween (query text : String) (before behind : List Char) : Prop :=
  ∃ found, text.toList = before ++ found ++ behind ∧
    Text.asciiLowercase found = Text.asciiLowercase query.toList

/-- A query occurs in a text in lowercase. -/
def OccursInLowercase (query text : String) : Prop :=
  Text.lowercase query.toList <:+: Text.lowercase text.toList

/-- A value is searched if it is a string or an array with strings. -/
theorem occursInValue_iff {query : List Char} {v : Json} :
    Analyzer.occursInValue query v = true ↔
      ∃ text, (v = .str text ∨ ∃ items, v = .arr items ∧ .str text ∈ items) ∧
        Analyzer.occursIn query text = true := by
  cases v with
  | arr items =>
    have hstr : ∀ (item : Json) (text : String), item.str? = some text ↔ item = .str text := by
      intro item text
      cases item <;> simp [Json.str?]
    have hany : ∀ text, (text ∈ items.filterMap Json.str? ↔ .str text ∈ items) := by
      intro text
      simp only [List.mem_filterMap, hstr, exists_eq_right]
    simp only [Analyzer.occursInValue, List.any_eq_true, hany, reduceCtorEq, false_or,
      Json.arr.injEq, exists_eq_left']
  | _ => simp [Analyzer.occursInValue]

/-- A chunk matches a query that occurs in lowercase in one of its texts. -/
theorem matchesQuery_iff {query : String} {c : Chunk} :
    Analyzer.matchesQuery (Text.lowercase query.toList) c = true ↔
      ∃ text, HoldsText c text ∧ OccursInLowercase query text := by
  have hoccurs : ∀ text, Analyzer.occursIn (Text.lowercase query.toList) text = true ↔
      OccursInLowercase query text := fun text => Text.occursIn_iff_infix
  have hvalue : ∀ v, v ∈ c.metadata.values ↔ ∃ key, c.metadata? key = some v := by
    intro v
    simp [Table.values, Chunk.metadata?, Table.mem_entries_iff]
  rw [Analyzer.matchesQuery, Bool.or_eq_true, List.any_eq_true, hoccurs]
  constructor
  · rintro (⟨v, hmem, hfound⟩ | hcontent)
    · obtain ⟨key, hkey⟩ := (hvalue v).1 hmem
      obtain ⟨text, htext, hfound⟩ := occursInValue_iff.1 hfound
      refine ⟨text, ?_, (hoccurs text).1 hfound⟩
      rcases htext with rfl | ⟨items, rfl, hitem⟩
      · exact .string hkey
      · exact .item hkey hitem
    · exact ⟨c.content, .content, hcontent⟩
  · rintro ⟨text, htext, hfound⟩
    have hfound := (hoccurs text).2 hfound
    cases htext with
    | content => exact Or.inr ((hoccurs c.content).1 hfound)
    | string hkey =>
      exact Or.inl ⟨_, (hvalue _).2 ⟨_, hkey⟩, occursInValue_iff.2 ⟨text, Or.inl rfl, hfound⟩⟩
    | item hkey hitem =>
      exact Or.inl ⟨_, (hvalue _).2 ⟨_, hkey⟩,
        occursInValue_iff.2 ⟨text, Or.inr ⟨_, rfl, hitem⟩, hfound⟩⟩

/-- An occurrence is found where the query keeps its word ends. -/
theorem occursInLowercase_of_occursBetween {query text : String} {before behind : List Char}
    (hoccurs : OccursBetween query text before behind)
    (hends : Text.KeepsWordEnds before query.toList behind) : OccursInLowercase query text := by
  obtain ⟨found, htext, hsame⟩ := hoccurs
  rw [OccursInLowercase, htext]
  exact Text.lowercase_infix_of_keepsWordEnds hsame hends

/-! ## What a search gives -/

/-- Every stored semantic chunk is found that has a text in which the query occurs at a place of
some kind. -/
def FindsAt (stored found : List Chunk) (query : String) (place : List Char → List Char → Prop) :
    Prop :=
  ∀ c ∈ stored, c.isSemantic = true → ∀ text, HoldsText c text →
    ∀ before behind, OccursBetween query text before behind → place before behind → c ∈ found

/-- What is found at places of one kind is found at those of a narrower kind. -/
theorem FindsAt.of_imp {stored found : List Chunk} {query : String}
    {place place' : List Char → List Char → Prop} (h : FindsAt stored found query place)
    (himp : ∀ before behind, place' before behind → place before behind) :
    FindsAt stored found query place' := by
  intro c hstored hsemantic text htext before behind hoccurs hplace
  exact h c hstored hsemantic text htext before behind hoccurs (himp before behind hplace)

/-- What a search gives for a query after a history of the store of chunks. -/
structure SearchResult (ops : List ChunkStore.Operation) (query : String) (found : List Chunk) :
    Prop where
  /-- The chunks are in the order of saving. -/
  sublist_saved : found.Sublist (ops.filterMap ChunkStore.Operation.saved?)
  isSemantic : ∀ c ∈ found, c.isSemantic = true
  /-- They are the semantic chunks in store of which some text holds the query in lowercase. -/
  exists_filter : ∃ wanted : Chunk → Bool, found = (ChunkStore.run ops).getAll.filter wanted ∧
    ∀ c, wanted c = true ↔
      c.isSemantic = true ∧ ∃ text, HoldsText c text ∧ OccursInLowercase query text
  findsAt_keepsWordEnds : FindsAt (ChunkStore.run ops).getAll found query
    (fun before behind => Text.KeepsWordEnds before query.toList behind)
  /-- A query without a capital sigma is found everywhere. -/
  findsAt_of_no_sigma : 'Σ' ∉ query.toList →
    FindsAt (ChunkStore.run ops).getAll found query (fun _ _ => True)
  /-- Any query is found where it does not stand inside of a word. -/
  findsAt_apart : FindsAt (ChunkStore.run ops).getAll found query
    (fun before behind =>
      Text.casedFirst before.reverse = false ∧ Text.casedFirst behind = false)

/-- After every history, a search gives the semantic chunks with a text that holds the query in
lowercase, in the order of saving. Among them are all chunks with a text in which the query occurs
in letters of either size and keeps its word ends. -/
theorem search_finds (a : Analyzer) (ops : List ChunkStore.Operation) (query : String) :
    SearchResult ops query ({ a with chunks := ChunkStore.run ops }.search query) := by
  have hmem : ∀ c, c ∈ ({ a with chunks := ChunkStore.run ops }.search query) ↔
      c ∈ (ChunkStore.run ops).getAll ∧ c.isSemantic = true ∧
        ∃ text, HoldsText c text ∧ OccursInLowercase query text := by
    intro c
    rw [Analyzer.search, List.mem_filter, Bool.and_eq_true, matchesQuery_iff]
  have hfinds : FindsAt (ChunkStore.run ops).getAll
      ({ a with chunks := ChunkStore.run ops }.search query) query
      (fun before behind => Text.KeepsWordEnds before query.toList behind) := by
    intro c hstored hsemantic text htext before behind hoccurs hends
    exact (hmem c).2
      ⟨hstored, hsemantic, text, htext, occursInLowercase_of_occursBetween hoccurs hends⟩
  exact {
    sublist_saved := List.filter_sublist.trans (ChunkStore.getAll_sublist_saved ops)
    isSemantic := fun c hc => ((hmem c).1 hc).2.1
    exists_filter := by
      refine ⟨_, rfl, fun c => ?_⟩
      rw [Bool.and_eq_true, matchesQuery_iff]
    findsAt_keepsWordEnds := hfinds
    findsAt_of_no_sigma := fun hsigma => hfinds.of_imp
      (fun before behind _ => Text.keepsWordEnds_of_not_mem hsigma before behind)
    findsAt_apart := hfinds.of_imp
      (fun _ _ hapart => Text.keepsWordEnds_of_apart hapart.1 hapart.2 query.toList) }

/-- A semantic chunk with a Greek word in it. -/
def greekChunk : Chunk :=
  { content := "ΟΔΟΣΑ", kind := .function, filePath := "a.py", modulePath := "a", startLine := 1,
    endLine := 1, metadata := (∅ : Table String Json).insert "is_semantic_chunk" (.bool true) }

/-- The sigma ends a word of the query, but none of the text: what the chunk begins with is not
found. -/
theorem search_misses_occurrence :
    greekChunk ∈ (ChunkStore.run [.save greekChunk]).getAll ∧ greekChunk.isSemantic = true ∧
      HoldsText greekChunk "ΟΔΟΣΑ" ∧ OccursBetween "ΟΔΟΣ" "ΟΔΟΣΑ" [] ['Α'] ∧
      ∀ a : Analyzer,
        { a with chunks := ChunkStore.run [.save greekChunk] }.search "ΟΔΟΣ" = [] := by
  have hstored : (ChunkStore.run [.save greekChunk]).getAll = [greekChunk] := rfl
  refine ⟨?_, by decide +kernel, .content, ⟨"ΟΔΟΣ".toList, by decide, rfl⟩, fun a => ?_⟩
  · rw [hstored]
    exact List.mem_singleton_self _
  · have hmissed : Analyzer.matchesQuery (Text.lowercase "ΟΔΟΣ".toList) greekChunk = false := by
      decide +kernel
    rw [Analyzer.search, hstored, List.filter_singleton, hmissed, Bool.and_false]
    rfl

end Project

end CodeAtlas
