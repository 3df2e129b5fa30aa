import CodeAtlas.Chunk.Chunker
import CodeAtlas.Proofs.Attempt

/-!
# Which settings of chunking make sense

Settings are checked one thing after the other, and the first fault counts. What each check looks at
and where it stands in the row is written down as the list of all faults of some settings; the
validator gives the verdict on this list. The patterns of settings without a fault can be read, and
a chunker can be made of them. All of this holds for every way to read texts as patterns.

Main results:

- Theorem `ChunkerConfig.validateWith_eq_verdict`: the order in which settings are checked.
- Theorem `ChunkerConfig.faults_eq_nil_iff`: which settings have no fault.
- Theorem `PatternLibrary.exists_compileWith_iff`: which categories can be read.
- Theorem `exists_create_of_validate`: valid settings make a chunker.
-/

namespace CodeAtlas.Chunking

variable {read : String → Option Regex}

/-! ## Faults -/

/-- The faults of a category: its name is empty, and texts that cannot be read. -/
def PatternCategory.faults (read : String → Option Regex) (c : PatternCategory) :
    List ChunkError :=
  faultIf (c.name = "") (.invalidConfig .emptyCategoryName) ++
    (c.patterns.filter (fun text => (read text).isNone)).map ChunkError.invalidPattern

/-- The faults of settings of chunking: thresholds in the wrong order, an empty keyword, and the
faults of the categories. -/
def ChunkerConfig.faults (read : String → Option Regex) (c : ChunkerConfig) : List ChunkError :=
  faultIf (c.complexLineThreshold < c.mediumLineThreshold)
      (.invalidConfig (.thresholds c.mediumLineThreshold c.complexLineThreshold)) ++
    (faultIf ("" ∈ c.complexityKeywords) (.invalidConfig .emptyKeyword) ++
      c.patterns.flatMap (PatternCategory.faults read))

theorem any_isEmpty_iff {texts : List String} : texts.any String.isEmpty = true ↔ "" ∈ texts := by
  simp [List.any_eq_true]

/-- A category is checked for its name first, and then for its texts in their order. -/
theorem PatternCategory.validateWith_eq_verdict (read : String → Option Regex)
    (c : PatternCategory) : c.validateWith read = verdict (c.faults read) := by
  rw [faults, verdict_faultIf_append, verdict_map_filter, validateWith]
  refine if_congr String.isEmpty_iff rfl ?_
  cases c.patterns.find? (fun text => (read text).isNone) with
  | none => rfl
  | some text => rfl

/-- Settings of chunking are checked for their thresholds, their keywords, and their categories one
after the other. -/
theorem ChunkerConfig.validateWith_eq_verdict (read : String → Option Regex) (c : ChunkerConfig) :
    c.validateWith read = verdict (c.faults read) := by
  have hcategories : PatternCategory.validateWith read =
      fun category => verdict (category.faults read) :=
    funext (PatternCategory.validateWith_eq_verdict read)
  rw [faults, verdict_faultIf_append, verdict_faultIf_append, verdict_flatMap, validateWith,
    hcategories]
  exact if_congr Iff.rfl rfl (if_congr any_isEmpty_iff rfl rfl)

/-- A category without a fault has a name, and its texts can be read. -/
theorem PatternCategory.faults_eq_nil_iff {c : PatternCategory} :
    c.faults read = [] ↔ c.name ≠ "" ∧ ∀ text ∈ c.patterns, (read text).isSome = true := by
  simp only [faults, List.append_eq_nil_iff, faultIf_eq_nil_iff, List.map_eq_nil_iff,
    List.filter_eq_nil_iff, Bool.not_eq_true, Option.isNone_eq_false_iff, ne_eq]

/-- Settings without a fault have thresholds in order, no empty keyword, and categories without a
fault. -/
theorem ChunkerConfig.faults_eq_nil_iff {c : ChunkerConfig} :
    c.faults read = [] ↔
      c.mediumLineThreshold ≤ c.complexLineThreshold ∧ "" ∉ c.complexityKeywords ∧
        ∀ category ∈ c.patterns, category.name ≠ "" ∧
          ∀ text ∈ category.patterns, (read text).isSome = true := by
  simp only [faults, List.append_eq_nil_iff, faultIf_eq_nil_iff, List.flatMap_eq_nil_iff,
    PatternCategory.faults_eq_nil_iff, Nat.not_lt]

/-! ## Reading categories -/

namespace PatternLibrary

/-- A text that denotes a pattern is read as that pattern. -/
theorem compilePattern_eq_ok_iff {text : String} {p : String × Regex} :
    compilePattern read text = .ok p ↔ ∃ r, read text = some r ∧ p = (text, r) := by
  unfold compilePattern
  cases read text with
  | none => simp
  | some r => simp [eq_comm]

/-- A category is read pattern by pattern. -/
theorem compileCategory_eq_ok_iff {c : PatternCategory} {d : CompiledCategory} :
    compileCategory read c = .ok d ↔ ∃ ps, c.patterns.mapM (compilePattern read) = .ok ps ∧
      d = ⟨c.name, ps⟩ := by
  unfold compileCategory
  cases c.patterns.mapM (compilePattern read) with
  | error e => simp [Except.map]
  | ok ps => simp [Except.map, eq_comm]

/-- A library is read category by category. -/
theorem compile_eq_ok_iff {categories : List PatternCategory} {library : PatternLibrary} :
    compileWith read categories = .ok library ↔
      categories.mapM (compileCategory read) = .ok library.categories := by
  unfold compileWith
  cases categories.mapM (compileCategory read) with
  | error e => simp [Except.map]
  | ok cs =>
    cases library
    simp [Except.map]

/-- Categories can be read exactly if each of their texts can. -/
theorem exists_compileWith_iff {categories : List PatternCategory} :
    (∃ library, compileWith read categories = .ok library) ↔
      ∀ c ∈ categories, ∀ text ∈ c.patterns, (read text).isSome = true := by
  have hpattern : ∀ text, (∃ p, compilePattern read text = .ok p) ↔
      (read text).isSome = true := by
    intro text
    simp only [compilePattern_eq_ok_iff, Option.isSome_iff_exists]
    exact ⟨fun ⟨_, r, hr, _⟩ => ⟨r, hr⟩, fun ⟨r, hr⟩ => ⟨_, r, hr, rfl⟩⟩
  have hcategory : ∀ c, (∃ d, compileCategory read c = .ok d) ↔
      ∀ text ∈ c.patterns, (read text).isSome = true := by
    intro c
    simp only [← hpattern, ← exists_mapM_eq_ok_iff, compileCategory_eq_ok_iff]
    exact ⟨fun ⟨_, ps, hps, _⟩ => ⟨ps, hps⟩, fun ⟨ps, hps⟩ => ⟨_, ps, hps, rfl⟩⟩
  simp only [← hcategory, ← exists_mapM_eq_ok_iff, compile_eq_ok_iff]
  exact ⟨fun ⟨library, hcs⟩ => ⟨library.categories, hcs⟩, fun ⟨cs, hcs⟩ => ⟨⟨cs⟩, hcs⟩⟩

/-- Valid categories can be read. -/
theorem exists_compile_of_validate {categories : List PatternCategory}
    (h : categories.forM (PatternCategory.validateWith read) = .ok ()) :
    ∃ library, compileWith read categories = .ok library := by
  refine exists_compileWith_iff.2 (fun c hc => ?_)
  have hvalid := forM_eq_ok_iff.1 h c hc
  rw [PatternCategory.validateWith_eq_verdict, verdict_eq_ok_iff] at hvalid
  exact (PatternCategory.faults_eq_nil_iff.1 hvalid).2

end PatternLibrary

/-! ## Chunkers -/

variable {isMatch : Regex → List Char → Bool}

/-- A chunker is made of settings that are valid and whose patterns can be read. -/
theorem create_eq_ok_iff {config : ChunkerConfig} {chunker : Chunker} :
    Chunker.createWith read isMatch config = .ok chunker ↔
      config.validateWith read = .ok () ∧
        ∃ library, PatternLibrary.compileWith read config.patterns = .ok library ∧
          chunker = ⟨config, library, isMatch⟩ := by
  unfold Chunker.createWith
  simp only [bind_eq_ok_iff, PatternLibrary.ofConfigWith_eq_compileWith, pure, Except.pure,
    Except.ok.injEq]
  constructor
  · rintro ⟨_, hvalid, library, hlibrary, rfl⟩
    exact ⟨hvalid, library, hlibrary, rfl⟩
  · rintro ⟨hvalid, library, hlibrary, rfl⟩
    exact ⟨(), hvalid, library, hlibrary, rfl⟩

/-- The categories of valid settings are valid. -/
theorem validate_patterns {config : ChunkerConfig} (h : config.validateWith read = .ok ()) :
    config.patterns.forM (PatternCategory.validateWith read) = .ok () := by
  unfold ChunkerConfig.validateWith at h
  split at h
  · cases h
  · split at h
    · cases h
    · exact h

/-- Valid settings make a chunker. -/
theorem exists_create_of_validate {config : ChunkerConfig} (h : config.validateWith read = .ok ()) :
    ∃ chunker, Chunker.createWith read isMatch config = .ok chunker := by
  obtain ⟨library, hlibrary⟩ := PatternLibrary.exists_compile_of_validate (validate_patterns h)
  exact ⟨_, create_eq_ok_iff.2 ⟨h, library, hlibrary, rfl⟩⟩

end CodeAtlas.Chunking
