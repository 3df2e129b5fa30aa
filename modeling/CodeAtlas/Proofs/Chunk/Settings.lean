import CodeAtlas.Chunk.Settings
import CodeAtlas.Proofs.Json.Records

/-!
# Parts of chunking settings

Settings of chunking can be read when only some of their members are there. Those that are there
have their values and all others their default values.

Main definition: `ChunkerConfig.keepOnly`, settings that have their default values except for some.

Main result: Theorem `ChunkerConfig.ofJson?_of_isPart`.
-/

namespace CodeAtlas.Chunking

open Json (IsPart)

theorem ChunkingMode.ofJson?_label (mode : ChunkingMode) :
    ChunkingMode.ofJson? (.str mode.label) = some mode := by
  cases mode <;> rfl

/-- A category is read back as it was written. -/
theorem PatternCategory.ofJson?_toJson (c : PatternCategory) :
    PatternCategory.ofJson? c.toJson = some c := by
  have hpatterns := Json.list?_strs c.patterns
  change (Json.list? Json.str? (.strs c.patterns)).bind (fun ps => some ⟨c.name, ps⟩) = some c
  rw [hpatterns, Option.bind_some]

namespace ChunkerConfig

/-- The settings whose names are kept, and default values for all others. -/
def keepOnly (kept : String → Bool) (c : ChunkerConfig) : ChunkerConfig :=
  let default : ChunkerConfig := {}
  { mode := if kept "mode" then c.mode else default.mode
    patterns := if kept "patterns" then c.patterns else default.patterns
    complexityKeywords :=
      if kept "complexity_keywords" then c.complexityKeywords else default.complexityKeywords
    mediumLineThreshold :=
      if kept "medium_line_threshold" then c.mediumLineThreshold else default.mediumLineThreshold
    complexLineThreshold :=
      if kept "complex_line_threshold" then c.complexLineThreshold
      else default.complexLineThreshold }

/-- The thresholds are not larger than a setting can be. -/
structure Fits (c : ChunkerConfig) : Prop where
  medium : c.mediumLineThreshold ≤ Json.maxNat
  complex : c.complexLineThreshold ≤ Json.maxNat

/-- Settings of which some are there have these, and default values otherwise. -/
theorem ofJson?_of_isPart {kept : String → Bool} {c : ChunkerConfig} {v : Json} (hc : c.Fits)
    (h : IsPart kept c.toJson v) : ofJson? v = some (c.keepOnly kept) := by
  obtain ⟨member, hrecord, hmember⟩ :=
    Json.exists_record?_of_isPart h (by simp) ChunkerConfig.memberNames
  simp only [List.forall_mem_cons] at hmember
  obtain ⟨hmode, hpatterns, hkeywords, hmedium, hcomplex, -⟩ := hmember
  have hcategories : Json.list? PatternCategory.ofJson? (.arr (c.patterns.map (·.toJson))) =
      some c.patterns :=
    Json.list?_arr_map (fun category _ => category.ofJson?_toJson)
  simp only [ofJson?, hrecord, Option.bind_eq_bind, Option.bind_some,
    Json.readOr_of_kept hmode c.mode.ofJson?_label,
    Json.readOr_of_kept hpatterns hcategories,
    Json.readOr_of_kept hkeywords (Json.list?_strs _),
    Json.readOr_of_kept hmedium (Json.nat?_nat hc.medium),
    Json.readOr_of_kept hcomplex (Json.nat?_nat hc.complex)]
  rfl

end ChunkerConfig

end CodeAtlas.Chunking
