import CodeAtlas.Project.Stats
import CodeAtlas.Proofs.Store.Statistics

/-!
# Two reports on complexity

How complex some chunks are is told twice: by the numbers about an analysis, which add up in 32
bits, and by the statistics of a store, which add up in 64 bits. Where both are given they tell the
same. The numbers about an analysis are given exactly if the total fits into the 32 bits, and in 64
bits every total fits of at most `2 ^ 32 + 1` scored chunks.

Main results:

- Theorem `AnalysisStats.summarize_eq_ok_iff`: when there are numbers about an analysis.
- Theorem `complexityReports_agree`: what the two reports share.
- Theorem `complexityReports_differ`: two chunks that only one of them reports on.
-/

namespace CodeAtlas.Project

open CodeAtlas.Analysis
open CodeAtlas.Chunking
open CodeAtlas.Store

/-! ## Numbers about an analysis -/

/-- The complexities of some chunks that have one. -/
def scores (chunks : List Chunk) : List Nat := chunks.filterMap Chunk.complexity

namespace AnalysisStats

variable {stats after : AnalysisStats} {symbols : List Symbol} {calls : List Call}
  {chunks : List Chunk}

/-- The numbers with totals and kinds of some entities, and with complexities of any total. -/
def summarized (stats : AnalysisStats) (symbols : List Symbol) (calls : List Call)
    (chunks : List Chunk) : AnalysisStats :=
  { stats with
    totalSymbols := symbols.length
    totalCalls := calls.length
    totalChunks := chunks.length
    symbolKinds := kindCounts (symbols.map (fun x => x.kind.label))
    callKinds := kindCounts (calls.map (fun x => x.kind.label))
    chunkKinds := kindCounts (chunks.map (fun x => x.kind.label))
    complexity := if scores chunks = [] then stats.complexity else .of (scores chunks) }

theorem complexityOf_of_scored (h : scores chunks ≠ []) :
    stats.complexityOf chunks = Summary.ofList Register.limit32 (scores chunks) :=
  if_neg (fun hempty => h (List.isEmpty_iff.1 hempty))

/-- Complexities are reported if their total fits into 32 bits. -/
theorem complexityOf_eq_ok_iff {complexity : Summary} :
    stats.complexityOf chunks = .ok complexity ↔
      (scores chunks).sum < Register.limit32 ∧
        complexity = if scores chunks = [] then stats.complexity else .of (scores chunks) := by
  have hlimit : 0 < Register.limit32 := by decide
  by_cases hnone : scores chunks = []
  · have hkept : stats.complexityOf chunks = .ok stats.complexity :=
      if_pos (List.isEmpty_iff.2 hnone)
    rw [hkept, hnone, if_pos rfl, List.sum_nil]
    simp [hlimit, eq_comm]
  · rw [complexityOf_of_scored hnone, if_neg hnone, Summary.ofList_eq_ok_iff hlimit]

/-- An analysis is summarized if the complexities of its chunks are. -/
theorem summarize_eq_ok_iff :
    stats.summarize symbols calls chunks = .ok after ↔
      (scores chunks).sum < Register.limit32 ∧ after = stats.summarized symbols calls chunks := by
  simp only [summarize, bind_eq_ok_iff, complexityOf_eq_ok_iff]
  constructor
  · rintro ⟨_, ⟨hfits, rfl⟩, hafter⟩
    exact ⟨hfits, (Except.ok.inj hafter).symm⟩
  · rintro ⟨hfits, rfl⟩
    exact ⟨_, ⟨hfits, rfl⟩, rfl⟩

/-- Complexities with a larger total stop the program. -/
theorem summarize_eq_error (h : Register.limit32 ≤ (scores chunks).sum) :
    stats.summarize symbols calls chunks = .error .sum := by
  have hsome : scores chunks ≠ [] := by
    intro hnone
    rw [hnone] at h
    exact absurd h (by decide)
  rw [summarize, complexityOf_of_scored hsome, Summary.ofList_eq_error (by decide) h]
  rfl

/-- New numbers report on the complexities of the chunks and nothing else. -/
theorem complexity_summarized (hnew : scores chunks = [] → stats.complexity = {})
    (symbols : List Symbol) (calls : List Call) :
    (stats.summarized symbols calls chunks).complexity = .of (scores chunks) := by
  by_cases hnone : scores chunks = []
  · have hkept : (stats.summarized symbols calls chunks).complexity = stats.complexity :=
      if_pos hnone
    rw [hkept, hnew hnone, hnone]
    rfl
  · exact if_neg hnone

end AnalysisStats

/-! ## Both reports -/

/-- Two reports on the complexities of some chunks: one that adds up in 32 bits, and one that adds
up in 64 bits. -/
structure ComplexityReports (chunks : List Chunk) (inAnalysis : Except Overflow AnalysisStats)
    (inStore : Except Overflow ChunkStatistics) : Prop where
  /-- The first is given exactly if the 32 bits hold the total; otherwise the program stops. -/
  inAnalysis_iff : (∃ a, inAnalysis = .ok a) ↔ (scores chunks).sum < Register.limit32
  inAnalysis_error : Register.limit32 ≤ (scores chunks).sum → inAnalysis = .error .sum
  /-- The second is given exactly if the 64 bits hold all totals about the chunks. -/
  inStore_iff : (∃ s, inStore = .ok s) ↔ Measurable chunks
  /-- They hold every total of at most `2 ^ 32 + 1` complexities. -/
  sum_lt : (scores chunks).length ≤ Register.limit32 + 1 →
    (scores chunks).sum < Register.limit64
  /-- Where both are given, they are the same. -/
  agree : ∀ a s, inAnalysis = .ok a → inStore = .ok s → a.complexity = s.complexity
  /-- Each of them has the total, the size and the extremes of the complexities, and zeros where
  there are none. -/
  inAnalysis_eq : ∀ a, inAnalysis = .ok a → a.complexity = .of (scores chunks)
  inStore_eq : ∀ s, inStore = .ok s → s.complexity = .of (scores chunks)
  summarizes : Summarizes (scores chunks) (.of (scores chunks))
  of_nil : scores chunks = [] → Summary.of (scores chunks) = {}

/-- Numbers below a bound add up to less than the bound for each of them. -/
theorem sum_lt_limit64 {ns : List Nat} (hword : ∀ n ∈ ns, n < Register.limit32)
    (hlength : ns.length ≤ Register.limit32 + 1) : ns.sum < Register.limit64 := by
  have hle : ns.sum ≤ ns.length * (Register.limit32 - 1) :=
    List.sum_le_card_nsmul ns _ (fun n hn => Nat.le_pred_of_lt (hword n hn))
  calc ns.sum ≤ (Register.limit32 + 1) * (Register.limit32 - 1) :=
        hle.trans (Nat.mul_le_mul_right _ hlength)
    _ < Register.limit64 := by decide

/-- The numbers about an analysis and the statistics of a store with the same chunks report alike on
their complexities, as far as the totals fit into their registers. -/
theorem complexityReports_agree {stats : AnalysisStats} {chunks : List Chunk}
    (hnew : scores chunks = [] → stats.complexity = {}) (symbols : List Symbol) (calls : List Call)
    (hword : ∀ n ∈ scores chunks, n < Register.limit32) {s : ChunkStore}
    (hsame : s.getAll.Perm chunks) :
    ComplexityReports chunks (stats.summarize symbols calls chunks) s.statistics := by
  have hanalysis : ∀ a, stats.summarize symbols calls chunks = .ok a →
      a.complexity = .of (scores chunks) := by
    intro a ha
    obtain ⟨-, rfl⟩ := AnalysisStats.summarize_eq_ok_iff.1 ha
    exact AnalysisStats.complexity_summarized hnew symbols calls
  have hstore : ∀ t, s.statistics = .ok t → t.complexity = .of (scores chunks) := by
    intro t ht
    obtain ⟨-, rfl⟩ := ChunkStore.statistics_eq_ok_iff.1 ht
    exact Summary.of_perm (hsame.filterMap Chunk.complexity)
  exact {
    inAnalysis_iff := by simp [AnalysisStats.summarize_eq_ok_iff]
    inAnalysis_error := AnalysisStats.summarize_eq_error
    inStore_iff := ChunkStore.exists_statistics_iff.trans ⟨.perm hsame, .perm hsame.symm⟩
    sum_lt := sum_lt_limit64 hword
    agree := fun a t ha ht => (hanalysis a ha).trans (hstore t ht).symm
    inAnalysis_eq := hanalysis
    inStore_eq := hstore
    summarizes := summarizes_of _
    of_nil := fun hnone => by rw [hnone]; rfl }

/-- A chunk of some complexity. -/
def scoredChunk (complexity : Option Nat) : Chunk :=
  { content := "x", kind := .function, filePath := "a.py", modulePath := "a", startLine := 1,
    endLine := 1, complexity }

/-- Two scored chunks and one without a complexity, in the order of saving and the other way
round. -/
theorem complexityReports_agree_three :
    let chunks := [scoredChunk (some 3), scoredChunk none, scoredChunk (some 5)]
    let s := ChunkStore.empty.saveAll chunks.reverse
    (scores chunks = [] → ({} : AnalysisStats).complexity = {}) ∧
      (∀ n ∈ scores chunks, n < Register.limit32) ∧ s.getAll.Perm chunks ∧
      ∃ a t, ({} : AnalysisStats).summarize [] [] chunks = .ok a ∧ s.statistics = .ok t ∧
        a.complexity = t.complexity ∧ t.complexity = ⟨8, 2, 5, 3⟩ := by
  intro chunks s
  have hnew : scores chunks = [] → ({} : AnalysisStats).complexity = {} := fun _ => rfl
  have hword : ∀ n ∈ scores chunks, n < Register.limit32 := by decide
  have hsame : s.getAll.Perm chunks := List.reverse_perm chunks
  have hreports := complexityReports_agree hnew [] [] hword hsame
  obtain ⟨a, ha⟩ := hreports.inAnalysis_iff.2 (by decide)
  obtain ⟨t, ht⟩ := hreports.inStore_iff.2 ⟨by decide, by decide, by decide, by decide⟩
  exact ⟨hnew, hword, hsame, a, t, ha, ht, hreports.agree a t ha ht, hreports.inStore_eq t ht⟩

/-- Two chunks whose complexities fit into 32 bits, while their total does not. -/
def heavyChunks : List Chunk := [scoredChunk (some 4294967295), scoredChunk (some 1)]

/-- There are no numbers about an analysis of these chunks, while the statistics of a store with them
have the total `2 ^ 32`. -/
theorem complexityReports_differ :
    (∀ n ∈ scores heavyChunks, n < Register.limit32) ∧
      (ChunkStore.empty.saveAll heavyChunks).getAll = heavyChunks ∧
      ({} : AnalysisStats).summarize [] [] heavyChunks = .error .sum ∧
      ∃ t, (ChunkStore.empty.saveAll heavyChunks).statistics = .ok t ∧
        t.complexity = ⟨4294967296, 2, 4294967295, 1⟩ := by
  refine ⟨by decide, rfl, AnalysisStats.summarize_eq_error (by decide), ?_⟩
  have hchunks : Measurable (ChunkStore.empty.saveAll heavyChunks).getAll :=
    ⟨by decide, by decide, by decide, by decide⟩
  obtain ⟨t, ht⟩ := ChunkStore.exists_statistics_iff.2 hchunks
  obtain ⟨-, rfl⟩ := ChunkStore.statistics_eq_ok_iff.1 ht
  exact ⟨_, ht, rfl⟩

end CodeAtlas.Project
