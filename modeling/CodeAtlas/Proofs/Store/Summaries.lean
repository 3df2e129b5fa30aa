import CodeAtlas.Proofs.Attempt
import CodeAtlas.Store.Chunks
import Mathlib.Algebra.Field.Rat
import Mathlib.Algebra.Order.Group.Nat
import Mathlib.Algebra.Order.BigOperators.Group.List

/-!
# Summaries

A summary tells the total, the size and the extremes of a sample. It is given if the total fits into
the register in which it is added up, and then it is exact. A store of chunks has statistics if the
three totals in it do.

Main results:

- Theorem `Register.sum_eq`: when some numbers are added up, and to what.
- Theorem `Summary.ofList_eq_ok_iff`: when a sample is summarized.
- Theorem `summarizes_of`: a summary has the mean and the extremes of its sample.
- Theorem `Summary.of_perm`: a summary does not depend on the order of its sample.
- Theorem `ChunkStore.statistics_eq_ok_iff`: when a store of chunks has statistics.
-/

namespace CodeAtlas.Register

/-! ## Sums in a register -/

variable {limit : Nat}

/-- No sum on the way leaves the register if the last one does not. -/
theorem foldlM_fit {done : Nat} (h : done < limit) (ns : List Nat) :
    ns.foldlM (fun done n => fit limit (done + n)) done = fit limit (done + ns.sum) := by
  induction ns generalizing done with
  | nil => exact (fit_of_lt h).symm
  | cons n ns ih =>
    rw [List.foldlM_cons, List.sum_cons, ← Nat.add_assoc]
    by_cases hn : done + n < limit
    · rw [fit_of_lt hn]
      exact ih hn
    · have hle : limit ≤ done + n := Nat.not_lt.1 hn
      rw [fit_of_le hle, fit_of_le (Nat.le_trans hle (Nat.le_add_right _ _))]
      rfl

/-- Some numbers are added up exactly if their sum fits. -/
theorem sum_eq (h : 0 < limit) (ns : List Nat) : sum limit ns = fit limit ns.sum := by
  rw [sum, foldlM_fit h, Nat.zero_add]

end CodeAtlas.Register

namespace CodeAtlas.Store

open CodeAtlas.Chunking

/-! ## Samples -/

namespace Summary

/-- The summary of a sample with a total of any size. -/
def of (sample : List Nat) : Summary where
  total := sample.sum
  count := sample.length
  max := sample.max?.getD 0
  min := sample.min?.getD 0

/-- A sample is summarized if its total fits. -/
theorem ofList_eq_ok_iff {limit : Nat} (hlimit : 0 < limit) {sample : List Nat} {s : Summary} :
    ofList limit sample = .ok s ↔ sample.sum < limit ∧ s = of sample := by
  simp only [ofList, bind_eq_ok_iff, Register.sum_eq hlimit, Register.fit_eq_ok_iff]
  constructor
  · rintro ⟨total, ⟨hfits, rfl⟩, hs⟩
    exact ⟨hfits, (Except.ok.inj hs).symm⟩
  · rintro ⟨hfits, rfl⟩
    exact ⟨_, ⟨hfits, rfl⟩, rfl⟩

/-- A sample whose total does not fit has no summary. -/
theorem ofList_eq_error {limit : Nat} (hlimit : 0 < limit) {sample : List Nat}
    (h : limit ≤ sample.sum) : ofList limit sample = .error .sum := by
  rw [ofList, Register.sum_eq hlimit, Register.fit_of_le h]
  rfl

/-- A summary does not depend on the order of its sample. -/
theorem of_perm {sample sample' : List Nat} (h : sample.Perm sample') : of sample = of sample' := by
  have hmax : sample.max? = sample'.max? := by
    refine Option.ext (fun n => ?_)
    simp only [List.max?_eq_some_iff, h.mem_iff]
  have hmin : sample.min? = sample'.min? := by
    refine Option.ext (fun n => ?_)
    simp only [List.min?_eq_some_iff, h.mem_iff]
  rw [of, of, h.sum_eq, h.length_eq, hmax, hmin]

/-- The mean of a sample that was summarized; zero without a sample. -/
def mean (s : Summary) : Rat := s.total / s.count

end Summary

/-- A summary has the mean and the extremes of a sample, and zeros without one. -/
structure Summarizes (sample : List Nat) (s : Summary) : Prop where
  mean_eq : s.mean = (sample.sum : Rat) / (sample.length : Rat)
  max_of_ne_nil : sample ≠ [] → s.max ∈ sample ∧ ∀ n ∈ sample, n ≤ s.max
  min_of_ne_nil : sample ≠ [] → s.min ∈ sample ∧ ∀ n ∈ sample, s.min ≤ n
  zero_of_nil : sample = [] → s.mean = 0 ∧ s.max = 0 ∧ s.min = 0

/-- A summary has the mean and the extremes of its sample. -/
theorem summarizes_of (sample : List Nat) : Summarizes sample (.of sample) where
  mean_eq := rfl
  max_of_ne_nil h := by
    obtain ⟨n, hn⟩ := Option.ne_none_iff_exists'.1 (mt List.max?_eq_none_iff.1 h)
    simpa only [Summary.of, hn, Option.getD_some] using List.max?_eq_some_iff.1 hn
  min_of_ne_nil h := by
    obtain ⟨n, hn⟩ := Option.ne_none_iff_exists'.1 (mt List.min?_eq_none_iff.1 h)
    simpa only [Summary.of, hn, Option.getD_some] using List.min?_eq_some_iff.1 hn
  zero_of_nil h := by
    subst h
    simp [Summary.mean, Summary.of]

/-! ## Chunks -/

/-- Some chunks can be measured: none ends before it starts, and the 64 bits hold each total. -/
structure Measurable (chunks : List Chunk) : Prop where
  startLine_le_endLine : ∀ c ∈ chunks, c.startLine ≤ c.endLine
  complexity_lt : (chunks.filterMap Chunk.complexity).sum < Register.limit64
  lines_lt : (chunks.map Chunk.lineCount).sum < Register.limit64
  characters_lt : (chunks.map Chunk.characterCount).sum < Register.limit64

/-- The order of the chunks does not matter. -/
theorem Measurable.perm {chunks chunks' : List Chunk} (h : chunks.Perm chunks')
    (hchunks : Measurable chunks) : Measurable chunks' where
  startLine_le_endLine c hc := hchunks.startLine_le_endLine c (h.mem_iff.2 hc)
  complexity_lt := by
    rw [← (h.filterMap Chunk.complexity).sum_eq]
    exact hchunks.complexity_lt
  lines_lt := by
    rw [← (h.map Chunk.lineCount).sum_eq]
    exact hchunks.lines_lt
  characters_lt := by
    rw [← (h.map Chunk.characterCount).sum_eq]
    exact hchunks.characters_lt

/-- The lines of some chunks are counted if each chunk is in order and not too long. -/
theorem mapM_countLines_eq_ok_iff {chunks : List Chunk} {lines : List Nat} :
    chunks.mapM Chunk.countLines = .ok lines ↔
      (∀ c ∈ chunks, c.startLine ≤ c.endLine ∧ c.lineCount < Register.limit64) ∧
        lines = chunks.map Chunk.lineCount := by
  simp only [mapM_eq_ok_iff, Chunk.countLines_eq_ok_iff, ← and_assoc, List.forall₂_and_left]
  rw [← List.forall₂_map_left_iff, List.forall₂_eq_eq_eq, eq_comm]

namespace ChunkStore

/-- Counts of the chunks in a store with totals of any size. -/
def counts (s : ChunkStore) : ChunkStatistics where
  totalChunks := s.size
  byKind := s.byKind.sizes ChunkKind.label
  byFile := s.byFile.sizes id
  byModule := s.byModule.sizes id
  complexity := .of (s.getAll.filterMap Chunk.complexity)
  distribution := s.byComplexity.sizes toString
  lines := .of (s.getAll.map Chunk.lineCount)
  characters := .of (s.getAll.map Chunk.characterCount)

/-- A store has statistics if its chunks can be measured. -/
theorem statistics_eq_ok_iff {s : ChunkStore} {stats : ChunkStatistics} :
    s.statistics = .ok stats ↔ Measurable s.getAll ∧ stats = s.counts := by
  have hlimit : 0 < Register.limit64 := by decide
  simp only [statistics, bind_eq_ok_iff, mapM_countLines_eq_ok_iff,
    Summary.ofList_eq_ok_iff hlimit]
  constructor
  · rintro ⟨_, ⟨hinOrder, rfl⟩, _, ⟨hcomplexity, rfl⟩, _, ⟨hlines, rfl⟩, _, ⟨hcharacters, rfl⟩,
      hstats⟩
    exact ⟨⟨fun c hc => (hinOrder c hc).1, hcomplexity, hlines, hcharacters⟩,
      (Except.ok.inj hstats).symm⟩
  · rintro ⟨hchunks, rfl⟩
    have hinOrder : ∀ c ∈ s.getAll, c.startLine ≤ c.endLine ∧ c.lineCount < Register.limit64 :=
      fun c hc => ⟨hchunks.startLine_le_endLine c hc,
        (List.le_sum_of_mem (List.mem_map_of_mem hc)).trans_lt
          hchunks.lines_lt⟩
    exact ⟨_, ⟨hinOrder, rfl⟩, _, ⟨hchunks.complexity_lt, rfl⟩, _, ⟨hchunks.lines_lt, rfl⟩, _,
      ⟨hchunks.characters_lt, rfl⟩, rfl⟩

/-- Statistics are given exactly if the chunks can be measured. -/
theorem exists_statistics_iff {s : ChunkStore} :
    (∃ stats, s.statistics = .ok stats) ↔ Measurable s.getAll := by
  simp [statistics_eq_ok_iff]

end ChunkStore

end CodeAtlas.Store
