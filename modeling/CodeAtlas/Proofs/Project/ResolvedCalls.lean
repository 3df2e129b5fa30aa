import CodeAtlas.Proofs.Project.UsedSymbols
import Mathlib.Data.List.Perm.Lattice

/-!
# References are resolved calls

While an analysis is stored, every call is looked up at once, with the symbols that are there by
then. All symbols are saved before, and references change no look-up, so each call leads to where
it leads in the end. What is noted as a reference is therefore nothing but the calls that lead to a
symbol, and a symbol is unused exactly if none does.

Main results:

- Theorem `Rows.leadsTo_iff`: a call leads to the key of a symbol if its callee is found to be that
  symbol.
- Theorem `referAll_filter`: a call that leads nowhere leaves no trace.
- Theorem `resolves_store`: after an analysis is stored, the references are the resolved calls.
-/

namespace CodeAtlas.Store.SymbolStore

open CodeAtlas.Analysis

variable {s : SymbolStore} {rows : List (SymbolHandle × Symbol)}

/-! ## Where calls lead -/

/-- What is found by a name is kept. -/
theorem Rows.mem_of_findByName (h : s.Rows rows) {name : String} {x : Symbol}
    (hx : s.findByName name = some x) : x ∈ s.getAll := by
  rw [h.findByName_eq] at hx
  rcases Option.or_eq_some_iff.1 hx with hkey | ⟨-, hname⟩
  · exact List.mem_of_find?_eq_some hkey
  · exact List.mem_of_find?_eq_some hname

/-- A call leads to the key of a symbol if its callee is found to be that symbol. -/
theorem Rows.leadsTo_iff (h : s.Rows rows) {x : Symbol} (hx : x ∈ s.getAll) (c : Call) :
    s.leadsTo x.key c = true ↔ s.findByName c.callee = some x := by
  have hkeys : (s.getAll.map Symbol.key).Nodup := h.map_key ▸ s.handles.nodup_keys
  rw [leadsTo, Option.any_eq_true]
  constructor
  · rintro ⟨y, hy, hkey⟩
    have hmem := h.mem_of_findByName hy
    rw [hy, List.inj_on_of_nodup_map hkeys hmem hx (of_decide_eq_true hkey)]
  · intro hfind
    exact ⟨x, hfind, decide_eq_true rfl⟩

/-- No call leads to a key that no symbol has. -/
theorem Rows.leadsTo_eq_false (h : s.Rows rows) {key : String}
    (hkey : ∀ x ∈ s.getAll, x.key ≠ key) (c : Call) : s.leadsTo key c = false := by
  rw [← Bool.not_eq_true, leadsTo, Option.any_eq_true]
  rintro ⟨y, hy, heq⟩
  exact hkey y (h.mem_of_findByName hy) (of_decide_eq_true heq)

/-! ## What is noted -/

/-- A call that leads nowhere leaves no trace. -/
theorem referAll_filter (s : SymbolStore) (cs : List Call) :
    s.referAll (cs.filter (fun c => (s.findByName c.callee).isSome)) = s.referAll cs := by
  have hkept : ∀ t : SymbolStore, (∀ name, t.findByName name = s.findByName name) →
      t.referAll (cs.filter (fun c => (s.findByName c.callee).isSome)) = t.referAll cs := by
    intro t ht
    induction cs generalizing t with
    | nil => rfl
    | cons c cs ih =>
      have hcs : t.referAll (c :: cs) = (t.refer c).referAll cs := rfl
      rw [hcs, List.filter_cons]
      split
      · refine ih (t.refer c) (fun name => ?_)
        obtain ⟨references, hrefer⟩ := t.exists_refer c
        rw [hrefer]
        exact ht name
      · next hnone =>
        have hrefer : t.refer c = t := by
          rw [refer, ht, Option.not_isSome_iff_eq_none.1 hnone]
        rw [hrefer]
        exact ih t ht
  exact hkept s (fun _ => rfl)

/-! ## What a store says -/

/-- The references of a store are the resolved ones of some calls. -/
structure Resolves (s : SymbolStore) (calls : List Call) : Prop where
  /-- The references to a symbol are the callers of the calls that lead to it, in their order. -/
  referencesTo_eq : ∀ x ∈ s.getAll, s.referencesTo x.key =
    (calls.filter (fun c => s.findByName c.callee = some x)).map Call.caller
  /-- A call leads to a symbol of the store or nowhere. -/
  mem_of_findByName : ∀ c ∈ calls, ∀ x, s.findByName c.callee = some x → x ∈ s.getAll
  /-- Nothing refers to a key that no symbol has. -/
  referencesTo_eq_nil : ∀ key, (∀ x ∈ s.getAll, x.key ≠ key) → s.referencesTo key = []
  /-- The unused symbols are those without references, in the order of all symbols. -/
  findUnused_eq : s.findUnused = s.getAll.filter (fun x => s.referencesTo x.key = [])
  /-- A symbol is used or unused. -/
  perm : (s.getAll.filter (fun x => s.referencesTo x.key ≠ []) ++ s.findUnused).Perm s.getAll
  disjoint : (s.getAll.filter (fun x => s.referencesTo x.key ≠ [])).Disjoint s.findUnused
  unusedCount_eq : s.statistics.unusedCount =
    s.getAll.countP (fun x => s.referencesTo x.key = [])

/-- The references that calls leave in a filled store are the resolved ones. -/
theorem resolves_referAll (s : SymbolStore) (xs : List Symbol) (calls : List Call) :
    ((s.clear.saveAll xs).referAll calls).Resolves calls := by
  obtain ⟨rows, hrows, -⟩ := s.rows_clear.saveAll xs
  have hempty : (s.clear.saveAll xs).references = ∅ := s.clear.references_saveAll xs
  generalize s.clear.saveAll xs = base at hrows hempty
  have hreferred : base.Referred := fun key users hget => by
    rw [hempty] at hget
    cases hget
  have hunused := (hreferred.referAll calls).findUnused_eq
  have hreferences : ∀ key, (base.referAll calls).referencesTo key =
      (calls.filter (base.leadsTo key)).map Call.caller := by
    intro key
    have hnone : base.referencesTo key = [] := by
      rw [referencesTo, hempty]
      rfl
    rw [referencesTo_referAll, hnone, List.nil_append]
  have hsplit : ∀ p : Symbol → Bool,
      (base.getAll.filter (fun x => !p x) ++ base.getAll.filter p).Perm base.getAll :=
    fun p => List.perm_append_comm.trans (List.filter_append_perm p base.getAll)
  constructor
  · intro x hx
    rw [getAll_referAll] at hx
    simp only [hreferences, findByName_referAll]
    refine congrArg (List.map Call.caller) (List.filter_congr (fun c _ => ?_))
    exact Bool.eq_iff_iff.2 ((hrows.leadsTo_iff hx c).trans decide_eq_true_iff.symm)
  · intro c _ x hx
    rw [findByName_referAll] at hx
    rw [getAll_referAll]
    exact hrows.mem_of_findByName hx
  · intro key hkey
    rw [getAll_referAll] at hkey
    simp [hreferences, hrows.leadsTo_eq_false hkey]
  · exact hunused
  · rw [hunused, getAll_referAll]
    simpa using hsplit (fun x => (base.referAll calls).referencesTo x.key = [])
  · rw [hunused]
    intro x hused hunused
    exact of_decide_eq_true (List.mem_filter.1 hused).2
      (of_decide_eq_true (List.mem_filter.1 hunused).2)
  · rw [List.countP_eq_length_filter, ← hunused]
    rfl

end CodeAtlas.Store.SymbolStore

namespace CodeAtlas.Project

open CodeAtlas.Analysis
open CodeAtlas.Store

/-- After an analysis is stored and nothing else, the references are the resolved calls, and the
calls that lead nowhere might as well not be there. -/
theorem resolves_store (a : Analyzer) (found : FileAnalysis) :
    let s := (a.clear.store found).symbols
    s.Resolves found.calls ∧
      (a.clear.store { found with
        calls := found.calls.filter (fun c => (s.findByName c.callee).isSome) }).symbols = s := by
  intro s
  have hs : s = (a.symbols.clear.saveAll found.symbols).referAll found.calls :=
    symbols_store a.clear found
  have hfind : ∀ name,
      s.findByName name = (a.symbols.clear.saveAll found.symbols).findByName name :=
    fun name => by rw [hs, SymbolStore.findByName_referAll]
  refine ⟨hs ▸ a.symbols.resolves_referAll found.symbols found.calls, ?_⟩
  rw [symbols_store, hs]
  simp only [SymbolStore.findByName_referAll]
  exact SymbolStore.referAll_filter _ found.calls

end CodeAtlas.Project
