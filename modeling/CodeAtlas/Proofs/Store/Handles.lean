import CodeAtlas.Proofs.Table
import CodeAtlas.Store.Handle
import Mathlib.Data.List.Nodup

/-!
# Handles over time

Every store keeps a table of handles and a number that is given out next. Handles are in the order
of their numbers, and what was given out is never given out again.

Main results:

- Theorems `Shelved.insert_next`, `Shelved.insert_present` and `Shelved.erase`: a table stays in the
  order of its handles.
- Theorem `Issues.fresh`: where every operation keeps something new under the next handle or only
  loses entries, the handles of a whole history are different, the entries stand in the order in
  which they came, and a handle that is dropped leads nowhere for good.
- Theorem `Issues.get?_eq_some_iff`: where a store drops nothing but what it is told to, a handle
  leads somewhere exactly from the operation that gives it out to the first one that drops it.
-/

namespace CodeAtlas.Store

/-! ## Tables of handles -/

section Shelved

variable {kind : EntityKind} {α : Type} {t : Table (Handle kind) α} {next : Nat}

/-- The handles are in ascending order, and all of them are below the one that comes next. -/
structure Shelved (t : Table (Handle kind) α) (next : Nat) : Prop where
  ascending : t.keys.Pairwise (fun a b => a.number < b.number)
  issued : ∀ h ∈ t.keys, h.number < next

/-- The empty table is in order. -/
theorem shelved_empty (next : Nat) : Shelved (∅ : Table (Handle kind) α) next :=
  ⟨List.Pairwise.nil, fun _ h => absurd h List.not_mem_nil⟩

/-- Nothing is kept under a handle that comes later. -/
theorem Shelved.get?_eq_none (h : Shelved t next) {i : Handle kind} (hi : next ≤ i.number) :
    t.get? i = none := by
  rw [Table.get?_eq_none_iff]
  intro hmem
  exact Nat.not_lt.2 hi (h.issued i hmem)

/-- The next handle goes behind all others. -/
theorem Shelved.keys_insert_next (h : Shelved t next) (x : α) :
    (t.insert ⟨next⟩ x).keys = t.keys ++ [⟨next⟩] :=
  t.keys_alter_of_new (h.get?_eq_none (Nat.le_refl _)) rfl

/-- The table stays in order when something is kept under the next handle. -/
theorem Shelved.insert_next (h : Shelved t next) (x : α) :
    Shelved (t.insert ⟨next⟩ x) (next + 1) := by
  constructor
  · rw [h.keys_insert_next, List.pairwise_append]
    refine ⟨h.ascending, List.pairwise_singleton _ _, fun a ha b hb => ?_⟩
    rw [List.mem_singleton.1 hb]
    exact h.issued a ha
  · intro i hi
    rw [h.keys_insert_next] at hi
    rcases List.mem_append.1 hi with hi | hi
    · exact Nat.lt_succ_of_lt (h.issued i hi)
    · rw [List.mem_singleton.1 hi]
      exact Nat.lt_succ_self next

/-- The table stays in order when something else is kept under a handle. -/
theorem Shelved.insert_present (h : Shelved t next) {i : Handle kind} {y : α}
    (hi : t.get? i = some y) (x : α) : Shelved (t.insert i x) next := by
  have hkeys : (t.insert i x).keys = t.keys := t.keys_alter_of_isSome hi rfl
  exact ⟨hkeys ▸ h.ascending, hkeys ▸ h.issued⟩

/-- The table stays in order when it loses entries. -/
theorem Shelved.of_sublist (h : Shelved t next) {u : Table (Handle kind) α}
    (hu : u.entries.Sublist t.entries) : Shelved u next := by
  have hkeys : u.keys.Sublist t.keys := hu.map Prod.fst
  exact ⟨h.ascending.sublist hkeys, fun i hi => h.issued i (hkeys.subset hi)⟩

/-- The table stays in order without a handle. -/
theorem Shelved.erase (h : Shelved t next) (i : Handle kind) : Shelved (t.erase i) next :=
  h.of_sublist (t.entries_erase i ▸ List.filter_sublist)

end Shelved

/-! ## Histories -/

section Given

variable {kind : EntityKind} {α σ ω : Type}

/-- What operations keep and the handles they give out for it, one after the other. -/
def given (apply : σ → ω → σ) (handed : σ → ω → Option (Handle kind × α)) (s : σ) :
    List ω → List (Handle kind × α)
  | [] => []
  | op :: ops => (handed s op).toList ++ given apply handed (apply s op) ops

/-- An operation gives out no handle and at most loses entries, or it keeps something under the
next handle. -/
def Issues (table : σ → Table (Handle kind) α) (next : σ → Nat) (apply : σ → ω → σ)
    (handed : σ → ω → Option (Handle kind × α)) : Prop :=
  ∀ s op,
    (handed s op = none ∧ next (apply s op) = next s ∧
      (table (apply s op)).entries.Sublist (table s).entries) ∨
    ∃ x, handed s op = some (⟨next s⟩, x) ∧ next (apply s op) = next s + 1 ∧
      table (apply s op) = (table s).insert ⟨next s⟩ x

/-- What a history says about handles, where some operations drop handles. -/
structure Fresh (table : σ → Table (Handle kind) α) (apply : σ → ω → σ)
    (handed : σ → ω → Option (Handle kind × α)) (drops : ω → Handle kind → Prop) (start : σ)
    (ops : List ω) : Prop where
  /-- No handle is given out twice. -/
  nodup : ((given apply handed start ops).map Prod.fst).Nodup
  /-- The entries were all given out, and in this order. -/
  sublist : (table (ops.foldl apply start)).entries.Sublist (given apply handed start ops)
  /-- A handle that was given out and leads nowhere leads nowhere for good. -/
  lost : ∀ i ∈ (given apply handed start ops).map Prod.fst, ∀ later,
    (table (ops.foldl apply start)).get? i = none →
      (table ((ops ++ later).foldl apply start)).get? i = none
  /-- A handle that was given out and is dropped leads nowhere for good. -/
  dropped : ∀ i ∈ (given apply handed start ops).map Prod.fst, ∀ op, drops op i → ∀ later,
    (table ((ops ++ op :: later).foldl apply start)).get? i = none

variable {table : σ → Table (Handle kind) α} {next : σ → Nat} {apply : σ → ω → σ}
  {handed : σ → ω → Option (Handle kind × α)}

/-- What some operations give out comes before what later ones do. -/
theorem given_append (s : σ) (ops later : List ω) :
    given apply handed s (ops ++ later) =
      given apply handed s ops ++ given apply handed (ops.foldl apply s) later := by
  induction ops generalizing s with
  | nil => rfl
  | cons op ops ih => rw [List.cons_append, given, given, ih, List.append_assoc, List.foldl_cons]

/-- The next number goes up with every handle that is given out. -/
theorem Issues.next_foldl (h : Issues table next apply handed) (s : σ) (ops : List ω) :
    next (ops.foldl apply s) = next s + (given apply handed s ops).length := by
  induction ops generalizing s with
  | nil => rfl
  | cons op ops ih =>
    rw [List.foldl_cons, ih, given, List.length_append]
    rcases h s op with ⟨hnone, hnext, -⟩ | ⟨x, hsome, hnext, -⟩
    · simp [hnone, hnext]
    · simp only [hsome, hnext, Option.toList_some, List.length_singleton]
      omega

/-- The handles that are given out are numbered in a row. -/
theorem Issues.map_number_given (h : Issues table next apply handed) (s : σ) (ops : List ω) :
    (given apply handed s ops).map (fun e => e.1.number) =
      List.range' (next s) (given apply handed s ops).length := by
  induction ops generalizing s with
  | nil => rfl
  | cons op ops ih =>
    rw [given, List.map_append, ih, List.length_append]
    rcases h s op with ⟨hnone, hnext, -⟩ | ⟨x, hsome, hnext, -⟩
    · simp [hnone, hnext]
    · simp only [hsome, hnext, Option.toList_some, List.map_singleton, List.singleton_append,
        List.length_singleton, Nat.add_comm 1, List.range'_succ]

/-- No handle is given out twice. -/
theorem Issues.nodup_given (h : Issues table next apply handed) (s : σ) (ops : List ω) :
    ((given apply handed s ops).map Prod.fst).Nodup := by
  refine List.Nodup.of_map Handle.number ?_
  rw [List.map_map]
  change ((given apply handed s ops).map (fun e => e.1.number)).Nodup
  rw [h.map_number_given]
  exact List.nodup_range'

/-- What is given out has a number from the next one on, and that goes up beyond it. -/
theorem Issues.bounds_of_mem_given (h : Issues table next apply handed) {s : σ} {ops : List ω}
    {e : Handle kind × α} (he : e ∈ given apply handed s ops) :
    next s ≤ e.1.number ∧ e.1.number < next (ops.foldl apply s) := by
  have hmem := List.mem_map_of_mem (f := fun e => e.1.number) he
  rwa [h.map_number_given, List.mem_range'_1, ← h.next_foldl] at hmem

/-- Every operation leaves the table in the order of its handles. -/
theorem Issues.shelved (h : Issues table next apply handed) {s : σ}
    (hs : Shelved (table s) (next s)) (op : ω) :
    Shelved (table (apply s op)) (next (apply s op)) := by
  rcases h s op with ⟨-, hnext, hsub⟩ | ⟨x, -, hnext, htable⟩
  · rw [hnext]
    exact hs.of_sublist hsub
  · rw [hnext, htable]
    exact hs.insert_next x

/-- A whole history leaves the table in the order of its handles. -/
theorem Issues.shelved_foldl (h : Issues table next apply handed) {s : σ}
    (hs : Shelved (table s) (next s)) (ops : List ω) :
    Shelved (table (ops.foldl apply s)) (next (ops.foldl apply s)) := by
  induction ops generalizing s with
  | nil => exact hs
  | cons op ops ih => exact ih (h.shelved hs op)

/-- What is kept was there before or was given out since, and stands in this order. -/
theorem Issues.sublist_given (h : Issues table next apply handed) {s : σ}
    (hs : Shelved (table s) (next s)) (ops : List ω) :
    (table (ops.foldl apply s)).entries.Sublist
      ((table s).entries ++ given apply handed s ops) := by
  induction ops generalizing s with
  | nil => simp [given]
  | cons op ops ih =>
    refine (ih (h.shelved hs op)).trans ?_
    rw [given, ← List.append_assoc]
    refine List.Sublist.append_right ?_ _
    rcases h s op with ⟨hnone, -, hsub⟩ | ⟨x, hsome, -, htable⟩
    · simpa [hnone] using hsub
    · rw [htable, (table s).entries_insert_of_new x (hs.get?_eq_none (Nat.le_refl _)), hsome]
      exact List.Sublist.refl _

/-- A handle that was given out and leads nowhere leads nowhere for good. -/
theorem Issues.get?_eq_none (h : Issues table next apply handed) {start : σ}
    (hstart : Shelved (table start) (next start)) {ops : List ω} {i : Handle kind}
    (hi : i ∈ (given apply handed start ops).map Prod.fst)
    (hnone : (table (ops.foldl apply start)).get? i = none) (later : List ω) :
    (table ((ops ++ later).foldl apply start)).get? i = none := by
  obtain ⟨e, he, rfl⟩ := List.mem_map.1 hi
  rw [Table.get?_eq_none_iff] at hnone ⊢
  intro hmem
  obtain ⟨e', he', heq⟩ := List.mem_map.1 hmem
  have hshelved := h.shelved_foldl hstart ops
  rw [List.foldl_append] at he'
  -- what is there later was there before or came under a later handle
  rcases List.mem_append.1 ((h.sublist_given hshelved later).subset he') with hold | hnew
  · exact hnone (heq ▸ List.mem_map_of_mem hold)
  · have hlt := (h.bounds_of_mem_given he).2
    have hle := (h.bounds_of_mem_given hnew).1
    rw [heq] at hle
    exact Nat.not_lt.2 hle hlt

/-- From a store without entries, a history gives out every handle once and for one entry. -/
theorem Issues.fresh (h : Issues table next apply handed) {drops : ω → Handle kind → Prop}
    (hdrops : ∀ s op i, drops op i → (table (apply s op)).get? i = none) {start : σ}
    (hstart : table start = ∅) (ops : List ω) : Fresh table apply handed drops start ops := by
  have hshelved : Shelved (table start) (next start) := hstart ▸ shelved_empty _
  exact {
    nodup := h.nodup_given start ops
    sublist := by
      have hsub := h.sublist_given hshelved ops
      rwa [hstart] at hsub
    lost := fun i hi later hnone => h.get?_eq_none hshelved hi hnone later
    dropped := by
      intro i hi op hop later
      have hgiven : i ∈ (given apply handed start (ops ++ [op])).map Prod.fst := by
        rw [given_append, List.map_append]
        exact List.mem_append_left _ hi
      have hnone : (table ((ops ++ [op]).foldl apply start)).get? i = none := by
        rw [List.foldl_append]
        exact hdrops _ op i hop
      have hlater := h.get?_eq_none hshelved hgiven hnone later
      rwa [List.append_assoc] at hlater }

/-! ### Handles that stand for something -/

/-- A handle was given out for something, and no operation has dropped it since. -/
def Standing (apply : σ → ω → σ) (handed : σ → ω → Option (Handle kind × α))
    (drops : ω → Handle kind → Prop) (start : σ) (ops : List ω) (i : Handle kind) (x : α) : Prop :=
  ∃ before op after, ops = before ++ op :: after ∧
    handed (before.foldl apply start) op = some (i, x) ∧ ∀ later ∈ after, ¬drops later i

variable {drops : ω → Handle kind → Prop} {start : σ} {ops : List ω} {i : Handle kind} {x : α}

/-- What handles stand for depends only on where the operations lead. -/
theorem standing_congr {apply' : σ → ω → σ}
    (h : ∀ ops : List ω, ops.foldl apply' start = ops.foldl apply start) :
    Standing apply handed drops start ops i x ↔ Standing apply' handed drops start ops i x := by
  simp only [Standing, h]

/-- Without operations no handle was given out. -/
theorem not_standing_nil : ¬Standing apply handed drops start [] i x := by
  rintro ⟨before, op, after, heq, -⟩
  exact List.append_ne_nil_of_right_ne_nil before (List.cons_ne_nil op after) heq.symm

/-- One more operation leaves what it does not drop, and may give out one handle. -/
theorem standing_concat {op : ω} :
    Standing apply handed drops start (ops ++ [op]) i x ↔
      (Standing apply handed drops start ops i x ∧ ¬drops op i) ∨
        handed (ops.foldl apply start) op = some (i, x) := by
  constructor
  · rintro ⟨before, first, after, heq, hgiven, hlater⟩
    rcases concat_eq_append_cons_iff.1 heq with ⟨rfl, rfl, rfl⟩ | ⟨rest, rfl, rfl⟩
    · exact Or.inr hgiven
    · exact Or.inl ⟨⟨before, first, rest, rfl, hgiven,
        fun later hmem => hlater later (List.mem_append_left _ hmem)⟩, hlater op (by simp)⟩
  · rintro (⟨⟨before, first, after, rfl, hgiven, hlater⟩, hop⟩ | hgiven)
    · refine ⟨before, first, after ++ [op], by simp, hgiven, fun later hmem => ?_⟩
      rcases List.mem_append.1 hmem with hmem | hmem
      · exact hlater later hmem
      · rwa [List.mem_singleton.1 hmem]
    · exact ⟨ops, op, [], rfl, hgiven, fun _ hmem => absurd hmem List.not_mem_nil⟩

/-- After an operation a handle leads to what it led to, if that is not dropped, or to what the
operation gives it out for. -/
theorem Issues.get?_apply_eq_some_iff (h : Issues table next apply handed)
    (hdrops : ∀ s op i, drops op i → (table (apply s op)).get? i = none)
    (hkeeps : ∀ s op i x, handed s op = none → ¬drops op i → (table s).get? i = some x →
      (table (apply s op)).get? i = some x)
    {s : σ} (hs : Shelved (table s) (next s)) (op : ω) :
    (table (apply s op)).get? i = some x ↔
      ((table s).get? i = some x ∧ ¬drops op i) ∨ handed s op = some (i, x) := by
  have hstays : (table (apply s op)).get? i = some x → ¬drops op i := by
    intro hsome hop
    rw [hdrops s op i hop] at hsome
    cases hsome
  rcases h s op with ⟨hnone, -, hsub⟩ | ⟨y, hsome, -, htable⟩
  · simp only [hnone, reduceCtorEq, or_false]
    constructor
    · intro hafter
      have hbefore := hsub.subset ((Table.mem_entries_iff _).2 hafter)
      exact ⟨(Table.mem_entries_iff _).1 hbefore, hstays hafter⟩
    · rintro ⟨hbefore, hop⟩
      exact hkeeps s op i x hnone hop hbefore
  · by_cases hi : i = ⟨next s⟩
    · subst hi
      simp [htable, hsome, hs.get?_eq_none (Nat.le_refl (next s))]
    · have hi' : ⟨next s⟩ ≠ i := Ne.symm hi
      rw [htable, Table.get?_insert_of_ne _ _ hi] at hstays ⊢
      simp only [hsome, Option.some.injEq, Prod.mk.injEq, hi', false_and, or_false]
      exact ⟨fun hbefore => ⟨hbefore, hstays hbefore⟩, And.left⟩

/-- A handle leads to something exactly if it was given out for that and not dropped since. -/
theorem Issues.get?_eq_some_iff (h : Issues table next apply handed)
    (hdrops : ∀ s op i, drops op i → (table (apply s op)).get? i = none)
    (hkeeps : ∀ s op i x, handed s op = none → ¬drops op i → (table s).get? i = some x →
      (table (apply s op)).get? i = some x)
    (hstart : table start = ∅) (ops : List ω) :
    (table (ops.foldl apply start)).get? i = some x ↔
      Standing apply handed drops start ops i x := by
  have hshelved : Shelved (table start) (next start) := hstart ▸ shelved_empty _
  induction ops using List.reverseRecOn with
  | nil => simp [hstart, not_standing_nil]
  | append_singleton ops op ih =>
    rw [standing_concat, List.foldl_append, List.foldl_cons, List.foldl_nil,
      h.get?_apply_eq_some_iff hdrops hkeeps (h.shelved_foldl hshelved ops)]
    exact or_congr_left (and_congr_left' ih)

end Given

end CodeAtlas.Store
