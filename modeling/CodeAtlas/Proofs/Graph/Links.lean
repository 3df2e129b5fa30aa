import CodeAtlas.Graph.Basic
import Mathlib.Data.Finset.Card

/-!
# Links that count pairs

One direction of a call graph keeps its sources in order and, for each source, its targets with the
number of calls. The invariant `Counts` says which list of pairs the links stand for: the weight of
an edge is the number of occurrences of its pair, and nothing is left behind by pairs that are gone.
One pair more and one pair less keep it, and everything that can be asked of the links follows from
it.

Main results:

- Theorems `Counts.add` and `Counts.remove`: adding and removing follow the list of pairs.
- Theorems `Counts.mem_targets_iff` and `Counts.mem_sources_iff`: sources and targets are those of
  the pairs.
- Theorem `Counts.edgeCount_eq`: the edges are the different pairs.
-/

namespace CodeAtlas.Graph.Links

variable {l : Links} {pairs : List (String × String)} {a b : String}

/-- No source is left without targets and no edge without calls. -/
def Tight (l : Links) : Prop :=
  ∀ e ∈ l.edges.entries, e.2.entries ≠ [] ∧ ∀ x ∈ e.2.entries, 0 < x.2

/-- The links stand for some pairs of sources and targets. -/
structure Counts (l : Links) (pairs : List (String × String)) : Prop where
  weight_eq : ∀ a b, l.weight a b = pairs.count (a, b)
  tight : l.Tight

/-- Tight links, said of what is stored under a source. -/
theorem tight_iff :
    l.Tight ↔ ∀ a ts, l.edges.get? a = some ts →
      (∃ b n, ts.get? b = some n) ∧ ∀ b n, ts.get? b = some n → 0 < n := by
  constructor
  · intro h a ts hts
    obtain ⟨hne, hpos⟩ := h (a, ts) ((Table.mem_entries_iff _).2 hts)
    obtain ⟨x, hx⟩ := List.exists_mem_of_ne_nil _ hne
    exact ⟨⟨x.1, x.2, (Table.mem_entries_iff ts).1 hx⟩,
      fun b n hn => hpos (b, n) ((Table.mem_entries_iff ts).2 hn)⟩
  · intro h e he
    obtain ⟨⟨b, n, hb⟩, hpos⟩ := h e.1 e.2 ((Table.mem_entries_iff _).1 he)
    exact ⟨List.ne_nil_of_mem ((Table.mem_entries_iff e.2).2 hb),
      fun x hx => hpos x.1 x.2 ((Table.mem_entries_iff e.2).1 hx)⟩

theorem pos_of_increment {o : Option Nat} {n : Nat} (h : increment o = some n) : 0 < n := by
  cases o with
  | none =>
    obtain rfl := Option.some.inj h
    exact Nat.one_pos
  | some m =>
    obtain rfl := Option.some.inj h
    exact Nat.succ_pos m

theorem pos_of_decrement {o : Option Nat} {n : Nat} (h : decrement o = some n) : 0 < n := by
  cases o with
  | none => contradiction
  | some m =>
    rw [decrement] at h
    split at h
    · contradiction
    · obtain rfl := Option.some.inj h
      omega

/-- If a change of the calls of one target leaves some then all targets still have calls. -/
theorem pos_of_alter {ts : Table String Nat} {f : Option Nat → Option Nat}
    (hts : ∀ d n, ts.get? d = some n → 0 < n) (hf : ∀ {o n}, f o = some n → 0 < n) (b : String) :
    ∀ d n, (ts.alter b f).get? d = some n → 0 < n := by
  intro d n hn
  by_cases hd : d = b
  · subst hd
    rw [Table.get?_alter_self] at hn
    exact hf hn
  · rw [Table.get?_alter_of_ne _ _ hd] at hn
    exact hts d n hn

/-- One call more leaves the links tight. -/
theorem Tight.add (h : l.Tight) (a b : String) : (l.add a b).Tight := by
  rw [tight_iff] at h ⊢
  intro c ts hts
  rw [get?_edges_add] at hts
  by_cases hc : c = a
  · rw [if_pos hc] at hts
    obtain rfl := Option.some.inj hts
    constructor
    · refine ⟨b, ?_⟩
      rw [Table.get?_alter_self]
      cases ((l.edges.get? a).getD ∅).get? b with
      | none => exact ⟨1, rfl⟩
      | some n => exact ⟨n + 1, rfl⟩
    · refine pos_of_alter ?_ pos_of_increment b
      intro d n hn
      cases hold : l.edges.get? a with
      | none =>
        rw [hold] at hn
        simp at hn
      | some us =>
        rw [hold] at hn
        exact (h a us hold).2 d n hn
  · rw [if_neg hc] at hts
    exact h c ts hts

/-- One call less leaves the links tight. -/
theorem Tight.remove (h : l.Tight) (a b : String) : (l.remove a b).Tight := by
  rcases l.remove_cases a b with ⟨-, hremove⟩ | ⟨us, hus, ⟨-, hremove⟩ | ⟨hleft, hremove⟩⟩
  · rwa [hremove]
  · rw [hremove, tight_iff]
    rw [tight_iff] at h
    intro c ts hts
    by_cases hc : c = a
    · subst hc
      simp [dropSource] at hts
    · simp only [dropSource, Table.get?_erase_of_ne _ hc] at hts
      exact h c ts hts
  · rw [hremove, tight_iff]
    rw [tight_iff] at h
    intro c ts hts
    by_cases hc : c = a
    · subst hc
      simp only [modify, Table.get?_alter_self, hus, Option.map_some, Option.some.injEq] at hts
      subst hts
      constructor
      · have hne : (us.alter b decrement).entries ≠ [] := by simpa [Table.isEmpty] using hleft
        obtain ⟨x, hx⟩ := List.exists_mem_of_ne_nil _ hne
        exact ⟨x.1, x.2, (Table.mem_entries_iff _).1 hx⟩
      · exact pos_of_alter (h c us hus).2 pos_of_decrement b
    · simp only [modify, Table.get?_alter_of_ne _ _ hc] at hts
      exact h c ts hts

/-- Without calls there are no links. -/
theorem counts_nil : Counts {} [] :=
  ⟨fun _ _ => rfl, fun _ he => absurd he List.not_mem_nil⟩

/-- The order of the pairs does not matter. -/
theorem Counts.perm (h : l.Counts pairs) {pairs' : List (String × String)}
    (hperm : pairs.Perm pairs') : l.Counts pairs' :=
  ⟨fun a b => (h.weight_eq a b).trans (hperm.count_eq (a, b)), h.tight⟩

/-- One pair more counts for itself only. -/
theorem count_cons_pair (pairs : List (String × String)) (a b c d : String) :
    ((a, b) :: pairs).count (c, d) =
      pairs.count (c, d) + (if c = a ∧ d = b then 1 else 0) := by
  rw [List.count_cons]
  by_cases heq : c = a ∧ d = b
  · obtain ⟨rfl, rfl⟩ := heq
    simp
  · have hne : ¬ (a = c ∧ b = d) := fun hcd => heq ⟨hcd.1.symm, hcd.2.symm⟩
    simp [heq, hne]

/-- One call more is one pair more. -/
theorem Counts.add (h : l.Counts pairs) (a b : String) : (l.add a b).Counts ((a, b) :: pairs) := by
  refine ⟨?_, h.tight.add a b⟩
  intro c d
  rw [weight_add, h.weight_eq, count_cons_pair]

/-- One call less is one pair less. -/
theorem Counts.remove (h : l.Counts ((a, b) :: pairs)) : (l.remove a b).Counts pairs := by
  refine ⟨?_, h.tight.remove a b⟩
  intro c d
  rw [weight_remove, h.weight_eq, count_cons_pair, Nat.add_sub_cancel]

/-! ## What the links answer -/

/-- An edge is there as long as it has calls. -/
theorem Tight.exists_weight?_iff (h : l.Tight) :
    (∃ n, l.weight? a b = some n) ↔ 0 < l.weight a b := by
  unfold weight
  constructor
  · rintro ⟨n, hn⟩
    obtain ⟨ts, hts, hb⟩ := Option.bind_eq_some_iff.1 hn
    rw [hn]
    exact (tight_iff.1 h a ts hts).2 b n hb
  · intro hpos
    cases hw : l.weight? a b with
    | none => simp [hw] at hpos
    | some n => exact ⟨n, rfl⟩

/-- The targets of a source are what it has calls to. -/
theorem Tight.mem_targets_iff (h : l.Tight) : b ∈ l.targets a ↔ 0 < l.weight a b := by
  rw [Links.mem_targets_iff, h.exists_weight?_iff]

/-- The sources are what has calls to something. -/
theorem Tight.mem_sources_iff (h : l.Tight) : a ∈ l.sources ↔ ∃ b, 0 < l.weight a b := by
  constructor
  · intro ha
    obtain ⟨ts, hts⟩ := l.mem_sources_iff.1 ha
    obtain ⟨⟨b, n, hb⟩, -⟩ := tight_iff.1 h a ts hts
    refine ⟨b, h.mem_targets_iff.1 (l.mem_targets_iff.2 ⟨n, ?_⟩)⟩
    rw [weight?, hts]
    exact hb
  · rintro ⟨b, hb⟩
    exact l.mem_sources_of_mem_targets (h.mem_targets_iff.2 hb)

/-- The targets of a source are those of its pairs. -/
theorem Counts.mem_targets_iff (h : l.Counts pairs) : b ∈ l.targets a ↔ (a, b) ∈ pairs := by
  rw [h.tight.mem_targets_iff, h.weight_eq, List.count_pos_iff]

/-- The sources are those of the pairs. -/
theorem Counts.mem_sources_iff (h : l.Counts pairs) : a ∈ l.sources ↔ ∃ b, (a, b) ∈ pairs := by
  simp only [h.tight.mem_sources_iff, h.weight_eq, List.count_pos_iff]

/-- A snapshot lists each source with its targets. -/
theorem mem_snapshot_iff {bs : List String} :
    (a, bs) ∈ l.snapshot ↔ a ∈ l.sources ∧ l.targets a = bs := by
  rw [snapshot, List.mem_map]
  constructor
  · rintro ⟨c, hc, heq⟩
    obtain ⟨rfl, hbs⟩ := Prod.mk.inj heq
    exact ⟨hc, hbs⟩
  · rintro ⟨ha, rfl⟩
    exact ⟨a, ha, rfl⟩

/-- The edges, each one as the pair of its source and its target. -/
def edgePairs (l : Links) : List (String × String) :=
  l.edges.entries.flatMap (fun e => e.2.keys.map (fun b => (e.1, b)))

theorem mem_edgePairs_iff : (a, b) ∈ l.edgePairs ↔ b ∈ l.targets a := by
  unfold targets
  constructor
  · intro h
    obtain ⟨e, he, hab⟩ := List.mem_flatMap.1 h
    obtain ⟨c, hc, heq⟩ := List.mem_map.1 hab
    obtain ⟨rfl, rfl⟩ := Prod.mk.inj heq
    rw [l.edges.mem_entries_iff.1 he]
    exact hc
  · intro h
    split at h
    · contradiction
    · next ts hts =>
      exact List.mem_flatMap.2 ⟨(a, ts), l.edges.mem_entries_iff.2 hts, List.mem_map.2 ⟨b, h, rfl⟩⟩

theorem length_edgePairs (l : Links) : l.edgePairs.length = l.edgeCount := by
  unfold edgePairs edgeCount Table.values
  induction l.edges.entries with
  | nil => rfl
  | cons e rest ih =>
    rw [List.flatMap_cons, List.length_append, List.length_map, ih]
    simp [Table.keys, Table.size]

/-- No edge is listed twice. -/
theorem nodup_edgePairs (l : Links) : l.edgePairs.Nodup := by
  refine List.nodup_flatMap.2 ⟨?_, ?_⟩
  · intro e _
    exact e.2.nodup_keys.map (fun b c heq => (Prod.mk.inj heq).2)
  · refine (List.pairwise_map.1 l.edges.nodup_keys).imp ?_
    intro e e' hne x hx hx'
    obtain ⟨b, -, rfl⟩ := List.mem_map.1 hx
    obtain ⟨c, -, heq⟩ := List.mem_map.1 hx'
    exact hne (Prod.mk.inj heq).1.symm

/-- The edges are the different pairs. -/
theorem Counts.edgeCount_eq (h : l.Counts pairs) : l.edgeCount = pairs.toFinset.card := by
  have hset : l.edgePairs.toFinset = pairs.toFinset := by
    ext ⟨a, b⟩
    rw [List.mem_toFinset, List.mem_toFinset, mem_edgePairs_iff, h.mem_targets_iff]
  rw [← length_edgePairs, ← hset, List.toFinset_card_of_nodup l.nodup_edgePairs]

end CodeAtlas.Graph.Links
